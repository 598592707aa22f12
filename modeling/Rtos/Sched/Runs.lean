import Rtos.Core.LTS
import Rtos.Sched.Refine

/-!
# Runs of calls, with their history

`Hist` records what the calls of a run have done that the kernel itself does
not store: the ids handed out, the tasks created and not deleted, the slots
whose task was deleted, the ticks a delay has left. `apiSys` is the system of
all functions of the two headers, `appSys` that of the calls an application
makes, `properSys` its runs of proper calls.

`proper_inductive`: every state of a proper run refines queues that satisfy
the invariant `Abs.Wf`, and `proper_returns`: every proper call returns.
-/
namespace Rtos.Sched

open Rtos.Core

structure Hist where
  /-- ids stored through `task_create`'s `task_id` -/
  issued : List UInt32
  /-- tasks created and not deleted since: the slot filled and the id returned
  (the one given, if none was asked for) -/
  live : List (TaskPtr × UInt32)
  /-- slots whose task was deleted and that were not filled since -/
  dead : List TaskPtr
  /-- ticks left of the last delay of the task in a slot -/
  due : TaskPtr → Option Nat
  /-- `task_create` calls that succeeded -/
  created : Nat
  /-- `scheduler_start` calls -/
  starts : Nat

def Hist.boot : Hist := ⟨[], [], [], fun _ => none, 0, 0⟩

/-- The history after the call `c` was made in state `k` and returned `r`. -/
def Hist.afterCall (h : Hist) (k : Kernel) (r : Ret) : Call → Hist
  | .taskCreate .. => match r.status, findFreeTcb k with
    | some .ok, some t =>
      { h with issued := r.taskId.toList ++ h.issued, live := (t, r.taskId.getD k.nextTaskId) :: h.live,
               dead := h.dead.filter (· ≠ t), due := Function.update h.due t none,
               created := h.created + 1 }
    | _, _ => h
  | .taskDelete id => match r.status, taskGetTcb k id with
    | some .ok, some t => { h with live := h.live.filter (· ≠ (t, id)), dead := t :: h.dead }
    | _, _ => h
  | .taskDelay ticks => match k.currentTask with
    | some c => if ticks > 0 then { h with due := Function.update h.due c (some ticks.toNat) } else h
    | none => h
  | .schedulerTick => { h with due := fun t => (h.due t).map (· - 1) }
  | .schedulerStart => { h with starts := h.starts + 1 }
  | .taskSuspend _ | .taskResume _ | .taskYield | .schedulerYield => h

/-- The same for all functions: `task_init` forgets the tasks. -/
def Hist.after (h : Hist) (k : Kernel) (r : Ret) : ApiCall → Hist
  | .app c => h.afterCall k r c
  | .taskInit => { Hist.boot with starts := h.starts }
  | .schedulerInit | .schedulerAddTask _ | .schedulerRemoveTask _ => h

theorem after_create_failed {h : Hist} {k : Kernel} {r : Ret} (hr : r.status ≠ some .ok)
    (f : Option UInt32) (name : Option (List Char)) (p : UInt8) (params : UInt32) (w : Bool) :
    h.after k r (.app (.taskCreate f name p params w)) = h := by
  simp only [Hist.after, Hist.afterCall]
  split
  · rename_i h1 _; exact absurd h1 hr
  · rfl

theorem after_create_ok {h : Hist} {k : Kernel} {t : TaskPtr} (hf : findFreeTcb k = some t)
    (id : Option UInt32) (f : Option UInt32) (name : Option (List Char)) (p : UInt8)
    (params : UInt32) (w : Bool) :
    h.after k ⟨some .ok, id⟩ (.app (.taskCreate f name p params w)) =
      { h with issued := id.toList ++ h.issued, live := (t, id.getD k.nextTaskId) :: h.live,
               dead := h.dead.filter (· ≠ t), due := Function.update h.due t none,
               created := h.created + 1 } := by
  simp only [Hist.after, Hist.afterCall, hf]

/-- A delay enters the history in `due` only. -/
theorem after_delay (h : Hist) (k : Kernel) (r : Ret) (ticks : UInt32) :
    ∃ due, h.after k r (.app (.taskDelay ticks)) = { h with due := due } := by
  simp only [Hist.after, Hist.afterCall]
  split
  · split
    · exact ⟨_, rfl⟩
    · exact ⟨h.due, rfl⟩
  · exact ⟨h.due, rfl⟩

theorem after_delete_failed {h : Hist} {k : Kernel} {r : Ret} (hr : r.status ≠ some .ok) (id : UInt32) :
    h.after k r (.app (.taskDelete id)) = h := by
  simp only [Hist.after, Hist.afterCall]
  split
  · rename_i h1 _; exact absurd h1 hr
  · rfl

theorem after_delete_ok {h : Hist} {k : Kernel} {id : UInt32} {t : TaskPtr}
    (hf : taskGetTcb k id = some t) (o : Option UInt32) :
    h.after k ⟨some .ok, o⟩ (.app (.taskDelete id)) =
      { h with live := h.live.filter (· ≠ (t, id)), dead := t :: h.dead } := by
  simp only [Hist.after, Hist.afterCall, hf]

structure Sys where
  k : Kernel
  h : Hist

def Sys.boot : Sys := ⟨Kernel.boot, Hist.boot⟩

def apiSys : LTS Sys ApiCall :=
  LTS.ofFn (· = Sys.boot) fun s c => (apiCall s.k c).map fun (k, r) => ⟨k, s.h.after s.k r c⟩

def appSys : LTS Sys Call := ⟨apiSys.init, fun s c s' => apiSys.step s (.app c) s'⟩

theorem appSys_step {s s' : Sys} {c : Call} :
    appSys.step s c s' ↔ ∃ k r, call s.k c = some (k, r) ∧ s' = ⟨k, s.h.after s.k r (.app c)⟩ := by
  simp only [appSys, apiSys, LTS.ofFn, apiCall, Option.map_eq_some_iff]
  constructor
  · intro hi
    obtain ⟨⟨k, r⟩, h1, rfl⟩ := hi
    exact ⟨k, r, h1, rfl⟩
  · intro hi
    obtain ⟨k, r, h1, rfl⟩ := hi
    exact ⟨(k, r), h1, rfl⟩

theorem step_of_call {s : Sys} {c : Call} {k : Kernel} {r : Ret} (e : call s.k c = some (k, r)) :
    ∃ s', appSys.step s c s' ∧ s'.k = k ∧ s'.h = s.h.after s.k r (.app c) :=
  ⟨_, appSys_step.2 ⟨k, r, e, rfl⟩, rfl, rfl⟩

/-- An application's runs are runs of the two headers' functions. -/
theorem api_run {G : Sys → ApiCall → Prop} {s s' : Sys} {cs : List Call}
    (h : (appSys.restrict fun s c => G s (.app c)).Run s cs s') :
    (apiSys.restrict G).Run s (cs.map .app) s' := by
  induction h with
  | nil s => exact .nil s
  | cons hs _ ih => exact .cons hs ih

/-! ## Computing runs -/

/-- One call, made only if `G` allows it. -/
def guarded (G : Sys → Call → Prop) [∀ s c, Decidable (G s c)] (s : Sys) (c : Call) : Option Sys :=
  if G s c then (call s.k c).map fun (k, r) => ⟨k, s.h.after s.k r (.app c)⟩ else none

theorem step_of_guarded {G : Sys → Call → Prop} [∀ s c, Decidable (G s c)] (s : Sys) (c : Call)
    (s' : Sys) (h : guarded G s c = some s') : (appSys.restrict G).step s c s' := by
  unfold guarded at h
  split at h
  · rename_i hG
    obtain ⟨⟨k, r⟩, h1, rfl⟩ := Option.map_eq_some_iff.1 h
    exact ⟨hG, appSys_step.2 ⟨k, r, h1, rfl⟩⟩
  · cases h

/-- What is computed of the state at the end of a run holds of a reachable one. -/
theorem reachable_of_exec {G : Sys → Call → Prop} [∀ s c, Decidable (G s c)] (P : Sys → Prop)
    [DecidablePred P] (cs : List Call) (h : (LTS.exec (guarded G) Sys.boot cs).any (P ·) = true) :
    ∃ s, (appSys.restrict G).Run Sys.boot cs s ∧ (appSys.restrict G).Reachable s ∧ P s :=
  LTS.reachable_of_exec step_of_guarded rfl P cs h

/-! ## Proper runs -/

/-- `Abs.Proper` on the kernel's variables. -/
def Proper (s : Sys) : Call → Prop
  | .taskCreate .. => s.k.nextTaskId ≠ 0
  | .taskResume id => ∀ t, taskGetTcb s.k id = some t → s.k.state t = .suspended → s.k.taskId t ≠ 0
  | _ => True

instance (s : Sys) : (c : Call) → Decidable (Proper s c)
  | .taskCreate .. => inferInstanceAs (Decidable (_ ≠ _))
  | .taskResume _ => inferInstanceAs (Decidable (∀ _, _ → _ → _ ≠ _))
  | .taskDelete _ | .taskSuspend _ | .taskDelay _ | .taskYield | .schedulerYield | .schedulerTick
  | .schedulerStart => inferInstanceAs (Decidable True)

def properSys : LTS Sys Call := appSys.restrict Proper

theorem proper_refines {s : Sys} {a : Abs} (h : Refines s.k a) {c : Call} (hc : Proper s c) :
    a.Proper c := by
  cases c with
  | taskCreate => rwa [Abs.Proper, ← h.nextTaskId]
  | taskResume id =>
    intro t hf hs
    rw [← h.taskId]
    exact hc t ((find_refines h id).trans hf) (by rw [h.state, hs])
  | _ => trivial

/-- The kernel's lists are queues that satisfy the invariant. -/
def Coherent (k : Kernel) : Prop := ∃ a, Refines k a ∧ a.Wf none

/-- A proper step is the call's effect on the queues. -/
theorem step_refines {s s' : Sys} {a : Abs} {c : Call} (h : Refines s.k a) (hw : a.Wf none)
    (hc : Proper s c) (hs : appSys.step s c s') :
    Refines s'.k (a.call c) ∧ (a.call c).Wf none ∧ s'.h = s.h.after s.k (a.ret c) (.app c) := by
  obtain ⟨k, r, e, rfl⟩ := appSys_step.1 hs
  obtain ⟨k', e', h'⟩ := call_refines h hw.waits (proper_refines h hc) (hw.spares c)
  obtain ⟨rfl, rfl⟩ : k' = k ∧ a.ret c = r := by simpa using e'.symm.trans e
  exact ⟨h', Abs.wf_call hw (proper_refines h hc), rfl⟩

/-- No loop of a proper call runs on for ever. -/
theorem proper_returns {s : Sys} (h : Coherent s.k) {c : Call} (hc : Proper s c) :
    ∃ s', properSys.step s c s' := by
  obtain ⟨a, hr, hw⟩ := h
  obtain ⟨k', e, -⟩ := call_refines hr hw.waits (proper_refines hr hc) (hw.spares c)
  exact ⟨_, hc, appSys_step.2 ⟨k', _, e, rfl⟩⟩

theorem proper_inductive : properSys.Inductive fun s => Coherent s.k where
  init := by intro s e; subst e; exact ⟨Abs.boot, boot_refines, Abs.wf_boot⟩
  step := by
    intro s c s' hi hj
    obtain ⟨a, hr, hw⟩ := hi
    obtain ⟨hc, hs⟩ := hj
    obtain ⟨h1, h2, -⟩ := step_refines hr hw hc hs
    exact ⟨a.call c, h1, h2⟩

theorem proper_coherent {s : Sys} (h : properSys.Reachable s) : Coherent s.k :=
  proper_inductive.reachable s h

end Rtos.Sched
