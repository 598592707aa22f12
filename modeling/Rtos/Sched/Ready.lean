import Rtos.Sched.Runs

/-!
# Ready-list coherence

The runs here are those of an application that only names ids `task_create`
gave it, creates fewer than 2^32 - 1 tasks and starts the scheduler at most
once (`Regular`). They are proper (`regular_proper`), so the lists are
queues satisfying `Abs.Wf`; a single start adds that a RUNNING task is the
current one (`Abs.Owned`).

`ready_lists_coherent`: in every state of such a run each ready list holds
exactly the READY tasks of its priority, once each, and a RUNNING task is
`current_tcb` and waits in no list.
-/
namespace Rtos.Sched

open Rtos.Core

namespace Abs

/-- No task is RUNNING. -/
def Quiet (a : Abs) : Prop := ∀ t, a.state t ≠ .running

/-- A RUNNING task is the current one. -/
def Owned (a : Abs) : Prop := ∀ t, a.state t = .running → a.current = some t

variable {a : Abs}

theorem Quiet.owned (h : a.Quiet) : a.Owned := fun t ht => absurd ht (h t)

theorem quiet_setState (h : a.Quiet) (t : TaskPtr) {s : TaskState} (hs : s ≠ .running) :
    (a.setState t s).Quiet := by
  intro u
  by_cases hu : u = t
  · subst hu; simpa [setState] using hs
  · simpa [setState, hu] using h u

theorem owned_setState (h : a.Owned) (t : TaskPtr) {s : TaskState} (hs : s ≠ .running) :
    (a.setState t s).Owned := by
  intro u hu
  by_cases hut : u = t
  · subst hut; exact absurd (by simpa [setState] using hu) hs
  · exact h u (by simpa [setState, hut] using hu)

theorem quiet_rotate (h : a.Quiet) : a.rotate.Quiet := by
  unfold rotate
  split
  · exact h
  · split
    · exact quiet_setState h _ (by simp)
    · exact h

theorem owned_dispatch (h : a.Quiet) (n : TaskPtr) : (a.dispatch n).Owned := by
  intro t ht
  by_cases htn : t = n
  · rw [htn]; rfl
  · exact absurd (by simpa [dispatch, setState, dequeue, htn] using ht) (h t)

theorem owned_schedule (h : a.Quiet) : a.schedule.Owned := by
  unfold schedule
  split
  · exact h.owned
  · split
    · exact owned_dispatch (quiet_rotate h) _
    · exact h.owned

/-- Only the current task can be RUNNING, and it is queued as READY. -/
theorem quiet_requeue (h : a.Owned) : a.requeue.Quiet := by
  intro t
  unfold requeue
  cases hc : a.current with
  | none => exact fun ht => by simpa [hc] using h t ht
  | some c =>
    by_cases hs : a.state c = .running
    · simp only [hs, if_true, enqueue]
      by_cases htc : t = c
      · simp [htc]
      · intro ht
        have := h t (by simpa [htc] using ht)
        exact htc (Option.some.inj (this.symm.trans hc))
    · simp only [hs, if_false]
      intro ht
      have := h t ht
      exact hs (by rwa [Option.some.inj (hc.symm.trans this)])

theorem owned_yield (h : a.Owned) : a.yield.Owned := by
  unfold yield
  split
  · exact h
  · exact owned_schedule (quiet_requeue h)

theorem owned_stop (h : a.Owned) (t : TaskPtr) {s : TaskState} (hs : s ≠ .running) :
    ((a.dequeue t).setState t s).Owned :=
  owned_setState (a := a.dequeue t) h t hs

theorem owned_yieldIf (h : a.Owned) (t : TaskPtr) : (a.yieldIf t).Owned := by
  unfold yieldIf
  split
  · exact owned_yield h
  · exact h

theorem owned_enqueue (h : a.Owned) (t : TaskPtr) : (a.enqueue t).Owned :=
  owned_setState h t (by simp)

/-- Before the scheduler is started nothing runs. -/
theorem owned_call (hw : a.Wf none) (h : a.Owned) {c : Call}
    (hstart : c = .schedulerStart → a.current = none) : (a.call c).Owned := by
  have he := a.call_effect c
  generalize a.call c = b at he ⊢
  cases he with
  | refused => exact h
  | @create _ _ _ _ _ t _ _ =>
    intro u hu
    by_cases hut : u = t
    · subst hut; simp [enqueue] at hu
    · exact h u (by simpa [enqueue, fill, hut] using hu)
  | delete | suspend => exact owned_yieldIf (owned_stop h _ (by simp)) _
  | resume => exact owned_enqueue h _
  | delay => exact owned_yield (owned_stop (a := { a with wakeTime := _ }) h _ (by simp))
  | yield => exact owned_yield h
  | tick =>
    rw [onTick_eq hw]
    split
    · exact owned_yield (a := { a with tick := _ }) h
    · exact h
  | start =>
    have hq : Quiet { a with running := true } := fun t ht => by
      have := h t ht
      rw [hstart rfl] at this
      cases this
    exact owned_schedule hq

end Abs

/-! ## Regular runs -/

/-- Ids from earlier `task_create` calls, fewer than 2^32 - 1 tasks created,
one start. -/
def Regular (s : Sys) : Call → Prop
  | .taskCreate .. => s.h.created + 1 < 2 ^ 32 - 1
  | .taskDelete id => id ∈ s.h.issued
  | .taskSuspend id => id ∈ s.h.issued
  | .taskResume id => id ∈ s.h.issued
  | .schedulerStart => s.h.starts = 0
  | _ => True

instance (s : Sys) : (c : Call) → Decidable (Regular s c)
  | .taskCreate .. => inferInstanceAs (Decidable (_ < _))
  | .taskDelete _ | .taskSuspend _ | .taskResume _ => inferInstanceAs (Decidable (_ ∈ _))
  | .schedulerStart => inferInstanceAs (Decidable (_ = _))
  | .taskDelay _ | .taskYield | .schedulerYield | .schedulerTick => inferInstanceAs (Decidable True)

def regularSys : LTS Sys Call := appSys.restrict Regular

structure RegularInv (s : Sys) (a : Abs) : Prop where
  refines : Refines s.k a
  wf : a.Wf none
  owned : a.Owned
  counter : a.nextTaskId.toNat = s.h.created + 1
  issued : ∀ id ∈ s.h.issued, id ≠ 0
  idle : s.h.starts = 0 → a.running = false

variable {s s' : Sys} {a : Abs} {c : Call}

theorem RegularInv.proper (h : RegularInv s a) (hc : Regular s c) : Proper s c := by
  cases c with
  | taskCreate =>
    intro h0
    have := h.counter
    rw [← h.refines.nextTaskId, h0] at this
    simp at this
  | taskResume id =>
    intro t hf _
    rw [(tcb_spec hf).1]
    exact h.issued id hc
  | _ => trivial

/-- The counter runs one ahead of the tasks created. -/
theorem regular_counter (h : RegularInv s a) (hc : Regular s c) :
    (a.call c).nextTaskId.toNat = (s.h.after s.k (a.ret c) (.app c)).created + 1 := by
  cases c with
  | taskCreate f name p params w =>
    rcases a.create_cases f name p params w with ⟨e, hr⟩ | ⟨t, hf, -, e, hr⟩
    · rw [e, after_create_failed hr, h.counter]
    · have hf' := (free_refines h.refines).trans hf
      have hc : s.h.created + 1 < 2 ^ 32 - 1 := hc
      rw [e, hr, after_create_ok hf']
      simp only [Abs.enqueue, Abs.fill, UInt32.toNat_add, UInt32.toNat_one, h.counter]
      omega
  | schedulerStart => exact (congrArg _ (Abs.schedule_reorders _).nextTaskId).trans h.counter
  | taskDelete id =>
    rw [(Abs.call_frame h.wf (by simp) (by simp)).nextTaskId, h.counter]
    rcases a.delete_cases id with ⟨-, -, e⟩ | ⟨t, hf, -, e⟩
    · rw [e, after_delete_failed (by simp)]
    · rw [e, after_delete_ok ((find_refines h.refines id).trans hf)]
  | taskDelay ticks =>
    rw [(Abs.call_frame h.wf (by simp) (by simp)).nextTaskId, h.counter]
    obtain ⟨due, e⟩ := after_delay s.h s.k (a.ret (.taskDelay ticks)) ticks
    rw [e]
  | _ => rw [(Abs.call_frame h.wf (by simp) (by simp)).nextTaskId, h.counter]; rfl

/-- Every id handed out was read off a counter that had not come round. -/
theorem regular_issued (h : RegularInv s a) (hc : Regular s c) :
    ∀ id ∈ (s.h.after s.k (a.ret c) (.app c)).issued, id ≠ 0 := by
  cases c with
  | taskCreate f name p params w =>
    rcases a.create_cases f name p params w with ⟨-, hr⟩ | ⟨t, hf, -, -, hr⟩
    · rw [after_create_failed hr]; exact h.issued
    · have hn : a.nextTaskId ≠ 0 := by
        rw [← h.refines.nextTaskId]; exact h.proper hc
      rw [hr, after_create_ok ((free_refines h.refines).trans hf)]
      intro id hid
      rcases List.mem_append.1 hid with hid | hid
      · cases w <;> simp at hid
        rwa [hid]
      · exact h.issued id hid
  | taskDelete id =>
    rcases a.delete_cases id with ⟨-, -, e⟩ | ⟨t, hf, -, e⟩
    · rw [e, after_delete_failed (by simp)]; exact h.issued
    · rw [e, after_delete_ok ((find_refines h.refines id).trans hf)]; exact h.issued
  | taskDelay ticks =>
    obtain ⟨due, e⟩ := after_delay s.h s.k (a.ret (.taskDelay ticks)) ticks
    rw [e]
    exact h.issued
  | _ => exact h.issued

/-- Until a `scheduler_start` the scheduler does not run. -/
theorem regular_idle (h : RegularInv s a) :
    (s.h.after s.k (a.ret c) (.app c)).starts = 0 → (a.call c).running = false := by
  cases c with
  | taskCreate f name p params w =>
    rcases a.create_cases f name p params w with ⟨e, hr⟩ | ⟨t, hf, -, e, hr⟩
    · rw [e, after_create_failed hr]; exact h.idle
    · rw [e, hr, after_create_ok ((free_refines h.refines).trans hf)]; exact h.idle
  | schedulerStart => exact fun h0 => absurd h0 (Nat.succ_ne_zero _)
  | taskDelete id =>
    rw [(Abs.call_frame h.wf (by simp) (by simp)).running]
    rcases a.delete_cases id with ⟨-, -, e⟩ | ⟨t, hf, -, e⟩
    · rw [e, after_delete_failed (by simp)]; exact h.idle
    · rw [e, after_delete_ok ((find_refines h.refines id).trans hf)]; exact h.idle
  | taskDelay ticks =>
    rw [(Abs.call_frame h.wf (by simp) (by simp)).running]
    obtain ⟨due, e⟩ := after_delay s.h s.k (a.ret (.taskDelay ticks)) ticks
    rw [e]
    exact h.idle
  | _ => rw [(Abs.call_frame h.wf (by simp) (by simp)).running]; exact h.idle

theorem RegularInv.no_owner (h : RegularInv s a) (hc : Regular s .schedulerStart) :
    a.current = none := by
  by_contra hne
  have := h.wf.started hne
  rw [h.idle hc] at this
  cases this

theorem regular_step (h : RegularInv s a) (hc : Regular s c) (hs : appSys.step s c s') :
    RegularInv s' (a.call c) := by
  obtain ⟨hr, hw, hh⟩ := step_refines h.refines h.wf (h.proper hc) hs
  have hstart : c = .schedulerStart → a.current = none := by
    intro e
    subst e
    exact h.no_owner hc
  exact ⟨hr, hw, Abs.owned_call h.wf h.owned hstart, hh ▸ regular_counter h hc,
    hh ▸ regular_issued h hc, hh ▸ regular_idle h⟩

theorem regular_boot : RegularInv Sys.boot Abs.boot :=
  ⟨boot_refines, Abs.wf_boot, Abs.Quiet.owned (fun _ => by simp [Abs.boot]), rfl,
    by simp [Sys.boot, Hist.boot], fun _ => rfl⟩

theorem regular_inductive : regularSys.Inductive fun s => ∃ a, RegularInv s a where
  init := by intro s e; subst e; exact ⟨_, regular_boot⟩
  step := by
    intro s c s' hi hj
    obtain ⟨a, h⟩ := hi
    exact ⟨_, regular_step h hj.1 hj.2⟩

/-- Every call of a regular run returns. -/
theorem regular_returns {s : Sys} (h : regularSys.Reachable s) {c : Call} (hc : Regular s c) :
    ∃ s', regularSys.step s c s' := by
  obtain ⟨a, ha⟩ := regular_inductive.reachable s h
  obtain ⟨s', -, hs⟩ := proper_returns ⟨a, ha.refines, ha.wf⟩ (ha.proper hc)
  exact ⟨s', hc, hs⟩

/-! ## The lists in the pool -/

/-- Each ready list is a NULL-terminated list, without repetition, of the
READY tasks of its priority; a RUNNING task is `current_tcb` and in no list. -/
structure ReadyCoherent (k : Kernel) : Prop where
  ready : ∀ p < NUM_PRIORITY_LEVELS, ∃ l, Chain k.next (k.readyLists p) l ∧ l.Nodup ∧
    ∀ t, t ∈ l ↔ k.taskId t ≠ 0 ∧ k.state t = .ready ∧ (k.priority t).toNat = p
  running : ∀ t, k.state t = .running →
    k.currentTcb = some t ∧ ∀ p < NUM_PRIORITY_LEVELS, ¬ Linked k.next t (k.readyLists p)

/-- **No runnable task is lost or queued twice**: every state of a regular run
has coherent ready lists. -/
theorem ready_lists_coherent (s : Sys) (h : regularSys.Reachable s) : ReadyCoherent s.k := by
  obtain ⟨a, ha⟩ := regular_inductive.reachable s h
  have hr := ha.refines
  constructor
  · intro p hp
    refine ⟨a.ready p, hr.ready p hp, ha.wf.nodup p hp, fun t => ?_⟩
    rw [hr.taskId, hr.state, hr.priority]
    constructor
    · intro hm
      obtain ⟨h1, h2, h3, -⟩ := ha.wf.mem p hp t hm
      exact ⟨h3, h1, h2⟩
    · intro hi
      obtain ⟨h1, h2, rfl⟩ := hi
      exact ha.wf.queued t (by simp) h2 h1
  · intro t ht
    rw [hr.state] at ht
    refine ⟨hr.currentTcb.trans (ha.owned t ht), fun p hp hl => ?_⟩
    exact ha.wf.not_mem (.inl (by simp [ht])) hp ((linked_iff_mem (hr.ready p hp)).1 hl)

/-- After two creations at priority 3, a start and a tick. -/
theorem ready_lists_coherent_two : ∃ s, regularSys.Reachable s ∧
    (s.k.currentTcb = some 0 ∧ s.k.readyLists 3 = some 1) ∧ ReadyCoherent s.k := by
  obtain ⟨s, -, h, hf⟩ := reachable_of_exec (G := Regular)
    (fun s => s.k.currentTcb = some 0 ∧ s.k.readyLists 3 = some 1)
    [.taskCreate (some 1) none 3 0 true, .taskCreate (some 1) none 3 0 true, .schedulerStart,
      .schedulerTick] (by decide +kernel)
  exact ⟨s, h, hf, ready_lists_coherent s h⟩

end Rtos.Sched
