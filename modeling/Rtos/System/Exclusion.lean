import Rtos.Bugs.IdWrap
import Rtos.Sched.Lifetime
import Rtos.System.Machine

/-!
# Critical sections, and mutexes whose owner is gone

Whatever the kernel does in between, the sections that a mutex guards do not
overlap: before it is locked again, the task that locked it has had the CPU and
unlocked it (`critical_sections`).

Deleting a task does not release its mutexes. Ids are not handed out again in a
regular run, so a task that is deleted and off the CPU never calls a service
again (`gone_call`), and a mutex it holds stays locked until it is destroyed
(`orphaned_mutex`).
-/
namespace Rtos.System

open Rtos.Sched (Abs RegularInv Regular TaskPtr TaskState taskGetCurrentId)
open Rtos.Services
open Rtos.Core (Mem)
open Rtos.Heap (Target)
open Rtos.Drivers (UartHandle)

variable {t : Target} {callbacks : Nat → Nat → Mem × UartHandle → Mem × UartHandle}

/-! ## The owner of a mutex -/

section

variable {mutex : Nat} {e l l' : Event} {es : List Event} {o : Object} {P : Object → Prop} {id : UInt32}
  {owner : Option UInt32}

theorem locks_free (h : mutexAnswer mutex owner e) (hl : e.locks mutex = true) : owner = none := by
  unfold Event.locks at hl
  split at hl
  · rename_i q timeout hc hr
    obtain rfl : q = mutex := of_decide_eq_true hl
    have h1 := h.1 timeout hc
    rw [hr] at h1
    cases owner with
    | none => rfl
    | some x => cases h1
  · cases hl

theorem unlocks_owner (h : mutexAnswer mutex owner e) (hu : e.unlocks mutex = true) : owner = some e.task := by
  unfold Event.unlocks at hu
  split at hu
  · rename_i q hc hr
    obtain rfl : q = mutex := of_decide_eq_true hu
    have h1 := h.2 hc
    rw [hr] at h1
    by_contra hne
    rw [if_neg hne] at h1
    cases h1
  · cases hu

/-- A task keeps a mutex until it unlocks it. -/
theorem owner_keeps (hr : (objectSys mutex P).Run (.mutex (some id)) es o)
    (hu : ∀ u ∈ es, u.unlocks mutex = true → u.task ≠ id) : o = .mutex (some id) := by
  induction es with
  | nil => cases hr; rfl
  | cons e es ih =>
    cases hr with
    | cons hs hr =>
      obtain ⟨rfl, ha⟩ := mutex_step hs
      have hl : ¬ e.locks mutex = true := fun hl => by cases locks_free ha hl
      have hn : ¬ e.unlocks mutex = true := fun hu' =>
        hu e List.mem_cons_self hu' (Option.some.inj (unlocks_owner ha hu')).symm
      rw [if_neg hl, if_neg hn] at hr
      exact ih hr fun u hm => hu u (List.mem_cons_of_mem _ hm)

end

/-- Between two lockings of a mutex the task of the first one unlocked it. -/
theorem critical_sections (t : Target) (callbacks : Nat → Nat → Mem × UartHandle → Mem × UartHandle)
    {ls₁ ls₂ ls₃ : List Label} {task : UInt32} {mutex : Nat} {l l' : Event}
    (h : (machine t callbacks).Trace
      (ls₁ ++ .inr ⟨task, .mutexCreate, .ptr mutex⟩ :: (ls₂ ++ .inr l :: (ls₃ ++ [.inr l']))))
    (hmutex : mutex ≠ 0)
    (hlive : ∀ e, Sum.inr e ∈ ls₂ ++ Sum.inr l :: (ls₃ ++ [Sum.inr l']) → e.call ≠ .mutexDestroy mutex)
    (hl : l.locks mutex = true) (hl' : l'.locks mutex = true) :
    ∃ u, .inr u ∈ ls₃ ∧ u.unlocks mutex = true ∧ u.task = l.task := by
  have htrace := h.right
  have hlive' : ∀ e ∈ (ls₂ ++ Sum.inr l :: (ls₃ ++ [Sum.inr l'])).filterMap Sum.getRight?,
      e.call ≠ .mutexDestroy mutex := fun e he => hlive e (LTS.mem_right.1 he)
  simp only [List.filterMap_append, List.filterMap_cons, List.filterMap_nil, Sum.getRight?_inr] at htrace hlive'
  obtain ⟨o, o', rfl, hr⟩ := created_run (P := (· = .mutex none)) (k := .mutex) htrace hmutex
    (fun W W' h => h) (fun o ho => by rw [ho]; rfl) fun x hx hd => hlive' x hx hd
  obtain ⟨o₁, hr₁, hr⟩ := LTS.run_split hr
  cases mutex_run hr₁
  cases hr with
  | cons hs hr =>
    obtain ⟨rfl, -⟩ := mutex_step hs
    rw [if_pos hl] at hr
    obtain ⟨o₂, hr₂, hr⟩ := LTS.run_split hr
    by_contra hno
    -- the first task would still hold the mutex
    obtain rfl := owner_keeps hr₂ fun u hu hun e => hno ⟨u, LTS.mem_right.1 hu, hun, e⟩
    cases hr with
    | cons hs _ => cases locks_free (mutex_step hs).2 hl'

theorem critical_sections_two : ∃ u : Event, Sum.inr u ∈ ([.inl (.taskYield, .void),
      .inr ⟨2, .mutexLock 536870928 0, .status .errorTimeout⟩, .inl (.taskYield, .void),
      .inr ⟨1, .mutexUnlock 536870928, .status .ok⟩, .inl (.schedulerTick, .void), .inl (.taskYield, .void)] : List Label) ∧
    u.unlocks 536870928 = true ∧ u.task = 1 := by
  have h : (machine Heap.board fun _ _ x => x).Trace
      ([.inl (.taskCreate (some 1) none 3 0 true, ⟨some .ok, some 1⟩),
        .inl (.taskCreate (some 1) none 3 0 true, ⟨some .ok, some 2⟩), .inl (.schedulerStart, .void)] ++
      .inr ⟨1, .mutexCreate, .ptr 536870928⟩ :: ([] ++ .inr ⟨1, .mutexLock 536870928 0, .status .ok⟩ ::
        ([.inl (.taskYield, .void), .inr ⟨2, .mutexLock 536870928 0, .status .errorTimeout⟩, .inl (.taskYield, .void),
          .inr ⟨1, .mutexUnlock 536870928, .status .ok⟩, .inl (.schedulerTick, .void), .inl (.taskYield, .void)] ++
          [.inr ⟨2, .mutexLock 536870928 0, .status .ok⟩]))) := Machine.trace_of_labels (by decide +kernel)
  exact critical_sections Heap.board _ h (by decide) (by simp) rfl rfl

/-! ## A task that is gone -/

section

variable {a : Abs} {u v : TaskPtr} {c : Sched.Call} {id : UInt32}

/-- A slot whose task was deleted and has not the CPU. -/
def Off (a : Abs) (u : TaskPtr) : Prop := a.state u = .deleted ∧ a.current ≠ some u

/-- The id was handed out, and no slot with it can run. -/
structure Gone (a : Abs) (id : UInt32) : Prop where
  ne : id ≠ 0
  old : id.toNat < a.nextTaskId.toNat
  off : ∀ u, a.taskId u = id → Off a u

theorem off_schedule (h : a.Wf none) (ho : Off a u) : Off a.schedule u := by
  refine ⟨(Abs.deleted_schedule h u).2 ho.1, fun hc => ?_⟩
  rcases a.schedule_cases with ⟨-, e⟩ | ⟨-, -, -, e⟩ | ⟨n, hn, -, e⟩
  · rw [e] at hc
    exact ho.2 hc
  · rw [e] at hc
    exact ho.2 hc
  -- the CPU goes to a task that is ready
  · rw [e] at hc
    cases hc
    have hr := (h.highest_mem hn).1
    rw [ho.1] at hr
    cases hr

theorem off_yield (h : a.Wf none) (ho : Off a u) : Off a.yield u := by
  by_cases hr : a.running = true
  · rw [Abs.yield_eq hr]
    refine off_schedule (Abs.wf_requeue h) ⟨?_, ?_⟩
    · rw [Abs.requeue_state (by rw [ho.1]; decide), ho.1]
    · rw [Abs.requeue_current]
      exact ho.2
  · rw [Abs.yield, if_pos (by simpa using hr)]
    exact ho

theorem off_stop (h : a.Wf none) {s : TaskState} (hs : s ≠ .ready) (ho : Off a u) (hv : v = u → s = .deleted) :
    Off (((a.dequeue v).setState v s).yieldIf v) u := by
  have hstop : Off ((a.dequeue v).setState v s) u := by
    refine ⟨?_, ho.2⟩
    by_cases huv : u = v
    · rw [huv, ← hv huv.symm]
      exact Function.update_self ..
    · exact (Function.update_of_ne huv _ _).trans ho.1
  unfold Abs.yieldIf
  split
  · exact off_yield (Abs.wf_stop h v hs) hstop
  · exact hstop

/-- No call brings the task of such a slot back. -/
theorem off_call (h : a.Wf none) (hc : ∀ f name p params w, c ≠ .taskCreate f name p params w) (ho : Off a u) :
    Off (a.call c) u := by
  have he := a.call_effect c
  generalize a.call c = b at he ⊢
  cases he with
  | refused => exact ho
  | create => exact absurd rfl (hc _ _ _ _ _)
  | delete => exact off_stop h (by decide) ho fun _ => rfl
  | suspend hf => exact off_stop h (by decide) ho fun e => absurd ho.1 (e ▸ (Abs.find_spec hf).2)
  | resume hf hs =>
    refine ⟨(Function.update_of_ne (fun e => ?_) _ _).trans ho.1, ho.2⟩
    rw [← e, ho.1] at hs
    cases hs
  | @delay ticks v hv =>
    have huv : u ≠ v := fun e => ho.2 (by rw [hv, e])
    exact off_yield (Abs.wf_block h v ticks) ⟨(Function.update_of_ne huv _ _).trans ho.1, ho.2⟩
  | yield => exact off_yield h ho
  | tick =>
    rw [Abs.onTick_eq h]
    split
    · exact off_yield (Abs.wf_setTick h _) ho
    · exact ho
  | start => exact off_schedule (Abs.wf_setRunning h) ho

theorem next_id {n : UInt32} (hn : n.toNat + 1 < 2 ^ 32) : (n + 1).toNat = n.toNat + 1 := by
  rw [UInt32.toNat_add, UInt32.toNat_one, Nat.mod_eq_of_lt hn]

/-- A task that is gone stays gone: its id is not handed out again. -/
theorem gone_call (h : a.Wf none)
    (hn : ∀ f name p params w, c = .taskCreate f name p params w → a.nextTaskId.toNat + 1 < 2 ^ 32) (hg : Gone a id) :
    Gone (a.call c) id := by
  by_cases hc : ∃ f name p params w, c = .taskCreate f name p params w
  · obtain ⟨f, name, p, params, w, rfl⟩ := hc
    rcases a.create_cases f name p params w with ⟨e, -⟩ | ⟨v, -, -, e, -⟩
    · rwa [e]
    · rw [e]
      have hold := hg.old
      refine ⟨hg.ne, ?_, fun u hu => ?_⟩
      · show id.toNat < (a.nextTaskId + 1).toNat
        rw [next_id (hn _ _ _ _ _ rfl)]
        omega
      -- the slot filled has another id now
      · have huv : u ≠ v := by
          rintro rfl
          have hid : a.nextTaskId = id := (Function.update_self ..).symm.trans hu
          rw [hid] at hold
          exact Nat.lt_irrefl _ hold
        have hid : a.taskId u = id := (Function.update_of_ne huv _ _).symm.trans hu
        obtain ⟨h1, h2⟩ := hg.off u hid
        exact ⟨((Function.update_of_ne huv _ _).trans (Function.update_of_ne huv _ _)).trans h1, h2⟩
  · have hc' : ∀ f name p params w, c ≠ .taskCreate f name p params w :=
      fun f name p params w e => hc ⟨f, name, p, params, w, e⟩
    have hid := Abs.call_taskId h hc'
    have hnext : (a.call c).nextTaskId = a.nextTaskId := by
      by_cases hs : c = .schedulerStart
      · rw [hs]
        exact (Abs.schedule_reorders _).nextTaskId
      · exact (Abs.call_frame h hs hc').nextTaskId
    exact ⟨hg.ne, by rw [hnext]; exact hg.old, fun u hu => off_call h hc' (hg.off u (by rwa [hid] at hu))⟩

/-- And it does not call. -/
theorem gone_current (hg : Gone a id) : currentId a ≠ id := by
  unfold currentId
  split
  · rename_i v hv
    intro e
    exact (hg.off v e).2 hv
  · exact fun e => hg.ne e.symm

end

/-! ## Its mutexes -/

section

variable {s s' : Sched.Sys} {a : Abs} {x x' : Sched.Sys × Sys} {ls : List Label} {id : UInt32}

/-- In a regular run no two slots have the same id. -/
theorem kernel_inductive : kernelSys.Inductive fun s => (∃ a, RegularInv s a) ∧ Sched.IdInv s.k s.h where
  init s h0 := by
    rw [h0]
    exact ⟨⟨_, Sched.regular_boot⟩, Sched.id_init Sched.Kernel.static Sched.Hist.boot⟩
  step s l s' hi hs := by
    obtain ⟨⟨a, ha⟩, hid⟩ := hi
    refine ⟨⟨_, (kernel_step ha hs).2⟩, ?_⟩
    obtain ⟨hc, e, hh⟩ := hs
    have hrange : Sched.InRange s (.app l.1) := by
      cases hl : l.1 with
      | taskCreate f name p params w =>
        rw [hl] at hc
        have hc : s.h.created + 1 < 2 ^ 32 - 1 := hc
        intro _ _ _
        omega
      | _ => trivial
    rw [hh]
    exact Sched.id_call hid hrange e

/-- The task deleted is gone, unless it still has the CPU. -/
theorem gone_of_delete (h : RegularInv s a) (hid : Sched.IdInv s.k s.h)
    (hs : kernelSys.step s (.taskDelete id, ⟨some .ok, none⟩) s') (hcpu : taskGetCurrentId s'.k ≠ id) :
    Gone (a.call (.taskDelete id)) id := by
  obtain ⟨⟨-, hret⟩, h'⟩ := kernel_step h hs
  have h0 : id ≠ 0 := h.issued id hs.1
  rcases a.delete_cases id with ⟨-, -, e⟩ | ⟨u, hf, e, -⟩
  · rw [e] at hret
    cases hret
  · have hframe := Abs.call_frame h.wf (c := .taskDelete id) (by simp) (by simp)
    obtain ⟨hu, -⟩ := Abs.find_spec hf
    refine ⟨h0, ?_, fun v hv => ⟨?_, fun hc => ?_⟩⟩
    · have hb := hid.bound u
      rw [h.refines.taskId, hu] at hb
      rw [hframe.nextTaskId, h.counter]
      omega
    · rw [hframe.taskId] at hv
      obtain rfl : v = u := hid.inj v u (by rw [h.refines.taskId, hv, hu]) (by rw [h.refines.taskId, hv]; exact h0)
      rw [e, Abs.deleted_stop h.wf (by decide), if_pos rfl]
    · rw [current_refines h', currentId, hc] at hcpu
      exact hcpu hv

/-- No event of a run is a call of a task that is gone. -/
theorem gone_run (h : RegularInv x.1 a) (hg : Gone a id) (hr : (machine t callbacks).Run x ls x') :
    ∀ e, .inr e ∈ ls → e.task ≠ id := by
  induction hr generalizing a with
  | nil x => exact fun e he => absurd he List.not_mem_nil
  | @cons x x₁ x' l ls hs _ ih =>
    cases l with
    | inl l =>
      obtain ⟨-, h₁⟩ := kernel_step h hs.1
      have hg₁ : Gone (a.call l.1) id := by
        refine gone_call h.wf (fun f name p params w hl => ?_) hg
        have hc := hs.1.1
        rw [hl] at hc
        have hc : x.1.h.created + 1 < 2 ^ 32 - 1 := hc
        rw [h.counter]
        omega
      intro e he
      rcases List.mem_cons.1 he with he | he
      · cases he
      · exact ih h₁ hg₁ e he
    | inr l =>
      obtain ⟨htask, hx, -⟩ := hs
      intro e he
      rcases List.mem_cons.1 he with he | he
      · cases he
        rw [htask, current_refines h]
        exact gone_current hg
      · exact ih (hx ▸ h) hg e he

end

/-- A mutex whose holder makes no call any more is neither locked nor unlocked. -/
theorem held_run {ls₁ ls₂ ls₃ : List Label} {task id : UInt32} {mutex : Nat} {e : Event} {x₀ x x' : Sched.Sys × Sys}
    (h0 : (machine t callbacks).init x₀)
    (hr : (machine t callbacks).Run x₀ (ls₁ ++ .inr ⟨task, .mutexCreate, .ptr mutex⟩ :: ls₂) x)
    (hmutex : mutex ≠ 0) (hheld : holder mutex (ls₂.filterMap Sum.getRight?) = some id)
    (hr' : (machine t callbacks).Run x (ls₃ ++ [.inr e]) x')
    (hlive : ∀ l, Sum.inr l ∈ ls₂ ++ (ls₃ ++ [Sum.inr e]) → l.call ≠ .mutexDestroy mutex)
    (hnone : ∀ l, Sum.inr l ∈ ls₃ ++ [Sum.inr e] → l.task ≠ id) :
    (∀ timeout, e.call = .mutexLock mutex timeout → e.ret = .status .errorTimeout) ∧
    (e.call = .mutexUnlock mutex → e.ret = .status .error) := by
  have htrace : (machine t callbacks).Trace _ := ⟨x₀, x', h0, LTS.run_append hr hr'⟩
  have hright := htrace.right
  have hlive' : ∀ l ∈ (ls₂ ++ (ls₃ ++ [Sum.inr e])).filterMap Sum.getRight?, l.call ≠ .mutexDestroy mutex :=
    fun l hl => hlive l (LTS.mem_right.1 hl)
  simp only [List.filterMap_append, List.filterMap_cons, List.filterMap_nil, Sum.getRight?_inr,
    List.append_assoc, List.cons_append] at hright hlive'
  obtain ⟨o, o', rfl, hrun⟩ := created_run (P := (· = .mutex none)) (k := .mutex) hright hmutex
    (fun W W' h => h) (fun o ho => by rw [ho]; rfl) fun l hl hd => hlive' l hl hd
  obtain ⟨o₁, hr₁, hrun⟩ := LTS.run_split hrun
  cases mutex_run hr₁
  rw [hheld] at hrun
  obtain ⟨o₂, hr₂, hrun⟩ := LTS.run_split hrun
  obtain rfl := owner_keeps hr₂ fun u hu _ => hnone u (List.mem_append_left _ (LTS.mem_right.1 hu))
  cases hrun with
  | cons hs _ =>
    obtain ⟨-, hlock, hunlock⟩ := mutex_step hs
    refine ⟨hlock, fun hc => ?_⟩
    have hne : (some id : Option UInt32) ≠ some e.task := fun h =>
      hnone e (List.mem_append_right _ (List.mem_singleton_self _)) (Option.some.inj h).symm
    rw [hunlock hc, if_neg hne]

/-- `task_delete` unlocks nothing: once the task that holds a mutex is deleted
and off the CPU, nobody locks or unlocks the mutex again. -/
theorem orphaned_mutex (t : Target) (callbacks : Nat → Nat → Mem × UartHandle → Mem × UartHandle)
    {ls₁ ls₂ ls₃ : List Label} {task id : UInt32} {mutex : Nat} {e : Event} {x₀ x x' : Sched.Sys × Sys}
    (h0 : (machine t callbacks).init x₀)
    (hr : (machine t callbacks).Run x₀ (ls₁ ++ .inr ⟨task, .mutexCreate, .ptr mutex⟩ ::
      (ls₂ ++ [.inl (.taskDelete id, ⟨some .ok, none⟩)])) x)
    (hmutex : mutex ≠ 0) (hheld : holder mutex (ls₂.filterMap Sum.getRight?) = some id)
    (hcpu : taskGetCurrentId x.1.k ≠ id) (hr' : (machine t callbacks).Run x (ls₃ ++ [.inr e]) x')
    (hlive : ∀ l, Sum.inr l ∈ ls₂ ++ (ls₃ ++ [Sum.inr e]) → l.call ≠ .mutexDestroy mutex) :
    (∀ timeout, e.call = .mutexLock mutex timeout → e.ret = .status .errorTimeout) ∧
    (e.call = .mutexUnlock mutex → e.ret = .status .error) := by
  -- the task that holds the mutex is gone
  have hnone : ∀ l, Sum.inr l ∈ ls₃ ++ [Sum.inr e] → l.task ≠ id := by
    rw [← List.cons_append, ← List.append_assoc] at hr
    obtain ⟨x₁, hr₁, hr₂⟩ := LTS.run_split hr
    obtain ⟨⟨a, ha⟩, hid⟩ := kernel_inductive.reachable x₁.1 ⟨_, _, h0.1, hr₁.left⟩
    cases hr₂ with
    | cons hs hr₂ =>
      cases hr₂
      exact gone_run (kernel_step ha hs.1).2 (gone_of_delete ha hid hs.1 hcpu) hr'
  refine held_run h0 hr hmutex (by simpa [List.filterMap_cons] using hheld) hr' (fun l hl => hlive l ?_) hnone
  simpa using hl

/-- The first task is deleted while it holds the mutex. -/
theorem orphaned_mutex_two : ∃ x x', (machine Heap.board fun _ _ x => x).Run x
      ([.inl (.schedulerTick, .void)] ++ [.inr ⟨2, .mutexLock 536870928 0, .status .errorTimeout⟩]) x' ∧
    taskGetCurrentId x.1.k ≠ 1 ∧
    ∀ timeout, (Event.mk 2 (.mutexLock 536870928 0) (.status .errorTimeout)).call = .mutexLock 536870928 timeout →
      (Event.mk 2 (.mutexLock 536870928 0) (.status .errorTimeout)).ret = .status .errorTimeout := by
  obtain ⟨x, hr, -, hcpu, hnext⟩ := LTS.reachable_of_exec (M := machine Heap.board fun _ _ x => x)
    Machine.step_of_event Machine.started_init
    (fun x => taskGetCurrentId x.1.k ≠ 1 ∧ (LTS.exec (Machine.event Heap.board fun _ _ x => x) x
      ([.inl (.schedulerTick, .void)] ++ [.inr ⟨2, .mutexLock 536870928 0, .status .errorTimeout⟩])).isSome = true)
    ([.inl (.taskCreate (some 1) none 3 0 true, ⟨some .ok, some 1⟩),
      .inl (.taskCreate (some 1) none 3 0 true, ⟨some .ok, some 2⟩), .inl (.schedulerStart, .void)] ++
      .inr ⟨1, .mutexCreate, .ptr 536870928⟩ :: ([.inr ⟨1, .mutexLock 536870928 0, .status .ok⟩] ++
        [.inl (.taskDelete 1, ⟨some .ok, none⟩)])) (by decide +kernel)
  obtain ⟨x', hx'⟩ := Option.isSome_iff_exists.1 hnext
  have hr' := LTS.run_of_exec (M := machine Heap.board fun _ _ x => x) Machine.step_of_event hx'
  exact ⟨x, x', hr', hcpu,
    (orphaned_mutex Heap.board _ Machine.started_init hr (by decide) rfl hcpu hr' (by simp)).1⟩

end Rtos.System
