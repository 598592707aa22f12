import Rtos.Sched.Runs

/-!
# What the functions leave alone, from any state

Nothing is assumed of the lists here: these are the runs of every function of
the two headers in any order. `Keeps k k'` says that no task changes its id and
that a task changes its state to READY or RUNNING only. Relinking, picking the
next task and the tick keep this; `task_create`, `task_delete`, `task_suspend`
and `task_delay` do so after the one write each of them makes.
-/
namespace Rtos.Sched

open Rtos.Core

structure Keeps (k k' : Kernel) : Prop where
  taskId : k'.taskId = k.taskId
  nextTaskId : k'.nextTaskId = k.nextTaskId
  moved : ∀ t, k'.state t = k.state t ∨ k'.state t = .ready ∨ k'.state t = .running

variable {k k' k'' : Kernel}

theorem Keeps.refl (k : Kernel) : Keeps k k := ⟨rfl, rfl, fun _ => .inl rfl⟩

theorem Keeps.trans (h : Keeps k k') (h' : Keeps k' k'') : Keeps k k'' where
  taskId := h'.taskId.trans h.taskId
  nextTaskId := h'.nextTaskId.trans h.nextTaskId
  moved t := by
    rcases h'.moved t with e | e
    · rw [e]; exact h.moved t
    · exact .inr e

/-- A task in another state than READY and RUNNING was already in it. -/
theorem Keeps.state_of (h : Keeps k k') {t : TaskPtr} {s : TaskState} (ht : k'.state t = s)
    (h1 : s ≠ .ready) (h2 : s ≠ .running) : k.state t = s := by
  rcases h.moved t with e | e | e
  · rw [← e, ht]
  · exact absurd (ht.symm.trans e) h1
  · exact absurd (ht.symm.trans e) h2

theorem setState_keeps (k : Kernel) (t : TaskPtr) {s : TaskState} (hs : s = .ready ∨ s = .running) :
    Keeps k (k.setState t s) where
  taskId := by simp
  nextTaskId := rfl
  moved u := by
    by_cases hu : u = t
    · subst hu; simpa using .inr hs
    · simp [hu]

theorem setNext_keeps (k : Kernel) (t : TaskPtr) (u : Option TaskPtr) : Keeps k (k.setNext t u) :=
  ⟨by simp, rfl, fun _ => .inl (by simp)⟩

theorem setReadyList_keeps (k : Kernel) (p : Nat) (u : Option TaskPtr) : Keeps k (k.setReadyList p u) :=
  ⟨rfl, rfl, fun _ => .inl rfl⟩

/-! ## src/kernel/scheduler.c -/

theorem schedulerAddTask_keeps {t : Option TaskPtr} (h : schedulerAddTask k t = some k') : Keeps k k' := by
  cases t with
  | none => cases h; exact .refl k
  | some t =>
    have h0 := (setState_keeps k t (.inl rfl)).trans (setNext_keeps _ t none)
    simp only [schedulerAddTask] at h
    split at h
    · cases h; exact .refl k
    · split at h
      · cases h; exact h0.trans (setReadyList_keeps _ _ _)
      · obtain ⟨tail, -, rfl⟩ := Option.map_eq_some_iff.1 h
        exact h0.trans (setNext_keeps _ _ _)

theorem schedulerRemoveTask_keeps {t : Option TaskPtr} (h : schedulerRemoveTask k t = some k') :
    Keeps k k' := by
  cases t with
  | none => cases h; exact .refl k
  | some t =>
    simp only [schedulerRemoveTask] at h
    split at h
    · cases h; exact .refl k
    · split at h
      · cases h
      · cases h; exact .refl k
      · cases h; exact (setReadyList_keeps _ _ _).trans (setNext_keeps _ _ _)
      · cases h; exact (setNext_keeps _ _ _).trans (setNext_keeps _ _ _)

theorem rotateCurrent_keeps (h : rotateCurrent k = some k') : Keeps k k' := by
  unfold rotateCurrent at h
  split at h
  · cases h; exact .refl k
  · split at h
    · obtain ⟨k₁, h1, h2⟩ := Option.bind_eq_some_iff.1 h
      exact (schedulerRemoveTask_keeps h1).trans (schedulerAddTask_keeps h2)
    · cases h; exact .refl k

theorem dispatch_keeps {n : TaskPtr} (h : dispatch k n = some k') : Keeps k k' := by
  obtain ⟨k₁, h1, rfl⟩ := Option.map_eq_some_iff.1 h
  have h2 := setState_keeps k₁ n (.inr rfl)
  exact (schedulerRemoveTask_keeps h1).trans ⟨h2.taskId, h2.nextTaskId, h2.moved⟩

theorem schedule_keeps (h : schedule k = some k') : Keeps k k' := by
  unfold schedule at h
  split at h
  · cases h; exact .refl k
  · split at h
    · obtain ⟨k₁, h1, h2⟩ := Option.bind_eq_some_iff.1 h
      exact (rotateCurrent_keeps h1).trans (dispatch_keeps h2)
    · cases h; exact .refl k

theorem requeueCurrent_keeps (h : requeueCurrent k = some k') : Keeps k k' := by
  unfold requeueCurrent at h
  split at h
  · cases h; exact .refl k
  · split at h
    · exact (setState_keeps k _ (.inl rfl)).trans (schedulerAddTask_keeps h)
    · cases h; exact .refl k

theorem schedulerYield_keeps (h : schedulerYield k = some k') : Keeps k k' := by
  unfold schedulerYield at h
  split at h
  · cases h; exact .refl k
  · obtain ⟨k₁, h1, h2⟩ := Option.bind_eq_some_iff.1 h
    exact (requeueCurrent_keeps h1).trans (schedule_keeps h2)

/-- One round takes the head off the delayed list. -/
theorem processDelayedLoop_keeps :
    ∀ (n : Nat) (k : Kernel), processDelayedLoop n k = some k' → Keeps k k' := by
  intro n
  induction n with
  | zero =>
    intro k h
    unfold processDelayedLoop at h
    split at h
    · cases h; exact .refl _
    · split at h
      · cases h
      · cases h; exact .refl _
  | succ n ih =>
    intro k h
    unfold processDelayedLoop at h
    split at h
    · cases h; exact .refl _
    · rename_i t _
      split at h
      · obtain ⟨k₁, h1, h2⟩ := Option.bind_eq_some_iff.1 h
        have h3 : Keeps k { k with delayedList := k.next t } := ⟨rfl, rfl, fun _ => .inl rfl⟩
        exact h3.trans ((setState_keeps _ t (.inl rfl)).trans ((setNext_keeps _ t none).trans
          ((schedulerAddTask_keeps h1).trans (ih _ h2))))
      · cases h; exact .refl _

theorem schedulerTick_keeps (h : schedulerTick k = some k') : Keeps k k' := by
  obtain ⟨k₁, h1, h2⟩ := Option.bind_eq_some_iff.1 h
  have h0 : Keeps k { k with systemTickCount := k.systemTickCount + 1 } :=
    ⟨rfl, rfl, fun _ => .inl rfl⟩
  have h3 := h0.trans (processDelayedLoop_keeps _ _ h1)
  split at h2
  · exact h3.trans (schedulerYield_keeps h2)
  · cases h2; exact h3

theorem schedulerStart_keeps (h : schedulerStart k = some k') : Keeps k k' := by
  have h0 : Keeps k { k with schedulerRunning := true } := ⟨rfl, rfl, fun _ => .inl rfl⟩
  exact h0.trans (schedule_keeps h)

theorem schedulerInit_keeps (k : Kernel) : Keeps k (schedulerInit k) :=
  ⟨rfl, rfl, fun _ => .inl rfl⟩

/-! ## src/kernel/task.c -/

theorem yieldIfCurrent_keeps {t : TaskPtr} {st : RtosStatus} (h : yieldIfCurrent k t = some (k', st)) :
    st = .ok ∧ Keeps k k' := by
  unfold yieldIfCurrent at h
  split at h
  · obtain ⟨k₁, h1, h2⟩ := Option.map_eq_some_iff.1 h
    cases h2
    exact ⟨rfl, schedulerYield_keeps h1⟩
  · cases h; exact ⟨rfl, .refl k⟩

/-- The slot `t` filled with a new task. -/
def filled (k : Kernel) (t : TaskPtr) (x : Tcb) : Kernel :=
  { k.setTcb t x with nextTaskId := k.nextTaskId + 1 }

@[simp] theorem filled_state (k : Kernel) (t : TaskPtr) (x : Tcb) :
    (filled k t x).state = Function.update k.state t x.state := k.setTcb_state t x

@[simp] theorem filled_taskId (k : Kernel) (t : TaskPtr) (x : Tcb) :
    (filled k t x).taskId = Function.update k.taskId t x.taskId := k.setTcb_taskId t x

theorem taskCreate_keeps {f : Option UInt32} {name : Option (List Char)} {p : UInt8} {params : UInt32}
    {w : Bool} {st : RtosStatus} {id : Option UInt32}
    (h : taskCreate k f name p params w = some (k', st, id)) :
    (st ≠ .ok ∧ k' = k ∧ (f = none ∨ p.toNat ≥ NUM_PRIORITY_LEVELS ∨ findFreeTcb k = none)) ∨
    ∃ t x, st = .ok ∧ findFreeTcb k = some t ∧ f ≠ none ∧
      p.toNat < NUM_PRIORITY_LEVELS ∧ x.taskId = k.nextTaskId ∧ x.state = .ready ∧
      Keeps (filled k t x) k' ∧ id = if w then some k.nextTaskId else none := by
  unfold taskCreate at h
  split at h
  · cases h; exact .inl ⟨by simp, rfl, .inl rfl⟩
  · rename_i f
    split at h
    · rename_i hp
      cases h; exact .inl ⟨by simp, rfl, .inr (.inl hp)⟩
    · rename_i hp
      split at h
      · rename_i hf
        cases h; exact .inl ⟨by simp, rfl, .inr (.inr hf)⟩
      · rename_i t hf
        obtain ⟨k₁, h1, h2⟩ := Option.map_eq_some_iff.1 h
        have hk : Keeps (filled k t (newTcb k f name p params)) k₁ := schedulerAddTask_keeps h1
        have hid : k₁.taskId t = k.nextTaskId := by
          rw [hk.taskId, filled_taskId, Function.update_self]; rfl
        cases h2
        exact .inr ⟨t, newTcb k f name p params, rfl, hf, by simp, Nat.not_le.1 hp, rfl, rfl, hk,
          by rw [hid]⟩

theorem taskDelete_keeps {id : UInt32} {st : RtosStatus} (h : taskDelete k id = some (k', st)) :
    (st ≠ .ok ∧ k' = k) ∨ ∃ t k₁, st = .ok ∧ taskGetTcb k id = some t ∧ Keeps k k₁ ∧
      Keeps (k₁.setState t .deleted) k' := by
  unfold taskDelete at h
  split at h
  · cases h; exact .inl ⟨by simp, rfl⟩
  · rename_i t hf
    obtain ⟨k₁, h1, h2⟩ := Option.bind_eq_some_iff.1 h
    obtain ⟨rfl, h3⟩ := yieldIfCurrent_keeps h2
    exact .inr ⟨t, k₁, rfl, hf, schedulerRemoveTask_keeps h1, h3⟩

theorem taskSuspend_keeps {id : UInt32} {st : RtosStatus} (h : taskSuspend k id = some (k', st)) :
    k' = k ∨ ∃ t, taskGetTcb k id = some t ∧ Keeps (k.setState t .suspended) k' := by
  unfold taskSuspend at h
  split at h
  · cases h; exact .inl rfl
  · rename_i t hf
    split at h
    · cases h; exact .inl rfl
    · obtain ⟨k₁, h1, h2⟩ := Option.bind_eq_some_iff.1 h
      exact .inr ⟨t, hf, (schedulerRemoveTask_keeps h1).trans (yieldIfCurrent_keeps h2).2⟩

theorem taskResume_keeps {id : UInt32} {st : RtosStatus} (h : taskResume k id = some (k', st)) :
    Keeps k k' := by
  unfold taskResume at h
  split at h
  · cases h; exact .refl k
  · split at h
    · cases h; exact .refl k
    · obtain ⟨k₁, h1, h2⟩ := Option.map_eq_some_iff.1 h
      cases h2
      exact (setState_keeps k _ (.inl rfl)).trans (schedulerAddTask_keeps h1)

theorem taskDelay_keeps {ticks : UInt32} (h : taskDelay k ticks = some k') :
    k' = k ∨ ∃ c, k.currentTask = some c ∧ ticks > 0 ∧ Keeps (k.setState c .blocked) k' := by
  unfold taskDelay at h
  split at h
  · cases h; exact .inl rfl
  · rename_i c hc
    split at h
    · rename_i ht
      obtain ⟨k₁, h1, h2⟩ := Option.bind_eq_some_iff.1 h
      have h1 : schedulerRemoveTask ((k.setWakeTime c (schedulerGetTickCount k + ticks)).setState c
        .blocked) (some c) = some k₁ := h1
      have h3 := (schedulerRemoveTask_keeps h1).trans (schedulerYield_keeps h2)
      refine .inr ⟨c, hc, ht, ⟨?_, h3.nextTaskId, fun t => ?_⟩⟩
      · simpa using h3.taskId
      · simpa using h3.moved t
    · cases h; exact .inl rfl

/-! ## The history -/

/-- Only `task_create` adds to the live tasks. -/
theorem live_after (h : Hist) (k : Kernel) (r : Ret) {c : ApiCall}
    (hc : ∀ f name p params w, c ≠ .app (.taskCreate f name p params w)) :
    ∀ x ∈ (h.after k r c).live, x ∈ h.live := by
  intro x hx
  cases c with
  | taskInit => exact absurd hx List.not_mem_nil
  | app c =>
    cases c with
    | taskCreate => exact absurd rfl (hc _ _ _ _ _)
    | taskDelete id =>
      simp only [Hist.after, Hist.afterCall] at hx
      split at hx
      · exact (List.mem_filter.1 hx).1
      · exact hx
    | taskDelay ticks =>
      obtain ⟨due, e⟩ := after_delay h k r ticks
      rwa [e] at hx
    | _ => exact hx
  | _ => exact hx

end Rtos.Sched
