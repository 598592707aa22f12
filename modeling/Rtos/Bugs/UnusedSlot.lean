import Rtos.Sched.Lifetime

/-!
# The id 0 finds a slot that was never used

`task_get_tcb` skips DELETED slots only, and a slot that was never used has
the id 0 and the state READY of a zeroed TCB. So `task_delete(0)` and
`task_suspend(0)` find such a slot, and `task_resume(0)` then puts an
uninitialised TCB on ready list 0.

`non_live_rejected_iff`: an id that is not live is rejected without effect
exactly when it is not 0 or no unused slot is left.
-/
namespace Rtos.Sched

open Rtos.Core

/-- No task has this id, and the calls that name it fail and change nothing. -/
def Rejected (k : Kernel) (id : UInt32) : Prop :=
  taskGetTcb k id = none ∧
  call k (.taskDelete id) = some (k, ⟨some .errorInvalidParam, none⟩) ∧
  call k (.taskSuspend id) = some (k, ⟨some .errorInvalidParam, none⟩) ∧
  call k (.taskResume id) = some (k, ⟨some .errorInvalidParam, none⟩)

/-- The call is not a `task_delay` of one tick or more while `current_task` is
a deleted slot. -/
def NoDeadDelay (s : Sys) : Call → Prop
  | .taskDelay ticks => ticks > 0 → ∀ c, s.k.currentTask = some c → s.k.state c ≠ .deleted
  | _ => True

instance (s : Sys) : (c : Call) → Decidable (NoDeadDelay s c)
  | .taskDelay _ => inferInstanceAs (Decidable (_ → ∀ _, _ → _))
  | .taskCreate .. | .taskDelete _ | .taskSuspend _ | .taskResume _ | .taskYield | .schedulerYield
  | .schedulerTick | .schedulerStart => inferInstanceAs (Decidable True)

/-- Proper runs in which no deleted task delays itself. -/
def trackedSys : LTS Sys Call := appSys.restrict fun s c => Proper s c ∧ NoDeadDelay s c

theorem tracked_inductive :
    trackedSys.Inductive fun s => ∃ a, Refines s.k a ∧ a.Wf none ∧ Tracks s.h a where
  init := by intro s e; subst e; exact ⟨Abs.boot, boot_refines, Abs.wf_boot, tracks_boot⟩
  step := by
    intro s c s' hi hj
    obtain ⟨a, hr, hw, ht⟩ := hi
    obtain ⟨⟨hc, hd⟩, hs⟩ := hj
    obtain ⟨hr', hw', -⟩ := step_refines hr hw hc hs
    have hd' : a.NoDeadDelay c := by
      cases c with
      | taskDelay ticks => simpa [NoDeadDelay, Abs.NoDeadDelay, hr.currentTask, hr.state] using hd
      | _ => trivial
    exact ⟨_, hr', hw', tracks_step hr hw ht hc hd' hs⟩

/-- The three calls fail as soon as the lookup does. -/
theorem rejected_iff (k : Kernel) (id : UInt32) : Rejected k id ↔ taskGetTcb k id = none := by
  refine ⟨fun h => h.1, fun h => ⟨h, ?_, ?_, ?_⟩⟩
  · simp [call, taskDelete, h]
  · simp [call, taskSuspend, h]
  · simp [call, taskResume, h]

/-- **When an id that is not live is rejected**: if it is not 0, or every slot
has been used or deleted. -/
theorem non_live_rejected_iff (s : Sys) (h : trackedSys.Reachable s) (id : UInt32)
    (hid : ∀ t, (t, id) ∉ s.h.live) :
    Rejected s.k id ↔ id ≠ 0 ∨ ∀ t, s.k.taskId t ≠ 0 ∨ s.k.state t = .deleted := by
  obtain ⟨a, hr, hw, ht⟩ := tracked_inductive.reachable s h
  have hdead : ∀ t, id ≠ 0 → s.k.taskId t = id → s.k.state t = .deleted := by
    intro t h0 h1
    by_contra h2
    rw [hr.taskId] at h1
    rw [hr.state] at h2
    exact hid t ((ht.live t id).2 ⟨h1, h0, h2⟩)
  rw [rejected_iff, taskGetTcb, List.find?_eq_none]
  simp only [List.mem_finRange, forall_const, decide_eq_true_eq, not_and, not_not]
  by_cases h0 : id = 0
  · subst h0
    simp [or_iff_not_imp_left]
  · simp only [h0, not_false_eq_true, ne_eq, true_or, iff_true]
    exact fun t => hdead t h0

/-- After a creation the id 7 is not live. -/
theorem non_live_rejected_iff_seven : ∃ s : Sys, s.h.live = [(0, 1)] ∧
    (Rejected s.k 7 ↔ (7 : UInt32) ≠ 0 ∨ ∀ t, s.k.taskId t ≠ 0 ∨ s.k.state t = .deleted) := by
  obtain ⟨s, -, h, hl⟩ := reachable_of_exec (G := fun s c => Proper s c ∧ NoDeadDelay s c)
    (fun s => s.h.live = [(0, 1)]) [.taskCreate (some 1) none 3 0 true] (by decide +kernel)
  exact ⟨s, hl, non_live_rejected_iff s h 7 (by simp [hl])⟩

/-- Before any creation `task_suspend(0)` succeeds, and after it `task_resume(0)`
puts a slot that was never used on ready list 0. -/
theorem unused_slot_queued : ∃ s₁ s₂ : Sys,
    (∀ t, (t, 0) ∉ Sys.boot.h.live) ∧ ¬ Rejected Sys.boot.k 0 ∧
    appSys.step Sys.boot (.taskSuspend 0) s₁ ∧ s₁.k.state 0 = .suspended ∧
    appSys.step s₁ (.taskResume 0) s₂ ∧ s₂.k.readyLists 0 = some 0 ∧ s₂.k.taskId 0 = 0 := by
  obtain ⟨s₁, hr, -, h1, hf⟩ := reachable_of_exec (G := fun _ _ => True)
    (fun s => s.k.state 0 = .suspended ∧ (guarded (fun _ _ => True) s (.taskResume 0)).any fun s₂ =>
      s₂.k.readyLists 0 = some 0 ∧ s₂.k.taskId 0 = 0)
    [.taskSuspend 0] (by decide +kernel)
  obtain ⟨s₂, e₂, hf⟩ := (Option.any_eq_true _ _).1 hf
  obtain ⟨h2, h3⟩ := of_decide_eq_true hf
  refine ⟨s₁, s₂, by simp [Sys.boot, Hist.boot], ?_, ?_, h1, (step_of_guarded _ _ _ e₂).2, h2, h3⟩
  · rw [rejected_iff]
    decide
  · cases hr with
    | cons hs hr => cases hr; exact hs.2

end Rtos.Sched
