import Rtos.Sched.Lifetime

/-!
# The last task deletes itself

`task_delete` of the current task marks it DELETED and yields, but with no
other task ready `schedule` finds nothing and leaves `current_tcb` and
`current_task` on the deleted slot: `task_delay` then blocks it, and
`task_create` fills the slot the scheduler still holds.

`deletion_final_iff`: along a proper run no reference to a deleted slot is
left exactly when every `task_delete` of the current task has another task
ready to switch to.
-/
namespace Rtos.Sched

open Rtos.Core

/-- A slot whose task was deleted is DELETED and nothing refers to it, and
`task_create` is not about to fill the slot of `current_tcb`. -/
structure NoDangling (s : Sys) : Prop where
  dead : ∀ t ∈ s.h.dead, s.k.state t = .deleted ∧ s.k.currentTcb ≠ some t ∧ s.k.currentTask ≠ some t ∧
    (∀ p < NUM_PRIORITY_LEVELS, ¬ Linked s.k.next t (s.k.readyLists p)) ∧
    ¬ Linked s.k.next t s.k.delayedList
  free : ∀ t, findFreeTcb s.k = some t → s.k.currentTcb ≠ some t

/-- If the call deletes the current task, another task is on a ready list. -/
def OtherReady (s : Sys) : Call → Prop
  | .taskDelete id => ∀ t, taskGetTcb s.k id = some t → s.k.currentTask = some t →
    ∃ p < NUM_PRIORITY_LEVELS, ∃ u, u ≠ t ∧ Linked s.k.next u (s.k.readyLists p)
  | _ => True

namespace Abs

variable {a : Abs} {c : Call}

/-- The current task is not a deleted one. -/
def CurrentLive (a : Abs) : Prop := ∀ t, a.current = some t → a.state t ≠ .deleted

/-- `OtherReady` on queues. -/
def OtherReady (a : Abs) : Call → Prop
  | .taskDelete id => ∀ t, a.find id = some t → a.current = some t →
    ∃ p < NUM_PRIORITY_LEVELS, ∃ u, u ≠ t ∧ u ∈ a.ready p
  | _ => True

theorem current_live_schedule (h : a.CurrentLive) : a.schedule.CurrentLive := by
  rcases schedule_cases a with ⟨-, e⟩ | ⟨c, -, -, e⟩ | ⟨n, -, -, e⟩
  · rwa [e]
  · rwa [e]
  · rw [e]
    intro t hi
    cases hi
    rw [dispatch_state_self]
    simp

theorem current_live_yield (h : a.CurrentLive) : a.yield.CurrentLive := by
  by_cases hr : a.running = true
  · rw [yield_eq hr]
    refine current_live_schedule fun t ht hd => h t ?_ (requeue_deleted hd)
    rwa [requeue_current] at ht
  · rwa [yield, if_pos (by simpa using hr)]

theorem current_live_yieldIf (h : a.CurrentLive) (t : TaskPtr) : (a.yieldIf t).CurrentLive := by
  unfold yieldIf
  split
  · exact current_live_yield h
  · exact h

theorem current_live_setState (h : a.CurrentLive) (t : TaskPtr) {s : TaskState} (hs : s ≠ .deleted) :
    (a.setState t s).CurrentLive := by
  intro u hu
  by_cases hut : u = t
  · subst hut; simpa [Abs.setState] using hs
  · simpa [Abs.setState, hut] using h u hu

/-- With another task ready, deleting the current one switches to it. -/
theorem current_live_delete (h : a.Wf none) {t : TaskPtr} (hc : a.current = some t)
    (ho : ∃ p < NUM_PRIORITY_LEVELS, ∃ u, u ≠ t ∧ u ∈ a.ready p) :
    ((a.dequeue t).setState t .deleted).yield.CurrentLive := by
  obtain ⟨p, hp, u, hut, hu⟩ := ho
  have hw : ((a.dequeue t).setState t .deleted).Wf none := wf_stop h t (by simp)
  have hs : ((a.dequeue t).setState t .deleted).state t = .deleted := by simp [Abs.setState]
  have hq : ((a.dequeue t).setState t .deleted).requeue = (a.dequeue t).setState t .deleted :=
    requeue_other fun d hd => by cases hc.symm.trans hd; simp [hs]
  have hrun : ((a.dequeue t).setState t .deleted).running = true := h.started (by simp [hc])
  rcases yield_cases hrun with ⟨hh, -⟩ | ⟨d, hd, hh, -⟩ | ⟨n, -, -, e⟩
  · rw [hq] at hh
    have hm : u ∈ (a.dequeue t).ready p := by rw [dequeue_ready h t hp]; simp [hu, hut]
    have hnil : (a.dequeue t).ready p = [] := Queues.top_eq_none.1 hh p hp
    rw [hnil] at hm
    cases hm
  · rw [hq] at hh
    cases hc.symm.trans hd
    rw [(hw.highest_mem hh).1] at hs
    cases hs
  · rw [e]
    intro v hi
    cases hi
    rw [dispatch_state_self]
    simp

theorem current_live_call (hw : a.Wf none) (h : a.CurrentLive) (ho : a.OtherReady c) :
    (a.call c).CurrentLive := by
  have he := a.call_effect c
  generalize a.call c = b at he ⊢
  cases he with
  | refused => exact h
  | @create _ _ _ _ _ u _ _ =>
    intro t ht
    by_cases htu : t = u
    · simp [enqueue, htu]
    · simpa [enqueue, fill, htu] using h t ht
  | @delete _ u hf =>
    by_cases hc : a.current = some u
    · rw [yieldIf, if_pos (by exact hc)]
      exact current_live_delete hw hc (ho u hf hc)
    · rw [yieldIf_other (by exact hc)]
      intro t ht
      have hne : t ≠ u := by intro e; subst e; exact hc ht
      simpa [Abs.setState, dequeue, hne] using h t ht
  | suspend => exact current_live_yieldIf (current_live_setState (a := a.dequeue _) h _ (by simp)) _
  | resume => exact current_live_setState h _ (by simp)
  | delay => exact current_live_yield (current_live_setState (a := { a with wakeTime := _ }) h _ (by simp))
  | yield => exact current_live_yield h
  | tick =>
    rw [onTick_eq hw]
    split
    · exact current_live_yield (a := { a with tick := _ }) h
    · exact h
  | start => exact current_live_schedule (a := { a with running := true }) h

end Abs

/-! ## Along a run -/

structure LiveInv (s : Sys) (a : Abs) : Prop where
  refines : Refines s.k a
  wf : a.Wf none
  tracks : Tracks s.h a
  current : a.CurrentLive

variable {s s' : Sys} {a : Abs} {c : Call}

theorem other_ready_refines (h : Refines s.k a) : OtherReady s c ↔ a.OtherReady c := by
  cases c with
  | taskDelete id =>
    simp only [OtherReady, Abs.OtherReady, find_refines h, h.currentTask]
    refine forall₃_congr fun t _ _ => exists_congr fun p => and_congr_right fun hp => ?_
    exact exists_congr fun u => and_congr_right fun _ => linked_iff_mem (h.ready p hp)
  | _ => exact Iff.rfl

theorem LiveInv.no_dangling (h : LiveInv s a) : NoDangling s where
  dead t ht := by
    have hs := (h.tracks.dead t).1 ht
    have hc : a.current ≠ some t := fun hc => h.current t hc hs
    refine ⟨by rw [h.refines.state, hs], by rwa [h.refines.currentTcb], by rwa [h.refines.currentTask],
      fun p hp hl => ?_, fun hl => ?_⟩
    · exact h.wf.not_mem (.inl (by simp [hs])) hp ((linked_iff_mem (h.refines.ready p hp)).1 hl)
    · have := (linked_iff_mem h.refines.delayed).1 hl
      rw [h.wf.delayed] at this
      cases this
  free t ht hc := by
    rw [free_refines h.refines] at ht
    rw [h.refines.currentTcb] at hc
    rcases Abs.free_spec ht with hs | h0
    · exact h.current t hc hs
    · exact h.wf.owner t hc h0

theorem live_step (h : LiveInv s a) (ho : OtherReady s c) (hs : properSys.step s c s') :
    LiveInv s' (a.call c) := by
  obtain ⟨hc, hs⟩ := hs
  obtain ⟨hr, hw, -⟩ := step_refines h.refines h.wf hc hs
  have hd : a.NoDeadDelay c := by
    cases c with
    | taskDelay ticks => exact fun _ => h.current
    | _ => trivial
  exact ⟨hr, hw, tracks_step h.refines h.wf h.tracks hc hd hs,
    Abs.current_live_call h.wf h.current ((other_ready_refines h.refines).1 ho)⟩

/-- With no other task ready, the deleted current task stays the current one. -/
theorem dangling_step (h : LiveInv s a) (ho : ¬ OtherReady s c) (hs : properSys.step s c s') :
    ¬ NoDangling s' := by
  obtain ⟨hc, hs⟩ := hs
  obtain ⟨hr, hw, hh⟩ := step_refines h.refines h.wf hc hs
  rw [other_ready_refines h.refines] at ho
  cases c with
  | taskDelete id =>
    simp only [Abs.OtherReady] at ho
    push Not at ho
    obtain ⟨t, hf, hcur, hempty⟩ := ho
    rcases a.delete_cases id with ⟨hf', -⟩ | ⟨u, hf', e, hret⟩
    · rw [hf] at hf'; cases hf'
    · obtain rfl : t = u := Option.some.inj (hf.symm.trans hf')
      have hnone : ((a.dequeue t).setState t .deleted).highest = none := by
        refine Queues.top_eq_none.2 fun p hp => ?_
        show (a.dequeue t).ready p = []
        rw [Abs.dequeue_ready h.wf t hp, List.filter_eq_nil_iff]
        intro u hu hut
        exact hempty p hp u (by simpa using hut) hu
      have hq : ((a.dequeue t).setState t .deleted).requeue = (a.dequeue t).setState t .deleted :=
        Abs.requeue_other fun d hd => by cases hcur.symm.trans hd; simp [Abs.setState]
      have hcur' : (a.call (.taskDelete id)).current = some t := by
        have hrun : ((a.dequeue t).setState t .deleted).running = true := h.wf.started (by simp [hcur])
        rw [e, Abs.yieldIf, if_pos (by exact hcur), Abs.yield_eq hrun, hq, Abs.schedule, hnone]
        exact hcur
      intro hn
      refine (hn.dead t ?_).2.1 (hr.currentTcb.trans hcur')
      rw [hh, hret, after_delete_ok ((find_refines h.refines id).trans hf)]
      exact List.mem_cons_self
  | _ => exact absurd trivial ho

/-- **When deletion is final**: along a proper run nothing ever refers to a
deleted slot exactly when every `task_delete` of the current task finds
another task on a ready list. -/
theorem deletion_final_iff (cs : List Call) :
    properSys.Always NoDangling Sys.boot cs ↔ properSys.Steps OtherReady Sys.boot cs := by
  refine LTS.always_iff_steps (I := fun s => ∃ a, LiveInv s a) ?_ ?_ ?_ cs Sys.boot ?_
  · intro s hi
    obtain ⟨a, h⟩ := hi
    exact h.no_dangling
  · intro s c s' hi ho hs
    obtain ⟨a, h⟩ := hi
    exact ⟨_, live_step h ho hs⟩
  · intro s c s' hi ho hs
    obtain ⟨a, h⟩ := hi
    exact dangling_step h ho hs
  · exact ⟨Abs.boot, boot_refines, Abs.wf_boot, tracks_boot, by simp [Abs.CurrentLive, Abs.boot]⟩

/-- A lone task that deletes itself is still the current one: a delay makes its
slot BLOCKED, a `task_create` fills it. -/
theorem deleted_task_dangles : ∃ s s₁ s₂ : Sys,
    appSys.Run Sys.boot [.taskCreate (some 1) none 3 0 true, .schedulerStart, .taskDelete 1] s ∧
    0 ∈ s.h.dead ∧ s.k.currentTcb = some 0 ∧ findFreeTcb s.k = some 0 ∧ ¬ NoDangling s ∧
    appSys.step s (.taskDelay 1) s₁ ∧ 0 ∈ s₁.h.dead ∧ s₁.k.state 0 = .blocked ∧
    appSys.step s (.taskCreate (some 1) none 5 0 true) s₂ ∧ s₂.k.currentTcb = some 0 ∧
    s₂.k.taskId 0 = 2 := by
  obtain ⟨s, h, -, h1, h2, h3, hd, hc⟩ := reachable_of_exec (G := Proper)
    (fun s => 0 ∈ s.h.dead ∧ s.k.currentTcb = some 0 ∧ findFreeTcb s.k = some 0 ∧
      ((guarded Proper s (.taskDelay 1)).any fun s₁ => 0 ∈ s₁.h.dead ∧ s₁.k.state 0 = .blocked) ∧
      (guarded Proper s (.taskCreate (some 1) none 5 0 true)).any fun s₂ =>
        s₂.k.currentTcb = some 0 ∧ s₂.k.taskId 0 = 2)
    [.taskCreate (some 1) none 3 0 true, .schedulerStart, .taskDelete 1] (by decide +kernel)
  obtain ⟨s₁, e₁, hd⟩ := (Option.any_eq_true _ _).1 hd
  obtain ⟨h4, h5⟩ := of_decide_eq_true hd
  obtain ⟨s₂, e₂, hc⟩ := (Option.any_eq_true _ _).1 hc
  obtain ⟨h6, h7⟩ := of_decide_eq_true hc
  exact ⟨s, s₁, s₂, LTS.run_of_restrict h, h1, h2, h3, fun hn => (hn.dead 0 h1).2.1 h2,
    (step_of_guarded _ _ _ e₁).2, h4, h5, (step_of_guarded _ _ _ e₂).2, h6, h7⟩

end Rtos.Sched
