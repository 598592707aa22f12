import Rtos.Sched.Dispatch

/-!
# Which slots hold a live task

A slot is live from the `task_create` that fills it to the `task_delete` of
its id. `Tracks` says that the history and the pool agree on this: the slots
whose task was deleted are those in state DELETED, and a live task's slot has
its id, which is not 0, and is not DELETED. Every proper call keeps it, but
for a `task_delay` of a deleted current task (`NoDeadDelay`), which takes the
slot out of the state DELETED.
-/
namespace Rtos.Sched

open Rtos.Core

namespace Abs

variable {a : Abs} {t : TaskPtr}

/-! ## What makes a slot DELETED -/

theorem requeue_deleted (h : a.requeue.state t = .deleted) : a.state t = .deleted := by
  unfold requeue at h
  split at h
  · exact h
  · rename_i c _
    split at h
    · by_cases htc : t = c
      · simp [enqueue, htc] at h
      · simpa [enqueue, htc] using h
    · exact h

theorem schedule_deleted (h : a.schedule.state t = .deleted) : a.state t = .deleted := by
  rcases schedule_cases a with ⟨-, e⟩ | ⟨c, -, -, e⟩ | ⟨n, -, -, e⟩
  · rwa [e] at h
  · rwa [e] at h
  · rw [e] at h
    by_cases htn : t = n
    · simp [dispatch, Abs.setState, htn] at h
    · rw [← rotate_state a]
      simpa [dispatch, Abs.setState, dequeue, htn] using h

/-- Picking the next task deletes and revives no slot. -/
theorem deleted_schedule (h : a.Wf none) (t : TaskPtr) :
    a.schedule.state t = .deleted ↔ a.state t = .deleted :=
  ⟨schedule_deleted, fun hd => by rw [schedule_state h.waits (by simp [hd]), hd]⟩

theorem deleted_yield (h : a.Wf none) (t : TaskPtr) : a.yield.state t = .deleted ↔ a.state t = .deleted := by
  by_cases hr : a.running = true
  · rw [yield_eq hr, deleted_schedule (wf_requeue h)]
    exact ⟨requeue_deleted, fun hd => by rw [requeue_state (by simp [hd]), hd]⟩
  · rw [yield, if_pos (by simpa using hr)]

theorem deleted_yieldIf (h : a.Wf none) (u t : TaskPtr) :
    (a.yieldIf u).state t = .deleted ↔ a.state t = .deleted := by
  unfold yieldIf
  split
  · exact deleted_yield h t
  · exact Iff.rfl

theorem deleted_stop (h : a.Wf none) {u : TaskPtr} {s : TaskState} (hs : s ≠ .ready) (t : TaskPtr) :
    (((a.dequeue u).setState u s).yieldIf u).state t = .deleted ↔
      if t = u then s = .deleted else a.state t = .deleted := by
  rw [deleted_yieldIf (wf_stop h u hs)]
  by_cases htu : t = u
  · subst htu; simp [Abs.setState]
  · simp [Abs.setState, dequeue, htu]

/-- The call is not a `task_delay` of one tick or more by a deleted task. -/
def NoDeadDelay (a : Abs) : Call → Prop
  | .taskDelay ticks => ticks > 0 → ∀ c, a.current = some c → a.state c ≠ .deleted
  | _ => True

/-- A call other than `task_create` and `task_delete` changes no slot from or
to DELETED. -/
theorem deleted_call (h : a.Wf none) {c : Call} (hd : a.NoDeadDelay c)
    (h1 : ∀ f name p params w, c ≠ .taskCreate f name p params w) (h2 : ∀ id, c ≠ .taskDelete id)
    (t : TaskPtr) : (a.call c).state t = .deleted ↔ a.state t = .deleted := by
  have he := a.call_effect c
  generalize a.call c = b at he ⊢
  cases he with
  | refused => exact Iff.rfl
  | create => exact absurd rfl (h1 _ _ _ _ _)
  | delete => exact absurd rfl (h2 _)
  | suspend hf =>
    rw [deleted_stop h (by simp)]
    split
    · rename_i htu
      simp [htu, (find_spec hf).2]
    · exact Iff.rfl
  | @resume _ u hf _ =>
    by_cases htu : t = u
    · simp [enqueue, htu, (find_spec hf).2]
    · simp [enqueue, htu]
  | @delay ticks c hc ht =>
    rw [deleted_yield (wf_block h c ticks)]
    by_cases htc : t = c
    · subst htc; simp [block, dequeue, Abs.setState, hd ht t hc]
    · simp [block, dequeue, Abs.setState, htc]
  | yield => exact deleted_yield h t
  | tick =>
    rw [onTick_eq h]
    split
    · exact deleted_yield (wf_setTick h _) t
    · exact Iff.rfl
  | start => exact deleted_schedule (wf_setRunning h) t

theorem call_taskId (h : a.Wf none) {c : Call}
    (hc : ∀ f name p params w, c ≠ .taskCreate f name p params w) : (a.call c).taskId = a.taskId := by
  by_cases hs : c = .schedulerStart
  · subst hs
    exact (schedule_reorders _).taskId
  · exact (call_frame h hs hc).taskId

end Abs

/-! ## The history agrees with the pool -/

structure Tracks (h : Hist) (a : Abs) : Prop where
  dead : ∀ t, t ∈ h.dead ↔ a.state t = .deleted
  live : ∀ t id, (t, id) ∈ h.live ↔ a.taskId t = id ∧ id ≠ 0 ∧ a.state t ≠ .deleted

theorem tracks_create {h : Hist} {k : Kernel} {a : Abs} (hr : Refines k a) (ht : Tracks h a)
    {f : Option UInt32} {name : Option (List Char)} {p : UInt8} {params : UInt32} {w : Bool}
    (hn : a.nextTaskId ≠ 0) :
    Tracks (h.after k (a.ret (.taskCreate f name p params w)) (.app (.taskCreate f name p params w)))
      (a.call (.taskCreate f name p params w)) := by
  rcases a.create_cases f name p params w with ⟨e, hret⟩ | ⟨u, hf, -, e, hret⟩
  · rwa [e, after_create_failed hret]
  · have hfree := Abs.free_spec hf
    rw [e, hret, after_create_ok ((free_refines hr).trans hf), hr.nextTaskId]
    have hid : (if w then some a.nextTaskId else none).getD a.nextTaskId = a.nextTaskId := by
      cases w <;> rfl
    rw [hid]
    constructor
    · intro t
      by_cases htu : t = u
      · simp [htu, Abs.enqueue]
      · simp [htu, Abs.enqueue, Abs.fill, ht.dead t]
    · intro t id
      by_cases htu : t = u
      · subst htu
        have hnl : (t, id) ∉ h.live := fun hm => by
          obtain ⟨h1, h2, h3⟩ := (ht.live t id).1 hm
          rcases hfree with hs | h0
          · exact h3 hs
          · exact h2 (h1.symm.trans h0)
        simp only [List.mem_cons, hnl, or_false, Prod.mk.injEq, true_and]
        simp only [Abs.enqueue, Abs.fill, Function.update_self]
        constructor
        · intro e
          subst e
          exact ⟨rfl, hn, by simp⟩
        · intro hi
          obtain ⟨h1, -⟩ := hi
          exact h1.symm
      · simp [htu, Abs.enqueue, Abs.fill, ht.live t id]

theorem tracks_delete {h : Hist} {k : Kernel} {a : Abs} (hr : Refines k a) (hw : a.Wf none)
    (ht : Tracks h a) (id : UInt32) :
    Tracks (h.after k (a.ret (.taskDelete id)) (.app (.taskDelete id))) (a.call (.taskDelete id)) := by
  rcases a.delete_cases id with ⟨-, e, hret⟩ | ⟨u, hf, e, hret⟩
  · rwa [e, hret, after_delete_failed (by simp)]
  · have hid : (a.call (.taskDelete id)).taskId = a.taskId := (Abs.call_frame hw (by simp) (by simp)).taskId
    have hdel : ∀ t, (a.call (.taskDelete id)).state t = .deleted ↔ t = u ∨ a.state t = .deleted := by
      intro t
      rw [e, Abs.deleted_stop hw (by simp)]
      by_cases htu : t = u <;> simp [htu]
    rw [hret, after_delete_ok ((find_refines hr id).trans hf)]
    constructor
    · intro t
      rw [List.mem_cons, hdel, ht.dead]
    · intro t i
      have hdel' : (a.call (.taskDelete id)).state t ≠ .deleted ↔ t ≠ u ∧ a.state t ≠ .deleted := by
        rw [Ne, hdel, not_or]
      rw [List.mem_filter, hid, ht.live, hdel', decide_eq_true_eq]
      constructor
      · intro hi
        obtain ⟨⟨h1, h2, h3⟩, h4⟩ := hi
        refine ⟨h1, h2, ?_, h3⟩
        intro e
        subst e
        exact h4 (by rw [← h1, (Abs.find_spec hf).1])
      · intro hi
        obtain ⟨h1, h2, h3, h4⟩ := hi
        exact ⟨⟨h1, h2, h4⟩, fun e => h3 (congrArg Prod.fst e)⟩

/-- The other calls fill and delete no slot. -/
theorem after_other (h : Hist) (k : Kernel) (r : Ret) {c : Call}
    (h1 : ∀ f name p params w, c ≠ .taskCreate f name p params w) (h2 : ∀ id, c ≠ .taskDelete id) :
    (h.after k r (.app c)).live = h.live ∧ (h.after k r (.app c)).dead = h.dead := by
  cases c with
  | taskCreate => exact absurd rfl (h1 _ _ _ _ _)
  | taskDelete => exact absurd rfl (h2 _)
  | taskDelay ticks =>
    obtain ⟨due, e⟩ := after_delay h k r ticks
    rw [e]
    exact ⟨rfl, rfl⟩
  | _ => exact ⟨rfl, rfl⟩

theorem tracks_step {s s' : Sys} {a : Abs} {c : Call} (hr : Refines s.k a) (hw : a.Wf none)
    (ht : Tracks s.h a) (hc : Proper s c) (hd : a.NoDeadDelay c) (hs : appSys.step s c s') :
    Tracks s'.h (a.call c) := by
  obtain ⟨-, -, hh⟩ := step_refines hr hw hc hs
  rw [hh]
  by_cases h1 : ∃ f name p params w, c = .taskCreate f name p params w
  · obtain ⟨f, name, p, params, w, rfl⟩ := h1
    exact tracks_create hr ht (by rw [← hr.nextTaskId]; exact hc)
  by_cases h2 : ∃ id, c = .taskDelete id
  · obtain ⟨id, rfl⟩ := h2
    exact tracks_delete hr hw ht id
  · have h1 : ∀ f name p params w, c ≠ .taskCreate f name p params w :=
      fun f name p params w e => h1 ⟨f, name, p, params, w, e⟩
    have h2 : ∀ id, c ≠ .taskDelete id := fun id e => h2 ⟨id, e⟩
    have hid : (a.call c).taskId = a.taskId := Abs.call_taskId hw h1
    obtain ⟨e1, e2⟩ := after_other s.h s.k (a.ret c) h1 h2
    constructor
    · intro t
      rw [e2, ht.dead, Abs.deleted_call hw hd h1 h2]
    · intro t id
      rw [e1, ht.live, hid, Ne, Ne, Ne, Abs.deleted_call hw hd h1 h2]

theorem tracks_boot : Tracks Hist.boot Abs.boot where
  dead t := by simp [Hist.boot, Abs.boot]
  live t id := by
    simp only [Hist.boot, Abs.boot, List.not_mem_nil, false_iff]
    intro hi
    obtain ⟨rfl, h0, -⟩ := hi
    exact h0 rfl

end Rtos.Sched
