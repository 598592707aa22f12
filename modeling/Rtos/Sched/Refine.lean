import Mathlib.Data.Fintype.Card
import Rtos.Sched.Waits

/-!
# The relinking of `next` fields carries out the list operations

`Refines k a`: following the `next` fields of `k` from the list heads gives
the lists of `a`, and the other fields agree. For every operation of
`Rtos.Sched.Scheduler` a `_refines` theorem says that from related states the
code returns (no loop runs past its bound) in a state related to what the
operation on lists yields.
-/
namespace Rtos.Sched

open Rtos.Core

structure Refines (k : Kernel) (a : Abs) : Prop where
  ready : ∀ p < NUM_PRIORITY_LEVELS, Chain k.next (k.readyLists p) (a.ready p)
  delayed : Chain k.next k.delayedList a.delayed
  state : k.state = a.state
  priority : k.priority = a.priority
  taskId : k.taskId = a.taskId
  wakeTime : k.wakeTime = a.wakeTime
  currentTcb : k.currentTcb = a.current
  currentTask : k.currentTask = a.current
  running : k.schedulerRunning = a.running
  tick : k.systemTickCount = a.tick
  nextTaskId : k.nextTaskId = a.nextTaskId

theorem Refines.readyLists {k : Kernel} {a : Abs} (h : Refines k a) {p : Nat}
    (hp : p < NUM_PRIORITY_LEVELS) : k.readyLists p = (a.ready p).head? := chain_head (h.ready p hp)

theorem Refines.readyLists_eq_none {k : Kernel} {a : Abs} (h : Refines k a) {p : Nat}
    (hp : p < NUM_PRIORITY_LEVELS) : k.readyLists p = none ↔ a.ready p = [] := by
  rw [h.readyLists hp, List.head?_eq_none_iff]

/-- No two of the lists share a task. -/
structure Abs.Distinct (a : Abs) : Prop where
  ready : ∀ p < NUM_PRIORITY_LEVELS, ∀ r < NUM_PRIORITY_LEVELS, ∀ u ∈ a.ready p, u ∈ a.ready r → p = r
  delayed : ∀ u ∈ a.delayed, ∀ p < NUM_PRIORITY_LEVELS, u ∉ a.ready p

/-- Every task is in the ready list of its priority, or in none. -/
structure Abs.Apart (a : Abs) : Prop where
  level : ∀ p < NUM_PRIORITY_LEVELS, ∀ u ∈ a.ready p, a.level u = p
  delayed : ∀ u ∈ a.delayed, ∀ p < NUM_PRIORITY_LEVELS, u ∉ a.ready p

theorem Abs.Apart.distinct {a : Abs} (h : a.Apart) : a.Distinct where
  ready p hp r hr u hu hu' := by rw [← h.level p hp u hu, h.level r hr u hu']
  delayed := h.delayed

theorem Abs.Waits.apart {a : Abs} {out : Option TaskPtr} (h : a.Waits out) : a.Apart where
  level p hp u hu := (h.wf.mem p hp u hu).2.1
  delayed u hu p hp hm := by
    have hb := (h.blocked u hu).1
    cases hb.symm.trans (h.wf.mem p hp u hm).1

/-- A list of pool slots without repetition fits the bound on the loops. -/
theorem nodup_length_le {l : List TaskPtr} (h : l.Nodup) : l.length ≤ MAX_TASKS := by
  have := h.length_le_card
  rwa [Fintype.card_fin] at this

theorem Refines.setState {k : Kernel} {a : Abs} (h : Refines k a) (t : TaskPtr) (s : TaskState) :
    Refines (k.setState t s) (a.setState t s) :=
  { h with
    ready := by rw [Kernel.setState_next]; exact h.ready
    delayed := by rw [Kernel.setState_next]; exact h.delayed
    state := by rw [Kernel.setState_state, h.state]; rfl
    priority := by rw [Kernel.setState_priority, h.priority]; rfl
    taskId := by rw [Kernel.setState_taskId, h.taskId]; rfl
    wakeTime := by rw [Kernel.setState_wakeTime, h.wakeTime]; rfl }

/-- Writing one link changes nothing but the lists. -/
theorem Refines.setNext {k : Kernel} {a : Abs} (h : Refines k a) {t : TaskPtr} {u : Option TaskPtr}
    {ready : Queues TaskPtr}
    (hr : ∀ p < NUM_PRIORITY_LEVELS, Chain (Function.update k.next t u) (k.readyLists p) (ready p))
    (hd : Chain (Function.update k.next t u) k.delayedList a.delayed) :
    Refines (k.setNext t u) { a with ready := ready } :=
  { h with
    ready := fun p hp => by rw [Kernel.setNext_next]; exact hr p hp
    delayed := by rw [Kernel.setNext_next]; exact hd
    state := by rw [Kernel.setNext_state, h.state]
    priority := by rw [Kernel.setNext_priority, h.priority]
    taskId := by rw [Kernel.setNext_taskId, h.taskId]
    wakeTime := by rw [Kernel.setNext_wakeTime, h.wakeTime] }

/-- Writing one list head changes that list only. -/
theorem Refines.setReadyList {k : Kernel} {a : Abs} (h : Refines k a) {p : Nat} {u : Option TaskPtr}
    {ready : Queues TaskPtr} (hc : Chain k.next u (ready p)) (hr : ∀ r ≠ p, ready r = a.ready r) :
    Refines (k.setReadyList p u) { a with ready := ready } :=
  { h with
    ready := fun r hlt => by
      show Chain k.next (Function.update k.readyLists p u r) (ready r)
      by_cases hrp : r = p
      · subst hrp
        rwa [Function.update_self]
      · rw [Function.update_of_ne hrp, hr r hrp]
        exact h.ready r hlt }

/-- Cutting the link of a task that is in no list. -/
theorem Refines.cutNext {k : Kernel} {a : Abs} (h : Refines k a) {t : TaskPtr}
    (ht : ∀ p < NUM_PRIORITY_LEVELS, t ∉ a.ready p) (hd : t ∉ a.delayed) :
    Refines (k.setNext t none) a :=
  h.setNext (fun p hp => (h.ready p hp).frame_update (ht p hp)) (h.delayed.frame_update hd)

/-- A task alone in its list: the list head points to it. -/
theorem append_first_refines {k : Kernel} {a : Abs} (h : Refines k a) {t : TaskPtr} {p : Nat}
    (hq : a.ready p = []) (hn : k.next t = none) :
    Refines (k.setReadyList p (some t)) { a with ready := a.ready.push p t } := by
  refine h.setReadyList ?_ fun r hr => Queues.push_other _ _ hr
  rw [Queues.push_self, hq]
  exact ⟨rfl, hn⟩

/-- Behind the last node `tail`, whose link points to the task. -/
theorem append_last_refines {k : Kernel} {a : Abs} (h : Refines k a) (ha : a.Distinct) {t tail : TaskPtr}
    {p : Nat} {l : List TaskPtr} (hp : p < NUM_PRIORITY_LEVELS) (hq : a.ready p = l ++ [tail])
    (ht : t ∉ a.ready p) (hn : k.next t = none) :
    Refines (k.setNext tail (some t)) { a with ready := a.ready.push p t } := by
  have htail : tail ∈ a.ready p := by rw [hq]; simp
  refine h.setNext (fun r hr => ?_) (h.delayed.frame_update fun hm => ha.delayed tail hm p hp htail)
  by_cases hrp : r = p
  · subst hrp
    have hc := h.ready r hr
    rw [hq] at hc
    have hnd := List.nodup_append.1 (chain_nodup hc)
    rw [Queues.push_self, hq, List.append_assoc]
    refine chain_append_node (a := tail) hc (fun b hb => Function.update_of_ne ?_ _ _)
      (Function.update_self ..) ?_
    · exact fun e => hnd.2.2 b hb tail (by simp) e
    · rw [Function.update_of_ne (ne_of_mem_of_not_mem htail ht).symm, hn]
  · rw [Queues.push_other _ _ hrp]
    exact (h.ready r hr).frame_update fun hm => hrp (ha.ready r hr p hp tail hm htail)

/-- The tail insertion: the new list head, or the last node's link, points to
`t`, whose own link is NULL. -/
theorem append_refines {k : Kernel} {a : Abs} (h : Refines k a) (ha : a.Distinct) {t : TaskPtr} {p : Nat}
    (hp : p < NUM_PRIORITY_LEVELS) (ht : ∀ p < NUM_PRIORITY_LEVELS, t ∉ a.ready p)
    (hn : k.next t = none) :
    ∃ k', (match k.readyLists p with
        | none => some (k.setReadyList p (some t))
        | some head => (lastNode k.next MAX_TASKS head).map fun tail => k.setNext tail (some t)) = some k' ∧
      Refines k' { a with ready := a.ready.push p t } := by
  have hc := h.ready p hp
  cases hq : a.ready p with
  | nil =>
    rw [(h.readyLists_eq_none hp).2 hq]
    exact ⟨_, rfl, append_first_refines h hq hn⟩
  | cons head rest =>
    rw [hq] at hc
    have hlen : rest.length < MAX_TASKS := by
      have := nodup_length_le (chain_nodup hc)
      rwa [List.length_cons, Nat.succ_le_iff] at this
    -- the walk stops at the last node `tail`
    obtain ⟨l, tail, hl⟩ : ∃ l tail, head :: rest = l ++ [tail] :=
      ⟨_, _, (List.dropLast_append_getLast (List.cons_ne_nil head rest)).symm⟩
    have hwalk : lastNode k.next MAX_TASKS head = some tail := by
      rw [lastNode_chain hc.2 hlen, hl, List.getLast?_concat]
    rw [hc.1]
    simp only [hwalk, Option.map_some]
    exact ⟨_, rfl, append_last_refines h ha hp (hq.trans hl) (ht p hp) hn⟩

/-- **Queueing.** `scheduler_add_task` on a task that is in no list puts it at
the end of the list of its priority. -/
theorem addTask_refines {k : Kernel} {a : Abs} (h : Refines k a) (ha : a.Distinct) {t : TaskPtr}
    (hl : a.level t < NUM_PRIORITY_LEVELS) (ht : ∀ p < NUM_PRIORITY_LEVELS, t ∉ a.ready p)
    (hd : t ∉ a.delayed) :
    ∃ k', schedulerAddTask k (some t) = some k' ∧ Refines k' (a.enqueue t) := by
  have hlev : (k.priority t).toNat = a.level t := by rw [h.priority]; rfl
  simp only [schedulerAddTask, hlev, ge_iff_le, Nat.not_le.2 hl, if_false]
  have h1 : Refines ((k.setState t .ready).setNext t none) (a.setState t .ready) :=
    (h.setState t .ready).cutNext ht hd
  exact append_refines h1 ⟨ha.ready, ha.delayed⟩ hl ht (by simp)

theorem Abs.not_mem_dequeue {a : Abs} (ha : a.Apart) (t : TaskPtr)
    (hn : (a.ready (a.level t)).Nodup) {p : Nat} (hp : p < NUM_PRIORITY_LEVELS) :
    t ∉ (a.dequeue t).ready p := by
  intro hm
  obtain ⟨hm, hne⟩ := (Queues.mem_drop hn).1 hm
  exact hne ⟨(ha.level p hp t hm).symm, rfl⟩

/-- The first node goes: the list head takes its link. -/
theorem unlink_first_refines {k : Kernel} {a : Abs} (h : Refines k a) {t : TaskPtr} {post : List TaskPtr}
    (hl : a.level t < NUM_PRIORITY_LEVELS) (hq : a.ready (a.level t) = t :: post) :
    Refines (k.setReadyList (a.level t) (k.next t)) (a.dequeue t) := by
  refine h.setReadyList ?_ fun r hr => Queues.drop_other _ _ hr
  have hc := h.ready _ hl
  rw [hq] at hc
  rw [Queues.drop_self, hq, List.erase_cons_head]
  exact chain_unlink_first hc fun _ _ => rfl

/-- A later node goes: its predecessor `b` takes its link. -/
theorem unlink_after_refines {k : Kernel} {a : Abs} (h : Refines k a) (ha : a.Apart) {t b : TaskPtr}
    {l post : List TaskPtr} (hl : a.level t < NUM_PRIORITY_LEVELS)
    (hq : a.ready (a.level t) = l ++ b :: t :: post) :
    Refines (k.setNext b (k.next t)) (a.dequeue t) := by
  have hc := h.ready _ hl
  have hb : b ∈ a.ready (a.level t) := by rw [hq]; simp
  rw [hq] at hc
  have hnd := chain_nodup hc
  have hne : ∀ u ∈ l ++ t :: post, u ≠ b := by
    have : (b :: (l ++ t :: post)).Nodup := (List.perm_middle.nodup_iff).1 hnd
    exact fun u hu e => (List.nodup_cons.1 this).1 (e ▸ hu)
  refine h.setNext (fun r hr => ?_) (h.delayed.frame_update fun hm => ha.delayed b hm _ hl hb)
  by_cases hrp : r = a.level t
  · subst hrp
    have ht : t ∉ l ++ [b] := by
      intro hm
      have hnd' : ((l ++ [b]) ++ t :: post).Nodup := by simpa using hnd
      exact (List.nodup_append.1 hnd').2.2 t hm t List.mem_cons_self rfl
    have he : (l ++ b :: t :: post).erase t = l ++ b :: post := by
      rw [show l ++ b :: t :: post = (l ++ [b]) ++ t :: post by simp, List.erase_append_right _ ht,
        List.erase_cons_head]
      simp
    rw [Queues.drop_self, hq, he]
    exact chain_unlink_after hc (fun u hu => Function.update_of_ne (hne u (by simp [hu])) _ _)
      (Function.update_self ..) fun u hu => Function.update_of_ne (hne u (by simp [hu])) _ _
  · rw [Queues.drop_other _ _ hrp]
    refine (h.ready r hr).frame_update fun hm => hrp ?_
    rw [← ha.level r hr b hm, ha.level _ hl b hb]

/-- **Unlinking.** `scheduler_remove_task` takes a task out of the list of its
priority, and changes nothing when it is not in it. -/
theorem removeTask_refines {k : Kernel} {a : Abs} (h : Refines k a) (ha : a.Apart) {t : TaskPtr}
    (hl : a.level t < NUM_PRIORITY_LEVELS) (hd : t ∉ a.delayed) :
    ∃ k', schedulerRemoveTask k (some t) = some k' ∧ Refines k' (a.dequeue t) := by
  have hlev : (k.priority t).toNat = a.level t := by rw [h.priority]; rfl
  have hc := h.ready _ hl
  have hnd := chain_nodup hc
  have hlen := nodup_length_le hnd
  have hout : ∀ p < NUM_PRIORITY_LEVELS, t ∉ (a.dequeue t).ready p := fun p hp =>
    Abs.not_mem_dequeue ha t hnd hp
  simp only [schedulerRemoveTask, hlev, ge_iff_le, Nat.not_le.2 hl, if_false]
  by_cases hm : t ∈ a.ready (a.level t)
  · obtain ⟨pre, post, hq⟩ := List.append_of_mem hm
    rw [hq] at hc hnd hlen
    have ht : t ∉ pre := fun hm => (List.nodup_append.1 hnd).2.2 t hm t List.mem_cons_self rfl
    rw [findPred_mem hc ht (by simp only [List.length_append, List.length_cons] at hlen; omega)]
    rcases List.eq_nil_or_concat pre with rfl | ⟨l, b, rfl⟩
    · exact ⟨_, rfl, (unlink_first_refines h hl hq).cutNext hout hd⟩
    · simp only [List.concat_eq_append, List.getLast?_concat, Option.or, Found.ofPrev]
      have hq' : a.ready (a.level t) = l ++ b :: t :: post := by rw [hq]; simp
      exact ⟨_, rfl, (unlink_after_refines h ha hl hq').cutNext hout hd⟩
  · rw [findPred_absent hc hm hlen]
    refine ⟨k, rfl, { h with ready := fun r hr => ?_ }⟩
    show Chain k.next (k.readyLists r) (a.ready.drop (a.level t) t r)
    by_cases hrp : r = a.level t
    · subst hrp
      rw [Queues.drop_self, List.erase_of_not_mem hm]
      exact hc
    · rw [Queues.drop_other _ _ hrp]
      exact h.ready r hr

/-! ## Scheduling -/

theorem highest_refines {k : Kernel} {a : Abs} (h : Refines k a) :
    getHighestPriorityTask k = a.highest := by
  unfold getHighestPriorityTask Abs.highest Queues.top
  have : ∀ l : List Nat, (∀ p ∈ l, p < NUM_PRIORITY_LEVELS) →
      l.findSome? k.readyLists = l.findSome? fun p => (a.ready p).head? := by
    intro l hl
    induction l with
    | nil => rfl
    | cons p l ih =>
      simp only [List.findSome?_cons, chain_head (h.ready p (hl p List.mem_cons_self)),
        ih fun r hr => hl r (List.mem_cons_of_mem _ hr)]
  exact this _ fun p hp => List.mem_range.1 hp

section Calls

variable {k : Kernel} {a : Abs}

theorem enqueue_refines (h : Refines k a) {t : TaskPtr} (hw : a.Waits (some t)) :
    ∃ k', schedulerAddTask k (some t) = some k' ∧ Refines k' (a.enqueue t) :=
  addTask_refines h hw.apart.distinct (hw.wf.level_lt t) (fun _ hp => hw.wf.not_mem (.inr (.inr rfl)) hp)
    (hw.not_mem (.inr (.inr rfl)))

theorem dequeue_refines (h : Refines k a) {out : Option TaskPtr} (hw : a.Waits out) {t : TaskPtr}
    (ht : t ∉ a.delayed) : ∃ k', schedulerRemoveTask k (some t) = some k' ∧ Refines k' (a.dequeue t) :=
  removeTask_refines h hw.apart (hw.wf.level_lt t) ht

theorem rotate_refines (h : Refines k a) (hw : a.Waits none) :
    ∃ k', rotateCurrent k = some k' ∧ Refines k' a.rotate := by
  unfold rotateCurrent Abs.rotate
  rw [h.currentTcb]
  cases a.current with
  | none => exact ⟨k, rfl, h⟩
  | some c =>
    simp only [h.state]
    split
    · rename_i hs
      have hc := hw.ready_not_mem hs
      obtain ⟨k₁, e₁, h₁⟩ := dequeue_refines h hw hc
      obtain ⟨k₂, e₂, h₂⟩ := enqueue_refines h₁ (Abs.waits_dequeue hw hc)
      exact ⟨k₂, by rw [e₁, Option.bind_some, e₂], h₂⟩
    · exact ⟨k, rfl, h⟩

theorem dispatch_refines (h : Refines k a) (hw : a.Waits none) {n : TaskPtr} (hn : n ∉ a.delayed) :
    ∃ k', dispatch k n = some k' ∧ Refines k' (a.dispatch n) := by
  obtain ⟨k₁, e₁, h₁⟩ := dequeue_refines h hw hn
  have h₂ := h₁.setState n .running
  exact ⟨taskSetCurrent { k₁.setState n .running with currentTcb := some n } (some n),
    by rw [dispatch, e₁, Option.map_some], { h₂ with currentTcb := rfl, currentTask := rfl }⟩

theorem schedule_refines (h : Refines k a) (hw : a.Waits none) :
    ∃ k', schedule k = some k' ∧ Refines k' a.schedule := by
  unfold schedule Abs.schedule
  rw [highest_refines h]
  cases hn : a.highest with
  | none => exact ⟨k, rfl, h⟩
  | some n =>
    simp only [h.currentTcb]
    split
    · obtain ⟨k₁, e₁, h₁⟩ := rotate_refines h hw
      have hr := Abs.waits_rotate hw
      obtain ⟨k₂, e₂, h₂⟩ :=
        dispatch_refines h₁ hr (hr.ready_not_mem (by rw [Abs.rotate_state, (hw.highest_mem hn).1]))
      exact ⟨k₂, by rw [e₁, Option.bind_some, e₂], h₂⟩
    · exact ⟨k, rfl, h⟩

theorem setState_enqueue (a : Abs) (t : TaskPtr) (s : TaskState) :
    (a.setState t s).enqueue t = a.enqueue t := by
  simp [Abs.setState, Abs.enqueue, Abs.level]

theorem requeue_refines (h : Refines k a) (hw : a.Waits none) :
    ∃ k', requeueCurrent k = some k' ∧ Refines k' a.requeue := by
  unfold requeueCurrent Abs.requeue
  rw [h.currentTcb]
  cases a.current with
  | none => exact ⟨k, rfl, h⟩
  | some c =>
    simp only [h.state]
    split
    · rename_i hs
      have hc : a.Waits (some c) := Abs.waits_take hw (by simp [hs]) (by simp [hs])
      obtain ⟨k', e, h'⟩ := enqueue_refines (h.setState c .ready) (Abs.waits_setState hc .ready)
      exact ⟨k', e, by rwa [setState_enqueue] at h'⟩
    · exact ⟨k, rfl, h⟩

theorem yield_refines (h : Refines k a) (hw : a.Waits none) :
    ∃ k', schedulerYield k = some k' ∧ Refines k' a.yield := by
  unfold schedulerYield Abs.yield
  rw [h.running]
  split
  · exact ⟨k, rfl, h⟩
  · obtain ⟨k₁, e₁, h₁⟩ := requeue_refines h hw
    obtain ⟨k₂, e₂, h₂⟩ := schedule_refines h₁ (Abs.waits_requeue hw)
    exact ⟨k₂, by rw [e₁, Option.bind_some, e₂], h₂⟩

theorem preempts_refines (h : Refines k a) : preempts k = a.preempts := by
  cases hh : a.highest <;> cases hc : a.current <;>
    simp [preempts, Abs.preempts, h.running, highest_refines h, h.currentTcb, h.priority, hh, hc]

theorem processDelayed_none (h : k.delayedList = none) : processDelayedTasks k = some k := by
  unfold processDelayedTasks processDelayedLoop
  rw [h]

/-- The first delayed task moves to a ready list. -/
theorem Abs.distinct_release {t : TaskPtr} {l : List TaskPtr} (hd : Abs.Distinct { a with delayed := t :: l })
    (ht : t ∉ l) : Abs.Distinct { a.enqueue t with delayed := l } where
  ready p hp r hr u hu hu' := by
    have hout := hd.delayed t List.mem_cons_self
    rcases Queues.mem_push.1 hu with h1 | ⟨h1, e1⟩
    · rcases Queues.mem_push.1 hu' with h2 | ⟨-, e2⟩
      · exact hd.ready p hp r hr u h1 h2
      · exact absurd (e2 ▸ h1) (hout p hp)
    · rcases Queues.mem_push.1 hu' with h2 | ⟨h2, -⟩
      · exact absurd (e1 ▸ h2) (hout r hr)
      · exact h1.trans h2.symm
  delayed u hu p hp hm := by
    rcases Queues.mem_push.1 hm with h1 | ⟨-, e1⟩
    · exact hd.delayed u (List.mem_cons_of_mem _ hu) p hp h1
    · exact ht (e1 ▸ hu)

theorem Abs.distinct_releaseFrom : ∀ {l : List TaskPtr} {a : Abs}, Abs.Distinct { a with delayed := l } →
    l.Nodup → (Abs.releaseFrom l a).Distinct
  | [], _, hd, _ => hd
  | t :: l, a, hd, hn => by
    obtain ⟨ht, hl⟩ := List.nodup_cons.1 hn
    unfold Abs.releaseFrom
    split
    · exact Abs.distinct_releaseFrom (a := a.enqueue t) (Abs.distinct_release hd ht) hl
    · exact hd

/-- One round of the release: the first delayed task leaves the list for its
ready list, if its priority has one. -/
theorem release_refines {t : TaskPtr} {l : List TaskPtr} (h : Refines k { a with delayed := t :: l })
    (hd : Abs.Distinct { a with delayed := t :: l }) (ht : t ∉ l) :
    ∃ k', schedulerAddTask ((({ k with delayedList := k.next t } : Kernel).setState t .ready).setNext t none)
        (some t) = some k' ∧ Refines k' { a.enqueue t with delayed := l } := by
  have hout := hd.delayed t List.mem_cons_self
  have h₁ : Refines { k with delayedList := k.next t } { a with delayed := l } :=
    { h with delayed := h.delayed.2 }
  have h₂ := (h₁.setState t .ready).cutNext (t := t) hout ht
  by_cases hl : a.level t < NUM_PRIORITY_LEVELS
  · have hd₂ : (Abs.setState { a with delayed := l } t .ready).Distinct :=
      ⟨hd.ready, fun u hu => hd.delayed u (List.mem_cons_of_mem _ hu)⟩
    obtain ⟨k', e, h'⟩ := addTask_refines h₂ hd₂ hl hout ht
    rw [setState_enqueue] at h'
    exact ⟨k', e, h'⟩
  · -- `scheduler_add_task` turns the task down
    have hp := h₂.priority
    have hlev : (((({ k with delayedList := k.next t } : Kernel).setState t .ready).setNext t none).priority t).toNat
        = a.level t := by rw [hp]; rfl
    refine ⟨_, ?_, { h₂ with ready := fun p hp => ?_ }⟩
    · simp only [schedulerAddTask, hlev, ge_iff_le, Nat.not_lt.1 hl, if_true]
    · show Chain _ _ (a.ready.push (a.level t) t p)
      rw [Queues.push_other _ _ (by omega)]
      exact h₂.ready p hp

theorem processDelayedLoop_refines : ∀ {l : List TaskPtr} {n : Nat} {k : Kernel} {a : Abs},
    Refines k { a with delayed := l } → Abs.Distinct { a with delayed := l } → l.length ≤ n →
    ∃ k', processDelayedLoop n k = some k' ∧ Refines k' (Abs.releaseFrom l a)
  | [], n, k, a, h, _, _ => by
    have hd : k.delayedList = none := h.delayed
    exact ⟨k, by rw [processDelayedLoop, hd], h⟩
  | t :: l, n, k, a, h, hd, hn => by
    have hhead : k.delayedList = some t := h.delayed.1
    have ht : t ∉ l := (List.nodup_cons.1 (chain_nodup h.delayed)).1
    have hdue : (k.wakeTime t ≤ k.systemTickCount) = (a.wakeTime t ≤ a.tick) := by rw [h.wakeTime, h.tick]
    unfold processDelayedLoop Abs.releaseFrom
    simp only [hhead, hdue]
    split
    · obtain ⟨m, rfl⟩ : ∃ m, n = m + 1 := ⟨n - 1, by simp only [List.length_cons] at hn; omega⟩
      obtain ⟨k₁, e₁, h₁⟩ := release_refines h hd ht
      obtain ⟨k₂, e₂, h₂⟩ :=
        processDelayedLoop_refines (a := a.enqueue t) h₁ (Abs.distinct_release hd ht) (by simpa using hn)
      exact ⟨k₂, by simp only [e₁, Option.bind_some, e₂], h₂⟩
    · exact ⟨k, rfl, h⟩

/-- **The release.** `process_delayed_tasks` comes to the end of its loop, and
moves the tasks whose time has come. -/
theorem processDelayed_refines (h : Refines k a) (hd : a.Distinct) :
    ∃ k', processDelayedTasks k = some k' ∧ Refines k' (Abs.releaseFrom a.delayed a) :=
  processDelayedLoop_refines h hd (nodup_length_le (chain_nodup h.delayed))

theorem setTick_refines (h : Refines k a) :
    Refines { k with systemTickCount := k.systemTickCount + 1 } { a with tick := a.tick + 1 } :=
  { h with tick := by rw [← h.tick] }

theorem tick_refines (h : Refines k a) (hw : a.Waits none) :
    ∃ k', schedulerTick k = some k' ∧ Refines k' a.onTick := by
  have hw₁ := Abs.waits_setTick hw (a.tick + 1)
  obtain ⟨k₁, e₁, h₁⟩ := processDelayed_refines (setTick_refines h) hw₁.apart.distinct
  simp only [schedulerTick, e₁, Option.bind_some, preempts_refines h₁, Abs.onTick]
  split
  · exact yield_refines h₁ (Abs.waits_releaseFrom hw₁)
  · exact ⟨k₁, rfl, h₁⟩

theorem start_refines (h : Refines k a) (hw : a.Waits none) :
    ∃ k', schedulerStart k = some k' ∧ Refines k' a.start := by
  have h₁ : Refines { k with schedulerRunning := true } { a with running := true } := { h with running := rfl }
  exact schedule_refines h₁ (Abs.waits_setRunning hw)

/-! ## The calls of task.c -/

theorem find_refines (h : Refines k a) (id : UInt32) : taskGetTcb k id = a.find id := by
  unfold taskGetTcb Abs.find
  rw [h.taskId, h.state]

theorem free_refines (h : Refines k a) : findFreeTcb k = a.free := by
  unfold findFreeTcb Abs.free
  rw [h.taskId, h.state]

theorem yieldIf_refines (h : Refines k a) (hw : a.Waits none) (t : TaskPtr) :
    ∃ k', yieldIfCurrent k t = some (k', .ok) ∧ Refines k' (a.yieldIf t) := by
  unfold yieldIfCurrent Abs.yieldIf
  rw [h.currentTask]
  split
  · obtain ⟨k', e, h'⟩ := yield_refines h hw
    exact ⟨k', by rw [taskYield, e, Option.map_some], h'⟩
  · exact ⟨k, rfl, h⟩

/-- Giving a task another state and taking it out of its list, in either order. -/
theorem stop_refines (h : Refines k a) (hw : a.Waits none) {t : TaskPtr} (ht : t ∉ a.delayed)
    (s : TaskState) :
    ∃ k', schedulerRemoveTask (k.setState t s) (some t) = some k' ∧
      Refines k' ((a.dequeue t).setState t s) :=
  removeTask_refines (h.setState t s) ⟨hw.apart.level, hw.apart.delayed⟩ (hw.wf.level_lt t) ht

theorem fill_refines (h : Refines k a) {t : TaskPtr} (hw : a.Waits (some t)) (f : UInt32)
    (name : Option (List Char)) (p : UInt8) (params : UInt32) :
    Refines { k.setTcb t (newTcb k f name p params) with nextTaskId := k.nextTaskId + 1 } (a.fill t p) := by
  have ht : ∀ q < NUM_PRIORITY_LEVELS, t ∉ a.ready q := fun _ hq => hw.wf.not_mem (.inr (.inr rfl)) hq
  exact { h with
    ready := fun q hq => by
      show Chain (k.setTcb t _).next (k.readyLists q) (a.ready q)
      rw [Kernel.setTcb_next]
      exact (h.ready q hq).frame_update (ht q hq)
    delayed := by
      show Chain (k.setTcb t _).next k.delayedList a.delayed
      rw [Kernel.setTcb_next]
      exact h.delayed.frame_update (hw.not_mem (.inr (.inr rfl)))
    state := (Kernel.setTcb_state k t _).trans (by rw [h.state]; rfl)
    priority := (Kernel.setTcb_priority k t _).trans (by rw [h.priority]; rfl)
    taskId := (Kernel.setTcb_taskId k t _).trans (by rw [h.taskId, Abs.fill, ← h.nextTaskId]; rfl)
    wakeTime := (Kernel.setTcb_wakeTime k t _).trans (by rw [h.wakeTime]; rfl)
    nextTaskId := by rw [h.nextTaskId]; rfl }

theorem create_refines (h : Refines k a) (hw : a.Waits none) {t : TaskPtr} (hf : a.free = some t)
    (hn : a.current = some t → a.nextTaskId ≠ 0) (f : UInt32) (name : Option (List Char)) {p : UInt8}
    (hp : p.toNat < NUM_PRIORITY_LEVELS) (params : UInt32) (wantId : Bool) :
    ∃ k', taskCreate k (some f) name p params wantId =
        some (k', .ok, if wantId then some a.nextTaskId else none) ∧
      Refines k' ((a.fill t p).enqueue t) := by
  obtain ⟨k', e, h'⟩ := enqueue_refines (fill_refines h (Abs.waits_free hw hf) f name p params)
    (Abs.waits_fill (Abs.waits_free hw hf) hp hn)
  refine ⟨k', ?_, h'⟩
  have hid : k'.taskId t = a.nextTaskId := by
    rw [h'.taskId]
    exact Function.update_self ..
  simp only [taskCreate, ge_iff_le, Nat.not_le.2 hp, if_false, free_refines h, hf, e, Option.map_some, hid]

theorem delete_refines (h : Refines k a) (hw : a.Waits none) {id : UInt32} {t : TaskPtr}
    (hf : a.find id = some t) (ht : t ∉ a.delayed) :
    ∃ k', taskDelete k id = some (k', .ok) ∧
      Refines k' (((a.dequeue t).setState t .deleted).yieldIf t) := by
  obtain ⟨k₁, e₁, h₁⟩ := dequeue_refines h hw ht
  obtain ⟨k₂, e₂, h₂⟩ := yieldIf_refines (h₁.setState t .deleted) (Abs.waits_stop hw ht (by simp)) t
  exact ⟨k₂, by simp only [taskDelete, find_refines h, hf, e₁, Option.bind_some, e₂], h₂⟩

theorem suspend_refines (h : Refines k a) (hw : a.Waits none) {id : UInt32} {t : TaskPtr}
    (hf : a.find id = some t) (ht : t ∉ a.delayed) :
    ∃ k', taskSuspend k id = some (k', .ok) ∧
      Refines k' (((a.dequeue t).setState t .suspended).yieldIf t) := by
  obtain ⟨k₁, e₁, h₁⟩ := stop_refines h hw ht .suspended
  obtain ⟨k₂, e₂, h₂⟩ := yieldIf_refines h₁ (Abs.waits_stop hw ht (by simp)) t
  refine ⟨k₂, ?_, h₂⟩
  simp only [taskSuspend, find_refines h, hf, h.state, (Abs.find_spec hf).2, if_false, e₁, Option.bind_some, e₂]

theorem resume_refines (h : Refines k a) (hw : a.Waits none) {id : UInt32} {t : TaskPtr}
    (hf : a.find id = some t) (hs : a.state t = .suspended) :
    ∃ k', taskResume k id = some (k', .ok) ∧ Refines k' (a.enqueue t) := by
  have ht : a.Waits (some t) := Abs.waits_take hw (by simp [hs]) (by simp [hs])
  obtain ⟨k₁, e₁, h₁⟩ := enqueue_refines (h.setState t .ready) (Abs.waits_setState ht .ready)
  rw [setState_enqueue] at h₁
  exact ⟨k₁, by simp [taskResume, find_refines h, hf, h.state, hs, e₁], h₁⟩

theorem block_refines (h : Refines k a) (hw : a.Waits none) {c : TaskPtr} (hc : c ∉ a.delayed)
    (ticks : UInt32) :
    ∃ k', blockCurrent k c ticks = some k' ∧ Refines k' (a.block c ticks) := by
  have h₁ : Refines (k.setWakeTime c (schedulerGetTickCount k + ticks))
      { a with wakeTime := Function.update a.wakeTime c (a.tick + ticks) } :=
    { h with
      ready := by rw [Kernel.setWakeTime_next]; exact h.ready
      delayed := by rw [Kernel.setWakeTime_next]; exact h.delayed
      state := by rw [Kernel.setWakeTime_state, h.state]
      priority := by rw [Kernel.setWakeTime_priority, h.priority]
      taskId := by rw [Kernel.setWakeTime_taskId, h.taskId]
      wakeTime := by rw [Kernel.setWakeTime_wakeTime, h.wakeTime, schedulerGetTickCount, h.tick] }
  exact stop_refines h₁ (Abs.waits_setWakeTime hw _) hc .blocked

theorem delay_refines (h : Refines k a) (hw : a.Waits none) {c : TaskPtr} (hc : a.current = some c)
    (hd : c ∉ a.delayed) {ticks : UInt32} (ht : ticks > 0) :
    ∃ k', taskDelay k ticks = some k' ∧ Refines k' (a.block c ticks).yield := by
  obtain ⟨k₁, e₁, h₁⟩ := block_refines h hw hd ticks
  obtain ⟨k₂, e₂, h₂⟩ := yield_refines h₁ (Abs.waits_block hw hd ticks)
  exact ⟨k₂, by simp only [taskDelay, h.currentTask, hc, ht, if_true, e₁, Option.bind_some, taskYield, e₂], h₂⟩

/-- **Refinement of a call.** From related states every proper call returns, in
a state related to what the call does to the queues. -/
theorem call_refines (h : Refines k a) (hw : a.Waits none) {c : Call} (hc : a.Proper c) (hs : a.Spares c) :
    ∃ k', call k c = some (k', a.ret c) ∧ Refines k' (a.call c) := by
  cases c with
  | taskCreate f name p params wantId =>
    cases f with
    | none => exact ⟨k, rfl, h⟩
    | some f =>
      simp only [Abs.call, Abs.ret]
      by_cases hp : p.toNat ≥ NUM_PRIORITY_LEVELS
      · refine ⟨k, ?_, ?_⟩
        · simp only [call, taskCreate, hp, if_true, Option.map_some]
        · simpa only [hp, if_true] using h
      · simp only [hp, if_false]
        cases hf : a.free with
        | none => exact ⟨k, by simp only [call, taskCreate, hp, if_false, free_refines h, hf, Option.map_some], h⟩
        | some t =>
          obtain ⟨k', e, h'⟩ := create_refines h hw hf (fun _ => hc) f name (Nat.not_le.1 hp) params wantId
          exact ⟨k', by rw [call, e, Option.map_some], h'⟩
  | taskDelete id =>
    simp only [Abs.call, Abs.ret]
    cases hf : a.find id with
    | none => exact ⟨k, by simp only [call, taskDelete, find_refines h, hf, Option.map_some], h⟩
    | some t =>
      obtain ⟨k', e, h'⟩ := delete_refines h hw hf (hs t hf)
      exact ⟨k', by rw [call, e, Option.map_some], h'⟩
  | taskSuspend id =>
    simp only [Abs.call, Abs.ret]
    cases hf : a.find id with
    | none => exact ⟨k, by simp only [call, taskSuspend, find_refines h, hf, Option.map_some], h⟩
    | some t =>
      obtain ⟨k', e, h'⟩ := suspend_refines h hw hf (hs t hf)
      exact ⟨k', by rw [call, e, Option.map_some], h'⟩
  | taskResume id =>
    simp only [Abs.call, Abs.ret]
    cases hf : a.find id with
    | none => exact ⟨k, by simp only [call, taskResume, find_refines h, hf, Option.map_some], h⟩
    | some t =>
      by_cases hsus : a.state t = .suspended
      · obtain ⟨k', e, h'⟩ := resume_refines h hw hf hsus
        simp only [hsus, if_true]
        exact ⟨k', by rw [call, e, Option.map_some], h'⟩
      · simp only [hsus, if_false]
        exact ⟨k, by simp only [call, taskResume, find_refines h, hf, h.state, ne_eq, hsus, not_false_eq_true,
          if_true, Option.map_some], h⟩
  | taskDelay ticks =>
    simp only [Abs.call]
    cases hcur : a.current with
    | none => exact ⟨k, by simp only [call, taskDelay, h.currentTask, hcur, Option.map_some, Abs.ret], h⟩
    | some c =>
      by_cases ht : ticks > 0
      · obtain ⟨k', e, h'⟩ := delay_refines h hw hcur (hs c hcur) ht
        exact ⟨k', by rw [call, e, Option.map_some, Abs.ret], by simpa only [ht, if_true] using h'⟩
      · exact ⟨k, by simp only [call, taskDelay, h.currentTask, hcur, ht, if_false, Option.map_some, Abs.ret],
          by simpa only [ht, if_false] using h⟩
  | taskYield =>
    obtain ⟨k', e, h'⟩ := yield_refines h hw
    exact ⟨k', by rw [call, taskYield, e, Option.map_some, Abs.ret], h'⟩
  | schedulerYield =>
    obtain ⟨k', e, h'⟩ := yield_refines h hw
    exact ⟨k', by rw [call, e, Option.map_some, Abs.ret], h'⟩
  | schedulerTick =>
    obtain ⟨k', e, h'⟩ := tick_refines h hw
    exact ⟨k', by rw [call, e, Option.map_some, Abs.ret], h'⟩
  | schedulerStart =>
    obtain ⟨k', e, h'⟩ := start_refines h hw
    exact ⟨k', by rw [call, e, Option.map_some, Abs.ret], h'⟩

end Calls

theorem boot_refines : Refines Kernel.boot Abs.boot where
  ready _ _ := rfl
  delayed := rfl
  state := rfl
  priority := rfl
  taskId := rfl
  wakeTime := rfl
  currentTcb := rfl
  currentTask := rfl
  running := rfl
  tick := rfl
  nextTaskId := rfl

end Rtos.Sched
