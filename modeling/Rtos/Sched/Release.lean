import Rtos.Sched.Delayed

/-!
# The operations on the delayed list, from any state

`add_to_delayed_list` and `process_delayed_tasks` need no more than that the
delayed list is sorted and NULL-terminated and, for the release, which moves
tasks by the same `next` fields, that no task is on two lists (`Queued`, which
holds in every run of `timers`). Nothing is asked of the states of the tasks,
of the CPU's owner or of the tick count.

`delayed_list_operations`: the task goes in behind those that wake no later,
and the tasks whose time has come, and no others, go to the ends of the ready
lists of their priorities.
-/
namespace Rtos.Sched

open Rtos.Core

/-- The ready lists are NULL-terminated, and no task is on two lists. -/
structure Queued (k : Kernel) (ready : Queues TaskPtr) (delayed : List TaskPtr) : Prop where
  list : ∀ p < NUM_PRIORITY_LEVELS, Chain k.next (k.readyLists p) (ready p)
  once : ∀ p < NUM_PRIORITY_LEVELS, ∀ r < NUM_PRIORITY_LEVELS, ∀ t ∈ ready p, t ∈ ready r → p = r
  apart : ∀ t ∈ delayed, ∀ p < NUM_PRIORITY_LEVELS, t ∉ ready p

/-- `t` went onto the list `before ++ behind`, and nothing else changed. -/
structure Inserted (k k' : Kernel) (t : TaskPtr) (before behind : List TaskPtr) : Prop where
  list : Chain k'.next k'.delayedList (before ++ t :: behind)
  sorted : SortedBy k'.wakeTime (before ++ t :: behind)
  noLater : ∀ u ∈ before, k.wakeTime u ≤ k.wakeTime t
  later : ∀ u ∈ behind, k.wakeTime t < k.wakeTime u
  others : ∀ u ∉ t :: (before ++ behind), k'.next u = k.next u
  rest : k' = k.relink k'.next k'.delayedList

/-- The tasks of the list `delayed` whose time has come are READY and behind the
tasks of their ready lists, in the order of `delayed`; the others are still
delayed, and the scheduler's other variables are unchanged. A task whose
priority has no list, which `task_create` does not make, is only taken off. -/
structure Released (k k' : Kernel) (ready : Queues TaskPtr) (delayed : List TaskPtr) : Prop where
  list : Chain k'.next k'.delayedList (delayed.filter fun t => ¬ k.wakeTime t ≤ k.systemTickCount)
  queued : Queued k'
    (fun p => ready p ++
      (delayed.filter fun t => k.wakeTime t ≤ k.systemTickCount).filter fun t => (k.priority t).toNat = p)
    (delayed.filter fun t => ¬ k.wakeTime t ≤ k.systemTickCount)
  state : k'.state = fun t => if t ∈ delayed ∧ k.wakeTime t ≤ k.systemTickCount then .ready else k.state t
  priority : k'.priority = k.priority
  taskId : k'.taskId = k.taskId
  wakeTime : k'.wakeTime = k.wakeTime
  currentTask : k'.currentTask = k.currentTask
  currentTcb : k'.currentTcb = k.currentTcb
  running : k'.schedulerRunning = k.schedulerRunning
  tick : k'.systemTickCount = k.systemTickCount
  nextTaskId : k'.nextTaskId = k.nextTaskId

variable {k : Kernel} {delayed : List TaskPtr} {ready : Queues TaskPtr} {t : TaskPtr}

/-! ## Insertion -/

theorem inserted (hc : Chain k.next k.delayedList delayed) (hs : SortedBy k.wakeTime delayed)
    (ht : t ∉ delayed) :
    ∃ k' before behind, addToDelayedList k t = some k' ∧ delayed = before ++ behind ∧
      Inserted k k' t before behind := by
  obtain ⟨next', head, e, hlist, hsame⟩ := addToDelayedList_spec hc ht
  have hsplit : due k.wakeTime (k.wakeTime t) delayed ++ pending k.wakeTime (k.wakeTime t) delayed = delayed :=
    List.takeWhile_append_dropWhile
  have hsorted := sorted_insertAfter hs t
  rw [insertAfter_eq] at hlist hsorted
  refine ⟨_, _, _, e, hsplit.symm, {
    list := hlist
    sorted := hsorted
    noLater := fun u hu => ((mem_due hs).1 hu).2
    later := fun u hu => UInt32.not_le.1 ((mem_pending hs).1 hu).2
    others := fun u hu => hsame u (by rwa [hsplit] at hu)
    rest := rfl }⟩

/-! ## Release -/

@[simp] theorem setCurrent_delayedList (k : Kernel) (c : Option TaskPtr) :
    (taskSetCurrent k c).delayedList = k.delayedList := rfl

@[simp] theorem setCurrent_wakeTime (k : Kernel) (c : Option TaskPtr) :
    (taskSetCurrent k c).wakeTime = k.wakeTime := rfl

@[simp] theorem setCurrent_tick (k : Kernel) (c : Option TaskPtr) :
    (taskSetCurrent k c).systemTickCount = k.systemTickCount := rfl

/-- The release does not look at the current task of src/kernel/task.c. -/
theorem addTask_setCurrent (k : Kernel) (c : Option TaskPtr) (t : TaskPtr) :
    schedulerAddTask (taskSetCurrent k c) (some t) = (schedulerAddTask k (some t)).map (taskSetCurrent · c) := by
  simp only [schedulerAddTask]
  rw [show (taskSetCurrent k c).priority t = k.priority t from rfl]
  split
  · rfl
  · rw [show (((taskSetCurrent k c).setState t .ready).setNext t none).readyLists =
        ((k.setState t .ready).setNext t none).readyLists from rfl]
    split
    · rfl
    · rw [Option.map_map]
      rfl

theorem processDelayedLoop_setCurrent (c : Option TaskPtr) : ∀ (n : Nat) (k : Kernel),
    processDelayedLoop n (taskSetCurrent k c) = (processDelayedLoop n k).map (taskSetCurrent · c)
  | n, k => by
    unfold processDelayedLoop
    rw [setCurrent_delayedList]
    split
    · rfl
    · rename_i t _
      rw [setCurrent_wakeTime, setCurrent_tick]
      by_cases ht : k.wakeTime t ≤ k.systemTickCount
      · rw [if_pos ht, if_pos ht]
        cases n with
        | zero => rfl
        | succ n =>
          have hadd := addTask_setCurrent
            ((({ k with delayedList := k.next t } : Kernel).setState t .ready).setNext t none) c t
          refine (congrArg (Option.bind · (processDelayedLoop n)) hadd).trans ?_
          rw [Option.bind_map, Option.map_bind]
          exact Option.bind_congr fun k' _ => processDelayedLoop_setCurrent c n k'
      · rw [if_neg ht, if_neg ht]
        rfl

/-- The lists `ready` and `delayed` with the other variables of `k`. -/
def Kernel.withLists (k : Kernel) (ready : Queues TaskPtr) (delayed : List TaskPtr) : Abs where
  ready := ready
  delayed := delayed
  state := k.state
  priority := k.priority
  taskId := k.taskId
  wakeTime := k.wakeTime
  current := k.currentTcb
  running := k.schedulerRunning
  tick := k.systemTickCount
  nextTaskId := k.nextTaskId

theorem withLists_refines (hc : Chain k.next k.delayedList delayed) (hw : Queued k ready delayed) :
    Refines (taskSetCurrent k k.currentTcb) (k.withLists ready delayed) where
  ready := hw.list
  delayed := hc
  state := rfl
  priority := rfl
  taskId := rfl
  wakeTime := rfl
  currentTcb := rfl
  currentTask := rfl
  running := rfl
  tick := rfl
  nextTaskId := rfl

theorem processDelayed_current {k' : Kernel} (h : processDelayedTasks k = some k') :
    k'.currentTask = k.currentTask := by
  have hmap := processDelayedLoop_setCurrent k.currentTask MAX_TASKS k
  have hk : taskSetCurrent k k.currentTask = k := rfl
  have h : processDelayedLoop MAX_TASKS k = some k' := h
  rw [hk, h, Option.map_some] at hmap
  have hk' : k' = taskSetCurrent k' k.currentTask := Option.some.inj hmap
  rw [hk']
  rfl

theorem released (hc : Chain k.next k.delayedList delayed) (hs : SortedBy k.wakeTime delayed)
    (hw : Queued k ready delayed) : ∃ k', processDelayedTasks k = some k' ∧ Released k k' ready delayed := by
  have hd : (k.withLists ready delayed).Distinct := ⟨hw.once, hw.apart⟩
  obtain ⟨k₁, e₁, h⟩ := processDelayed_refines (withLists_refines hc hw) hd
  have hmap := processDelayedLoop_setCurrent k.currentTcb MAX_TASKS k
  obtain ⟨k', e, rfl⟩ := Option.map_eq_some_iff.1 (hmap.symm.trans e₁)
  have hd' : (Abs.releaseFrom (k.withLists ready delayed).delayed (k.withLists ready delayed)).Distinct :=
    Abs.distinct_releaseFrom hd (chain_nodup hc)
  rw [Abs.release_eq (a := k.withLists ready delayed) hs] at h hd'
  refine ⟨k', e, {
    list := h.delayed
    queued := ⟨h.ready, hd'.ready, hd'.delayed⟩
    state := h.state.trans (funext fun t => ?_)
    priority := h.priority
    taskId := h.taskId
    wakeTime := h.wakeTime
    currentTask := processDelayed_current e
    currentTcb := h.currentTcb
    running := h.running
    tick := h.tick
    nextTaskId := h.nextTaskId }⟩
  simp only [List.mem_filter, decide_eq_true_iff]
  rfl

theorem TimedBy.queued {a : Abs} (h : TimedBy k a) : Queued k a.ready a.delayed where
  list := h.refines.ready
  once := h.waits.apart.distinct.ready
  apart := h.waits.apart.delayed

/-- **The delayed list.** From any kernel whose delayed list is sorted both
operations return. The insertion leaves a sorted list with the task behind
those that wake no later and in front of those that wake later; the release,
at any tick count, takes off exactly the tasks whose time has come, and
appends them in order to the ready lists of their priorities. -/
theorem delayed_list_operations (hc : Chain k.next k.delayedList delayed) (hs : SortedBy k.wakeTime delayed) :
    (∀ t ∉ delayed, ∃ k' before behind, addToDelayedList k t = some k' ∧ delayed = before ++ behind ∧
      Inserted k k' t before behind) ∧
    ∀ ready, Queued k ready delayed → ∃ k', processDelayedTasks k = some k' ∧ Released k k' ready delayed :=
  ⟨fun _ ht => inserted hc hs ht, fun _ hw => released hc hs hw⟩

/-- The order decides where the task goes. -/
theorem Inserted.parts {k' : Kernel} {before behind : List TaskPtr} (h : Inserted k k' t before behind) :
    before = (before ++ behind).filter (fun u => k.wakeTime u ≤ k.wakeTime t) ∧
    behind = (before ++ behind).filter fun u => k.wakeTime t < k.wakeTime u := by
  have hle : ∀ u ∈ behind, ¬ k.wakeTime u ≤ k.wakeTime t := fun u hu => UInt32.not_le.2 (h.later u hu)
  have hlt : ∀ u ∈ before, ¬ k.wakeTime t < k.wakeTime u := fun u hu => UInt32.not_lt.2 (h.noLater u hu)
  constructor
  · rw [List.filter_append, List.filter_eq_self.2 (by simpa using h.noLater),
      List.filter_eq_nil_iff.2 (by simpa using hle), List.append_nil]
  · rw [List.filter_append, List.filter_eq_nil_iff.2 (by simpa using hlt),
      List.filter_eq_self.2 (by simpa using h.later), List.nil_append]

/-- The tasks 0 and 1 sleep until tick 5 and the task 2 until tick 9; the task 3
delays itself until tick 5, too, and goes in between. -/
theorem delayed_list_operations_tie : ∃ k ready, timers.Reachable k ∧
    Chain k.next k.delayedList [0, 1, 2] ∧ k.wakeTime 3 = 5 ∧
    (∃ k', addToDelayedList k 3 = some k' ∧ Inserted k k' 3 [0, 1] [2]) ∧
    ∃ k', processDelayedTasks { k with systemTickCount := 5 } = some k' ∧
      Released { k with systemTickCount := 5 } k' ready [0, 1, 2] ∧ Chain k'.next k'.delayedList [2] := by
  obtain ⟨k, -, hr, hnext, hw⟩ := LTS.reachable_of_exec step_of_allowedEvent rfl
    (fun k : Kernel => (k.delayedList = some 0 ∧ k.next 0 = some 1 ∧ k.next 1 = some 2 ∧ k.next 2 = none) ∧
      k.wakeTime 0 = 5 ∧ k.wakeTime 1 = 5 ∧ k.wakeTime 2 = 9 ∧ k.wakeTime 3 = 5)
    [.call (.taskCreate (some 1) none 3 0 true), .call (.taskCreate (some 1) none 3 0 true),
      .call (.taskCreate (some 1) none 3 0 true), .call (.taskCreate (some 1) none 3 0 true),
      .call .schedulerStart, .call (.taskDelay 5), .link 0, .call (.taskDelay 5), .link 1,
      .call (.taskDelay 9), .link 2, .call (.taskDelay 5)] (by decide +kernel)
  have hc : Chain k.next k.delayedList [0, 1, 2] := hnext
  obtain ⟨h0, h1, h2, h3⟩ := hw
  obtain ⟨a, h⟩ := timed_inductive.reachable k hr
  have hs : SortedBy k.wakeTime [0, 1, 2] := by simp [SortedBy, h0, h1, h2]
  have ha : a.delayed = [0, 1, 2] := chain_unique h.refines.delayed hc
  have hq : Queued k a.ready [0, 1, 2] := ha ▸ h.queued
  obtain ⟨k₁, before, behind, e₁, hl, hi⟩ := (delayed_list_operations hc hs).1 3 (by decide)
  obtain ⟨k₂, e₂, hrel⟩ := (delayed_list_operations (k := { k with systemTickCount := 5 }) hc hs).2 a.ready
    ⟨hq.list, hq.once, hq.apart⟩
  have hparts := hi.parts
  rw [← hl] at hparts
  have hbefore : before = [0, 1] := by rw [hparts.1]; simp [List.filter, h0, h1, h2, h3]
  have hbehind : behind = [2] := by rw [hparts.2]; simp [List.filter, h0, h1, h2, h3]
  have hrest : Chain k₂.next k₂.delayedList ([0, 1, 2].filter fun t => ¬ k.wakeTime t ≤ 5) := hrel.list
  have hlater : ([0, 1, 2] : List TaskPtr).filter (fun t => ¬ k.wakeTime t ≤ 5) = [2] := by
    simp [List.filter, h0, h1, h2]
  rw [hlater] at hrest
  exact ⟨k, a.ready, hr, hc, h3, ⟨k₁, e₁, hbefore ▸ hbehind ▸ hi⟩, k₂, e₂, hrel, hrest⟩

end Rtos.Sched
