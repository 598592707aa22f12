import Rtos.Sched.Ready

/-!
# What `scheduler_yield` does to the CPU and to the queues

`Abs.yield_cases`: once the current task is back in its queue, either no task
is ready, or the current task is itself the first (`schedule` then does
nothing), or the first task is dispatched. From it, over the runs of
`Rtos.Sched.Ready`: after every yield and every tick no task of a priority
before the current one's waits (`yield_strict`, `tick_strict`), and a switch
takes the first waiting task and leaves the order of the others alone
(`switch_order`).
-/
namespace Rtos.Sched

open Rtos.Core

/-! ## Where a call enters `scheduler_yield` -/

/-- The state in which the call runs `scheduler_yield`, if it does. -/
def yieldEntry (k : Kernel) : Call → Option Kernel
  | .taskYield => some k
  | .schedulerYield => some k
  | .taskDelay ticks => match k.currentTask with
    | none => none
    | some c => if ticks > 0 then blockCurrent k c ticks else none
  | .taskDelete id => match taskGetTcb k id with
    | none => none
    | some t =>
      (schedulerRemoveTask k (some t)).bind fun k =>
        if k.currentTask = some t then some (k.setState t .deleted) else none
  | .taskSuspend id => match taskGetTcb k id with
    | none => none
    | some t =>
      (schedulerRemoveTask (k.setState t .suspended) (some t)).bind fun k =>
        if k.currentTask = some t then some k else none
  | .schedulerTick =>
    (processDelayedTasks { k with systemTickCount := k.systemTickCount + 1 }).bind fun k =>
      if preempts k then some k else none
  | .taskCreate .. | .taskResume _ | .schedulerStart => none

/-- Such a call is over when `scheduler_yield` is. -/
theorem call_of_yieldEntry {k e : Kernel} {c : Call} (he : yieldEntry k c = some e) :
    (call k c).map Prod.fst = schedulerYield e := by
  cases c with
  | taskYield => cases he; simp [call, taskYield, Option.map_map, Function.comp_def]
  | schedulerYield => cases he; simp [call, Option.map_map, Function.comp_def]
  | taskDelay ticks =>
    cases hc : k.currentTask with
    | none => simp only [yieldEntry, hc] at he; cases he
    | some t =>
      simp only [yieldEntry, hc] at he
      split at he
      · rename_i ht
        simp [call, taskDelay, hc, ht, he, taskYield, Option.map_map, Function.comp_def]
      · cases he
  | taskDelete id =>
    cases hf : taskGetTcb k id with
    | none => simp only [yieldEntry, hf] at he; cases he
    | some t =>
      simp only [yieldEntry, hf] at he
      obtain ⟨k₁, e₁, h₁⟩ := Option.bind_eq_some_iff.1 he
      split at h₁
      · rename_i hc
        cases h₁
        have hc' : (k₁.setState t .deleted).currentTask = some t := hc
        simp [call, taskDelete, hf, e₁, yieldIfCurrent, hc', taskYield, Option.map_map, Function.comp_def]
      · cases h₁
  | taskSuspend id =>
    cases hf : taskGetTcb k id with
    | none => simp only [yieldEntry, hf] at he; cases he
    | some t =>
      simp only [yieldEntry, hf] at he
      have hne := (tcb_spec hf).2
      obtain ⟨k₁, e₁, h₁⟩ := Option.bind_eq_some_iff.1 he
      split at h₁
      · rename_i hc
        cases h₁
        simp [call, taskSuspend, hf, hne, e₁, yieldIfCurrent, hc, taskYield, Option.map_map, Function.comp_def]
      · cases h₁
  | schedulerTick =>
    simp only [yieldEntry] at he
    obtain ⟨k₁, e₁, h₁⟩ := Option.bind_eq_some_iff.1 he
    split at h₁
    · rename_i hp
      cases h₁
      simp [call, schedulerTick, e₁, hp, Option.map_map, Function.comp_def]
    · cases h₁
  | _ => cases he

/-- The same on queues. -/
def Abs.entry (a : Abs) : Call → Option Abs
  | .taskYield => some a
  | .schedulerYield => some a
  | .taskDelay ticks => match a.current with
    | none => none
    | some c => if ticks > 0 then some (a.block c ticks) else none
  | .taskDelete id => match a.find id with
    | none => none
    | some t => if a.current = some t then some ((a.dequeue t).setState t .deleted) else none
  | .taskSuspend id => match a.find id with
    | none => none
    | some t => if a.current = some t then some ((a.dequeue t).setState t .suspended) else none
  | .schedulerTick =>
    if ({ a with tick := a.tick + 1 } : Abs).preempts then some { a with tick := a.tick + 1 } else none
  | .taskCreate .. | .taskResume _ | .schedulerStart => none

theorem Abs.call_of_entry {a b : Abs} (h : a.Wf none) {c : Call} (hb : a.entry c = some b) :
    a.call c = b.yield := by
  cases c with
  | taskYield => cases hb; rfl
  | schedulerYield => cases hb; rfl
  | taskDelay ticks =>
    cases hc : a.current with
    | none => simp [entry, hc] at hb
    | some c =>
      simp only [entry, hc] at hb
      simp only [call, hc]
      split at hb
      · rename_i ht
        cases hb
        exact if_pos ht
      · cases hb
  | taskDelete id =>
    cases hf : a.find id with
    | none => simp [entry, hf] at hb
    | some t =>
      simp only [entry, hf] at hb
      simp only [call, hf]
      split at hb
      · rename_i ht
        cases hb
        exact if_pos ht
      · cases hb
  | taskSuspend id =>
    cases hf : a.find id with
    | none => simp [entry, hf] at hb
    | some t =>
      simp only [entry, hf] at hb
      simp only [call, hf]
      split at hb
      · rename_i ht
        cases hb
        exact if_pos ht
      · cases hb
  | schedulerTick =>
    simp only [entry] at hb
    split at hb
    · rename_i hp
      cases hb
      rw [call, onTick_eq h, if_pos hp]
    · cases hb
  | _ => cases hb

/-- A call that does not enter it leaves the CPU with its owner. -/
theorem Abs.current_of_no_entry {a : Abs} (h : a.Wf none) {c : Call} (hs : c ≠ .schedulerStart)
    (hb : a.entry c = none) : (a.call c).current = a.current := by
  have he := a.call_effect c
  generalize a.call c = b at he ⊢
  cases he with
  | refused => rfl
  | create => rfl
  | delete hf | suspend hf =>
    simp only [entry, hf] at hb
    split at hb
    · cases hb
    · rename_i ht
      rw [yieldIf_other (by exact ht)]
      rfl
  | resume => rfl
  | delay hc ht => simp [entry, hc, ht] at hb
  | yield hc => rcases hc with rfl | rfl <;> cases hb
  | tick =>
    simp only [entry] at hb
    split at hb
    · cases hb
    · rename_i hp
      rw [onTick_eq h, if_neg hp]
  | start => exact absurd rfl hs

/-- Both enter it together, in states that still correspond. -/
theorem entry_refines {k : Kernel} {a : Abs} (hr : Refines k a) (hw : a.Wf none) (c : Call) :
    (yieldEntry k c = none ∧ a.entry c = none) ∨
    ∃ e b, yieldEntry k c = some e ∧ a.entry c = some b ∧ Refines e b ∧ b.Wf none ∧
      b.running = a.running ∧ b.current = a.current := by
  cases c with
  | taskYield => exact .inr ⟨k, a, rfl, rfl, hr, hw, rfl, rfl⟩
  | schedulerYield => exact .inr ⟨k, a, rfl, rfl, hr, hw, rfl, rfl⟩
  | taskDelay ticks =>
    simp only [yieldEntry, Abs.entry, hr.currentTask]
    split
    · exact .inl ⟨rfl, rfl⟩
    · rename_i c _
      split
      · obtain ⟨e, he, h⟩ := block_refines hr hw.waits (hw.not_delayed c) ticks
        exact .inr ⟨e, _, he, rfl, h, Abs.wf_block hw c ticks, rfl, rfl⟩
      · exact .inl ⟨rfl, rfl⟩
  | taskDelete id =>
    simp only [yieldEntry, Abs.entry, find_refines hr]
    split
    · exact .inl ⟨rfl, rfl⟩
    · rename_i t _
      obtain ⟨e, he, h⟩ := dequeue_refines hr hw.waits (hw.not_delayed t)
      have hc : e.currentTask = a.current := h.currentTask
      simp only [he, Option.bind_some, hc]
      split
      · exact .inr ⟨_, _, rfl, rfl, h.setState t .deleted, Abs.wf_stop hw t (by simp), rfl, rfl⟩
      · exact .inl ⟨rfl, rfl⟩
  | taskSuspend id =>
    simp only [yieldEntry, Abs.entry, find_refines hr]
    split
    · exact .inl ⟨rfl, rfl⟩
    · rename_i t _
      obtain ⟨e, he, h⟩ := stop_refines hr hw.waits (hw.not_delayed t) .suspended
      have hc : e.currentTask = a.current := h.currentTask
      simp only [he, Option.bind_some, hc]
      split
      · exact .inr ⟨_, _, rfl, rfl, h, Abs.wf_stop hw t (by simp), rfl, rfl⟩
      · exact .inl ⟨rfl, rfl⟩
  | schedulerTick =>
    have h₁ : Refines { k with systemTickCount := k.systemTickCount + 1 } { a with tick := a.tick + 1 } :=
      { hr with tick := by rw [← hr.tick] }
    have hd : k.delayedList = none := by
      have := hr.delayed
      rwa [hw.delayed] at this
    have hp := processDelayed_none (k := { k with systemTickCount := k.systemTickCount + 1 }) hd
    simp only [yieldEntry, Abs.entry, hp, Option.bind_some, preempts_refines h₁]
    split
    · exact .inr ⟨_, _, rfl, rfl, h₁, Abs.wf_setTick hw _, rfl, rfl⟩
    · exact .inl ⟨rfl, rfl⟩
  | _ => exact .inl ⟨rfl, rfl⟩

namespace Abs

variable {a : Abs} {c n : TaskPtr}

/-- READY or RUNNING. -/
def Runnable (a : Abs) (t : TaskPtr) : Prop := a.state t = .ready ∨ a.state t = .running

/-! ## The current task goes back to its queue -/

theorem requeue_running (hc : a.current = some c) (hs : a.state c = .running) :
    a.requeue = a.enqueue c := by
  unfold requeue
  rw [hc]
  simp only [hs, if_true]

theorem requeue_other (h : ∀ c, a.current = some c → a.state c ≠ .running) : a.requeue = a := by
  unfold requeue
  split
  · rfl
  · rename_i c hc
    simp only [h c hc, if_false]

theorem requeue_current (a : Abs) : a.requeue.current = a.current := by
  unfold requeue
  split
  · rfl
  · split <;> rfl

/-- After the two moves a runnable current task is the last of its queue. -/
theorem rotate_ready (h : a.Wf none) (hc : a.current = some c) (hs : a.Runnable c) :
    a.requeue.rotate.ready = (a.ready.drop (a.level c) c).push (a.level c) c := by
  rcases hs with hs | hs
  · rw [requeue_other fun d hd => by cases hc.symm.trans hd; simp [hs]]
    simp only [rotate, hc, hs, if_true]
    rfl
  · have hm : c ∉ a.ready (a.level c) := h.not_mem (.inl (by simp [hs])) (h.level_lt c)
    have hc' : (a.enqueue c).current = some c := hc
    have hs' : (a.enqueue c).state c = .ready := by simp [enqueue]
    rw [requeue_running hc hs]
    simp only [rotate, hc', hs', if_true]
    show ((a.ready.push (a.level c) c).drop (a.level c) c).push (a.level c) c = _
    rw [Queues.drop_push hm]

theorem rotate_ready_other (h : ∀ c, a.current = some c → ¬ a.Runnable c) :
    a.requeue.rotate.ready = a.ready := by
  rw [requeue_other fun c hc hs => h c hc (.inr hs)]
  unfold rotate
  split
  · rfl
  · rename_i c hc
    split
    · rename_i hs
      exact absurd (.inl hs) (h c hc)
    · rfl

/-! ## The three outcomes -/

theorem schedule_cases (a : Abs) :
    (a.highest = none ∧ a.schedule = a) ∨
    (∃ c, a.current = some c ∧ a.highest = some c ∧ a.schedule = a) ∨
    ∃ n, a.highest = some n ∧ a.current ≠ some n ∧ a.schedule = a.rotate.dispatch n := by
  unfold schedule
  split
  · rename_i hh
    exact .inl ⟨hh, rfl⟩
  · rename_i n hh
    by_cases hn : a.current = some n
    · exact .inr (.inl ⟨n, hn, hh, by simp [hn]⟩)
    · exact .inr (.inr ⟨n, hh, hn, by rw [if_pos (Ne.symm hn)]⟩)

theorem yield_eq (hr : a.running = true) : a.yield = a.requeue.schedule := by
  simp only [yield, hr, Bool.not_true, Bool.false_eq_true, if_false]

theorem yield_cases (hr : a.running = true) :
    (a.requeue.highest = none ∧ a.yield = a.requeue) ∨
    (∃ c, a.current = some c ∧ a.requeue.highest = some c ∧ a.yield = a.requeue) ∨
    ∃ n, a.requeue.highest = some n ∧ a.current ≠ some n ∧ a.yield = a.requeue.rotate.dispatch n := by
  rw [yield_eq hr, ← requeue_current a]
  exact schedule_cases a.requeue

/-- The dispatched task was first of its queue, and no queue before held any. -/
theorem switch_first (h : a.Wf none) (hn : a.requeue.highest = some n) :
    (a.requeue.ready (a.level n)).head? = some n ∧ ∀ r < a.level n, a.requeue.ready r = [] := by
  obtain ⟨p, hp, h1, h2⟩ := Queues.top_first hn
  have := ((wf_requeue h).mem p hp n (List.mem_of_mem_head? h1)).2.1
  have hl : a.requeue.level n = a.level n := by rw [level, (requeue_reorders a).priority]; rfl
  rw [hl] at this
  subst this
  exact ⟨h1, h2⟩

theorem dispatch_ready (b : Abs) (n : TaskPtr) : (b.dispatch n).ready = b.ready.drop (b.level n) n := rfl

theorem dispatch_state_self (b : Abs) (n : TaskPtr) : (b.dispatch n).state n = .running := by
  simp [dispatch, Abs.setState]

/-! ## Who owns the CPU afterwards -/

/-- The current task is RUNNING and waits in no queue. -/
def Owner (a : Abs) : Prop :=
  ∃ t, a.current = some t ∧ a.state t = .running ∧ ∀ p < NUM_PRIORITY_LEVELS, t ∉ a.ready p

theorem owner_dispatch (h : (a.dispatch n).Wf none) : (a.dispatch n).Owner :=
  ⟨n, rfl, dispatch_state_self a n, fun _ hp => h.not_mem (.inl (by simp [dispatch_state_self])) hp⟩

/-- If `schedule` finds the current task first, that task stays queued. -/
theorem not_owner_self (h : a.Wf none) (hc : a.current = some c) (hh : a.highest = some c) :
    ¬ a.Owner := by
  intro hi
  obtain ⟨t, ht, hs, -⟩ := hi
  cases hc.symm.trans ht
  rw [(h.highest_mem hh).1] at hs
  cases hs

/-- A yield with something to run leaves an owner unless the current task is
found first. -/
theorem owner_after_yield_iff (h : a.Wf none) (hr : a.running = true) (hn : a.requeue.highest ≠ none) :
    a.yield.Owner ↔ a.requeue.highest ≠ a.current := by
  rcases yield_cases hr with ⟨hh, -⟩ | ⟨c, hc, hh, e⟩ | ⟨n, hh, hc, e⟩
  · exact absurd hh hn
  · rw [e, hh, hc]
    have := not_owner_self (wf_requeue h) ((requeue_current a).trans hc) hh
    simp [this]
  · have hw := wf_yield h
    rw [e] at hw ⊢
    rw [hh]
    exact ⟨fun _ => Ne.symm hc, fun _ => owner_dispatch hw⟩

/-- Which task the yield finds first when the current one was RUNNING. -/
theorem highest_requeue (h : a.Wf none) (hc : a.current = some c) (hs : a.state c = .running) :
    a.requeue.highest = if ∀ r ≤ a.level c, a.ready r = [] then some c else a.highest := by
  rw [requeue_running hc hs]
  exact Queues.top_push (h.level_lt c)

/-! ## Strict priority -/

/-- No task of a priority before the current one's waits. -/
def Strict (a : Abs) : Prop := ∀ c, a.current = some c → ∀ p < a.level c, a.ready p = []

/-- A task moved to the end of its queue leaves the queues before empty. -/
theorem rotate_ready_lt (h : a.Wf none) {q : Nat} (hq : ∀ r < q, a.ready r = []) :
    ∀ r < q, a.rotate.ready r = [] := by
  unfold rotate
  split
  · exact hq
  · rename_i c hc
    split
    · rename_i hs
      have hm := h.queued c (by simp) hs (h.owner c hc)
      have hle : q ≤ a.level c := by
        by_contra hlt
        rw [hq _ (by omega)] at hm
        cases hm
      intro r hr
      show (a.ready.drop (a.level c) c).push (a.level c) c r = []
      rw [Queues.push_other _ c (by omega), Queues.drop_other _ c (by omega), hq r hr]
    · exact hq

theorem yield_strict (h : a.Wf none) (hr : a.running = true) : a.yield.Strict := by
  have hw := wf_requeue h
  rcases yield_cases hr with ⟨hh, e⟩ | ⟨c, hc, hh, e⟩ | ⟨n, hh, hc, e⟩
  · rw [e]
    intro c _ p hp
    exact Queues.top_eq_none.1 hh p (by have := hw.level_lt c; omega)
  · rw [e]
    intro d hd p hp
    cases ((requeue_current a).trans hc).symm.trans hd
    exact (hw.highest_mem hh).2.2.2 p hp
  · rw [e]
    intro d hd p hp
    cases hd
    have hl : (a.requeue.rotate.dispatch n).level n = a.requeue.level n := by
      rw [level, (dispatch_reorders _ n).priority, (rotate_reorders _).priority]; rfl
    rw [hl] at hp
    have := rotate_ready_lt hw (hw.highest_mem hh).2.2.2 p hp
    rw [dispatch_ready, Queues.drop]
    by_cases hpn : p = a.requeue.rotate.level n
    · subst hpn; simp [this]
    · simp [hpn, this]

/-- A tick that does not preempt found no task before the current one. -/
theorem strict_of_not_preempts (h : a.Wf none) (hr : a.running = true) (hp : a.preempts ≠ true) :
    a.Strict := by
  intro c hc p hpc
  cases hh : a.highest with
  | none => exact Queues.top_eq_none.1 hh p (by have := h.level_lt c; omega)
  | some n =>
    have hle : a.level c ≤ a.level n := by
      simpa [preempts, hr, hh, hc, UInt8.lt_iff_toNat_lt, level] using hp
    exact (h.highest_mem hh).2.2.2 p (by omega)

theorem tick_strict (h : a.Wf none) (hr : a.running = true) : a.onTick.Strict := by
  rw [onTick_eq h]
  split
  · exact yield_strict (wf_setTick h _) hr
  · rename_i hp
    exact strict_of_not_preempts (wf_setTick h _) hr hp

/-! ## The order of the queues -/

theorem dequeue_ready (h : a.Wf none) (t : TaskPtr) {p : Nat} (hp : p < NUM_PRIORITY_LEVELS) :
    (a.dequeue t).ready p = (a.ready p).filter (· ≠ t) := by
  show a.ready.drop (a.level t) t p = _
  by_cases hpt : p = a.level t
  · subst hpt
    rw [Queues.drop_self, (h.nodup _ hp).erase_eq_filter]
    exact List.filter_congr fun u _ => by rw [Bool.eq_iff_iff]; simp
  · rw [Queues.drop_other _ t hpt, List.filter_eq_self.2]
    intro u hu
    simp only [ne_eq, decide_not, Bool.not_eq_true', decide_eq_false_iff_not]
    intro e
    subst e
    exact hpt (h.mem p hp u hu).2.1.symm

/-- Requeueing and rotating move the current task only. -/
theorem rotate_order (h : a.Wf none) {p : Nat} (hp : p < NUM_PRIORITY_LEVELS) :
    (a.requeue.rotate.ready p).filter (fun t => some t ≠ a.current) =
      (a.ready p).filter (fun t => some t ≠ a.current) := by
  by_cases hc : ∃ c, a.current = some c ∧ a.Runnable c
  · obtain ⟨c, hc, hs⟩ := hc
    rw [rotate_ready h hc hs, hc]
    have hd := dequeue_ready h c hp
    change a.ready.drop (a.level c) c p = _ at hd
    by_cases hpc : p = a.level c
    · subst hpc
      rw [Queues.push_self, hd]
      simp [List.filter_filter]
    · rw [Queues.push_other _ c hpc, hd]
      simp [List.filter_filter]
  · rw [rotate_ready_other fun c h1 h2 => hc ⟨c, h1, h2⟩]

/-- A switch takes out the dispatched task; the others keep their places. -/
theorem switch_order (h : a.Wf none) {n : TaskPtr}
    (e : a.yield = a.requeue.rotate.dispatch n) {p : Nat} (hp : p < NUM_PRIORITY_LEVELS) :
    (a.yield.ready p).filter (fun t => some t ≠ a.current) =
      (a.ready p).filter (fun t => some t ≠ a.current ∧ t ≠ n) := by
  have h1 : a.yield.ready p = (a.requeue.rotate.ready p).filter (· ≠ n) := by
    rw [e]
    exact dequeue_ready (wf_rotate (wf_requeue h)) n hp
  calc (a.yield.ready p).filter (fun t => some t ≠ a.current)
      = ((a.requeue.rotate.ready p).filter (fun t => some t ≠ a.current)).filter (· ≠ n) := by
        rw [h1, List.filter_filter, List.filter_filter]
        simp only [Bool.and_comm]
    _ = ((a.ready p).filter (fun t => some t ≠ a.current)).filter (· ≠ n) := by rw [rotate_order h hp]
    _ = _ := by
        rw [List.filter_filter]
        simp only [ne_eq, decide_not, Bool.decide_and, Bool.and_comm]

/-- The outgoing task, if runnable, is now the last of its queue. -/
theorem switch_last (h : a.Wf none) {n : TaskPtr} (e : a.yield = a.requeue.rotate.dispatch n)
    {c : TaskPtr} (hc : a.current = some c) (hs : a.Runnable c) (hne : c ≠ n) :
    (a.yield.ready (a.level c)).getLast? = some c := by
  have h1 : a.yield.ready (a.level c) = (a.requeue.rotate.ready (a.level c)).filter (· ≠ n) := by
    rw [e]
    exact dequeue_ready (wf_rotate (wf_requeue h)) n (h.level_lt c)
  rw [h1, rotate_ready h hc hs, Queues.push_self, List.filter_append]
  simp [hne]

end Abs

/-! ## Every yield, every tick, every switch -/

/-- The state in which the call comes to pick the next task, if it does. -/
def scheduleEntry (k : Kernel) : Call → Option Kernel
  | .schedulerStart => some { k with schedulerRunning := true }
  | c => yieldEntry k c

/-- No ready list before the current task's holds a task. -/
def Strict (k : Kernel) : Prop :=
  ∀ c, k.currentTcb = some c → ∀ p < (k.priority c).toNat, k.readyLists p = none

/-- The switch from the state `e`, which is `k₁` once the outgoing task is
requeued, to the state `k`. -/
structure Switched (e k₁ k : Kernel) : Prop where
  first : ∃ n p, k.currentTcb = some n ∧ p < NUM_PRIORITY_LEVELS ∧ k₁.readyLists p = some n ∧
    ∀ r < p, k₁.readyLists r = none
  order : ∀ p < NUM_PRIORITY_LEVELS, ∃ l l', Chain e.next (e.readyLists p) l ∧
    Chain k.next (k.readyLists p) l' ∧
    l'.filter (fun t => some t ≠ e.currentTcb) =
      l.filter (fun t => some t ≠ e.currentTcb ∧ some t ≠ k.currentTcb)
  last : ∀ c, e.currentTcb = some c → e.state c = .ready ∨ e.state c = .running →
    ∃ l', Chain k.next (k.readyLists (k.priority c).toNat) l' ∧ l'.getLast? = some c

variable {k k₁ e : Kernel} {a : Abs}

theorem strict_refines (h : Refines k a) (hw : a.Wf none) (hs : a.Strict) : Strict k := by
  intro c hc p hp
  rw [h.currentTcb] at hc
  rw [h.priority] at hp
  have hl : a.level c < NUM_PRIORITY_LEVELS := hw.level_lt c
  exact (h.readyLists_eq_none (by have : p < a.level c := hp; omega)).2 (hs c hc p hp)

theorem switched_refines (he : Refines e a) (h₁ : Refines k₁ a.requeue) (hk : Refines k a.yield)
    (hw : a.Wf none) (hr : a.running = true) (hne : a.yield.current ≠ a.current) :
    Switched e k₁ k := by
  rcases Abs.yield_cases hr with ⟨-, e'⟩ | ⟨c, -, -, e'⟩ | ⟨n, hh, hc, e'⟩
  · rw [e', Abs.requeue_current] at hne; exact absurd rfl hne
  · rw [e', Abs.requeue_current] at hne; exact absurd rfl hne
  · have hn : k.currentTcb = some n := by rw [hk.currentTcb, e']; rfl
    refine ⟨?_, fun p hp => ?_, fun c hcur hs => ?_⟩
    · obtain ⟨h1, h2⟩ := Abs.switch_first hw hh
      have hl := hw.level_lt n
      exact ⟨n, a.level n, hn, hl, by rw [h₁.readyLists hl, h1],
        fun r hr => (h₁.readyLists_eq_none (by omega)).2 (h2 r hr)⟩
    · refine ⟨_, _, he.ready p hp, hk.ready p hp, ?_⟩
      have := Abs.switch_order hw e' hp
      rw [he.currentTcb, hn]
      simpa using this
    · have hp : (k.priority c).toNat = a.level c := by
        rw [hk.priority, (Abs.yield_reorders a).priority]; rfl
      rw [he.currentTcb] at hcur
      rw [he.state] at hs
      rw [hp]
      refine ⟨_, hk.ready _ (hw.level_lt c), Abs.switch_last hw e' hcur hs ?_⟩
      intro e
      subst e
      exact hc hcur

/-- With no owner of the CPU, starting is yielding. -/
theorem Abs.start_eq {a : Abs} (h : a.current = none) :
    a.start = ({ a with running := true } : Abs).yield := by
  have hq : ({ a with running := true } : Abs).requeue = { a with running := true } :=
    requeue_other fun c hc => by rw [h] at hc; cases hc
  simp only [start, yield, hq, Bool.not_true, Bool.false_eq_true, if_false]

/-- A call that changes the owner of the CPU came to pick the next task. -/
theorem entered_of_switch {s : Sys} (h : RegularInv s a) {c : Call} (hc : Regular s c)
    (hne : (a.call c).current ≠ a.current) :
    ∃ e b, scheduleEntry s.k c = some e ∧ Refines e b ∧ b.Wf none ∧ b.current = a.current ∧
      a.call c = b.yield := by
  by_cases hs : c = .schedulerStart
  · subst hs
    have h₁ : Refines { s.k with schedulerRunning := true } { a with running := true } :=
      { h.refines with running := rfl }
    exact ⟨_, _, rfl, h₁, Abs.wf_setRunning h.wf, rfl, Abs.start_eq (h.no_owner hc)⟩
  · rcases entry_refines h.refines h.wf c with ⟨-, h2⟩ | ⟨e, b, h1, h2, hr, hw, -, hcur⟩
    · exact absurd (Abs.current_of_no_entry h.wf hs h2) hne
    · refine ⟨e, b, ?_, hr, hw, hcur, Abs.call_of_entry h.wf h2⟩
      cases c with
      | schedulerStart => exact absurd rfl hs
      | _ => exact h1

/-- **Strict priority preemption**: after every yield and every tick no task
of a priority before the current one's waits, and every switch takes the first
task of the first ready list that has one, moves the outgoing task to the end
of its list and leaves the order of all others alone. -/
theorem priority_preemption (s s' : Sys) (c : Call) (h : regularSys.Reachable s)
    (hs : regularSys.step s c s') :
    (c = .schedulerTick ∨ yieldEntry s.k c ≠ none → s'.k.schedulerRunning = true → Strict s'.k) ∧
    (s'.k.currentTcb ≠ s.k.currentTcb → ∃ e k₁, scheduleEntry s.k c = some e ∧
      requeueCurrent e = some k₁ ∧ Switched e k₁ s'.k) := by
  obtain ⟨a, ha⟩ := regular_inductive.reachable s h
  obtain ⟨hc, hs⟩ := hs
  have ha' := regular_step ha hc hs
  constructor
  · intro hentry hrun
    apply strict_refines ha'.refines ha'.wf
    rw [ha'.refines.running] at hrun
    rcases entry_refines ha.refines ha.wf c with ⟨h1, -⟩ | ⟨e, b, -, h2, -, hw, -, -⟩
    · obtain rfl : c = .schedulerTick := hentry.resolve_right (by simp [h1])
      rw [(Abs.call_frame ha.wf (by simp) (by simp)).running] at hrun
      exact Abs.tick_strict ha.wf hrun
    · rw [Abs.call_of_entry ha.wf h2] at hrun ⊢
      rw [(Abs.yield_reorders b).running] at hrun
      exact Abs.yield_strict hw hrun
  · intro hne
    rw [ha'.refines.currentTcb, ha.refines.currentTcb] at hne
    obtain ⟨e, b, he, hr, hw, hcur, hcall⟩ := entered_of_switch ha hc hne
    obtain ⟨k₁, e₁, h₁⟩ := requeue_refines hr hw.waits
    have hk := ha'.refines
    rw [hcall] at hk hne
    have hrun : b.running = true := by
      by_contra hrun
      exact hne (by rw [Abs.yield, if_pos (by simpa using hrun), hcur])
    exact ⟨e, k₁, he, e₁, switched_refines hr h₁ hk hw hrun (by rwa [hcur])⟩

/-- A yield between two tasks of priority 3. -/
theorem priority_preemption_two : ∃ s s', regularSys.step s .taskYield s' ∧
    s'.k.currentTcb ≠ s.k.currentTcb ∧ Strict s'.k ∧
    ∃ e k₁, scheduleEntry s.k .taskYield = some e ∧ requeueCurrent e = some k₁ ∧ Switched e k₁ s'.k := by
  obtain ⟨s, -, h, hcur, hf⟩ := reachable_of_exec (G := Regular)
    (fun s => s.k.currentTcb = some 0 ∧ (guarded Regular s .taskYield).any fun s' =>
      s'.k.currentTcb = some 1 ∧ s'.k.schedulerRunning = true)
    [.taskCreate (some 1) none 3 0 true, .taskCreate (some 1) none 3 0 true, .schedulerStart]
    (by decide +kernel)
  obtain ⟨s', hs, hf⟩ := (Option.any_eq_true _ _).1 hf
  have hf := of_decide_eq_true hf
  have hs := step_of_guarded _ _ _ hs
  have hne : s'.k.currentTcb ≠ s.k.currentTcb := by rw [hcur, hf.1]; decide
  obtain ⟨h1, h2⟩ := priority_preemption s s' .taskYield h hs
  exact ⟨s, s', hs, hne, h1 (.inr (by simp [yieldEntry])) hf.2, h2 hne⟩

end Rtos.Sched
