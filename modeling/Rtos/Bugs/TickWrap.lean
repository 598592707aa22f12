import Rtos.Sched.Delayed

/-!
# A delay across the wrap of the tick counter

`task_delay` computes `wake_time` modulo 2^32, and the delayed list compares
wake times and the tick counter as plain numbers. A delay whose end lies
beyond the wrap gets a wake time below the counter, and the very next tick
releases it. Only when that tick itself wraps the counter is the comparison
right again.

`woken_iff`: a task that delays itself at the tick count `T` by `n` ticks and
is put on the delayed list is released by the `n`-th tick and not before,
whatever else is on the list and whatever else is called between the ticks,
exactly when `T + n` does not reach 2^32 or `T` is 2^32 - 1. The calls are
those of `timers`: none deletes, suspends or delays a task that is on the
delayed list (`Spares`), which would take it off the list without a tick.
-/
namespace Rtos.Sched

open Rtos.Core

/-- BLOCKED, and on the delayed list. -/
def Asleep (k : Kernel) (t : TaskPtr) : Prop := k.state t = .blocked ∧ Linked k.next t k.delayedList

/-- The `process_delayed_tasks` of the next tick returns, and has moved `t`
from the delayed list to the ready list of its priority, in state READY. -/
def Releases (k : Kernel) (t : TaskPtr) : Prop :=
  ∃ k', processDelayedTasks { k with systemTickCount := k.systemTickCount + 1 } = some k' ∧
    k'.state t = .ready ∧ Linked k'.next t (k'.readyLists (k'.priority t).toNat) ∧
    ¬ Linked k'.next t k'.delayedList

def ticks (es : List Event) : Nat := es.count (.call .schedulerTick)

/-- In every run of `timers`, up to the `n`-th tick from `k` on `t` sleeps, each
tick returns, and the `n`-th is the one that releases `t`. -/
def WokenBy (n : Nat) (k : Kernel) (t : TaskPtr) : Prop :=
  ∀ es k', timers.Run k es k' → ticks es < n →
    Asleep k' t ∧ (∃ k'', schedulerTick k' = some k'') ∧ (Releases k' t ↔ ticks es + 1 = n)

variable {k k' : Kernel} {a : Abs} {t : TaskPtr}

/-! ## What a tick does to a sleeping task -/

theorem asleep_of_mem (h : TimedBy k a) (ht : t ∈ a.delayed) : Asleep k t :=
  ⟨by rw [h.refines.state, (h.waits.blocked t ht).1], h.refines.linked.2 ht⟩

theorem setTick_timed (h : TimedBy k a) :
    TimedBy { k with systemTickCount := k.systemTickCount + 1 } { a with tick := a.tick + 1 } :=
  ⟨setTick_refines h.refines, Abs.waits_setTick h.waits _, h.sorted⟩

/-- `process_delayed_tasks` takes a task off the list if its time has come,
whatever stands before it: on a sorted list that has come to its time as well. -/
theorem release_iff (h : TimedBy k a) (ht : t ∈ a.delayed) :
    (∃ k', processDelayedTasks k = some k' ∧
      k'.state t = .ready ∧ Linked k'.next t (k'.readyLists (k'.priority t).toNat) ∧
      ¬ Linked k'.next t k'.delayedList) ↔ a.wakeTime t ≤ a.tick := by
  obtain ⟨k', e, hr⟩ := processDelayed_refines h.refines h.waits.apart.distinct
  have hpend : t ∈ (Abs.releaseFrom a.delayed a).delayed ↔ ¬ a.wakeTime t ≤ a.tick := by
    rw [Abs.releaseFrom_delayed, mem_pending h.sorted]
    exact and_iff_right ht
  constructor
  · intro hi
    obtain ⟨k₁, e₁, -, -, hn⟩ := hi
    obtain rfl : k' = k₁ := Option.some.inj (e.symm.trans e₁)
    by_contra hle
    exact hn (hr.linked.2 (hpend.2 hle))
  · intro hle
    have hw := Abs.waits_release h.waits
    have hs : (Abs.releaseFrom a.delayed a).state t = .ready := by
      rw [Abs.releaseFrom_state]
      exact if_pos ((mem_due h.sorted).2 ⟨ht, hle⟩)
    have hid : (Abs.releaseFrom a.delayed a).taskId t ≠ 0 := by
      rw [(Abs.releaseFrom_frame a.delayed a).taskId]
      exact (h.waits.blocked t ht).2.1
    refine ⟨k', e, by rw [hr.state, hs], ?_, fun hl => hpend.1 (hr.linked.1 hl) hle⟩
    rw [hr.priority]
    exact (linked_iff_mem (hr.ready _ (hw.wf.level_lt t))).2 (hw.wf.queued t (by simp) hs hid)

theorem releases_iff (h : TimedBy k a) (ht : t ∈ a.delayed) : Releases k t ↔ a.wakeTime t ≤ a.tick + 1 :=
  release_iff (setTick_timed h) ht

/-! ## A run up to the release -/

/-- `t` is on the delayed list, to be woken at `w`, and the counter stands at `tick`. -/
structure Sleeps (k : Kernel) (t : TaskPtr) (w tick : UInt32) (a : Abs) : Prop extends TimedBy k a where
  mem : t ∈ a.delayed
  wake : a.wakeTime t = w
  now : a.tick = tick

variable {w T n : UInt32}

/-- Nothing but a tick brings the release nearer. -/
theorem sleeps_event (h : Sleeps k t w T a) {e : Event} (hs : timers.step k e k')
    (he : e ≠ .call .schedulerTick) : Sleeps k' t w T (a.event e) := by
  have ht := timers_step h.toTimedBy hs
  cases e with
  | call c =>
    have hc := Abs.call_keeps h.waits (spares_refines h.refines hs.1.2) fun e => he (by rw [e])
    exact { ht with
      mem := hc.delayed ▸ h.mem
      wake := (hc.wakeTime t h.mem).trans h.wake
      now := hc.tick.trans h.now }
  | link u => exact { ht with mem := Abs.mem_link.2 (.inr h.mem), wake := h.wake, now := h.now }

/-- A tick that does not release the task moves the counter on. -/
theorem sleeps_tick (h : Sleeps k t w T a) (hs : timers.step k (.call .schedulerTick) k')
    (hw : ¬ w ≤ T + 1) : Sleeps k' t w (T + 1) a.onTick := by
  obtain ⟨hd, htick, hwake⟩ := a.onTick_times
  have hm : t ∈ a.onTick.delayed := by
    rw [hd, mem_pending h.sorted, h.wake, h.now]
    exact ⟨h.mem, hw⟩
  exact { timers_step h.toTimedBy hs with
    mem := hm
    wake := (congrFun hwake t).trans h.wake
    now := by rw [htick, h.now] }

/-- The counter after `m` ticks, and a wake time `n` ticks away. -/
theorem passed_toNat (m : Nat) : T + n ≤ T + UInt32.ofNat m + 1 ↔
    (T.toNat + n.toNat) % 2 ^ 32 ≤ (T.toNat + (m + 1)) % 2 ^ 32 := by
  rw [UInt32.le_iff_toNat_le]
  simp only [UInt32.toNat_add, UInt32.toNat_ofNat']
  rw [show ((T.toNat + m % 2 ^ 32) % 2 ^ 32 + UInt32.toNat 1) % 2 ^ 32 = (T.toNat + (m + 1)) % 2 ^ 32 by
    simp only [UInt32.toNat_one]; omega]

/-- When the `n`-th tick is the first to pass the wake time, the task sleeps
through a run of fewer ticks. -/
theorem sleeps_run (hn : ∀ m < n.toNat, T + n ≤ T + UInt32.ofNat m + 1 ↔ m + 1 = n.toNat) {es : List Event}
    (hr : timers.Run k es k') : ∀ {m : Nat} {a : Abs}, Sleeps k t (T + n) (T + UInt32.ofNat m) a →
      m + ticks es < n.toNat → ∃ a', Sleeps k' t (T + n) (T + UInt32.ofNat (m + ticks es)) a' := by
  induction hr with
  | nil s => exact fun h _ => ⟨_, h⟩
  | @cons s s' s'' e es hs _ ih =>
    intro m a h hlt
    by_cases he : e = .call .schedulerTick
    · subst he
      have hc : ticks (.call .schedulerTick :: es) = ticks es + 1 := List.count_cons_self
      rw [hc] at hlt ⊢
      have hnot : ¬ T + n ≤ T + UInt32.ofNat m + 1 := by
        rw [hn m (by omega)]
        omega
      have h' := sleeps_tick h hs hnot
      have hsucc : T + UInt32.ofNat m + 1 = T + UInt32.ofNat (m + 1) := by
        rw [UInt32.ofNat_add, UInt32.add_assoc]
        rfl
      rw [hsucc] at h'
      have := ih h' (by omega)
      rwa [show m + 1 + ticks es = m + (ticks es + 1) by omega] at this
    · have hc : ticks (e :: es) = ticks es := List.count_cons_of_ne he
      rw [hc] at hlt ⊢
      exact ih (sleeps_event h hs he) hlt

/-! ## The delay -/

/-- After the delay, and once on the list, the task sleeps. -/
theorem sleeps_delay (h : TimedBy k a) {c : TaskPtr} (hc : k.currentTask = some c)
    (hl : ¬ Linked k.next c k.delayedList) (hn : n > 0) :
    ∃ k₁ k₂ a₂, taskDelay k n = some k₁ ∧ addToDelayedList k₁ c = some k₂ ∧
      Sleeps k₂ c (k.systemTickCount + n) k.systemTickCount a₂ := by
  have hcur : a.current = some c := h.refines.currentTask ▸ hc
  have hd : c ∉ a.delayed := fun hm => hl (h.refines.linked.2 hm)
  obtain ⟨k₁, e₁, h₁⟩ := delay_refines h.refines h.waits hcur hd hn
  have hb := Abs.waits_block h.waits hd n
  have hy := Abs.yield_reorders (a.block c n)
  have hblocked : (a.block c n).state c = .blocked := by simp [Abs.block, Abs.setState, Abs.dequeue]
  have hstate : (a.block c n).yield.state c = .blocked := by
    rw [Abs.yield_state hb (by simp [hblocked]) (by simp [hblocked]), hblocked]
  have hid : (a.block c n).yield.taskId c ≠ 0 := by
    rw [((Abs.block_frame a c n).trans (Abs.yield_reorders _).toFrame).taskId]
    exact h.waits.wf.owner c hcur
  have hout : c ∉ (a.block c n).yield.delayed := by rw [hy.delayed]; exact hd
  have hsorted := sorted_keeps ((Abs.block_keeps hd n).trans hy.keeps) h.sorted
  obtain ⟨k₂, e₂, h₂⟩ := link_refines h₁ (Abs.waits_yield hb) hstate hout
  refine ⟨k₁, k₂, (a.block c n).yield.link c, e₁, e₂, {
    refines := h₂
    waits := Abs.waits_link (Abs.waits_yield hb) hstate hid hout
    sorted := sorted_insertAfter hsorted c
    mem := Abs.mem_link.2 (.inl rfl)
    wake := ?_
    now := ?_ }⟩
  · show (a.block c n).yield.wakeTime c = _
    rw [hy.wakeTime, h.refines.tick]
    exact Function.update_self ..
  · show (a.block c n).yield.tick = _
    rw [hy.tick, h.refines.tick]
    rfl

/-- The sleeping task is woken by the `n`-th tick and not before exactly when
the counter wraps neither before that tick nor with a later one than the first. -/
theorem wokenBy_iff (h : Sleeps k t (T + n) T a) :
    WokenBy n.toNat k t ↔ T.toNat + n.toNat < 2 ^ 32 ∨ T.toNat + 1 = 2 ^ 32 := by
  have h0 : Sleeps k t (T + n) (T + UInt32.ofNat 0) a := by simpa using h
  have hT : T.toNat < 2 ^ 32 := T.toNat_lt
  have hN : n.toNat < 2 ^ 32 := n.toNat_lt
  constructor
  · intro hw
    by_contra hcond
    -- the first tick already passes the wake time
    obtain ⟨hlt, hle⟩ := passed_at_once hT hN hcond
    obtain ⟨-, -, hi⟩ := hw [] k (.nil k) (by show 0 < _; omega)
    have hrel : Releases k t := by
      rw [releases_iff h0.toTimedBy h0.mem, h0.wake, h0.now]
      exact (passed_toNat 0).2 hle
    have : 0 + 1 = n.toNat := hi.1 hrel
    omega
  · intro hcond es k' hr hlt
    have hpass : ∀ m < n.toNat, T + n ≤ T + UInt32.ofNat m + 1 ↔ m + 1 = n.toNat := fun m hm =>
      (passed_toNat m).trans (passed_iff hN hcond hm)
    obtain ⟨a', h'⟩ := sleeps_run hpass hr h0 (by omega)
    rw [Nat.zero_add] at h'
    obtain ⟨k'', e, -⟩ := tick_refines h'.refines h'.waits
    refine ⟨asleep_of_mem h'.toTimedBy h'.mem, ⟨k'', e⟩, ?_⟩
    rw [releases_iff h'.toTimedBy h'.mem, h'.wake, h'.now]
    exact hpass _ hlt

/-- **A delay is served up to the wrap of the counter.** From any state with a
sorted delayed list, `task_delay` for `n` ticks and `add_to_delayed_list`
return, and the task is woken by the `n`-th tick and not before exactly when
`T + n` does not reach 2^32 or the first tick is the one that wraps. -/
theorem woken_iff (hk : Timed k) {c : TaskPtr} (hc : k.currentTask = some c)
    (hl : ¬ Linked k.next c k.delayedList) (hn : n > 0) :
    ∃ k₁ k₂, taskDelay k n = some k₁ ∧ addToDelayedList k₁ c = some k₂ ∧
      (WokenBy n.toNat k₂ c ↔
        k.systemTickCount.toNat + n.toNat < 2 ^ 32 ∨ k.systemTickCount.toNat + 1 = 2 ^ 32) := by
  obtain ⟨a, h⟩ := hk
  obtain ⟨k₁, k₂, a₂, e₁, e₂, hs⟩ := sleeps_delay h hc hl hn
  exact ⟨k₁, k₂, e₁, e₂, wokenBy_iff hs⟩

/-- Task 0 sleeps for five ticks, and task 1 then delays itself by three. -/
theorem woken_iff_two : ∃ k k₁ k₂, timers.Reachable k ∧ k.delayedList = some 0 ∧
    taskDelay k 3 = some k₁ ∧ addToDelayedList k₁ 1 = some k₂ ∧ WokenBy 3 k₂ 1 := by
  obtain ⟨k, -, hr, htick, hcur, hd, hnext⟩ := LTS.reachable_of_exec step_of_allowedEvent rfl
    (fun k : Kernel => k.systemTickCount = 0 ∧ k.currentTask = some 1 ∧ k.delayedList = some 0 ∧
      k.next 0 = none)
    [.call (.taskCreate (some 1) none 3 0 true), .call (.taskCreate (some 1) none 3 0 true),
      .call .schedulerStart, .call (.taskDelay 5), .link 0] (by decide +kernel)
  have hc : Chain k.next k.delayedList [0] := ⟨hd, hnext⟩
  have hl : ¬ Linked k.next 1 k.delayedList := fun h => absurd ((linked_iff_mem hc).1 h) (by decide)
  obtain ⟨k₁, k₂, e₁, e₂, h⟩ := woken_iff (timed_inductive.reachable k hr) hcur hl (n := 3) (by decide)
  exact ⟨k, k₁, k₂, hr, hd, e₁, e₂, h.2 (.inl (by rw [htick]; decide))⟩

/-- With nobody delayed and nobody to preempt, a tick only counts. -/
theorem idle_ticks (hd : k.delayedList = none) (hp : preempts k = false) : ∀ m : Nat,
    timers.Run k (List.replicate m (.call .schedulerTick))
      { k with systemTickCount := k.systemTickCount + UInt32.ofNat m }
  | 0 => by simpa using LTS.Run.nil k
  | m + 1 => by
    have hrun := idle_ticks hd hp m
    rw [List.replicate_succ']
    refine LTS.run_snoc hrun ⟨⟨trivial, trivial⟩, ?_⟩
    have hnone : ∀ n : UInt32, processDelayedTasks { k with systemTickCount := n } =
        some { k with systemTickCount := n } := fun n => processDelayed_none hd
    have hpre : ∀ n : UInt32, preempts { k with systemTickCount := n } = false := fun n => hp
    show (call _ .schedulerTick).map (·.1) = _
    simp only [call, schedulerTick, hnone, Option.bind_some, hpre, Bool.false_eq_true, if_false,
      Option.map_some, UInt32.ofNat_add, UInt32.add_assoc]
    rfl

/-- A task runs, and 2^32 - 2 ticks have passed. -/
theorem late_reachable : ∃ k, timers.Reachable k ∧ k.systemTickCount = 0xFFFFFFFE ∧
    k.currentTask = some 0 ∧ k.delayedList = none := by
  obtain ⟨k, hrun, -, htick, hcur, hd, hp⟩ := LTS.reachable_of_exec step_of_allowedEvent rfl
    (fun k : Kernel => k.systemTickCount = 0 ∧ k.currentTask = some 0 ∧ k.delayedList = none ∧
      preempts k = false)
    [.call (.taskCreate (some 1) none 3 0 true), .call .schedulerStart] (by decide +kernel)
  refine ⟨_, ⟨Kernel.boot, _, rfl, LTS.run_append hrun (idle_ticks hd hp 0xFFFFFFFE)⟩, ?_, hcur, hd⟩
  show k.systemTickCount + UInt32.ofNat 0xFFFFFFFE = 0xFFFFFFFE
  rw [htick]
  decide

/-- There it delays itself by two ticks: it is to wake at 0, which the next tick
has passed. -/
theorem delay_cut_short : ∃ k k₁ k₂, timers.Reachable k ∧ k.systemTickCount = 0xFFFFFFFE ∧
    taskDelay k 2 = some k₁ ∧ addToDelayedList k₁ 0 = some k₂ ∧ k₂.wakeTime 0 = 0 ∧
    Releases k₂ 0 ∧ ¬ WokenBy 2 k₂ 0 := by
  obtain ⟨k, hr, hT, hcur, hd⟩ := late_reachable
  obtain ⟨a, h⟩ := timed_inductive.reachable k hr
  obtain ⟨k₁, k₂, a₂, e₁, e₂, hs⟩ := sleeps_delay h hcur (not_linked_none hd 0) (n := 2) (by decide)
  refine ⟨k, k₁, k₂, hr, hT, e₁, e₂, ?_, ?_, fun hw => ?_⟩
  · rw [hs.refines.wakeTime, hs.wake, hT]
    decide
  · rw [releases_iff hs.toTimedBy hs.mem, hs.wake, hs.now, hT]
    decide
  · have hcond := (wokenBy_iff hs).1 hw
    rw [hT] at hcond
    exact absurd hcond (by decide)

end Rtos.Sched
