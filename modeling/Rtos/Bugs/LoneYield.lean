import Rtos.Sched.Dispatch

/-!
# A task that yields to itself loses its mark

`scheduler_yield` marks the current task READY and queues it, and `schedule`
does nothing when the task it finds is the current one: that task keeps the
CPU, but stays queued and READY. `yield_owner_iff` gives the yields after
which the CPU has an owner, RUNNING and unqueued; the rest leave the current
task READY.

A current task left READY at the head of its list then hides the others of
its priority: `schedule` finds it first and switches to no one.
`round_robin_iff` gives the yields that pass the CPU on.
-/
namespace Rtos.Sched

open Rtos.Core

/-! ## The mark -/

/-- `current_tcb` is RUNNING and in no ready list. -/
def CpuOwned (k : Kernel) : Prop :=
  ∃ t, k.currentTcb = some t ∧ k.state t = .running ∧
    ∀ p < NUM_PRIORITY_LEVELS, ¬ Linked k.next t (k.readyLists p)

/-- `current_tcb` is RUNNING, or some ready list is not empty. -/
def SomeRunnable (k : Kernel) : Prop :=
  (∃ c, k.currentTcb = some c ∧ k.state c = .running) ∨
    ∃ p < NUM_PRIORITY_LEVELS, k.readyLists p ≠ none

/-- Another task comes before the current one: for a RUNNING one, in a ready
list up to its priority's; for a READY one, in a list before its own or at the
head of its own. -/
def OtherFirst (k : Kernel) : Prop :=
  ∀ c, k.currentTcb = some c →
    (k.state c = .running → ∃ p ≤ (k.priority c).toNat, k.readyLists p ≠ none) ∧
    (k.state c = .ready → (∃ p < (k.priority c).toNat, k.readyLists p ≠ none) ∨
      k.readyLists (k.priority c).toNat ≠ some c)

variable {k e : Kernel} {a : Abs} {c : TaskPtr}

theorem owned_refines (h : Refines k a) : CpuOwned k ↔ a.Owner := by
  unfold CpuOwned Abs.Owner
  rw [h.currentTcb, h.state]
  refine exists_congr fun t => and_congr_right fun _ => and_congr_right fun _ => ?_
  exact forall₂_congr fun p hp => not_congr (linked_iff_mem (h.ready p hp))

/-- A non-empty list is one with a first task. -/
theorem highest_ne_none (h : Refines k a) :
    a.highest ≠ none ↔ ∃ p < NUM_PRIORITY_LEVELS, k.readyLists p ≠ none := by
  rw [Abs.highest, ne_eq, Queues.top_eq_none]
  push Not
  refine exists_congr fun p => and_congr_right fun hp => ?_
  exact not_congr (h.readyLists_eq_none hp).symm

/-- A READY current task is found first when no list before its own holds one
and it heads its own. -/
theorem highest_eq_current (h : Refines k a) (hw : a.Wf none) :
    a.highest = some c ↔ (∀ p < a.level c, k.readyLists p = none) ∧ k.readyLists (a.level c) = some c := by
  have hl := hw.level_lt c
  rw [h.readyLists hl]
  constructor
  · intro hh
    obtain ⟨p, hp, h1, h2⟩ := Queues.top_first hh
    obtain rfl := (hw.mem p hp c (List.mem_of_mem_head? h1)).2.1
    exact ⟨fun r hr => (h.readyLists_eq_none (by omega)).2 (h2 r hr), h1⟩
  · intro hi
    obtain ⟨h1, h2⟩ := hi
    exact Queues.top_of_first hl h2 fun r hr => (h.readyLists_eq_none (by omega)).1 (h1 r hr)

/-- The task found first is READY, so a current task in another state is not. -/
theorem highest_ne_current (hw : a.Wf none) (hs : a.state c ≠ .ready) : a.highest ≠ some c :=
  fun hh => hs (hw.highest_mem hh).1

theorem other_first_running (h : Refines k a) (hw : a.Wf none) (hc : a.current = some c)
    (hs : a.state c = .running) :
    a.requeue.highest ≠ none ∧ (OtherFirst k ↔ a.requeue.highest ≠ a.current) := by
  have hl := hw.level_lt c
  have hiff : OtherFirst k ↔ ¬ ∀ r ≤ a.level c, a.ready r = [] := by
    unfold OtherFirst
    rw [h.currentTcb, hc, h.state, h.priority]
    simp only [Option.some.injEq, forall_eq', hs, forall_const, reduceCtorEq, false_implies, and_true]
    push Not
    exact exists_congr fun p => and_congr_right fun hp =>
      not_congr (h.readyLists_eq_none (Nat.lt_of_le_of_lt hp hl))
  rw [hiff, hc, Abs.highest_requeue hw hc hs]
  split
  · rename_i he
    exact ⟨by simp, fun hn => absurd he hn, fun hne => absurd rfl hne⟩
  · rename_i he
    refine ⟨fun hn => he fun r hr => Queues.top_eq_none.1 hn r (by omega), ?_⟩
    simp [he, highest_ne_current hw (c := c) (by simp [hs])]

theorem other_first_ready (h : Refines k a) (hw : a.Wf none) (hc : a.current = some c)
    (hs : a.state c = .ready) : OtherFirst k ↔ a.highest ≠ a.current := by
  unfold OtherFirst
  rw [hc, Ne, highest_eq_current h hw, h.currentTcb, hc, h.state, h.priority]
  simp only [Option.some.injEq, forall_eq', hs, reduceCtorEq, false_implies, true_and, forall_const]
  rw [not_and_or]
  push Not
  rfl

/-- What is found after the current task is requeued is another one. -/
theorem other_first_iff (h : Refines k a) (hw : a.Wf none) (hs : SomeRunnable k) :
    a.requeue.highest ≠ none ∧ (OtherFirst k ↔ a.requeue.highest ≠ a.current) := by
  by_cases hr : ∃ c, a.current = some c ∧ a.state c = .running
  · obtain ⟨c, hc, hr⟩ := hr
    exact other_first_running h hw hc hr
  · rw [Abs.requeue_other fun c hc h1 => hr ⟨c, hc, h1⟩]
    have hn : a.highest ≠ none := by
      refine (highest_ne_none h).2 (hs.resolve_left ?_)
      rw [h.currentTcb, h.state]
      exact hr
    refine ⟨hn, ?_⟩
    cases hc : a.current with
    | none => exact ⟨fun _ => hn, fun _ c hk => by rw [h.currentTcb, hc] at hk; cases hk⟩
    | some c =>
      by_cases h1 : a.state c = .ready
      · rw [other_first_ready h hw hc h1, hc]
      · refine ⟨fun _ => highest_ne_current hw h1, fun _ d hk => ?_⟩
        rw [h.currentTcb, hc] at hk
        cases hk
        rw [h.state]
        exact ⟨fun h2 => absurd ⟨c, hc, h2⟩ hr, fun h2 => absurd h2 h1⟩

/-- **When the yield leaves an owner**: in a proper run, a yield with something
to run leaves `current_tcb` RUNNING and unqueued exactly when another task
comes before the current one. -/
theorem yield_owner_iff (s : Sys) (h : properSys.Reachable s) (hrun : s.k.schedulerRunning = true)
    (c : Call) (e : Kernel) (he : yieldEntry s.k c = some e) (hs : SomeRunnable e) :
    ∃ k', (call s.k c).map Prod.fst = some k' ∧ (CpuOwned k' ↔ OtherFirst e) := by
  obtain ⟨a, hr, hw⟩ := proper_coherent h
  rcases entry_refines hr hw c with ⟨h1, -⟩ | ⟨e', b, h1, -, he', hb, hrun', -⟩
  · rw [h1] at he; cases he
  · obtain rfl : e' = e := Option.some.inj (h1.symm.trans he)
    obtain ⟨k', e₁, hk⟩ := yield_refines he' hb.waits
    obtain ⟨hn, hiff⟩ := other_first_iff he' hb hs
    refine ⟨k', by rw [call_of_yieldEntry he, e₁], ?_⟩
    rw [owned_refines hk, hiff]
    exact Abs.owner_after_yield_iff hb (by rw [hrun', ← hr.running, hrun]) hn

/-- Two tasks of priority 3, the first one current: its yield leaves an owner. -/
theorem yield_owner_iff_two : ∃ (s : Sys) (k' : Kernel), yieldEntry s.k .taskYield = some s.k ∧
    (call s.k .taskYield).map Prod.fst = some k' ∧ (CpuOwned k' ↔ OtherFirst s.k) := by
  obtain ⟨s, -, h, h1, h2⟩ := reachable_of_exec (G := Proper)
    (fun s => s.k.schedulerRunning = true ∧ s.k.readyLists 3 = some 1)
    [.taskCreate (some 1) none 3 0 true, .taskCreate (some 1) none 3 0 true, .schedulerStart]
    (by decide +kernel)
  obtain ⟨k', hk⟩ := yield_owner_iff s h h1 .taskYield s.k rfl (.inr ⟨3, by decide, by simp [h2]⟩)
  exact ⟨s, k', rfl, hk⟩

/-- A lone task that yields stays the current one, but READY and queued. -/
theorem lone_yield_loses_mark : ∃ (s : Sys) (k' : Kernel),
    appSys.Run Sys.boot [.taskCreate (some 1) none 3 0 true, .schedulerStart] s ∧
    s.k.schedulerRunning = true ∧ yieldEntry s.k .taskYield = some s.k ∧ SomeRunnable s.k ∧
    (call s.k .taskYield).map Prod.fst = some k' ∧ ¬ CpuOwned k' := by
  obtain ⟨s, hr, -, h1, h2, h3, hf⟩ := reachable_of_exec (G := Proper)
    (fun s => s.k.schedulerRunning = true ∧ s.k.currentTcb = some 0 ∧ s.k.state 0 = .running ∧
      ((call s.k .taskYield).map Prod.fst).any fun k' => k'.currentTcb = some 0 ∧ k'.state 0 = .ready)
    [.taskCreate (some 1) none 3 0 true, .schedulerStart] (by decide +kernel)
  obtain ⟨k', hk, hf⟩ := (Option.any_eq_true _ _).1 hf
  obtain ⟨h4, h5⟩ := of_decide_eq_true hf
  refine ⟨s, k', LTS.run_of_restrict hr, h1, rfl, .inl ⟨0, h2, h3⟩, hk, ?_⟩
  intro hi
  obtain ⟨t, ht, hs, -⟩ := hi
  cases h4.symm.trans ht
  cases h5.symm.trans hs

/-! ## The turn -/

/-- The yield of `c` from the state `k` to the state `k'` passes the CPU to
the first other task of its list, and `c` goes to the list's end. -/
def TurnPassed (k k' : Kernel) (c : TaskPtr) : Prop :=
  ∃ l l', Chain k.next (k.readyLists (k.priority c).toNat) l ∧
    Chain k'.next (k'.readyLists (k.priority c).toNat) l' ∧
    k'.currentTcb = l.find? (· ≠ c) ∧ l'.getLast? = some c

/-- The head of the current task's list is the task found first. -/
theorem highest_requeue_head (hw : a.Wf none) (hc : a.current = some c) (hs : a.Runnable c)
    {u : TaskPtr} (hu : (a.ready (a.level c)).head? = some u) (hp : ∀ p < a.level c, a.ready p = []) :
    a.requeue.highest = some u := by
  have htop : a.highest = some u := Queues.top_of_first (hw.level_lt c) hu hp
  rcases hs with hs | hs
  · rw [Abs.requeue_other fun d hd => by cases hc.symm.trans hd; simp [hs], htop]
  · rw [Abs.highest_requeue hw hc hs, if_neg, htop]
    intro he
    rw [he _ (Nat.le_refl _)] at hu
    cases hu

/-- The same on queues. -/
theorem turn_passed_iff (hw : a.Wf none) (hr : a.running = true) (hc : a.current = some c)
    (hs : a.Runnable c) {u : TaskPtr} (hu : (a.ready (a.level c)).head? = some u)
    (hp : ∀ p < a.level c, a.ready p = []) :
    (a.yield.current = (a.ready (a.level c)).find? (· ≠ c) ∧
      (a.yield.ready (a.level c)).getLast? = some c) ↔ u ≠ c := by
  have hhigh := highest_requeue_head hw hc hs hu hp
  rcases Abs.yield_cases hr with ⟨hh, -⟩ | ⟨d, hd, hh, e⟩ | ⟨n, hh, hn, e⟩
  · rw [hhigh] at hh; cases hh
  · obtain rfl : u = d := Option.some.inj (hhigh.symm.trans hh)
    obtain rfl : u = c := Option.some.inj (hd.symm.trans hc)
    refine ⟨fun ⟨h1, _⟩ => ?_, fun h1 => absurd rfl h1⟩
    rw [e, Abs.requeue_current, hc] at h1
    simpa using List.find?_some h1.symm
  · obtain rfl : u = n := Option.some.inj (hhigh.symm.trans hh)
    have hne : c ≠ u := fun h1 => hn (by rw [hc, h1])
    refine ⟨fun _ => hne.symm, fun _ => ⟨?_, Abs.switch_last hw e hc hs hne⟩⟩
    obtain ⟨l, hl⟩ := List.head?_eq_some_iff.1 hu
    rw [e, hl, List.find?_cons_of_pos (by simpa using hne.symm)]
    rfl

/-- **When the turn passes**: in a proper run, a yield of a runnable current
task that shares its priority with a waiting one, no task before them waiting,
passes the CPU on exactly when the yielder does not head its list. -/
theorem round_robin_iff (s : Sys) (h : properSys.Reachable s) (hrun : s.k.schedulerRunning = true)
    (c : TaskPtr) (hc : s.k.currentTcb = some c)
    (hs : s.k.state c = .ready ∨ s.k.state c = .running)
    (ht : ∃ t, t ≠ c ∧ Linked s.k.next t (s.k.readyLists (s.k.priority c).toNat))
    (hp : ∀ p < (s.k.priority c).toNat, s.k.readyLists p = none) :
    ∃ k', schedulerYield s.k = some k' ∧
      (TurnPassed s.k k' c ↔ s.k.readyLists (s.k.priority c).toNat ≠ some c) := by
  obtain ⟨a, hr, hw⟩ := proper_coherent h
  obtain ⟨k', e, hk⟩ := yield_refines hr hw.waits
  have hl := hw.level_lt c
  have hlev : (s.k.priority c).toNat = a.level c := by rw [hr.priority]; rfl
  rw [hlev] at ht hp
  rw [hr.state] at hs
  obtain ⟨t, -, ht⟩ := ht
  have ht := (linked_iff_mem (hr.ready _ hl)).1 ht
  obtain ⟨u, hu⟩ : ∃ u, (a.ready (a.level c)).head? = some u := by
    cases hq : a.ready (a.level c) with
    | nil => rw [hq] at ht; cases ht
    | cons u l => exact ⟨u, rfl⟩
  have hiff := turn_passed_iff hw (by rw [← hr.running, hrun]) (hr.currentTcb.symm.trans hc) hs hu
    fun p hlt => (hr.readyLists_eq_none (by omega)).1 (hp p hlt)
  refine ⟨k', e, ?_⟩
  have hhead : s.k.readyLists (a.level c) ≠ some c ↔ u ≠ c := by rw [hr.readyLists hl, hu]; simp
  unfold TurnPassed
  rw [hlev, hhead, ← hiff]
  constructor
  · intro hi
    obtain ⟨l, l', h1, h2, h3, h4⟩ := hi
    rw [chain_unique h1 (hr.ready _ hl), hk.currentTcb] at h3
    rw [chain_unique h2 (hk.ready _ hl)] at h4
    exact ⟨h3, h4⟩
  · intro hi
    obtain ⟨h3, h4⟩ := hi
    exact ⟨_, _, hr.ready _ hl, hk.ready _ hl, by rw [hk.currentTcb, h3], h4⟩

/-- Two tasks of priority 3, the first one current and RUNNING. -/
theorem round_robin_iff_two : ∃ (s : Sys) (k' : Kernel), schedulerYield s.k = some k' ∧
    (TurnPassed s.k k' 0 ↔ s.k.readyLists (s.k.priority 0).toNat ≠ some 0) := by
  obtain ⟨s, -, h, h1, h2, h3, h4, h5, h6⟩ := reachable_of_exec (G := Proper)
    (fun s => s.k.schedulerRunning = true ∧ s.k.currentTcb = some 0 ∧ s.k.state 0 = .running ∧
      (s.k.priority 0).toNat = 3 ∧ s.k.readyLists 3 = some 1 ∧ ∀ p : Fin 3, s.k.readyLists p = none)
    [.taskCreate (some 1) none 3 0 true, .taskCreate (some 1) none 3 0 true, .schedulerStart]
    (by decide +kernel)
  obtain ⟨k', hk⟩ := round_robin_iff s h h1 0 h2 (.inr h3)
    ⟨1, by decide, by rw [h4, h5]; exact .here⟩ (fun p hp => h6 ⟨p, by rwa [h4] at hp⟩)
  exact ⟨s, k', hk⟩

/-- A task that has yielded alone keeps the CPU at its next yield, although
another task of its priority was created in between. -/
theorem lone_yield_keeps_cpu : ∃ (s : Sys) (k' : Kernel), appSys.Run Sys.boot
      [.taskCreate (some 1) none 3 0 true, .schedulerStart, .taskYield,
        .taskCreate (some 1) none 3 0 true] s ∧
    s.k.schedulerRunning = true ∧ s.k.currentTcb = some 0 ∧ s.k.state 0 = .ready ∧
    Linked s.k.next 1 (s.k.readyLists (s.k.priority 0).toNat) ∧
    (∀ p < (s.k.priority 0).toNat, s.k.readyLists p = none) ∧
    schedulerYield s.k = some k' ∧ ¬ TurnPassed s.k k' 0 := by
  obtain ⟨s, hr, -, h1, h2, h3, h4, h5, h6, h7, hf⟩ := reachable_of_exec (G := Proper)
    (fun s => s.k.schedulerRunning = true ∧ s.k.currentTcb = some 0 ∧ s.k.state 0 = .ready ∧
      (s.k.priority 0).toNat = 3 ∧ s.k.readyLists 3 = some 0 ∧ s.k.next 0 = some 1 ∧
      (∀ p : Fin 3, s.k.readyLists p = none) ∧
      (schedulerYield s.k).any fun k' => k'.currentTcb = some 0)
    [.taskCreate (some 1) none 3 0 true, .schedulerStart, .taskYield,
      .taskCreate (some 1) none 3 0 true] (by decide +kernel)
  obtain ⟨k', hk, hf⟩ := (Option.any_eq_true _ _).1 hf
  have hf := of_decide_eq_true hf
  refine ⟨s, k', LTS.run_of_restrict hr, h1, h2, h3, ?_,
    fun p hp => h7 ⟨p, by rwa [h4] at hp⟩, hk, ?_⟩
  · rw [h4, h5]
    exact .there (h6 ▸ .here)
  · intro hi
    obtain ⟨l, l', -, -, h8, -⟩ := hi
    rw [hf] at h8
    simpa using List.find?_some h8.symm

end Rtos.Sched
