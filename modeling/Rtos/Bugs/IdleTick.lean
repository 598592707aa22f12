import Rtos.Sched.Dispatch

/-!
# A tick that leaves the CPU idle

`scheduler_tick` preempts only if there is a current task and a task of a
strictly smaller priority number waits. When `current_tcb` is NULL (the
scheduler was started with no task), or points to a task that is BLOCKED,
SUSPENDED or DELETED (it was the last runnable one), a waiting task is
dispatched in the second case only if its number is smaller, in the first not
at all. `tick_occupied_iff` gives the states from which the tick behaves.
-/
namespace Rtos.Sched

open Rtos.Core

def SomeReady (k : Kernel) : Prop := ∃ p < NUM_PRIORITY_LEVELS, k.readyLists p ≠ none

/-- `current_tcb` is READY or RUNNING. -/
def Occupied (k : Kernel) : Prop :=
  ∃ c, k.currentTcb = some c ∧ (k.state c = .ready ∨ k.state c = .running)

/-- There is a current task, READY or RUNNING or with a waiting task of a
strictly smaller priority number. -/
def TickServes (k : Kernel) : Prop :=
  ∃ c, k.currentTcb = some c ∧ ((k.state c = .ready ∨ k.state c = .running) ∨
    ∃ p < (k.priority c).toNat, k.readyLists p ≠ none)

variable {k : Kernel} {a : Abs}

theorem preempts_spec (hp : a.preempts = true) : ∃ c n, a.current = some c ∧ a.highest = some n ∧
    a.running = true ∧ a.level n < a.level c := by
  cases hc : a.current with
  | none =>
    cases hh : a.highest <;> simp [Abs.preempts, hc, hh] at hp
  | some c =>
    cases hh : a.highest with
    | none => simp [Abs.preempts, hc, hh] at hp
    | some n =>
      refine ⟨c, n, rfl, rfl, ?_⟩
      simpa [Abs.preempts, hc, hh, UInt8.lt_iff_toNat_lt, Abs.level] using hp

/-- A preempting yield dispatches the task it found. -/
theorem owner_of_preempts (h : a.Wf none) (hp : a.preempts = true) : a.yield.Owner := by
  obtain ⟨c, n, hc, hh, hr, hlt⟩ := preempts_spec hp
  have hm := (h.highest_mem hh).2.2.1
  have hq : a.requeue.highest = some n := by
    by_cases hs : a.state c = .running
    · rw [Abs.highest_requeue h hc hs, if_neg, hh]
      intro he
      rw [he _ (Nat.le_of_lt hlt)] at hm
      cases hm
    · rw [Abs.requeue_other fun d hd => by cases hc.symm.trans hd; exact hs, hh]
  apply (Abs.owner_after_yield_iff h hr (by simp [hq])).2
  rw [hq, hc]
  intro hi
  cases hi
  omega

/-- A tick that preempts found such a task. -/
theorem serves_of_preempts (h : Refines k a) (hw : a.Wf none) (hp : a.preempts = true) :
    TickServes k := by
  obtain ⟨c, n, hc, hh, -, hlt⟩ := preempts_spec hp
  have hm := (hw.highest_mem hh).2.2.1
  refine ⟨c, h.currentTcb.trans hc, .inr ⟨a.level n, by rw [h.priority]; exact hlt, fun he => ?_⟩⟩
  rw [(h.readyLists_eq_none (hw.level_lt n)).1 he] at hm
  cases hm

/-- A tick that does not preempt serves only a runnable current task. -/
theorem serves_of_not_preempts (h : Refines k a) (hw : a.Wf none) (hr : a.running = true)
    (hp : a.preempts ≠ true) : TickServes k ↔ Occupied k := by
  refine exists_congr fun c => and_congr_right fun hc => or_iff_left ?_
  intro hi
  obtain ⟨p, hlt, hne⟩ := hi
  exact hne (strict_refines h hw (Abs.strict_of_not_preempts hw hr hp) c hc p hlt)

/-- **When the tick serves the waiting**: in a proper run, after a tick of the
running scheduler the CPU is occupied if a task waits, exactly when, if one
waited before, the current task was READY or RUNNING or a task of a strictly
smaller priority number waited. -/
theorem tick_occupied_iff (s : Sys) (h : properSys.Reachable s) (hrun : s.k.schedulerRunning = true) :
    ∃ k', schedulerTick s.k = some k' ∧
      ((SomeReady k' → Occupied k') ↔ (SomeReady s.k → TickServes s.k)) := by
  obtain ⟨a, hr, hw⟩ := proper_coherent h
  obtain ⟨k', e, hk⟩ := tick_refines hr hw.waits
  refine ⟨k', e, ?_⟩
  rw [Abs.onTick_eq hw] at hk
  have hrun' : a.running = true := by rw [← hr.running, hrun]
  split at hk
  · rename_i hp
    obtain ⟨t, ht, hs, -⟩ := owner_of_preempts (Abs.wf_setTick hw _) hp
    have h1 : Occupied k' := ⟨t, hk.currentTcb.trans ht, .inr (by rw [hk.state, hs])⟩
    have h2 : TickServes s.k := serves_of_preempts hr hw hp
    exact ⟨fun _ _ => h2, fun _ _ => h1⟩
  · rename_i hp
    rw [serves_of_not_preempts hr hw hrun' hp]
    have h1 : Occupied k' ↔ Occupied s.k := by
      unfold Occupied
      rw [hk.currentTcb, hk.state, hr.currentTcb, hr.state]
    have h2 : SomeReady k' ↔ SomeReady s.k :=
      exists_congr fun p => and_congr_right fun hp' => not_congr
        ((hk.readyLists_eq_none hp').trans (hr.readyLists_eq_none hp').symm)
    rw [h1, h2]

/-- A task of priority 3 current, another waiting. -/
theorem tick_occupied_iff_two : ∃ (s : Sys) (k' : Kernel), schedulerTick s.k = some k' ∧
    ((SomeReady k' → Occupied k') ↔ (SomeReady s.k → TickServes s.k)) := by
  obtain ⟨s, -, h, h1⟩ := reachable_of_exec (G := Proper) (fun s => s.k.schedulerRunning = true)
    [.taskCreate (some 1) none 3 0 true, .taskCreate (some 1) none 3 0 true, .schedulerStart]
    (by decide +kernel)
  obtain ⟨k', hk⟩ := tick_occupied_iff s h h1
  exact ⟨s, k', hk⟩

/-- A scheduler started with no task never dispatches the one created later. -/
theorem tick_leaves_idle : ∃ (s : Sys) (k' : Kernel),
    appSys.Run Sys.boot [.schedulerStart, .taskCreate (some 1) none 3 0 true] s ∧
    s.k.schedulerRunning = true ∧ schedulerTick s.k = some k' ∧ SomeReady k' ∧ ¬ Occupied k' := by
  obtain ⟨s, hr, -, h1, hf⟩ := reachable_of_exec (G := Proper)
    (fun s => s.k.schedulerRunning = true ∧ (schedulerTick s.k).any fun k' =>
      k'.currentTcb = none ∧ k'.readyLists 3 = some 0)
    [.schedulerStart, .taskCreate (some 1) none 3 0 true] (by decide +kernel)
  obtain ⟨k', hk, hf⟩ := (Option.any_eq_true _ _).1 hf
  obtain ⟨h2, h3⟩ := of_decide_eq_true hf
  refine ⟨s, k', LTS.run_of_restrict hr, h1, hk, ⟨3, by decide, by simp [h3]⟩, ?_⟩
  intro hi
  obtain ⟨c, hc, -⟩ := hi
  rw [h2] at hc
  cases hc

end Rtos.Sched
