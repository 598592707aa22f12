import Rtos.Sched.Dispatch
import Rtos.Sched.Keeps

/-!
# A delayed task is lost

`task_delay` blocks the current task and takes it off its ready list, but
never calls `add_to_delayed_list`, so no tick can release it.
`no_delay_lost`: in the runs of all functions in any order, as long as no
`task_delay` blocks a live task, none is lost; in a proper run the first one
that does loses it.
-/
namespace Rtos.Sched

open Rtos.Core

/-- Every live BLOCKED task stands on `delayed_list` exactly once, and its
delay is not over. -/
def NoneLost (s : Sys) : Prop :=
  ∀ x ∈ s.h.live, s.k.state x.1 = .blocked →
    (∃ l, Chain s.k.next s.k.delayedList l ∧ l.count x.1 = 1) ∧ s.h.due x.1 ≠ some 0

/-- The call is not a `task_delay` of one tick or more by a live task. -/
def Undelayed (s : Sys) : ApiCall → Prop
  | .app (.taskDelay ticks) => ticks > 0 → ∀ c, s.k.currentTask = some c → ∀ x ∈ s.h.live, x.1 ≠ c
  | _ => True

instance (s : Sys) : (c : ApiCall) → Decidable (Undelayed s c)
  | .app c => match c with
    | .taskDelay _ =>
      have (c : TaskPtr) : Decidable (∀ x ∈ s.h.live, x.1 ≠ c) := List.decidableBAll _ _
      inferInstanceAs (Decidable (_ → ∀ _, _ → ∀ _ ∈ s.h.live, _))
    | .taskCreate .. | .taskDelete _ | .taskSuspend _ | .taskResume _ | .taskYield | .schedulerYield
    | .schedulerTick | .schedulerStart => inferInstanceAs (Decidable True)
  | .taskInit | .schedulerInit | .schedulerAddTask _ | .schedulerRemoveTask _ =>
    inferInstanceAs (Decidable True)

/-- No live task is BLOCKED. -/
def NoneBlocked (s : Sys) : Prop := ∀ x ∈ s.h.live, s.k.state x.1 ≠ .blocked

variable {k k' : Kernel} {h : Hist} {r : Ret}

/-- Blocking no task keeps it. -/
theorem none_blocked_keeps (hk : Keeps k k') (hb : NoneBlocked ⟨k, h⟩) {h' : Hist}
    (hl : ∀ x ∈ h'.live, x ∈ h.live) : NoneBlocked ⟨k', h'⟩ :=
  fun x hx e => hb x (hl x hx) (hk.state_of e (by simp) (by simp))

/-- Nor does putting a task into another state first. -/
theorem none_blocked_setState (hb : NoneBlocked ⟨k, h⟩) (t : TaskPtr) {s : TaskState} (hs : s ≠ .blocked) :
    NoneBlocked ⟨k.setState t s, h⟩ := by
  intro x hx e
  by_cases hxt : x.1 = t
  · simp [hxt] at e; exact hs e
  · exact hb x hx (by simpa [hxt] using e)

theorem none_blocked_call {c : Call} (hb : NoneBlocked ⟨k, h⟩) (hu : Undelayed ⟨k, h⟩ (.app c))
    (e : call k c = some (k', r)) : NoneBlocked ⟨k', h.after k r (.app c)⟩ := by
  cases c with
  | taskCreate f name p params w =>
    obtain ⟨⟨k₁, st, id⟩, h1, h2⟩ := Option.map_eq_some_iff.1 e
    cases h2
    rcases taskCreate_keeps h1 with ⟨hst, rfl, -⟩ | ⟨t, x, rfl, hf, -, -, -, hx, hk, -⟩
    · rwa [after_create_failed (by simpa using hst)]
    · rw [after_create_ok hf]
      intro y hy e
      have e := hk.state_of e (by simp) (by simp)
      rw [filled_state] at e
      by_cases hyt : y.1 = t
      · rw [hyt, Function.update_self, hx] at e; cases e
      · rw [Function.update_of_ne hyt] at e
        rcases List.mem_cons.1 hy with rfl | hy
        · exact hyt rfl
        · exact hb y hy e
  | taskDelete id =>
    obtain ⟨⟨k₁, st⟩, h1, h2⟩ := Option.map_eq_some_iff.1 e
    cases h2
    have hl := live_after h k ⟨some st, none⟩ (c := .app (.taskDelete id)) (by simp)
    rcases taskDelete_keeps h1 with ⟨-, rfl⟩ | ⟨t, k₂, -, -, hk₂, hk⟩
    · exact none_blocked_keeps (.refl _) hb hl
    · have hb₂ : NoneBlocked ⟨k₂, h⟩ := none_blocked_keeps hk₂ hb fun _ hx => hx
      exact none_blocked_keeps hk (none_blocked_setState hb₂ t (by simp)) hl
  | taskSuspend id =>
    obtain ⟨⟨k₁, st⟩, h1, h2⟩ := Option.map_eq_some_iff.1 e
    cases h2
    rcases taskSuspend_keeps h1 with rfl | ⟨t, -, hk⟩
    · exact hb
    · exact none_blocked_keeps hk (none_blocked_setState hb t (by simp)) fun _ hx => hx
  | taskResume id =>
    obtain ⟨⟨k₁, st⟩, h1, h2⟩ := Option.map_eq_some_iff.1 e
    cases h2
    exact none_blocked_keeps (taskResume_keeps h1) hb fun _ hx => hx
  | taskDelay ticks =>
    obtain ⟨k₁, h1, h2⟩ := Option.map_eq_some_iff.1 e
    cases h2
    have hl := live_after h k .void (c := .app (.taskDelay ticks)) (by simp)
    rcases taskDelay_keeps h1 with rfl | ⟨c, hc, ht, hk⟩
    · exact none_blocked_keeps (.refl _) hb hl
    · -- the only write of BLOCKED, to a task that is not live
      intro x hx e
      have hx := hl x hx
      have e := hk.state_of e (by simp) (by simp)
      by_cases hxc : x.1 = c
      · exact hu ht c hc x hx hxc
      · exact hb x hx (by simpa [hxc] using e)
  | taskYield | schedulerYield =>
    obtain ⟨k₁, h1, h2⟩ := Option.map_eq_some_iff.1 e
    cases h2
    exact none_blocked_keeps (schedulerYield_keeps h1) hb fun _ hx => hx
  | schedulerTick =>
    obtain ⟨k₁, h1, h2⟩ := Option.map_eq_some_iff.1 e
    cases h2
    exact none_blocked_keeps (schedulerTick_keeps h1) hb fun _ hx => hx
  | schedulerStart =>
    obtain ⟨k₁, h1, h2⟩ := Option.map_eq_some_iff.1 e
    cases h2
    exact none_blocked_keeps (schedulerStart_keeps h1) hb fun _ hx => hx

theorem none_blocked_inductive : (apiSys.restrict Undelayed).Inductive NoneBlocked where
  init := by intro s e x hx; subst e; cases hx
  step := by
    intro hi c s' hb hj
    obtain ⟨k, h⟩ := hi
    obtain ⟨hu, hs⟩ := hj
    obtain ⟨⟨k', r⟩, e, rfl⟩ := Option.map_eq_some_iff.1 hs
    cases c with
    | app c => exact none_blocked_call hb hu e
    | taskInit => intro x hx; cases hx
    | schedulerInit =>
      cases e
      exact none_blocked_keeps (schedulerInit_keeps k) hb fun _ hx => hx
    | schedulerAddTask t =>
      obtain ⟨k₁, h1, h2⟩ := Option.map_eq_some_iff.1 e
      cases h2
      exact none_blocked_keeps (schedulerAddTask_keeps h1) hb fun _ hx => hx
    | schedulerRemoveTask t =>
      obtain ⟨k₁, h1, h2⟩ := Option.map_eq_some_iff.1 e
      cases h2
      exact none_blocked_keeps (schedulerRemoveTask_keeps h1) hb fun _ hx => hx

/-- **A delay of a live task loses it**: no live task is lost in the runs of
all functions in which no `task_delay` blocks one; in a proper run the call
that does loses it at once. -/
theorem no_delay_lost (s : Sys) :
    ((apiSys.restrict Undelayed).Reachable s → NoneLost s) ∧
    (properSys.Reachable s →
      ∀ c s', properSys.step s c s' → ¬ Undelayed s (.app c) → ¬ NoneLost s') := by
  constructor
  · intro h x hx e
    exact absurd e (none_blocked_inductive.reachable s h x hx)
  · intro h c s' hi hu hn
    obtain ⟨hc, hs⟩ := hi
    obtain ⟨a, hr, hw⟩ := proper_coherent h
    obtain ⟨hr', -, hh⟩ := step_refines hr hw hc hs
    cases c with
    | taskDelay ticks =>
      simp only [Undelayed] at hu
      push Not at hu
      obtain ⟨ht, c, hcur, x, hm, rfl⟩ := hu
      rw [hr.currentTask] at hcur
      have hcall : a.call (.taskDelay ticks) = (a.block x.1 ticks).yield := by
        simp only [Abs.call, hcur, if_pos ht]
      have hb : (a.block x.1 ticks).state x.1 = .blocked := by simp [Abs.block, Abs.setState, Abs.dequeue]
      have hst : s'.k.state x.1 = .blocked := by
        rw [hr'.state, hcall, Abs.yield_state (Abs.wf_block hw _ ticks).waits (by simp [hb]) (by simp [hb]), hb]
      have hm' : x ∈ s'.h.live := by
        obtain ⟨due, e⟩ := after_delay s.h s.k (a.ret (.taskDelay ticks)) ticks
        rw [hh, e]
        exact hm
      -- the delayed list is as empty as before
      obtain ⟨⟨l, hl, hcount⟩, -⟩ := hn _ hm' hst
      have hnil := hr'.delayed
      rw [(Abs.wf_call hw (proper_refines hr hc)).delayed] at hnil
      rw [chain_unique hl hnil] at hcount
      cases hcount
    | _ => exact hu trivial

/-- A task of priority 3 runs, and delays itself by one tick. -/
theorem no_delay_lost_one : (∃ s, s.h.live = [(0, 1)] ∧ NoneLost s) ∧
    ∃ s s', properSys.step s (.taskDelay 1) s' ∧ ¬ NoneLost s' := by
  constructor
  · obtain ⟨s, h, -, hl⟩ := reachable_of_exec (G := fun s c => Undelayed s (.app c))
      (fun s => s.h.live = [(0, 1)]) [.taskCreate (some 1) none 3 0 true, .schedulerStart]
      (by decide +kernel)
    exact ⟨s, hl, (no_delay_lost s).1 ⟨_, _, rfl, api_run h⟩⟩
  · obtain ⟨s, -, h, h1, hu⟩ := reachable_of_exec (G := Proper)
      (fun s => (guarded Proper s (.taskDelay 1)).isSome = true ∧ ¬ Undelayed s (.app (.taskDelay 1)))
      [.taskCreate (some 1) none 3 0 true, .schedulerStart] (by decide +kernel)
    obtain ⟨s', hs⟩ := Option.isSome_iff_exists.1 h1
    have hs := step_of_guarded _ _ _ hs
    exact ⟨s, s', hs, (no_delay_lost s).2 h _ s' hs hu⟩

/-- A task delayed by one tick is still BLOCKED after that tick, and on no list. -/
theorem delayed_task_lost : ∃ s : Sys,
    appSys.Run Sys.boot [.taskCreate (some 1) none 3 0 true, .schedulerStart, .taskDelay 1,
      .schedulerTick] s ∧
    (0, 1) ∈ s.h.live ∧ s.k.state 0 = .blocked ∧ s.h.due 0 = some 0 ∧ ¬ NoneLost s := by
  obtain ⟨s, h, -, h1, h2, h3⟩ := reachable_of_exec (G := Proper)
    (fun s => (0, 1) ∈ s.h.live ∧ s.k.state 0 = .blocked ∧ s.h.due 0 = some 0)
    [.taskCreate (some 1) none 3 0 true, .schedulerStart, .taskDelay 1, .schedulerTick]
    (by decide +kernel)
  exact ⟨s, LTS.run_of_restrict h, h1, h2, h3, fun hn => (hn _ h1 h2).2 h3⟩

end Rtos.Sched
