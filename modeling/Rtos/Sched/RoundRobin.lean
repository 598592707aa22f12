import Mathlib.Data.List.Rotate
import Rtos.Sched.Dispatch

/-!
# Tasks of one priority take turns

`Abs.Turn` says who shares the CPU: a RUNNING task and the queue of its
priority, no task before them waiting. A yield moves the queue on by one
(`Turn.yield`), a tick changes nothing (`Turn.tick`), a task created at the
priority or after it waits behind the others (`Turn.create`). From these steps,
over a run of any number of such calls: `turns_in_order`.
-/
namespace Rtos.Sched

open Rtos.Core

/-- Calls that pass the CPU on. -/
def Call.yields : Call → Bool
  | .taskYield | .schedulerYield => true
  | _ => false

def Call.creates : Call → Bool
  | .taskCreate .. => true
  | _ => false

/-- The calls of tasks that share the priority `p`: they yield, let time pass,
and create tasks that do not come before them. -/
def Shares (p : Nat) : Call → Prop
  | .taskYield | .schedulerYield | .schedulerTick => True
  | .taskCreate _ _ priority _ _ => p ≤ priority.toNat
  | _ => False

namespace Abs

/-- Task `t` runs, `l` is the queue of its priority `p`, and no queue before
holds a task. -/
structure Turn (a : Abs) (p : Nat) (t : TaskPtr) (l : List TaskPtr) : Prop where
  running : a.running = true
  current : a.current = some t
  state : a.state t = .running
  level : a.level t = p
  queue : a.ready p = l
  before : ∀ r < p, a.ready r = []

namespace Turn

variable {a : Abs} {p : Nat} {t u : TaskPtr} {l : List TaskPtr}

/-- The first of the queue is the task `schedule` finds. -/
theorem highest (h : a.Turn p t (u :: l)) (hw : a.Wf none) :
    a.highest = some u ∧ a.level u = p := by
  have hp : p < NUM_PRIORITY_LEVELS := h.level ▸ hw.level_lt t
  have hu : (a.ready p).head? = some u := by rw [h.queue]; rfl
  exact ⟨Queues.top_of_first hp hu h.before, (hw.mem p hp u (List.mem_of_mem_head? hu)).2.1⟩

theorem yield (h : a.Turn p t (u :: l)) (hw : a.Wf none) : a.yield.Turn p u (l ++ [t]) := by
  have hm : t ∉ a.ready (a.level t) := hw.not_mem (.inl (by simp [h.state])) (hw.level_lt t)
  obtain ⟨hh, hu⟩ := h.highest hw
  have hne : u ≠ t := by
    intro e
    rw [h.level, h.queue, e] at hm
    exact hm (List.mem_cons_self ..)
  have hreq : a.requeue.highest = some u := by
    rw [highest_requeue hw h.current h.state, if_neg, hh]
    intro he
    have := he p (Nat.le_of_eq h.level.symm)
    rw [h.queue] at this
    cases this
  have e : a.yield = a.requeue.rotate.dispatch u := by
    rcases yield_cases h.running with ⟨h1, -⟩ | ⟨d, h1, h2, -⟩ | ⟨n, h1, -, h3⟩
    · rw [hreq] at h1; cases h1
    · cases h1.symm.trans h.current
      cases hreq.symm.trans h2
      exact absurd rfl hne
    · cases hreq.symm.trans h1
      exact h3
  have hlev : a.yield.level u = p := by
    rw [Abs.level, (yield_reorders a).priority]
    exact hu
  have hready : a.requeue.rotate.ready p = u :: l ++ [t] := by
    rw [rotate_ready hw h.current (.inr h.state), h.level, Queues.push_self, Queues.drop_self,
      h.queue, List.erase_of_not_mem]
    rwa [h.level, h.queue] at hm
  have hlu : a.requeue.rotate.level u = p := by
    rw [Abs.level, (rotate_reorders _).priority, (requeue_reorders a).priority]
    exact hu
  refine ⟨?_, ?_, ?_, hlev, ?_, ?_⟩
  · rw [(yield_reorders a).running, h.running]
  · rw [e]; rfl
  · rw [e, dispatch_state_self]
  · rw [e, dispatch_ready, hlu, Queues.drop_self, hready]
    simp
  · have hs := yield_strict hw h.running u (by rw [e]; rfl)
    rwa [hlev] at hs

/-- A tick preempts only for a task of a priority before. -/
theorem tick (h : a.Turn p t (u :: l)) (hw : a.Wf none) : a.onTick.Turn p t (u :: l) := by
  obtain ⟨hh, hu⟩ := h.highest hw
  have hle : ¬ a.priority u < a.priority t := by
    rw [UInt8.lt_iff_toNat_lt]
    exact Nat.not_lt.2 (Nat.le_of_eq (h.level.trans hu.symm))
  have hp : ({ a with tick := a.tick + 1 } : Abs).preempts = false := by
    have hh' : ({ a with tick := a.tick + 1 } : Abs).highest = some u := hh
    rw [preempts, hh', h.current]
    simp [hle]
  rw [onTick_eq hw, hp]
  exact ⟨h.running, h.current, h.state, h.level, h.queue, h.before⟩

/-- A task created at the priority, or after it, waits behind the others. -/
theorem create (h : a.Turn p t l) (hw : a.Wf none) {n : TaskPtr} {priority : UInt8}
    (hf : a.free = some n) (hp : p ≤ priority.toNat) :
    ∃ l', ((a.fill n priority).enqueue n).Turn p t (l ++ l') := by
  have hne : t ≠ n := by
    rintro rfl
    rcases free_spec hf with h1 | h1
    · rw [h.state] at h1; cases h1
    · exact hw.owner t h.current h1
  have hlev : (a.fill n priority).level n = priority.toNat := by simp [Abs.level, fill]
  have hready : ((a.fill n priority).enqueue n).ready = a.ready.push priority.toNat n := by
    rw [← hlev]; rfl
  refine ⟨if p = priority.toNat then [n] else [], h.running, h.current, ?_, ?_, ?_, ?_⟩
  · simp [enqueue, fill, hne, h.state]
  · rw [← h.level]
    simp [enqueue, fill, hne, Abs.level]
  · rw [hready]
    split
    · rename_i e
      rw [← e, Queues.push_self, h.queue]
    · rename_i e
      rw [Queues.push_other _ n e, h.queue, List.append_nil]
  · intro r hr
    rw [hready, Queues.push_other _ n (by omega), h.before r hr]

/-- What one call does to the turn. -/
theorem step (h : a.Turn p t l) (hl : l ≠ []) (hw : a.Wf none) {c : Call} (hc : Shares p c) :
    ∃ t' l', (a.call c).Turn p t' l' ∧ l' ≠ [] ∧
      (if c.yields then t' :: l' = l ++ [t] else t :: l <+: t' :: l') ∧
      (c.creates = false → t' :: l' = (t :: l).rotate (if c.yields then 1 else 0)) := by
  obtain ⟨u, q, rfl⟩ := List.exists_cons_of_ne_nil hl
  cases c with
  | taskYield | schedulerYield =>
    exact ⟨u, q ++ [t], h.yield hw, by simp, rfl, fun _ => by simp [Call.yields, List.rotate_cons_succ]⟩
  | schedulerTick => exact ⟨t, _, h.tick hw, hl, List.prefix_rfl, fun _ => (List.rotate_zero _).symm⟩
  | taskCreate f name priority params w =>
    rcases a.create_cases f name priority params w with ⟨e, -⟩ | ⟨n, hf, -, e, -⟩
    · rw [e]
      exact ⟨t, _, h, hl, List.prefix_rfl, fun hn => by cases hn⟩
    · obtain ⟨l', h'⟩ := h.create hw hf hc
      rw [e]
      exact ⟨t, _, h', by simp, List.prefix_append _ _, fun hn => by cases hn⟩
  | _ => exact hc.elim

end Turn

end Abs

/-- The run lemma: the turn goes from task to task. -/
theorem turn_run {s s' : Sys} {cs : List Call} (hrun : regularSys.Run s cs s') {p : Nat}
    (hcs : ∀ c ∈ cs, Shares p c) : ∀ {a : Abs} {t : TaskPtr} {l : List TaskPtr}, RegularInv s a →
    a.Turn p t l → l ≠ [] → ∃ a' t' l', RegularInv s' a' ∧ a'.Turn p t' l' ∧
      (cs.countP Call.yields ≤ l.length → (t :: l).drop (cs.countP Call.yields) <+: t' :: l') ∧
      ((∀ c ∈ cs, c.creates = false) → t' :: l' = (t :: l).rotate (cs.countP Call.yields)) := by
  induction hrun with
  | nil =>
    intro a t l ha h _
    exact ⟨a, t, l, ha, h, fun _ => List.prefix_rfl, fun _ => (List.rotate_zero _).symm⟩
  | @cons s s₁ s' c cs hs _ ih =>
    intro a t l ha h hl
    obtain ⟨t₁, l₁, h₁, hl₁, hp, hr⟩ := h.step hl ha.wf (hcs c (List.mem_cons_self ..))
    obtain ⟨a', t', l', ha', h', hp', hr'⟩ :=
      ih (fun d hd => hcs d (List.mem_cons_of_mem _ hd)) (regular_step ha hs.1 hs.2) h₁ hl₁
    refine ⟨a', t', l', ha', h', fun hn => ?_, fun hn => ?_⟩
    · cases hy : c.yields with
      | false =>
        rw [hy, if_neg Bool.false_ne_true] at hp
        rw [List.countP_cons_of_neg (by simp [hy])] at hn ⊢
        have hlen : l.length ≤ l₁.length := by simpa using hp.length_le
        exact (hp.drop _).trans (hp' (by omega))
      | true =>
        rw [hy, if_pos rfl] at hp
        rw [List.countP_cons_of_pos hy] at hn ⊢
        have hlen : l₁.length = l.length := by simpa using congrArg List.length hp
        have hp' := hp' (by omega)
        rw [hp, List.drop_append_of_le_length (by omega)] at hp'
        exact (List.prefix_append _ _).trans hp'
    · rw [hr' fun d hd => hn d (List.mem_cons_of_mem _ hd), hr (hn c (List.mem_cons_self ..)),
        List.rotate_rotate, List.countP_cons, Nat.add_comm]

/-- **Tasks of one priority take turns**: let a task `c` run, `q` wait at its
priority and no task before them. Whatever number of yields, ticks and
creations at that priority or after it follows, the CPU goes to the tasks of
`q` in their order, one at each yield, and what is created waits behind those
already there; with no creation the queue comes round, again and again. -/
theorem turns_in_order (s s' : Sys) (h : regularSys.Reachable s) (hrun : s.k.schedulerRunning = true)
    (c : TaskPtr) (hc : s.k.currentTcb = some c) (hs : s.k.state c = .running) (q : List TaskPtr)
    (hq : Chain s.k.next (s.k.readyLists (s.k.priority c).toNat) q) (hne : q ≠ [])
    (hb : ∀ p < (s.k.priority c).toNat, s.k.readyLists p = none) (cs : List Call)
    (hcs : ∀ x ∈ cs, Shares (s.k.priority c).toNat x) (hr : regularSys.Run s cs s') :
    ∃ t l, s'.k.currentTcb = some t ∧ s'.k.state t = .running ∧
      Chain s'.k.next (s'.k.readyLists (s.k.priority c).toNat) l ∧
      (cs.countP Call.yields ≤ q.length → (c :: q).drop (cs.countP Call.yields) <+: t :: l) ∧
      ((∀ x ∈ cs, x.creates = false) → t :: l = (c :: q).rotate (cs.countP Call.yields)) := by
  obtain ⟨a, ha⟩ := regular_inductive.reachable s h
  have hlev : (s.k.priority c).toNat = a.level c := by rw [ha.refines.priority]; rfl
  have hl : (s.k.priority c).toNat < NUM_PRIORITY_LEVELS := hlev ▸ ha.wf.level_lt c
  have ht : a.Turn (s.k.priority c).toNat c q :=
    ⟨by rw [← ha.refines.running, hrun], by rw [← ha.refines.currentTcb, hc],
      by rw [← ha.refines.state, hs], hlev.symm, chain_unique (ha.refines.ready _ hl) hq,
      fun r hlt => (ha.refines.readyLists_eq_none (by omega)).1 (hb r hlt)⟩
  obtain ⟨a', t, l, ha', h', h1, h2⟩ := turn_run hr hcs ha ht hne
  refine ⟨t, l, by rw [ha'.refines.currentTcb, h'.current], by rw [ha'.refines.state, h'.state], ?_, h1, h2⟩
  have := ha'.refines.ready _ hl
  rwa [h'.queue] at this

/-- Three tasks of priority 3: two yields, with a creation in between, take the
CPU to the third. -/
theorem turns_in_order_three : ∃ s s' : Sys, regularSys.Reachable s ∧ s.k.currentTcb = some 0 ∧
    regularSys.Run s [.taskYield, .taskCreate (some 1) none 3 0 true, .taskYield] s' ∧
    s'.k.currentTcb = some 2 := by
  obtain ⟨s, -, h, h1, h2, h3, h4, h5, h6, h7, h8, hf⟩ := reachable_of_exec (G := Regular)
    (fun s => s.k.schedulerRunning = true ∧ s.k.currentTcb = some 0 ∧ s.k.state 0 = .running ∧
      (s.k.priority 0).toNat = 3 ∧ s.k.readyLists 3 = some 1 ∧ s.k.next 1 = some 2 ∧
      s.k.next 2 = none ∧ (∀ p : Fin 3, s.k.readyLists p = none) ∧
      (LTS.exec (guarded Regular) s [.taskYield, .taskCreate (some 1) none 3 0 true, .taskYield]).isSome)
    [.taskCreate (some 1) none 3 0 true, .taskCreate (some 1) none 3 0 true,
      .taskCreate (some 1) none 3 0 true, .schedulerStart] (by decide +kernel)
  obtain ⟨s', hs⟩ := Option.isSome_iff_exists.1 hf
  have hr := LTS.run_of_exec step_of_guarded hs
  have hq : Chain s.k.next (s.k.readyLists (s.k.priority 0).toNat) [1, 2] := by
    rw [h4, h5]
    exact ⟨rfl, h6, h7⟩
  have hcs : ∀ x ∈ [Call.taskYield, .taskCreate (some 1) none 3 0 true, .taskYield],
      Shares (s.k.priority 0).toNat x := by simp [Shares, h4]
  obtain ⟨t, l, ht, -, -, hl, -⟩ := turns_in_order s s' h h1 0 h2 h3 [1, 2] hq (by simp)
    (fun p hp => h8 ⟨p, by rwa [h4] at hp⟩) _ hcs hr
  obtain ⟨r, hr'⟩ := hl (by decide)
  cases hr'
  exact ⟨s, s', h, h2, hr, ht⟩

end Rtos.Sched
