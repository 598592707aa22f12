import Mathlib.Data.Finset.Sort

/-!
# Taking the least item first

A loop with a bounded number of iterations: each takes the least of the items
that are pending and attempts it; an item stops being pending when its attempt
succeeds. What one pass over the items would give (`pass`) decides what the
loop does:

* `run_ok_iff`: no attempt of the loop fails exactly when none of the pass
  does, and then nothing is left pending (`run_pending_empty`);
* `run_pairwise`: if an item whose attempt fails stays pending, the items are
  attempted in their order, and none again that has succeeded;
* `run_once_iff`: then each item is attempted exactly once exactly when no
  attempt of the pass fails, save one that comes in the last iteration.
-/
namespace Rtos

structure LeastFirst (S K : Type) [LinearOrder K] where
  pending : S → Finset K
  attempt : S → K → S × Bool
  erase : ∀ s k, k ∈ pending s → (attempt s k).2 = true → pending (attempt s k).1 = (pending s).erase k

namespace LeastFirst

variable {S K : Type} [LinearOrder K]

/-- At most `n` iterations; the log has the items attempted, with the results. -/
def run (M : LeastFirst S K) : Nat → S → S × List (K × Bool)
  | 0, s => (s, [])
  | n + 1, s =>
    match (M.pending s).sort with
    | [] => (s, [])
    | k :: _ =>
      let r := M.attempt s k
      let rest := M.run n r.1
      (rest.1, (k, r.2) :: rest.2)

/-- What attempting each of the items `ks` once, in this order, gives. -/
def pass (attempt : S → K → S × Bool) : S → List K → List Bool
  | _, [] => []
  | s, k :: ks => (attempt s k).2 :: pass attempt (attempt s k).1 ks

/-- An item whose attempt fails stays pending, and so do the others. -/
def Stays (M : LeastFirst S K) : Prop :=
  ∀ s k, k ∈ M.pending s → (M.attempt s k).2 = false → M.pending (M.attempt s k).1 = M.pending s

variable {M : LeastFirst S K} {n : Nat} {s : S} {k : K} {ks : List K}

theorem mem_of_sort (h : (M.pending s).sort = k :: ks) : k ∈ M.pending s := by
  rw [← Finset.mem_sort (· ≤ ·), h]
  exact List.mem_cons_self

/-- The items after the least one are the others. -/
theorem sort_erase (h : (M.pending s).sort = k :: ks) : ((M.pending s).erase k).sort = ks := by
  have hnodup := Finset.sort_nodup (M.pending s) (· ≤ ·)
  have hsorted := Finset.pairwise_sort (M.pending s) (· ≤ ·)
  have hset : (M.pending s).erase k = ks.toFinset := by
    rw [← Finset.sort_toFinset (M.pending s) (· ≤ ·), h, List.toFinset_cons]
    apply Finset.erase_insert
    rw [List.mem_toFinset]
    rw [h] at hnodup
    exact (List.nodup_cons.1 hnodup).1
  rw [h] at hnodup hsorted
  rw [hset]
  exact (List.toFinset_sort (· ≤ ·) (List.nodup_cons.1 hnodup).2).2 (List.pairwise_cons.1 hsorted).2

/-- Sorted items start with the one that is at most any other. -/
theorem sort_of_least {t : Finset K} (hk : k ∈ t) (hmin : ∀ j ∈ t, k ≤ j) :
    t.sort = k :: (t.erase k).sort := by
  have h := Finset.sort_insert (· ≤ ·) (fun j hj => hmin j (Finset.mem_of_mem_erase hj))
    (Finset.notMem_erase k t)
  rwa [Finset.insert_erase hk] at h

theorem sort_attempt (h : (M.pending s).sort = k :: ks) (hok : (M.attempt s k).2 = true) :
    (M.pending (M.attempt s k).1).sort = ks := by
  rw [M.erase s k (mem_of_sort h) hok, sort_erase h]

theorem run_nil (h : (M.pending s).sort = []) (n : Nat) : M.run n s = (s, []) := by
  cases n with
  | zero => rfl
  | succ n => rw [run, h]

theorem run_cons (h : (M.pending s).sort = k :: ks) (n : Nat) :
    M.run (n + 1) s =
      ((M.run n (M.attempt s k).1).1, (k, (M.attempt s k).2) :: (M.run n (M.attempt s k).1).2) := by
  rw [run, h]

/-- What every attempt of the log keeps, as far as its result says, the loop keeps. -/
theorem run_keeps {I : S → Prop} {P : Bool → Prop}
    (hI : ∀ s k, I s → k ∈ M.pending s → P (M.attempt s k).2 → I (M.attempt s k).1) (h : I s)
    (hP : ∀ e ∈ (M.run n s).2, P e.2) : I (M.run n s).1 := by
  induction n generalizing s with
  | zero => exact h
  | succ n ih =>
    cases hs : (M.pending s).sort with
    | nil => rwa [run_nil hs]
    | cons k ks =>
      rw [run_cons hs] at hP ⊢
      obtain ⟨h1, h2⟩ := List.forall_mem_cons.1 hP
      exact ih (hI s k h (mem_of_sort hs) h1) h2

/-- What an attempt of `k` that succeeds brings about, and every attempt
keeps, holds in the end once `k` has succeeded; `J` is an invariant of all
attempts. -/
theorem run_achieves {I J : S → Prop} (hJ : ∀ s j, J s → j ∈ M.pending s → J (M.attempt s j).1)
    (hk : ∀ s, J s → k ∈ M.pending s → (M.attempt s k).2 = true → I (M.attempt s k).1)
    (hI : ∀ s j, I s → j ∈ M.pending s → I (M.attempt s j).1) (h : J s) (hlog : (k, true) ∈ (M.run n s).2) :
    I (M.run n s).1 := by
  induction n generalizing s with
  | zero => exact absurd hlog List.not_mem_nil
  | succ n ih =>
    cases hs : (M.pending s).sort with
    | nil =>
      rw [run_nil hs] at hlog
      exact absurd hlog List.not_mem_nil
    | cons j ks =>
      rw [run_cons hs] at hlog ⊢
      rcases List.mem_cons.1 hlog with e | hlog
      · obtain ⟨rfl, hok⟩ := Prod.mk.inj e
        exact run_keeps (P := fun _ => True) (fun s j h hj _ => hI s j h hj) (hk s h (mem_of_sort hs) hok.symm)
          fun _ _ => trivial
      · exact ih (hJ s j h (mem_of_sort hs)) hlog

/-! ## Every attempt succeeds -/

theorem card_sort (s : S) : (M.pending s).sort.length = (M.pending s).card := Finset.length_sort (· ≤ ·)

/-- With as many iterations as items, the loop fails where the pass does. -/
theorem run_ok_iff (hn : (M.pending s).card ≤ n) :
    (∀ e ∈ (M.run n s).2, e.2 = true) ↔ ∀ ok ∈ pass M.attempt s (M.pending s).sort, ok = true := by
  induction n generalizing s with
  | zero =>
    rw [Finset.card_eq_zero.1 (Nat.le_zero.1 hn), Finset.sort_empty]
    exact iff_of_true (fun _ h => absurd h List.not_mem_nil) (fun _ h => absurd h List.not_mem_nil)
  | succ n ih =>
    cases hs : (M.pending s).sort with
    | nil =>
      rw [run_nil hs]
      exact iff_of_true (fun _ h => absurd h List.not_mem_nil) (fun _ h => absurd h List.not_mem_nil)
    | cons k ks =>
      rw [run_cons hs, pass, List.forall_mem_cons, List.forall_mem_cons]
      refine and_congr_right fun hok => ?_
      have hks := sort_attempt hs hok
      have hlen := card_sort (M := M) s
      rw [ih (by rw [← card_sort, hks]; rw [hs, List.length_cons] at hlen; omega), hks]

/-- And when nothing fails, nothing is left. -/
theorem run_pending_empty (hn : (M.pending s).card ≤ n) (hok : ∀ e ∈ (M.run n s).2, e.2 = true) :
    M.pending (M.run n s).1 = ∅ := by
  induction n generalizing s with
  | zero => exact Finset.card_eq_zero.1 (Nat.le_zero.1 hn)
  | succ n ih =>
    cases hs : (M.pending s).sort with
    | nil =>
      have hlen := card_sort (M := M) s
      rw [hs] at hlen
      rw [run_nil hs]
      exact Finset.card_eq_zero.1 hlen.symm
    | cons k ks =>
      rw [run_cons hs] at hok ⊢
      obtain ⟨h1, h2⟩ := List.forall_mem_cons.1 hok
      have hmem := mem_of_sort hs
      have hcard : (M.pending (M.attempt s k).1).card ≤ n := by
        rw [M.erase s k hmem h1, Finset.card_erase_of_mem hmem]
        omega
      exact ih hcard h2

/-! ## Every item is attempted once -/

/-- Only items pending at the start are attempted. -/
theorem mem_of_run (hstay : M.Stays) {e : K × Bool} (he : e ∈ (M.run n s).2) : e.1 ∈ M.pending s := by
  induction n generalizing s with
  | zero => exact absurd he List.not_mem_nil
  | succ n ih =>
    cases hs : (M.pending s).sort with
    | nil =>
      rw [run_nil hs] at he
      exact absurd he List.not_mem_nil
    | cons k ks =>
      have hmem := mem_of_sort hs
      rw [run_cons hs] at he
      rcases List.mem_cons.1 he with rfl | he
      · exact hmem
      · have h := ih he
        cases hok : (M.attempt s k).2 with
        | false => rwa [hstay s k hmem hok] at h
        | true =>
          rw [M.erase s k hmem hok] at h
          exact Finset.mem_of_mem_erase h

/-- The items are attempted in their order, one that has succeeded never again. -/
theorem run_pairwise (hstay : M.Stays) :
    (M.run n s).2.Pairwise fun e f => e.1 ≤ f.1 ∧ (e.2 = true → f.1 ≠ e.1) := by
  induction n generalizing s with
  | zero => exact List.Pairwise.nil
  | succ n ih =>
    cases hs : (M.pending s).sort with
    | nil =>
      rw [run_nil hs]
      exact List.Pairwise.nil
    | cons k ks =>
      rw [run_cons hs]
      refine List.pairwise_cons.2 ⟨fun f hf => ?_, ih⟩
      have hmem := mem_of_sort hs
      have hf' := mem_of_run hstay hf
      have hle : ∀ j ∈ M.pending s, k ≤ j := by
        intro j hj
        have hsorted := Finset.pairwise_sort (M.pending s) (· ≤ ·)
        rw [← Finset.mem_sort (· ≤ ·), hs] at hj
        rw [hs] at hsorted
        rcases List.mem_cons.1 hj with rfl | hj
        · exact le_refl j
        · exact (List.pairwise_cons.1 hsorted).1 j hj
      cases hok : (M.attempt s k).2 with
      | false =>
        rw [hstay s k hmem hok] at hf'
        exact ⟨hle _ hf', fun h => by cases h⟩
      | true =>
        rw [M.erase s k hmem hok] at hf'
        exact ⟨hle _ (Finset.mem_of_mem_erase hf'), fun _ => Finset.ne_of_mem_erase hf'⟩

/-- How often the log has an item. -/
def attempts (log : List (K × Bool)) (k : K) : Nat := log.countP (·.1 = k)

theorem attempts_cons (e : K × Bool) (log : List (K × Bool)) (k : K) :
    attempts (e :: log) k = attempts log k + if e.1 = k then 1 else 0 := by
  rw [attempts, List.countP_cons, attempts]
  simp only [decide_eq_true_eq]

theorem attempts_eq_zero (hstay : M.Stays) (hk : k ∉ M.pending s) : attempts (M.run n s).2 k = 0 := by
  rw [attempts, List.countP_eq_zero]
  intro e he h
  exact hk (of_decide_eq_true h ▸ mem_of_run hstay he)

/-- An attempt that fails is made again in the next iteration. -/
theorem attempts_of_fail (hstay : M.Stays) (hs : (M.pending s).sort = k :: ks)
    (hfail : (M.attempt s k).2 = false) (n : Nat) : 2 ≤ attempts (M.run (n + 2) s).2 k := by
  have hs' : (M.pending (M.attempt s k).1).sort = k :: ks := by rw [hstay s k (mem_of_sort hs) hfail, hs]
  rw [run_cons hs, run_cons hs', attempts_cons, attempts_cons, if_pos rfl]
  omega

/-- The least item succeeds: it is done with, and the loop goes on without it. -/
theorem once_of_ok (hstay : M.Stays) (hs : (M.pending s).sort = k :: ks) (hok : (M.attempt s k).2 = true)
    (n : Nat) :
    (∀ j ∈ M.pending s, attempts (M.run (n + 1) s).2 j = 1) ↔
      ∀ j ∈ M.pending (M.attempt s k).1, attempts (M.run n (M.attempt s k).1).2 j = 1 := by
  have hmem := mem_of_sort hs
  have hpend := M.erase s k hmem hok
  rw [run_cons hs]
  constructor
  · intro h j hj
    have hj' : j ∈ (M.pending s).erase k := hpend ▸ hj
    have hne := Finset.ne_of_mem_erase hj'
    have h1 := h j (Finset.mem_of_mem_erase hj')
    rw [attempts_cons, if_neg hne.symm] at h1
    exact h1
  · intro h j hj
    rw [attempts_cons]
    by_cases he : k = j
    · subst he
      rw [if_pos rfl, attempts_eq_zero hstay (by rw [hpend]; exact Finset.notMem_erase _ _)]
    · rw [if_neg he, Nat.add_zero]
      apply h j
      rw [hpend]
      exact Finset.mem_erase.2 ⟨fun e => he e.symm, hj⟩

/-- **When each item is attempted once**: no attempt of the pass may fail, save
one in the last iteration, which is not made again. -/
theorem run_once_iff (hstay : M.Stays) (hn : (M.pending s).card ≤ n) :
    (∀ k ∈ M.pending s, attempts (M.run n s).2 k = 1) ↔
      ∀ ok ∈ (pass M.attempt s (M.pending s).sort).take (n - 1), ok = true := by
  induction n generalizing s with
  | zero =>
    rw [Finset.card_eq_zero.1 (Nat.le_zero.1 hn), Finset.sort_empty, pass]
    exact iff_of_true (fun _ h => absurd h (Finset.notMem_empty _)) (fun _ h => absurd h List.not_mem_nil)
  | succ n ih =>
    have hlen := card_sort (M := M) s
    cases hs : (M.pending s).sort with
    | nil =>
      rw [hs] at hlen
      rw [Finset.card_eq_zero.1 hlen.symm, pass]
      exact iff_of_true (fun _ h => absurd h (Finset.notMem_empty _)) (fun _ h => absurd h (by simp))
    | cons k ks =>
      have hmem := mem_of_sort hs
      rw [hs, List.length_cons] at hlen
      rw [Nat.add_sub_cancel, pass]
      cases hok : (M.attempt s k).2 with
      | false =>
        cases n with
        | zero =>
          -- the only item, in the only iteration
          refine iff_of_true (fun j hj => ?_) (fun _ h => absurd h (by simp))
          have hj' : j = k := Finset.card_le_one.1 (by omega) j hj k hmem
          rw [run_cons hs, attempts_cons, hj', if_pos rfl]
          rfl
        | succ n =>
          refine iff_of_false (fun h => ?_) (fun h => ?_)
          · have h2 := attempts_of_fail hstay hs hok n
            have h1 : attempts (M.run (n + 2) s).2 k = 1 := h k hmem
            omega
          · have h1 := h false (by rw [List.take_succ_cons]; exact List.mem_cons_self)
            cases h1
      | true =>
        have hks := sort_attempt hs hok
        have hcard : (M.pending (M.attempt s k).1).card ≤ n := by rw [← card_sort, hks]; omega
        rw [once_of_ok hstay hs hok, ih hcard, hks]
        cases n with
        | zero => simp
        | succ n => rw [List.take_succ_cons, List.forall_mem_cons, Nat.add_sub_cancel, eq_self_iff_true, true_and]

end LeastFirst

end Rtos
