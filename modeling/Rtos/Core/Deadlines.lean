import Mathlib.Data.List.Sort
import Mathlib.Data.List.TakeWhile

/-!
# Lists sorted by a deadline, and the clock that passes it

A timer list holds its entries sorted by `key`, a deadline. An entry goes in
behind those that are due no later (`insertAfter`), and at the time `now` the
entries `due` are taken from the front, up to the first that is not due. On a
sorted list these are all that are due (`due_eq_filter`).

The deadlines are values of a clock that counts modulo `M`. `passed_iff` and
`passed_at_once` say when comparing them as plain numbers is right.
-/
namespace Rtos.Core

section Lists

variable {α κ : Type} [LE κ] [DecidableLE κ] {key : α → κ}

/-- No entry is due later than one behind it. -/
abbrev SortedBy (key : α → κ) (l : List α) : Prop := l.Pairwise fun a b => key a ≤ key b

abbrev due (key : α → κ) (now : κ) (l : List α) : List α := l.takeWhile fun t => key t ≤ now

abbrev pending (key : α → κ) (now : κ) (l : List α) : List α := l.dropWhile fun t => key t ≤ now

theorem sorted_pending {l : List α} (h : SortedBy key l) (now : κ) : SortedBy key (pending key now l) :=
  List.Pairwise.sublist (List.dropWhile_sublist _) h

variable [Std.IsLinearOrder κ]

omit [DecidableLE κ] in
/-- Behind an entry that is not due none is due. -/
theorem not_due_behind {b : α} {l : List α} (h : SortedBy key (b :: l)) {now : κ} (hb : ¬ key b ≤ now) :
    ∀ t ∈ b :: l, ¬ key t ≤ now := by
  intro t ht hle
  rcases List.mem_cons.1 ht with rfl | ht
  · exact hb hle
  · exact hb (Std.le_trans ((List.pairwise_cons.1 h).1 t ht) hle)

/-- The first entry that is not due stops the release, and all that are due
have been released by then. -/
theorem due_eq_filter {l : List α} (h : SortedBy key l) (now : κ) :
    due key now l = l.filter fun t => key t ≤ now := by
  induction l with
  | nil => rfl
  | cons b l ih =>
    by_cases hb : key b ≤ now
    · rw [due, List.takeWhile_cons_of_pos (by simpa using hb), List.filter_cons_of_pos (by simpa using hb),
        ← ih (List.pairwise_cons.1 h).2]
    · rw [due, List.takeWhile_cons_of_neg (by simpa using hb)]
      exact (List.filter_eq_nil_iff.2 (by simpa using not_due_behind h hb)).symm

theorem pending_eq_filter {l : List α} (h : SortedBy key l) (now : κ) :
    pending key now l = l.filter fun t => ¬ key t ≤ now := by
  induction l with
  | nil => rfl
  | cons b l ih =>
    by_cases hb : key b ≤ now
    · rw [pending, List.dropWhile_cons_of_pos (by simpa using hb), List.filter_cons_of_neg (by simpa using hb),
        ← ih (List.pairwise_cons.1 h).2]
    · rw [pending, List.dropWhile_cons_of_neg (by simpa using hb)]
      exact (List.filter_eq_self.2 (by simpa using not_due_behind h hb)).symm

theorem mem_due {l : List α} (h : SortedBy key l) {now : κ} {t : α} :
    t ∈ due key now l ↔ t ∈ l ∧ key t ≤ now := by
  rw [due_eq_filter h, List.mem_filter, decide_eq_true_iff]

theorem mem_pending {l : List α} (h : SortedBy key l) {now : κ} {t : α} :
    t ∈ pending key now l ↔ t ∈ l ∧ ¬ key t ≤ now := by
  rw [pending_eq_filter h, List.mem_filter, decide_eq_true_iff]

variable [LT κ] [DecidableLT κ] [Std.LawfulOrderLT κ]

/-- `t` goes in front of the first entry that is due later. -/
abbrev insertAfter (key : α → κ) (t : α) (l : List α) : List α :=
  l.orderedInsert (fun a b => key a < key b) t

theorem insertAfter_eq (t : α) (l : List α) :
    insertAfter key t l = due key (key t) l ++ t :: pending key (key t) l := by
  have hp : (fun b => decide ¬ key t < key b) = fun b => decide (key b ≤ key t) := by
    funext b
    rw [decide_eq_decide, Std.not_lt]
  rw [insertAfter, List.orderedInsert_eq_take_drop, hp]

omit [DecidableLE κ] in
theorem sorted_insertAfter {l : List α} (h : SortedBy key l) (t : α) :
    SortedBy key (insertAfter key t l) := by
  induction l with
  | nil => exact List.pairwise_singleton _ _
  | cons b l ih =>
    obtain ⟨hb, hl⟩ := List.pairwise_cons.1 h
    rw [insertAfter, List.orderedInsert_cons]
    split
    · rename_i ht
      have hle := Std.le_of_lt ht
      refine List.pairwise_cons.2 ⟨fun c hc => ?_, h⟩
      rcases List.mem_cons.1 hc with rfl | hc
      · exact hle
      · exact Std.le_trans hle (hb c hc)
    · rename_i ht
      refine List.pairwise_cons.2 ⟨fun c hc => ?_, ih hl⟩
      rcases (List.mem_orderedInsert _).1 hc with rfl | hc
      · exact Std.not_lt.1 ht
      · exact hb c hc

end Lists

section Clock

variable {M T n m : Nat}

/-- Until the counter wraps, and all the way when the first tick wraps it, the
deadline `n` ticks from `T` is passed by the `n`-th tick and not before. -/
theorem passed_iff (hn : n < M) (h : T + n < M ∨ T + 1 = M) (hm : m < n) :
    (T + n) % M ≤ (T + (m + 1)) % M ↔ m + 1 = n := by
  rcases h with h | h
  · rw [Nat.mod_eq_of_lt h, Nat.mod_eq_of_lt (by omega)]
    omega
  · have hwrap : ∀ i, 0 < i → i < M → (T + i) % M = i - 1 := by
      intro i hi hiM
      rw [Nat.mod_eq_sub_mod (by omega), Nat.mod_eq_of_lt (by omega)]
      omega
    rw [hwrap n (by omega) hn, hwrap (m + 1) (by omega) (by omega)]
    omega

/-- Otherwise the first of several ticks passes it. -/
theorem passed_at_once (hT : T < M) (hn : n < M) (h : ¬ (T + n < M ∨ T + 1 = M)) :
    1 < n ∧ (T + n) % M ≤ (T + 1) % M := by
  obtain ⟨h1, h2⟩ := not_or.1 h
  refine ⟨by omega, ?_⟩
  rw [Nat.mod_eq_of_lt (show T + 1 < M by omega), Nat.mod_eq_sub_mod (by omega),
    Nat.mod_eq_of_lt (by omega)]
  omega

end Clock

end Rtos.Core
