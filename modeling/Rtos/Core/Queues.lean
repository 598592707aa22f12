import Mathlib.Data.List.Nodup
import Mathlib.Data.List.Perm.Basic
import Mathlib.Logic.Function.Basic

/-!
# FIFO queues in levels, level 0 first

`Queues α` is one list per level. `push` adds at the end of a level, `drop`
takes an element out of a level, `top n` is the first element of the first
non-empty level below `n`.
-/
namespace Rtos.Core

abbrev Queues (α : Type) := Nat → List α

namespace Queues

variable {α : Type}

def push (q : Queues α) (p : Nat) (a : α) : Queues α := Function.update q p (q p ++ [a])

def drop [DecidableEq α] (q : Queues α) (p : Nat) (a : α) : Queues α :=
  Function.update q p ((q p).erase a)

def top (n : Nat) (q : Queues α) : Option α := (List.range n).findSome? fun p => (q p).head?

@[simp] theorem push_self (q : Queues α) (p : Nat) (a : α) : q.push p a p = q p ++ [a] := by
  simp [push]

theorem push_other (q : Queues α) {p r : Nat} (a : α) (h : r ≠ p) : q.push p a r = q r := by
  simp [push, h]

@[simp] theorem drop_self [DecidableEq α] (q : Queues α) (p : Nat) (a : α) :
    q.drop p a p = (q p).erase a := by
  simp [drop]

theorem drop_other [DecidableEq α] (q : Queues α) {p r : Nat} (a : α) (h : r ≠ p) :
    q.drop p a r = q r := by
  simp [drop, h]

theorem mem_push {q : Queues α} {p r : Nat} {a b : α} :
    b ∈ q.push p a r ↔ b ∈ q r ∨ (r = p ∧ b = a) := by
  by_cases h : r = p
  · subst h; simp
  · simp [push_other q a h, h]

/-- Without repetition, dropping an element leaves the others where they were. -/
theorem mem_drop [DecidableEq α] {q : Queues α} {p r : Nat} {a b : α} (hn : (q p).Nodup) :
    b ∈ q.drop p a r ↔ b ∈ q r ∧ ¬ (r = p ∧ b = a) := by
  by_cases h : r = p
  · subst h; simp [hn.mem_erase_iff, and_comm]
  · simp [drop_other q a h, h]

theorem drop_push [DecidableEq α] {q : Queues α} {p : Nat} {a : α} (ha : a ∉ q p) :
    (q.push p a).drop p a = q.drop p a := by
  funext r
  by_cases h : r = p
  · subst h
    rw [drop_self, drop_self, push_self, List.erase_append_right _ ha, List.erase_of_not_mem ha]
    simp
  · rw [drop_other _ a h, drop_other _ a h, push_other q a h]

theorem nodup_push {q : Queues α} {p r : Nat} {a : α} (hn : (q r).Nodup) (ha : a ∉ q r) :
    (q.push p a r).Nodup := by
  by_cases h : r = p
  · subst h
    rw [push_self, List.nodup_append]
    exact ⟨hn, List.nodup_singleton a, fun b hb c hc e => ha (by simp only [List.mem_singleton] at hc; rwa [← hc, ← e])⟩
  · rwa [push_other q a h]

theorem nodup_drop [DecidableEq α] {q : Queues α} {p r : Nat} {a : α} (hn : (q r).Nodup) :
    (q.drop p a r).Nodup := by
  by_cases h : r = p
  · subst h; rw [drop_self]; exact hn.erase a
  · rwa [drop_other q a h]

theorem top_eq_none {n : Nat} {q : Queues α} : top n q = none ↔ ∀ p < n, q p = [] := by
  simp [top, List.findSome?_eq_none_iff]

theorem top_first {n : Nat} {q : Queues α} {a : α} (h : top n q = some a) :
    ∃ p < n, (q p).head? = some a ∧ ∀ r < p, q r = [] := by
  induction n with
  | zero => simp [top] at h
  | succ n ih =>
    unfold top at h ih
    rw [List.range_succ, List.findSome?_append, Option.or_eq_some_iff] at h
    rcases h with h | ⟨h0, h⟩
    · obtain ⟨p, hp, h1, h2⟩ := ih h
      exact ⟨p, by omega, h1, h2⟩
    · refine ⟨n, by omega, by simpa using h, top_eq_none.1 h0⟩

theorem top_of_first {n p : Nat} {q : Queues α} {a : α} (hp : p < n) (ha : (q p).head? = some a)
    (hr : ∀ r < p, q r = []) : top n q = some a := by
  cases ht : top n q with
  | none => rw [top_eq_none.1 ht p hp] at ha; cases ha
  | some b =>
    obtain ⟨r, -, hb, hr'⟩ := top_first ht
    rcases Nat.lt_trichotomy p r with hlt | rfl | hlt
    · rw [hr' p hlt] at ha; cases ha
    · rw [← hb, ← ha]
    · rw [hr r hlt] at hb; cases hb

theorem mem_of_top {n : Nat} {q : Queues α} {a : α} (h : top n q = some a) :
    ∃ p < n, a ∈ q p ∧ ∀ r < p, q r = [] := by
  obtain ⟨p, hp, ha, hr⟩ := top_first h
  exact ⟨p, hp, List.mem_of_mem_head? ha, hr⟩

/-- An element pushed behind others does not change what is at the top; pushed
on an empty level it is at the top if no level before holds anything. -/
theorem top_push {n p : Nat} {q : Queues α} {a : α} (hp : p < n) :
    top n (q.push p a) = if ∀ r ≤ p, q r = [] then some a else top n q := by
  split
  · rename_i he
    refine top_of_first hp (by simp [he p (Nat.le_refl p)]) fun r hr => ?_
    rw [push_other q a (by omega), he r (by omega)]
  · rename_i hne
    cases ht : top n q with
    | none => exact absurd (fun r hr => top_eq_none.1 ht r (by omega)) hne
    | some b =>
      obtain ⟨r, hr, hb, hlt⟩ := top_first ht
      have hrp : r ≤ p := by
        by_contra hgt
        exact hne fun r' hr' => hlt r' (by omega)
      refine top_of_first hr ?_ fun r' hr' => by rw [push_other q a (by omega), hlt r' hr']
      by_cases h : r = p
      · subst h; rw [push_self, List.head?_append, hb]; rfl
      · rw [push_other q a h, hb]

end Queues

end Rtos.Core
