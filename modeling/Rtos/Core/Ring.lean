import Mathlib.Data.List.Basic

/-!
# Ring buffers

A `Ring cap` is a position in a circular buffer of `cap` slots: the slot to be
read next and the number of slots in use, at most `cap`. Its `items` are the
slots in use, oldest first. Filling the slot at `head` and pushing adds an
item at the end (`items_push`), popping takes the first one (`items_pop`).
-/
namespace Rtos.Core

structure Ring (cap : Nat) where
  tail : Nat
  count : Nat
  tail_lt : tail < cap
  count_le : count ≤ cap

namespace Ring

variable {α : Type} {cap : Nat} {slots slots' : Nat → α}

def empty (h : 0 < cap) : Ring cap := ⟨0, 0, h, Nat.zero_le _⟩

/-- The slot to be filled next. -/
def head (r : Ring cap) : Nat := (r.tail + r.count) % cap

def push (r : Ring cap) (h : r.count < cap) : Ring cap := ⟨r.tail, r.count + 1, r.tail_lt, h⟩

def pop (r : Ring cap) : Ring cap where
  tail := (r.tail + 1) % cap
  count := r.count - 1
  tail_lt := Nat.mod_lt _ (by have := r.tail_lt; omega)
  count_le := Nat.le_trans (Nat.sub_le _ _) r.count_le

def items (slots : Nat → α) (r : Ring cap) : List α :=
  (List.range r.count).map fun i => slots ((r.tail + i) % cap)

theorem head_lt (r : Ring cap) : r.head < cap := Nat.mod_lt _ (by have := r.tail_lt; omega)

theorem head_empty (h : 0 < cap) : (empty h).head = 0 := Nat.zero_mod cap

theorem head_push (r : Ring cap) (h : r.count < cap) : (r.push h).head = (r.head + 1) % cap := by
  show (r.tail + (r.count + 1)) % cap = ((r.tail + r.count) % cap + 1) % cap
  rw [Nat.mod_add_mod, Nat.add_assoc]

theorem head_pop (r : Ring cap) (h : 0 < r.count) : r.pop.head = r.head := by
  show ((r.tail + 1) % cap + (r.count - 1)) % cap = (r.tail + r.count) % cap
  rw [Nat.mod_add_mod, show r.tail + 1 + (r.count - 1) = r.tail + r.count by omega]

theorem length_items (slots : Nat → α) (r : Ring cap) : (r.items slots).length = r.count := by
  rw [items, List.length_map, List.length_range]

theorem items_empty (slots : Nat → α) (h : 0 < cap) : (empty h).items slots = [] := rfl

/-- Only the slots matter. -/
theorem items_congr (r : Ring cap) (h : ∀ i, i < cap → slots' i = slots i) : r.items slots' = r.items slots :=
  List.map_congr_left fun _ _ => h _ (Nat.mod_lt _ (by have := r.tail_lt; omega))

/-- The slot at `head` is none of those in use. -/
theorem head_ne (r : Ring cap) (h : r.count < cap) {i : Nat} (hi : i < r.count) :
    (r.tail + i) % cap ≠ r.head := by
  intro e
  have ht := r.tail_lt
  have hd : cap ∣ (r.tail + r.count) - (r.tail + i) :=
    Nat.dvd_of_mod_eq_zero (Nat.sub_mod_eq_zero_of_mod_eq e.symm)
  have := Nat.le_of_dvd (by omega) hd
  omega

theorem items_push (r : Ring cap) (h : r.count < cap)
    (hs : ∀ i, i < cap → i ≠ r.head → slots' i = slots i) :
    (r.push h).items slots' = r.items slots ++ [slots' r.head] := by
  show (List.range (r.count + 1)).map (fun i => slots' ((r.tail + i) % cap)) = _
  rw [List.range_succ, List.map_append, List.map_singleton]
  congr 1
  refine List.map_congr_left fun i hi => hs _ (Nat.mod_lt _ (by omega)) ?_
  exact r.head_ne h (List.mem_range.1 hi)

theorem items_pop (r : Ring cap) (h : 0 < r.count) : r.items slots = slots r.tail :: r.pop.items slots := by
  obtain ⟨n, hn⟩ : ∃ n, r.count = n + 1 := ⟨r.count - 1, by omega⟩
  have hpop : r.pop.items slots = (List.range n).map fun i => slots (((r.tail + 1) % cap + i) % cap) := by
    show (List.range (r.count - 1)).map _ = _
    rw [hn]
    rfl
  rw [hpop, items, hn, List.range_succ_eq_map, List.map_cons, List.map_map, Nat.add_zero,
    Nat.mod_eq_of_lt r.tail_lt]
  congr 1
  refine List.map_congr_left fun i _ => ?_
  rw [Function.comp_apply, Nat.mod_add_mod, Nat.succ_eq_add_one, Nat.add_comm i 1, Nat.add_assoc]

end Ring

end Rtos.Core
