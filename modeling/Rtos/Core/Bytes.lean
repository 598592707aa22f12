import Mathlib.Algebra.Group.Nat.Defs
import Mathlib.Logic.Function.Basic

/-!
# Byte memory and little-endian words

A memory is a byte for every address. `read m a n` is the little-endian
number in the `n` bytes at `a`, `write m a n v` stores one. A word read back
is the word written if it fits (`read_write_self`); what lies outside the
bytes written is as before (`write_outside`, `read_write_apart`). `put m a f n`
is `memcpy` and `memset`: the `n` bytes at `a` become `f 0`, `f 1` and so on.
-/
namespace Rtos.Core

abbrev Mem := Nat → UInt8

namespace Mem

def read (m : Mem) : Nat → Nat → Nat
  | _, 0 => 0
  | a, n + 1 => (m a).toNat + 256 * read m (a + 1) n

def write : Mem → Nat → Nat → Nat → Mem
  | m, _, 0, _ => m
  | m, a, n + 1, v => write (Function.update m a (UInt8.ofNat v)) (a + 1) n (v / 256)

variable {m m' : Mem} {a b n k v x : Nat}

theorem write_outside (h : x < a ∨ a + n ≤ x) : write m a n v x = m x := by
  induction n generalizing m a v with
  | zero => rfl
  | succ n ih => rw [write, ih (by omega), Function.update_of_ne (by omega)]

theorem read_congr (h : ∀ x, a ≤ x → x < a + n → m' x = m x) : read m' a n = read m a n := by
  induction n generalizing a with
  | zero => rfl
  | succ n ih =>
    rw [read, read, h a (by omega) (by omega), ih fun x h1 h2 => h x (by omega) (by omega)]

theorem read_write_apart (h : b + k ≤ a ∨ a + n ≤ b) : read (write m a n v) b k = read m b k :=
  read_congr fun _ _ _ => write_outside (by omega)

theorem read_write_self (hv : v < 256 ^ n) : read (write m a n v) a n = v := by
  induction n generalizing m a v with
  | zero => rw [read]; simp at hv; exact hv.symm
  | succ n ih =>
    have h1 : v / 256 < 256 ^ n := by rw [Nat.div_lt_iff_lt_mul (by omega)]; rwa [Nat.pow_succ] at hv
    rw [write, read, ih h1, write_outside (by omega), Function.update_self, UInt8.toNat_ofNat']
    omega

theorem read_lt (m : Mem) (a n : Nat) : read m a n < 256 ^ n := by
  induction n generalizing a with
  | zero => exact Nat.one_pos
  | succ n ih =>
    have h1 := ih (a + 1)
    have h2 := (m a).toNat_lt
    rw [read, Nat.pow_succ]
    omega

/-- A word is its low bytes and what lies behind them. -/
theorem read_add (m : Mem) (a n k : Nat) : read m a (n + k) = read m a n + 256 ^ n * read m (a + n) k := by
  induction n generalizing a with
  | zero => simp [read]
  | succ n ih =>
    rw [Nat.add_right_comm, read, read, ih, show a + 1 + n = a + (n + 1) by omega, Nat.pow_succ]
    rw [Nat.mul_add, ← Nat.mul_assoc, Nat.mul_comm 256 (256 ^ n), Nat.add_assoc]

/-- No part of a word exceeds it. -/
theorem read_part_le (m : Mem) (a n k j : Nat) : read m (a + n) k ≤ read m a (n + (k + j)) := by
  rw [read_add, read_add]
  calc read m (a + n) k
      ≤ read m (a + n) k + 256 ^ k * read m (a + n + k) j := Nat.le_add_right _ _
    _ ≤ 256 ^ n * (read m (a + n) k + 256 ^ k * read m (a + n + k) j) :=
      Nat.le_mul_of_pos_left _ (Nat.pow_pos (by decide))
    _ ≤ _ := Nat.le_add_left _ _

/-- Words that differ differ in a byte. -/
theorem read_ne (h : read m' a n ≠ read m a n) : ∃ x, a ≤ x ∧ x < a + n ∧ m' x ≠ m x := by
  by_contra hno
  apply h
  apply read_congr
  intro x h1 h2
  by_contra hx
  exact hno ⟨x, h1, h2, hx⟩

/-! ## Byte ranges -/

/-- The `n` bytes at `a`. -/
def bytes (m : Mem) (a n : Nat) : List UInt8 := (List.range n).map fun i => m (a + i)

def put (m : Mem) (a : Nat) (f : Nat → UInt8) (n : Nat) : Mem :=
  fun x => if a ≤ x ∧ x < a + n then f (x - a) else m x

theorem put_outside {f : Nat → UInt8} (h : x < a ∨ a + n ≤ x) : put m a f n x = m x :=
  if_neg (by omega)

theorem put_inside {f : Nat → UInt8} {i : Nat} (h : i < n) : put m a f n (a + i) = f i := by
  rw [put, if_pos (by omega), Nat.add_sub_cancel_left]

/-- A copy of the bytes that are there. -/
theorem put_self (m : Mem) (a n : Nat) : put m a (fun i => m (a + i)) n = m := by
  funext x
  unfold put
  split
  · rename_i hx
    show m (a + (x - a)) = m x
    rw [Nat.add_sub_cancel' hx.1]
  · rfl

theorem bytes_congr (h : ∀ x, a ≤ x → x < a + n → m' x = m x) : bytes m' a n = bytes m a n :=
  List.map_congr_left fun i hi => by
    have := List.mem_range.1 hi
    exact h _ (by omega) (by omega)

@[simp] theorem length_bytes (m : Mem) (a n : Nat) : (bytes m a n).length = n := by
  rw [bytes, List.length_map, List.length_range]

theorem bytes_getElem? (m : Mem) (a : Nat) {i n : Nat} (h : i < n) : (bytes m a n)[i]? = some (m (a + i)) := by
  rw [bytes, List.getElem?_map, List.getElem?_range h, Option.map_some]

/-- A range is known by its bytes. -/
theorem bytes_eq {l : List UInt8} (h : ∀ i, i < n → l[i]? = some (m (a + i))) (hl : l.length = n) :
    bytes m a n = l := by
  apply List.ext_getElem?
  intro i
  by_cases hi : i < n
  · rw [bytes_getElem? m a hi, h i hi]
  · rw [List.getElem?_eq_none (by rw [length_bytes]; omega), List.getElem?_eq_none (by omega)]

theorem bytes_update (m : Mem) (a i n : Nat) (v : UInt8) :
    bytes (Function.update m (a + i) v) a n = (bytes m a n).set i v := by
  apply bytes_eq
  · intro j hj
    by_cases hij : i = j
    · subst hij
      rw [List.getElem?_set_self (by rwa [length_bytes]), Function.update_self]
    · rw [List.getElem?_set_ne hij, bytes_getElem? m a hj, Function.update_of_ne (by omega)]
  · rw [List.length_set, length_bytes]

theorem bytes_take (m : Mem) (a n k : Nat) : (bytes m a n).take k = bytes m a (min k n) := by
  rw [bytes, bytes, ← List.map_take, List.take_range]

theorem bytes_put_self (m : Mem) (a : Nat) (f : Nat → UInt8) (n : Nat) :
    bytes (put m a f n) a n = (List.range n).map f :=
  List.map_congr_left fun _ hi => put_inside (List.mem_range.1 hi)

theorem bytes_put_apart {f : Nat → UInt8} (h : b + k ≤ a ∨ a + n ≤ b) :
    bytes (put m a f n) b k = bytes m b k :=
  bytes_congr fun _ _ _ => put_outside (by omega)

end Mem

end Rtos.Core
