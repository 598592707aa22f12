import Rtos.Core.Bytes

/-!
# Bitmaps in byte memory

Bit `i` of the bitmap at `a` is bit `i % 8` of the byte `a + i / 8`. Setting
or clearing one bit changes no other (`getBit_setBit`, `getBit_clearBit`) and
the number of set bits by one; a byte `0xFF` is eight set bits
(`getBit_ones`). `firstBit` is the search for the lowest set bit.
-/
namespace Rtos.Core

namespace Mem

def mask (i : Nat) : UInt8 := 1 <<< UInt8.ofNat (i % 8)

def getBit (m : Mem) (a i : Nat) : Bool := m (a + i / 8) &&& mask i != 0

def setBit (m : Mem) (a i : Nat) : Mem := Function.update m (a + i / 8) (m (a + i / 8) ||| mask i)

def clearBit (m : Mem) (a i : Nat) : Mem := Function.update m (a + i / 8) (m (a + i / 8) &&& ~~~ mask i)

/-- The set bits among the first `n`. -/
def setBits (m : Mem) (a n : Nat) : Nat := ((List.range n).filter (m.getBit a)).length

variable {m m' : Mem} {a i j n x : Nat}

/-! ## One bit -/

theorem toBitVec_mask (i : Nat) : (mask i).toBitVec = BitVec.twoPow 8 (i % 8) := by
  have h : ∀ k : Fin 8, (1 <<< UInt8.ofNat k.1 : UInt8).toBitVec = BitVec.twoPow 8 k.1 := by decide
  exact h ⟨i % 8, Nat.mod_lt _ (by decide)⟩

theorem and_mask (b : UInt8) (i : Nat) : (b &&& mask i != 0) = b.toBitVec.getLsbD (i % 8) := by
  have hi : i % 8 < 8 := Nat.mod_lt _ (by decide)
  have h0 : BitVec.twoPow 8 (i % 8) ≠ 0#8 := by
    intro h
    have := congrArg (·.getLsbD (i % 8)) h
    simp [hi] at this
  have e : (b &&& mask i) = 0 ↔ b.toBitVec.getLsbD (i % 8) = false := by
    rw [← UInt8.toBitVec_inj, UInt8.toBitVec_and, toBitVec_mask, BitVec.and_twoPow]
    cases b.toBitVec.getLsbD (i % 8) with
    | true => simpa using h0
    | false => simp
  cases h : b.toBitVec.getLsbD (i % 8) with
  | true => simpa [h] using e
  | false => simpa [h] using e

theorem getBit_eq (m : Mem) (a i : Nat) : m.getBit a i = (m (a + i / 8)).toBitVec.getLsbD (i % 8) :=
  and_mask _ _

theorem getBit_congr (h : m' (a + i / 8) = m (a + i / 8)) : m'.getBit a i = m.getBit a i := by
  rw [getBit, getBit, h]

theorem getBit_ones (h : m (a + i / 8) = 0xFF) : m.getBit a i = true := by
  have hi : i % 8 < 8 := Nat.mod_lt _ (by decide)
  rw [getBit_eq, h]
  have : ∀ k : Fin 8, (0xFF : UInt8).toBitVec.getLsbD k.1 = true := by decide
  exact this ⟨i % 8, hi⟩

theorem getBit_setBit (m : Mem) (a i j : Nat) :
    (m.setBit a i).getBit a j = (decide (j = i) || m.getBit a j) := by
  have hi : i % 8 < 8 := Nat.mod_lt _ (by decide)
  rw [getBit_eq, getBit_eq, setBit]
  by_cases hb : j / 8 = i / 8
  · have e : decide (i % 8 = j % 8) = decide (j = i) := decide_eq_decide.2 (by omega)
    rw [hb, Function.update_self, UInt8.toBitVec_or, toBitVec_mask, BitVec.getLsbD_or, BitVec.getLsbD_twoPow,
      Bool.or_comm, e]
    simp only [hi, decide_true, Bool.true_and]
  · rw [Function.update_of_ne (by omega), decide_eq_false (by intro h; exact hb (h ▸ rfl)), Bool.false_or]

theorem getBit_clearBit (m : Mem) (a i j : Nat) :
    (m.clearBit a i).getBit a j = (!decide (j = i) && m.getBit a j) := by
  have hi : i % 8 < 8 := Nat.mod_lt _ (by decide)
  have hj : j % 8 < 8 := Nat.mod_lt _ (by decide)
  rw [getBit_eq, getBit_eq, clearBit]
  by_cases hb : j / 8 = i / 8
  · have e : decide (i % 8 = j % 8) = decide (j = i) := decide_eq_decide.2 (by omega)
    rw [hb, Function.update_self, UInt8.toBitVec_and, UInt8.toBitVec_not, toBitVec_mask, BitVec.getLsbD_and,
      BitVec.getLsbD_not, BitVec.getLsbD_twoPow, Bool.and_comm, e]
    simp only [hi, hj, decide_true, Bool.true_and]
  · rw [Function.update_of_ne (by omega), decide_eq_false (by intro h; exact hb (h ▸ rfl)), Bool.not_false,
      Bool.true_and]

/-! ## The number of set bits -/

/-- A bit turned on is one bit more. -/
theorem length_filter_range {f g : Nat → Bool} (hi : i < n) (hf : f i = false) (hg : g i = true)
    (h : ∀ j, j ≠ i → g j = f j) :
    ((List.range n).filter g).length = ((List.range n).filter f).length + 1 := by
  induction n with
  | zero => omega
  | succ n ih =>
    rw [List.range_succ, List.filter_append, List.filter_append, List.length_append, List.length_append]
    by_cases hn : i = n
    · subst hn
      have hsame : (List.range i).filter g = (List.range i).filter f :=
        List.filter_congr fun j hj => h j (by have := List.mem_range.1 hj; omega)
      rw [hsame]
      simp [hf, hg]
    · rw [ih (by omega)]
      have hlast : [n].filter g = [n].filter f := List.filter_congr fun j hj => by
        rw [List.mem_singleton.1 hj]
        exact h n (Ne.symm hn)
      rw [hlast]
      omega

theorem setBits_setBit (hi : i < n) (h : m.getBit a i = false) :
    (m.setBit a i).setBits a n = m.setBits a n + 1 := by
  refine length_filter_range hi h ?_ fun j hj => ?_
  · simp [getBit_setBit]
  · simp [getBit_setBit, hj]

theorem setBits_clearBit (hi : i < n) (h : m.getBit a i = true) :
    m.setBits a n = (m.clearBit a i).setBits a n + 1 := by
  refine length_filter_range hi ?_ h fun j hj => ?_
  · simp [getBit_clearBit]
  · simp [getBit_clearBit, hj]

theorem setBits_congr (h : ∀ i, i < n → m'.getBit a i = m.getBit a i) : m'.setBits a n = m.setBits a n := by
  rw [setBits, setBits, List.filter_congr fun i hi => h i (List.mem_range.1 hi)]

theorem setBits_ones (h : ∀ i, i < n → m.getBit a i = true) : m.setBits a n = n := by
  rw [setBits, List.filter_eq_self.2 fun i hi => h i (List.mem_range.1 hi), List.length_range]

/-! ## The lowest set bit -/

/-- The first of the `n` bits from `i` on that is set. -/
def firstBit (m : Mem) (a : Nat) : Nat → Nat → Option Nat
  | 0, _ => none
  | n + 1, i => if m.getBit a i then some i else firstBit m a n (i + 1)

theorem firstBit_some (h : firstBit m a n i = some j) :
    i ≤ j ∧ j < i + n ∧ m.getBit a j = true ∧ ∀ k, i ≤ k → k < j → m.getBit a k = false := by
  induction n generalizing i with
  | zero => cases h
  | succ n ih =>
    unfold firstBit at h
    split at h
    · rename_i hi
      cases h
      exact ⟨Nat.le_refl _, by omega, hi, fun k h1 h2 => by omega⟩
    · rename_i hi
      obtain ⟨h1, h2, h3, h4⟩ := ih h
      refine ⟨by omega, by omega, h3, fun k hk hkj => ?_⟩
      by_cases hki : k = i
      · rw [hki]; exact Bool.eq_false_iff.2 hi
      · exact h4 k (by omega) hkj

theorem firstBit_none (h : firstBit m a n i = none) : ∀ k, i ≤ k → k < i + n → m.getBit a k = false := by
  induction n generalizing i with
  | zero => intro k h1 h2; omega
  | succ n ih =>
    unfold firstBit at h
    split at h
    · cases h
    · rename_i hi
      intro k h1 h2
      by_cases hki : k = i
      · rw [hki]; exact Bool.eq_false_iff.2 hi
      · exact ih h k (by omega) (by omega)

end Mem

end Rtos.Core
