import Mathlib.Algebra.Field.ZMod
import Mathlib.Data.BitVec
import Mathlib.Data.List.GetD
import Mathlib.RingTheory.AdjoinRoot

/-!
# Bits as polynomials over GF(2), and the shift register that divides

`descPoly bs` has the bits `bs` as its coefficients, the highest first. A word
of `w` bits, its least significant bit first, is the polynomial `regPoly` of
degree below `w`: the reflected convention. One step of a Galois register with
the word `g` multiplies by `X` modulo `X ^ w + regPoly g` (`mk_shiftStep`), so
what the register holds is a remainder (`regPoly_eq_mod`). Bits that differ
in a window of `w` positions only have different remainders, whatever follows
them, if the constant term of the modulus is 1 (`eq_of_burst`).
-/
namespace Rtos.Core

open Polynomial

def bit (b : Bool) : ZMod 2 := if b then 1 else 0

noncomputable def descPoly : List Bool → (ZMod 2)[X]
  | [] => 0
  | b :: bs => C (bit b) * X ^ bs.length + descPoly bs

/-- The bits of a word, the least significant one first. -/
def lsbFirst {w : Nat} (v : BitVec w) : List Bool := List.ofFn fun i : Fin w => v[i]

noncomputable def regPoly {w : Nat} (v : BitVec w) : (ZMod 2)[X] := descPoly (lsbFirst v)

/-- The word whose bits, the least significant one first, are the coefficients
of `p` from that of `X ^ (w - 1)` down. -/
def reflected (w : Nat) (p : (ZMod 2)[X]) : BitVec w :=
  (BitVec.ofBoolListLE (List.ofFn fun i : Fin w => decide (p.coeff (w - 1 - i) = 1))).cast List.length_ofFn

/-- One step of the register. -/
def shiftStep {w : Nat} (g v : BitVec w) : BitVec w := (v >>> 1) ^^^ if v.getLsbD 0 then g else 0

noncomputable def modulus {w : Nat} (g : BitVec w) : (ZMod 2)[X] := X ^ w + regPoly g

variable {w : Nat} {g u v : BitVec w} {bs cs : List Bool} {p : (ZMod 2)[X]} {j k : Nat}

theorem bit_xor (a b : Bool) : bit (a ^^ b) = bit a + bit b := by
  cases a <;> cases b <;> rfl

theorem bit_eq_one (a : Bool) : bit a = 1 ↔ a = true := by cases a <;> decide

theorem bit_injective {a b : Bool} (h : bit a = bit b) : a = b := by
  cases a <;> cases b <;> first | rfl | exact absurd h (by decide)

/-! ## Coefficients -/

theorem coeff_descPoly (bs : List Bool) (j : Nat) : (descPoly bs).coeff j = bit (bs.reverse.getD j false) := by
  induction bs with
  | nil => exact coeff_zero j
  | cons b bs ih =>
    rw [descPoly, coeff_add, coeff_C_mul, coeff_X_pow, ih, List.reverse_cons]
    rcases Nat.lt_trichotomy j bs.length with hj | rfl | hj
    · rw [if_neg (by omega), mul_zero, zero_add, List.getD_append _ _ _ _ (by rwa [List.length_reverse])]
    · rw [if_pos rfl, mul_one, List.getD_append_right _ _ _ _ (by rw [List.length_reverse]),
        List.getD_eq_default _ _ (by rw [List.length_reverse]), List.length_reverse, Nat.sub_self]
      exact add_zero _
    · rw [if_neg (by omega), mul_zero, zero_add, List.getD_eq_default _ _ (by rw [List.length_reverse]; omega),
        List.getD_eq_default _ _ (by rw [List.length_append, List.length_reverse, List.length_singleton]; omega)]

theorem degree_descPoly_lt (bs : List Bool) : (descPoly bs).degree < bs.length := by
  rw [degree_lt_iff_coeff_zero]
  intro j hj
  rw [coeff_descPoly, List.getD_eq_default _ _ (by rwa [List.length_reverse])]
  rfl

theorem descPoly_append (bs cs : List Bool) : descPoly (bs ++ cs) = descPoly bs * X ^ cs.length + descPoly cs := by
  induction bs with
  | nil => rw [descPoly, zero_mul, zero_add, List.nil_append]
  | cons b bs ih =>
    rw [List.cons_append, descPoly, descPoly, ih, List.length_append, pow_add]
    ring

/-- Bits of one length are their polynomial. -/
theorem descPoly_injective (hlen : bs.length = cs.length) (h : descPoly bs = descPoly cs) : bs = cs := by
  rw [← List.reverse_inj]
  apply List.ext_getElem (by rw [List.length_reverse, List.length_reverse, hlen])
  intro j h1 h2
  have hj := congrArg (coeff · j) h
  rw [coeff_descPoly, coeff_descPoly, List.getD_eq_getElem _ _ h1, List.getD_eq_getElem _ _ h2] at hj
  exact bit_injective hj

theorem length_lsbFirst (v : BitVec w) : (lsbFirst v).length = w := List.length_ofFn

/-- A window of the bits of a word. -/
theorem lsbFirst_window (v : BitVec w) (k m : Nat) :
    lsbFirst ((v >>> k).setWidth m) = (List.range' k m).map v.getLsbD := by
  apply List.ext_getElem
  · rw [length_lsbFirst, List.length_map, List.length_range']
  · intro i h1 h2
    simp [lsbFirst]

theorem coeff_regPoly (v : BitVec w) (j : Nat) : (regPoly v).coeff j = bit (v.getMsbD j) := by
  rw [regPoly, coeff_descPoly]
  congr 1
  rcases Nat.lt_or_ge j w with hj | hj
  · rw [List.getD_eq_getElem _ _ (by rwa [List.length_reverse, length_lsbFirst]), List.getElem_reverse]
    simp only [lsbFirst, List.length_ofFn, List.getElem_ofFn, BitVec.getMsbD, hj, decide_true, Bool.true_and]
    exact (BitVec.getLsbD_eq_getElem _).symm
  · rw [List.getD_eq_default _ _ (by rwa [List.length_reverse, length_lsbFirst]), BitVec.getMsbD_of_ge _ _ hj]

theorem degree_regPoly_lt (v : BitVec w) : (regPoly v).degree < w := by
  have h := degree_descPoly_lt (lsbFirst v)
  rwa [length_lsbFirst] at h

theorem reflected_regPoly (v : BitVec w) : reflected w (regPoly v) = v := by
  apply BitVec.eq_of_getLsbD_eq
  intro i hi
  rw [reflected, BitVec.getLsbD_cast, BitVec.getLsbD_ofBoolListLE,
    List.getD_eq_getElem _ _ (by rwa [List.length_ofFn]), List.getElem_ofFn, coeff_regPoly]
  simp only [bit_eq_one, Bool.decide_eq_true]
  rw [BitVec.getLsbD_eq_getMsbD, decide_eq_true hi, Bool.true_and]

theorem regPoly_injective (h : regPoly u = regPoly v) : u = v := by
  rw [← reflected_regPoly u, h, reflected_regPoly]

theorem regPoly_xor (u v : BitVec w) : regPoly (u ^^^ v) = regPoly u + regPoly v := by
  ext j
  rw [coeff_add, coeff_regPoly, coeff_regPoly, coeff_regPoly, BitVec.getMsbD_xor, bit_xor]

theorem regPoly_zero : regPoly (0 : BitVec w) = 0 := by
  ext j
  rw [coeff_regPoly, coeff_zero]
  simp [bit]

theorem regPoly_allOnes (w : Nat) : regPoly (BitVec.allOnes w) = ∑ i ∈ Finset.range w, X ^ i := by
  ext j
  rw [coeff_regPoly, finsetSum_coeff]
  simp [coeff_X_pow, bit]

/-- Widening a word puts zeros behind it. -/
theorem regPoly_setWidth (v : BitVec w) (k : Nat) : regPoly (v.setWidth (w + k)) = regPoly v * X ^ k := by
  ext j
  rw [coeff_regPoly, coeff_mul_X_pow', coeff_regPoly, BitVec.getMsbD_setWidth]
  split
  · rename_i h
    rw [decide_eq_true (by omega), Bool.true_and, show j + w - (w + k) = j - k by omega]
  · rw [decide_eq_false (by omega), Bool.false_and]
    rfl

/-! ## The register -/

/-- The bit shifted out is the coefficient that overflows. -/
theorem regPoly_ushiftRight (v : BitVec w) :
    regPoly (v >>> 1) + C (bit (v.getLsbD 0)) * X ^ w = X * regPoly v := by
  ext j
  rw [coeff_add, coeff_regPoly, coeff_C_mul, coeff_X_pow, BitVec.getMsbD_ushiftRight]
  have hmsb : ∀ i, w = i + 1 → v.getMsbD i = v.getLsbD 0 := by
    intro i hi
    rw [BitVec.getLsbD_eq_getMsbD, decide_eq_true (by omega), Bool.true_and, show w - 1 - 0 = i by omega]
  cases j with
  | zero =>
    rw [coeff_X_mul_zero]
    cases w with
    | zero => simp [bit]
    | succ w => simp [bit]
  | succ j =>
    rw [coeff_X_mul, coeff_regPoly]
    rcases Nat.lt_trichotomy w (j + 1) with hw | hw | hw
    · rw [if_neg (by omega), mul_zero, add_zero, decide_eq_false (by omega), Bool.false_and,
        BitVec.getMsbD_of_ge _ _ (by omega)]
    · rw [if_pos hw.symm, mul_one, decide_eq_false (by omega), Bool.false_and, hmsb j hw]
      exact zero_add _
    · rw [if_neg (by omega), mul_zero, add_zero, decide_eq_true hw, decide_eq_false (by omega)]
      rfl

theorem regPoly_shiftStep (g v : BitVec w) :
    regPoly (shiftStep g v) = X * regPoly v + C (bit (v.getLsbD 0)) * modulus g := by
  have htwo : (2 : (ZMod 2)[X]) = 0 := CharTwo.two_eq_zero
  rw [shiftStep, regPoly_xor, ← regPoly_ushiftRight, modulus]
  cases v.getLsbD 0
  · rw [if_neg (by decide), regPoly_zero]
    simp [bit]
  · rw [if_pos rfl]
    simp only [bit, if_true, C_1]
    linear_combination (-(X : (ZMod 2)[X]) ^ w) * htwo

theorem monic_modulus (g : BitVec w) : (modulus g).Monic :=
  monic_X_pow_add (degree_regPoly_lt g)

theorem degree_modulus (g : BitVec w) : (modulus g).degree = w := by
  have hlt : (regPoly g).degree < (X ^ w : (ZMod 2)[X]).degree := by
    rw [degree_X_pow]
    exact degree_regPoly_lt g
  rw [modulus, degree_add_eq_left_of_degree_lt hlt, degree_X_pow]

theorem mk_shiftStep (g v : BitVec w) :
    AdjoinRoot.mk (modulus g) (regPoly (shiftStep g v)) =
      AdjoinRoot.mk (modulus g) X * AdjoinRoot.mk (modulus g) (regPoly v) := by
  rw [regPoly_shiftStep, map_add, map_mul, map_mul, AdjoinRoot.mk_self, mul_zero, add_zero]

/-- A register in the class of a polynomial holds its remainder. -/
theorem regPoly_eq_mod (h : AdjoinRoot.mk (modulus g) (regPoly v) = AdjoinRoot.mk (modulus g) p) :
    regPoly v = p %ₘ modulus g := by
  have hself : regPoly v %ₘ modulus g = regPoly v :=
    (modByMonic_eq_self_iff (monic_modulus g)).2 (by rw [degree_modulus]; exact degree_regPoly_lt v)
  rw [← hself]
  exact modByMonic_eq_of_dvd_sub (monic_modulus g) (AdjoinRoot.mk_eq_mk.1 h)

/-! ## Bursts -/

theorem isCoprime_X_modulus (hw : 0 < w) (hg : g.getMsbD 0 = true) : IsCoprime X (modulus g) := by
  rw [irreducible_X.coprime_iff_not_dvd, X_dvd_iff, modulus, coeff_add, coeff_X_pow, if_neg (by omega),
    coeff_regPoly, hg, zero_add]
  decide

/-- Bits that agree outside a window of `w` positions. -/
theorem window_split (hlen : bs.length = cs.length)
    (hwin : ∀ i, i < bs.length → bs[i]? ≠ cs[i]? → k ≤ i ∧ i < k + w) :
    ∃ l x y r, bs = l ++ x ++ r ∧ cs = l ++ y ++ r ∧ x.length = y.length ∧ x.length ≤ w := by
  have hsplit : ∀ ds : List Bool, ds = ds.take k ++ (ds.drop k).take w ++ ds.drop (k + w) := by
    intro ds
    rw [List.append_assoc, ← List.drop_drop, List.take_append_drop, List.take_append_drop]
  have hout : ∀ i, i < k ∨ k + w ≤ i → cs[i]? = bs[i]? := by
    intro i hi
    rcases Nat.lt_or_ge i bs.length with hlt | hge
    · by_contra hne
      have := hwin i hlt (Ne.symm hne)
      omega
    · rw [List.getElem?_eq_none hge, List.getElem?_eq_none (by omega)]
  have hl : cs.take k = bs.take k := by
    apply List.ext_getElem?
    intro i
    rw [List.getElem?_take, List.getElem?_take]
    split
    · exact hout i (by omega)
    · rfl
  have hr : cs.drop (k + w) = bs.drop (k + w) := by
    apply List.ext_getElem?
    intro i
    rw [List.getElem?_drop, List.getElem?_drop]
    exact hout _ (by omega)
  refine ⟨bs.take k, (bs.drop k).take w, (cs.drop k).take w, bs.drop (k + w), hsplit bs, ?_, ?_, ?_⟩
  · rw [← hl, ← hr]
    exact hsplit cs
  · simp [hlen]
  · exact List.length_take_le _ _

/-- The modulus divides no burst, so bits in one class that differ in a window
of `w` positions are the same. -/
theorem eq_of_burst (hw : 0 < w) (hg : g.getMsbD 0 = true) (hlen : bs.length = cs.length)
    (hwin : ∀ i, i < bs.length → bs[i]? ≠ cs[i]? → k ≤ i ∧ i < k + w)
    (h : AdjoinRoot.mk (modulus g) (descPoly bs * X ^ j) = AdjoinRoot.mk (modulus g) (descPoly cs * X ^ j)) :
    bs = cs := by
  obtain ⟨l, x, y, r, rfl, rfl, hxy, hx⟩ := window_split hlen hwin
  have hdvd : modulus g ∣ (descPoly x - descPoly y) * X ^ (r.length + j) := by
    have hd := AdjoinRoot.mk_eq_mk.1 h
    have e : descPoly (l ++ x ++ r) * X ^ j - descPoly (l ++ y ++ r) * X ^ j =
        (descPoly x - descPoly y) * X ^ (r.length + j) := by
      rw [descPoly_append, descPoly_append, descPoly_append, descPoly_append, hxy, pow_add]
      ring
    rwa [e] at hd
  have hcop : IsCoprime (modulus g) (X ^ (r.length + j)) := (isCoprime_X_modulus hw hg).symm.pow_right
  have hdeg : (descPoly x - descPoly y).degree < (modulus g).degree := by
    rw [degree_modulus]
    refine lt_of_lt_of_le (lt_of_le_of_lt (degree_sub_le _ _) (max_lt (degree_descPoly_lt x) ?_)) (Nat.cast_le.2 hx)
    rw [hxy]
    exact degree_descPoly_lt y
  have hzero := eq_zero_of_dvd_of_degree_lt (hcop.dvd_of_dvd_mul_right hdvd) hdeg
  rw [descPoly_injective hxy (sub_eq_zero.1 hzero)]

end Rtos.Core
