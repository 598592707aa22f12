import Mathlib.GroupTheory.OrderOfElement
import Rtos.Core.BitPoly

/-!
# Powers of `X` in a register

`powMod` multiplies registers by shifting (`mulMod`) and squares, so the order
of `X` modulo the generator can be computed (`orderOf_X`). The order says which
two errors a remainder does not show (`eq_of_two`).
-/
namespace Rtos.Core

open Polynomial

variable {w : Nat} {g one a : BitVec w} {bs cs : List Bool} {i j k m n : Nat}

/-- The product with the polynomial that has the coefficients `bs`. -/
def mulMod (g a : BitVec w) (bs : List Bool) : BitVec w :=
  bs.foldl (fun acc b => shiftStep g acc ^^^ if b then a else 0) 0

/-- The power `a ^ n` for `n` of at most `k` bits; `one` is the unit. -/
def powMod (g one a : BitVec w) : Nat → Nat → BitVec w
  | 0, _ => one
  | k + 1, n =>
    let h := powMod g one a k (n / 2)
    let s := mulMod g h (lsbFirst h)
    if n % 2 = 1 then mulMod g a (lsbFirst s) else s

theorem mk_foldl (acc : BitVec w) :
    AdjoinRoot.mk (modulus g) (regPoly (bs.foldl (fun acc b => shiftStep g acc ^^^ if b then a else 0) acc)) =
      AdjoinRoot.mk (modulus g) (X ^ bs.length) * AdjoinRoot.mk (modulus g) (regPoly acc) +
        AdjoinRoot.mk (modulus g) (descPoly bs) * AdjoinRoot.mk (modulus g) (regPoly a) := by
  induction bs generalizing acc with
  | nil => simp [descPoly]
  | cons b bs ih =>
    have hb : regPoly (if b then a else 0) = C (bit b) * regPoly a := by
      cases b
      · exact regPoly_zero.trans (by simp [bit])
      · simp [bit]
    rw [List.foldl_cons, ih, regPoly_xor, map_add, mk_shiftStep, hb, descPoly, List.length_cons]
    simp only [map_add, map_mul, map_pow, pow_succ]
    ring

theorem mk_mulMod : AdjoinRoot.mk (modulus g) (regPoly (mulMod g a bs)) =
    AdjoinRoot.mk (modulus g) (descPoly bs) * AdjoinRoot.mk (modulus g) (regPoly a) := by
  rw [mulMod, mk_foldl, regPoly_zero, map_zero, mul_zero, zero_add]

theorem mk_powMod (hone : regPoly one = 1) (hn : n < 2 ^ k) :
    AdjoinRoot.mk (modulus g) (regPoly (powMod g one a k n)) = AdjoinRoot.mk (modulus g) (regPoly a) ^ n := by
  induction k generalizing n with
  | zero =>
    obtain rfl : n = 0 := by omega
    rw [powMod, hone, map_one, pow_zero]
  | succ k ih =>
    have ih := ih (n := n / 2) (by omega)
    have hsq : AdjoinRoot.mk (modulus g) (regPoly (mulMod g (powMod g one a k (n / 2))
        (lsbFirst (powMod g one a k (n / 2))))) = AdjoinRoot.mk (modulus g) (regPoly a) ^ (2 * (n / 2)) := by
      rw [mk_mulMod]
      change AdjoinRoot.mk (modulus g) (regPoly _) * _ = _
      rw [ih, ← pow_add, ← two_mul]
    rw [powMod]
    split
    · rw [mk_mulMod]
      change AdjoinRoot.mk (modulus g) (regPoly _) * _ = _
      rw [hsq, ← pow_succ]
      congr 1
      omega
    · rw [hsq]
      congr 1
      omega

/-- A register in the class of 1 is 1. -/
theorem mk_eq_one (hone : regPoly one = 1) :
    AdjoinRoot.mk (modulus g) (regPoly a) = 1 ↔ a = one := by
  rw [← map_one (AdjoinRoot.mk (modulus g)), ← hone]
  refine ⟨fun h => regPoly_injective ?_, fun h => by rw [h]⟩
  rw [regPoly_eq_mod h, ← regPoly_eq_mod (p := regPoly one) rfl]

/-- The order of `X`, from finitely many powers of it. -/
theorem orderOf_X (hone : regPoly one = 1) (h0 : 0 < n) (hn : n < 2 ^ k)
    (h1 : powMod g one (shiftStep g one) k n = one)
    (hp : ∀ p, p.Prime → p ∣ n → powMod g one (shiftStep g one) k (n / p) ≠ one) :
    orderOf (AdjoinRoot.mk (modulus g) X) = n := by
  have hX : AdjoinRoot.mk (modulus g) X = AdjoinRoot.mk (modulus g) (regPoly (shiftStep g one)) := by
    rw [mk_shiftStep, hone, map_one, mul_one]
  have hpow : ∀ {d}, d ≤ n → (AdjoinRoot.mk (modulus g) X ^ d = 1 ↔ powMod g one (shiftStep g one) k d = one) := by
    intro d hd
    rw [hX, ← mk_powMod hone (k := k) (by omega), mk_eq_one hone]
  refine orderOf_eq_of_pow_and_pow_div_prime h0 ((hpow (Nat.le_refl n)).2 h1) fun p hpr hdvd h => ?_
  exact hp p hpr hdvd ((hpow (Nat.div_le_self n p)).1 h)

/-! ## Two errors -/

/-- The difference of bits that differ in two places. -/
theorem descPoly_sub_of_two (hlen : bs.length = cs.length) (hij : i < j) (hj : j < bs.length)
    (hdiff : ∀ k, k < bs.length → (bs[k]? ≠ cs[k]? ↔ k = i ∨ k = j)) :
    descPoly bs - descPoly cs = X ^ (bs.length - 1 - i) + X ^ (bs.length - 1 - j) := by
  ext k
  rw [coeff_sub, coeff_descPoly, coeff_descPoly, coeff_add, coeff_X_pow, coeff_X_pow, List.getD_eq_getElem?_getD,
    List.getD_eq_getElem?_getD]
  by_cases hk : k < bs.length
  · have hdiff := hdiff (bs.length - 1 - k) (by omega)
    have hb : bs.length - 1 - k < bs.length := by omega
    have hc : bs.length - 1 - k < cs.length := by omega
    rw [List.getElem?_eq_getElem hb, List.getElem?_eq_getElem hc, ne_eq, Option.some.injEq] at hdiff
    rw [List.getElem?_reverse hk, List.getElem?_reverse (by omega), ← hlen, List.getElem?_eq_getElem hb,
      List.getElem?_eq_getElem hc, Option.getD_some, Option.getD_some]
    have hbit : ∀ b c : Bool, bit b - bit c = if b = c then 0 else 1 := by decide
    rw [hbit]
    split
    · rename_i he
      have := mt hdiff.2 (not_not.2 he)
      rw [if_neg (by omega), if_neg (by omega), add_zero]
    · rename_i he
      rcases hdiff.1 he with h | h
      · rw [if_pos (by omega), if_neg (by omega), add_zero]
      · rw [if_neg (by omega), if_pos (by omega), zero_add]
  · rw [List.getElem?_eq_none (by rw [List.length_reverse]; omega),
      List.getElem?_eq_none (by rw [List.length_reverse]; omega), if_neg (by omega), if_neg (by omega)]
    rfl

/-- Bits that differ in two places are in one class exactly when the distance
of the places is a multiple of the order of `X`. -/
theorem eq_of_two (hw : 0 < w) (hg : g.getMsbD 0 = true) (hlen : bs.length = cs.length) (hij : i < j)
    (hj : j < bs.length) (hdiff : ∀ k, k < bs.length → (bs[k]? ≠ cs[k]? ↔ k = i ∨ k = j)) :
    AdjoinRoot.mk (modulus g) (descPoly bs * X ^ m) = AdjoinRoot.mk (modulus g) (descPoly cs * X ^ m) ↔
      orderOf (AdjoinRoot.mk (modulus g) X) ∣ j - i := by
  have htwo : (2 : (ZMod 2)[X]) = 0 := CharTwo.two_eq_zero
  have e : descPoly bs * X ^ m - descPoly cs * X ^ m = (X ^ (j - i) - 1) * X ^ (bs.length - 1 - j + m) := by
    have hi : bs.length - 1 - i = j - i + (bs.length - 1 - j) := by omega
    rw [← sub_mul, descPoly_sub_of_two hlen hij hj hdiff, hi, pow_add, pow_add]
    linear_combination (X ^ (bs.length - 1 - j) * X ^ m : (ZMod 2)[X]) * htwo
  have hcop : IsCoprime (modulus g) (X ^ (bs.length - 1 - j + m)) := (isCoprime_X_modulus hw hg).symm.pow_right
  have hdvd : modulus g ∣ (X ^ (j - i) - 1) * X ^ (bs.length - 1 - j + m) ↔ modulus g ∣ X ^ (j - i) - 1 :=
    ⟨hcop.dvd_of_dvd_mul_right, fun h => h.mul_right _⟩
  rw [AdjoinRoot.mk_eq_mk, e, hdvd, ← AdjoinRoot.mk_eq_mk, map_pow, map_one, orderOf_dvd_iff_pow_eq_one]

end Rtos.Core
