import Mathlib.Tactic.NormNum.Prime
import Rtos.Boot.Crc32
import Rtos.Core.BitPower

/-!
# What the CRC-32 of an image detects besides bursts

Two wrong bits: `X` has the order `2 ^ 32 - 1` modulo the generator
(`orderOf_ieee`), so the CRC misses them exactly when their distance is a
multiple of it (`crc32Calculate_two`). And a CRC stored behind the bytes it is
of can be checked by running the same register over both: the result is one
constant, and no other four bytes give it (`crc32Calculate_residue`).
-/
namespace Rtos.Boot

open Rtos.Core Polynomial

variable {data data' : List UInt8} {crc crc' : UInt32}

theorem held_injective (h : held crc = held crc') : crc = crc' := by
  unfold held at h
  rw [← modulus_eq] at h
  apply UInt32.toBitVec_inj.1 (regPoly_injective _)
  rw [regPoly_eq_mod h, ← regPoly_eq_mod (p := regPoly crc'.toBitVec) rfl]

/-- Of messages of one length only the bits count. -/
theorem crc32Calculate_eq_iff (hlen : data.length = data'.length) : crc32Calculate data = crc32Calculate data' ↔
    AdjoinRoot.mk ieee (descPoly (messageBits data) * X ^ 32) =
      AdjoinRoot.mk ieee (descPoly (messageBits data') * X ^ 32) := by
  have hreg : crc32Calculate data = crc32Calculate data' ↔
      held (data.foldl crcByte 0xFFFFFFFF) = held (data'.foldl crcByte 0xFFFFFFFF) :=
    ⟨fun h => congrArg held (UInt32.not_inj.1 h), fun h => congrArg (~~~ ·) (held_injective h)⟩
  rw [hreg, held_foldl data rfl, held_foldl data' rfl, hlen, map_add, map_add, add_left_inj]

/-! ## Two errors -/

/-- The unit and its powers below, as the register holds them. -/
theorem regPoly_unit : regPoly 0x80000000#32 = 1 := by
  have hbits : lsbFirst 0x80000000#32 = List.replicate 31 false ++ [true] := by decide
  rw [regPoly, hbits]
  simp [List.replicate, descPoly, bit]

/-- The generator is primitive. -/
theorem orderOf_ieee : orderOf (AdjoinRoot.mk ieee X) = 2 ^ 32 - 1 := by
  have hpow : ∀ p ∈ [3, 5, 17, 257, 65537], powMod 0xEDB88320#32 0x80000000#32
      (shiftStep 0xEDB88320#32 0x80000000#32) 32 ((2 ^ 32 - 1) / p) ≠ 0x80000000#32 := by decide +kernel
  rw [← modulus_eq]
  refine orderOf_X (k := 32) regPoly_unit (by decide) (by decide) (by decide +kernel) fun p hp hdvd => hpow p ?_
  have hfac : 2 ^ 32 - 1 = 3 * 5 * 17 * 257 * 65537 := by norm_num
  rw [hfac, hp.dvd_mul, hp.dvd_mul, hp.dvd_mul, hp.dvd_mul] at hdvd
  have heq : ∀ q : Nat, q.Prime → p ∣ q → p = q := fun q hq h => (Nat.prime_dvd_prime_iff_eq hp hq).1 h
  rcases hdvd with (((h | h) | h) | h) | h
  · simp [heq 3 (by norm_num) h]
  · simp [heq 5 (by norm_num) h]
  · simp [heq 17 (by norm_num) h]
  · simp [heq 257 (by norm_num) h]
  · simp [heq 65537 (by norm_num) h]

/-- Two wrong bits are missed exactly when the distance between them is a
multiple of `2 ^ 32 - 1`, so in no image of less than 2^29 bytes. -/
theorem crc32Calculate_two (data data' : List UInt8) (hlen : data.length = data'.length) {i j : Nat} (hij : i < j)
    (hj : j < 8 * data.length)
    (hdiff : ∀ k, k < 8 * data.length → ((messageBits data)[k]? ≠ (messageBits data')[k]? ↔ k = i ∨ k = j)) :
    (crc32Calculate data = crc32Calculate data' ↔ 2 ^ 32 - 1 ∣ j - i) ∧
    (data.length < 2 ^ 29 → crc32Calculate data ≠ crc32Calculate data') := by
  have hiff : crc32Calculate data = crc32Calculate data' ↔ 2 ^ 32 - 1 ∣ j - i := by
    rw [crc32Calculate_eq_iff hlen, ← orderOf_ieee, ← modulus_eq]
    rw [← length_messageBits] at hj hdiff
    exact eq_of_two (by decide) (by decide) (by rw [length_messageBits, length_messageBits, hlen]) hij hj hdiff
  refine ⟨hiff, fun hlt h => ?_⟩
  have := Nat.le_of_dvd (by omega) (hiff.1 h)
  omega

/-- Bits 3 and 12 are wrong. -/
theorem crc32Calculate_two_bytes : crc32Calculate [0x52, 0x54, 0x4F] ≠ crc32Calculate [0x5A, 0x44, 0x4F] :=
  (crc32Calculate_two [0x52, 0x54, 0x4F] [0x5A, 0x44, 0x4F] rfl (i := 3) (j := 12) (by decide) (by decide)
    (by decide)).2 (by decide)

/-! ## The residue -/

/-- The four bytes of a word, the least significant one first. -/
def wordBytes (word : UInt32) : List UInt8 :=
  [word.toUInt8, (word >>> 8).toUInt8, (word >>> 16).toUInt8, (word >>> 24).toUInt8]

theorem messageBits_wordBytes (word : UInt32) : messageBits (wordBytes word) = lsbFirst word.toBitVec := by
  have hword : lsbFirst word.toBitVec = (List.range' 0 32).map word.toBitVec.getLsbD := by
    rw [← lsbFirst_window, BitVec.setWidth_eq]
    rfl
  have hsplit : List.range' 0 32 =
      List.range' 0 8 ++ (List.range' 8 8 ++ (List.range' 16 8 ++ (List.range' 24 8 ++ []))) := by decide
  rw [hword, hsplit, List.map_append, List.map_append, List.map_append, List.map_append, ← lsbFirst_window,
    ← lsbFirst_window, ← lsbFirst_window, ← lsbFirst_window]
  rfl

/-- The register after the bytes `data` and four more. -/
theorem held_append (data tail : List UInt8) (h : tail.length = 4) :
    held (~~~ crc32Calculate (data ++ tail)) = AdjoinRoot.mk ieee (descPoly (messageBits tail) * X ^ 32 +
      regPoly (~~~ crc32Calculate data).toBitVec * X ^ 32) := by
  rw [crc32Calculate, UInt32.not_not, List.foldl_append, held_foldl (p := regPoly (~~~ crc32Calculate data).toBitVec), h]
  rw [crc32Calculate, UInt32.not_not]
  rfl

/-- The register and its complement add up to ones. -/
theorem held_checked (data : List UInt8) : held (~~~ crc32Calculate (data ++ wordBytes (crc32Calculate data))) =
    AdjoinRoot.mk ieee (regPoly (BitVec.allOnes 32) * X ^ 32) := by
  have hxor : (crc32Calculate data).toBitVec ^^^ (~~~ crc32Calculate data).toBitVec = BitVec.allOnes 32 := by
    rw [UInt32.toBitVec_not, ← BitVec.xor_allOnes, ← BitVec.xor_assoc, BitVec.xor_self, BitVec.zero_xor]
  rw [held_append _ _ rfl, messageBits_wordBytes, ← add_mul, ← hxor, regPoly_xor]
  rfl

/-- **The residue**: behind any bytes, exactly the four bytes of their CRC lead
to 0x2144DF1C. -/
theorem crc32Calculate_residue (data tail : List UInt8) (h : tail.length = 4) :
    crc32Calculate (data ++ tail) = 0x2144DF1C ↔ tail = wordBytes (crc32Calculate data) := by
  have hconst : crc32Calculate (data ++ wordBytes (crc32Calculate data)) = 0x2144DF1C := by
    have hzero : crc32Calculate ([] ++ wordBytes (crc32Calculate [])) = 0x2144DF1C := by decide
    rw [← hzero]
    apply UInt32.not_inj.1
    apply held_injective
    rw [held_checked, held_checked]
  refine ⟨fun he => ?_, fun he => he ▸ hconst⟩
  rw [← hconst] at he
  have hheld : held (~~~ crc32Calculate (data ++ tail)) =
      held (~~~ crc32Calculate (data ++ wordBytes (crc32Calculate data))) := congrArg (fun crc => held (~~~ crc)) he
  rw [held_append _ _ h, held_append _ _ rfl, map_add, map_add, add_left_inj, ← modulus_eq] at hheld
  have hlen : (messageBits tail).length = (messageBits (wordBytes (crc32Calculate data))).length := by
    rw [length_messageBits, length_messageBits, h]
    rfl
  -- the four bytes are one burst
  refine messageBits_injective h (eq_of_burst (k := 0) (by decide) (by decide) hlen (fun i hi _ => ?_) hheld)
  rw [length_messageBits, h] at hi
  omega

/-- Four zero bytes are the CRC of no bytes and of no single byte 0x52. -/
theorem crc32Calculate_residue_byte : crc32Calculate ([0x52] ++ [0, 0, 0, 0]) ≠ 0x2144DF1C := by
  rw [ne_eq, crc32Calculate_residue [0x52] [0, 0, 0, 0] rfl]
  decide

end Rtos.Boot
