import Rtos.Core.BitPoly

/-!
# src/bootloader/bootloader.c: the CRC-32 of a firmware image

`crc32_calculate` is a Galois register of 32 bits, least significant bit
first, that starts with all ones and is complemented at the end. Each byte
multiplies what it holds by `X ^ 8` and adds the byte's bits `X ^ 32` higher
up (`mk_crcByte`), so the result is the remainder of the message
(`crc32Calculate_eq`) and messages that differ in a burst of at most 32 bits
have different ones (`crc32Calculate_burst`).
-/
namespace Rtos.Boot

open Rtos.Core Polynomial

/-- The round of the inner loop.
mirrors src/bootloader/bootloader.c:12 -/
def crcStep (crc : UInt32) : UInt32 := (crc >>> 1) ^^^ (0xEDB88320 &&& -(crc &&& 1))

/-- mirrors src/bootloader/bootloader.c:11-13 -/
def crcBits : Nat → UInt32 → UInt32
  | 0, crc => crc
  | n + 1, crc => crcBits n (crcStep crc)

/-- The round of the outer loop.
mirrors src/bootloader/bootloader.c:10-13 -/
def crcByte (crc : UInt32) (data : UInt8) : UInt32 := crcBits 8 (crc ^^^ data.toUInt32)

/-- `data` are the `len` bytes.
mirrors src/bootloader/bootloader.c:7-16 -/
def crc32Calculate (data : List UInt8) : UInt32 := ~~~ data.foldl crcByte 0xFFFFFFFF

/-- The bits of a message in the order in which they are consumed. -/
def messageBits (data : List UInt8) : List Bool := data.flatMap fun b => lsbFirst b.toBitVec

/-- The IEEE 802.3 generator. -/
noncomputable def ieee : (ZMod 2)[X] :=
  X ^ 32 + X ^ 26 + X ^ 23 + X ^ 22 + X ^ 16 + X ^ 12 + X ^ 11 + X ^ 10 + X ^ 8 + X ^ 7 + X ^ 5 + X ^ 4 + X ^ 2 + X + 1

variable {data data' : List UInt8} {crc : UInt32} {k : Nat}

/-! ## Messages -/

theorem length_messageBits (data : List UInt8) : (messageBits data).length = 8 * data.length := by
  induction data with
  | nil => rfl
  | cons b data ih =>
    show (lsbFirst b.toBitVec ++ messageBits data).length = _
    rw [List.length_append, length_lsbFirst, ih, List.length_cons]
    omega

/-- A message can be read off its bits. -/
theorem messageBits_injective (hlen : data.length = data'.length) (h : messageBits data = messageBits data') :
    data = data' := by
  induction data generalizing data' with
  | nil => exact (List.length_eq_zero_iff.1 hlen.symm).symm
  | cons b data ih =>
    cases data' with
    | nil => cases hlen
    | cons b' data' =>
      obtain ⟨hb, hdata⟩ := List.append_inj h (by rw [length_lsbFirst, length_lsbFirst])
      have hword : regPoly b.toBitVec = regPoly b'.toBitVec := congrArg descPoly hb
      rw [ih (Nat.succ_injective hlen) hdata, ← UInt8.toBitVec_inj.1 (regPoly_injective hword)]

/-! ## The register -/

theorem crcStep_toBitVec (crc : UInt32) : (crcStep crc).toBitVec = shiftStep 0xEDB88320#32 crc.toBitVec := by
  have hmask : -(crc.toBitVec &&& 1#32) = if crc.toBitVec.getLsbD 0 then BitVec.allOnes 32 else 0#32 := by
    rw [BitVec.and_one_eq_setWidth_ofBool_getLsbD]
    cases crc.toBitVec.getLsbD 0 <;> rfl
  show (crc.toBitVec >>> 1) ^^^ (0xEDB88320#32 &&& -(crc.toBitVec &&& 1#32)) = _
  rw [hmask, shiftStep]
  cases crc.toBitVec.getLsbD 0 <;> rfl

/-- The word in `crcStep` is the generator without its highest term, reflected. -/
theorem modulus_eq : modulus 0xEDB88320#32 = ieee := by
  have hbits : lsbFirst 0xEDB88320#32 = [false, false, false, false, false, true, false, false, true, true, false,
      false, false, false, false, true, false, false, false, true, true, true, false, true, true, false, true, true,
      false, true, true, true] := by decide
  rw [modulus, regPoly, hbits, ieee]
  simp [descPoly, bit]
  ring

/-- The polynomial of what the register holds, modulo the generator. -/
noncomputable def held (crc : UInt32) : AdjoinRoot ieee := AdjoinRoot.mk ieee (regPoly crc.toBitVec)

theorem held_crcBits (n : Nat) (crc : UInt32) :
    held (crcBits n crc) = AdjoinRoot.mk ieee (X ^ n) * held crc := by
  induction n generalizing crc with
  | zero => rw [crcBits, pow_zero, map_one, one_mul]
  | succ n ih =>
    have hstep : held (crcStep crc) = AdjoinRoot.mk ieee X * held crc := by
      unfold held
      rw [crcStep_toBitVec, ← modulus_eq]
      exact mk_shiftStep _ _
    rw [crcBits, ih, hstep, ← mul_assoc, ← map_mul, ← pow_succ]

theorem held_crcByte {p : (ZMod 2)[X]} (h : held crc = AdjoinRoot.mk ieee p) (b : UInt8) :
    held (crcByte crc b) = AdjoinRoot.mk ieee (p * X ^ 8 + descPoly (lsbFirst b.toBitVec) * X ^ 32) := by
  have hxor : held (crc ^^^ b.toUInt32) =
      held crc + AdjoinRoot.mk ieee (descPoly (lsbFirst b.toBitVec) * X ^ 24) := by
    show AdjoinRoot.mk ieee (regPoly (crc.toBitVec ^^^ b.toBitVec.setWidth (8 + 24))) = _
    rw [regPoly_xor, regPoly_setWidth, map_add]
    rfl
  have e : X ^ 8 * (p + descPoly (lsbFirst b.toBitVec) * X ^ 24) =
      p * X ^ 8 + descPoly (lsbFirst b.toBitVec) * X ^ 32 := by ring
  rw [crcByte, held_crcBits, hxor, h, ← map_add, ← map_mul, e]

/-- After any bytes: the message, and before it what the register held. -/
theorem held_foldl {p : (ZMod 2)[X]} (data : List UInt8) (h : held crc = AdjoinRoot.mk ieee p) :
    held (data.foldl crcByte crc) =
      AdjoinRoot.mk ieee (descPoly (messageBits data) * X ^ 32 + p * X ^ (8 * data.length)) := by
  induction data generalizing crc p with
  | nil =>
    show held crc = AdjoinRoot.mk ieee (0 * X ^ 32 + p * X ^ 0)
    rw [zero_mul, zero_add, pow_zero, mul_one, h]
  | cons b data ih =>
    have hbits : messageBits (b :: data) = lsbFirst b.toBitVec ++ messageBits data := rfl
    have e : descPoly (messageBits data) * X ^ 32 +
        (p * X ^ 8 + descPoly (lsbFirst b.toBitVec) * X ^ 32) * X ^ (8 * data.length) =
        descPoly (messageBits (b :: data)) * X ^ 32 + p * X ^ (8 * (data.length + 1)) := by
      rw [hbits, descPoly_append, length_messageBits]
      ring
    rw [List.foldl_cons, ih (held_crcByte h b), e, List.length_cons]

/-! ## The result -/

/-- Before the complement the register holds a remainder. -/
theorem regPoly_crc (data : List UInt8) : regPoly (~~~ crc32Calculate data).toBitVec =
    (descPoly (messageBits data) * X ^ 32 + (∑ i ∈ Finset.range 32, X ^ i) * X ^ (8 * data.length)) %ₘ ieee := by
  have hword : (0xFFFFFFFF : UInt32).toBitVec = BitVec.allOnes 32 := by decide
  have hones : held 0xFFFFFFFF = AdjoinRoot.mk ieee (∑ i ∈ Finset.range 32, X ^ i) := by
    rw [held, hword, regPoly_allOnes]
  have hheld := held_foldl data hones
  rw [held, ← modulus_eq] at hheld
  rw [crc32Calculate, UInt32.not_not, ← modulus_eq]
  exact regPoly_eq_mod hheld

/-- **The CRC is the remainder of the message**, with the preset and the
complement of IEEE 802.3. -/
theorem crc32Calculate_eq (data : List UInt8) : crc32Calculate data = ~~~ UInt32.ofBitVec (reflected 32
    ((descPoly (messageBits data) * X ^ 32 + (∑ i ∈ Finset.range 32, X ^ i) * X ^ (8 * data.length)) %ₘ ieee)) := by
  rw [← regPoly_crc, reflected_regPoly, UInt32.ofBitVec_toBitVec, UInt32.not_not]

/-- The check value of "123456789". -/
example : crc32Calculate [0x31, 0x32, 0x33, 0x34, 0x35, 0x36, 0x37, 0x38, 0x39] = 0xCBF43926 := by decide +kernel

/-- **Every burst of at most 32 bits is detected**: different messages of one
length that differ only in 32 consecutive bits have different CRCs. -/
theorem crc32Calculate_burst (data data' : List UInt8) (hlen : data.length = data'.length) (hne : data ≠ data')
    (k : Nat) (hburst : ∀ i, i < 8 * data.length → (messageBits data)[i]? ≠ (messageBits data')[i]? →
      k ≤ i ∧ i < k + 32) : crc32Calculate data ≠ crc32Calculate data' := by
  intro e
  have hheld : held (data.foldl crcByte 0xFFFFFFFF) = held (data'.foldl crcByte 0xFFFFFFFF) := by
    rw [UInt32.not_inj.1 e]
  rw [held_foldl data rfl, held_foldl data' rfl, hlen, map_add, map_add] at hheld
  have hmsg := add_right_cancel hheld
  apply hne
  apply messageBits_injective hlen
  rw [← modulus_eq] at hmsg
  refine eq_of_burst (k := k) (by decide) (by decide) ?_ ?_ hmsg
  · rw [length_messageBits, length_messageBits, hlen]
  · rw [length_messageBits]
    exact hburst

/-- Five wrong bits, from the last of the first byte to the third of the fourth. -/
theorem crc32Calculate_burst_bytes :
    crc32Calculate [0x52, 0x54, 0x4F, 0x53, 0x21] ≠ crc32Calculate [0xD2, 0x55, 0x0F, 0x56, 0x21] :=
  crc32Calculate_burst [0x52, 0x54, 0x4F, 0x53, 0x21] [0xD2, 0x55, 0x0F, 0x56, 0x21] rfl (by decide) 7
    (by decide)

end Rtos.Boot
