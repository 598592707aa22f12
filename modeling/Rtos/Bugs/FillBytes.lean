import Rtos.Bugs.ScratchBuffer

/-!
# The fill bytes of `spi_read`

`spi_read` sends `dummy_tx`, which is declared with the initialiser `{0xFF}`.
This gives its first element only: the other 255 are zero. The bus sees one
fill byte and then zeros, and the loopback stores other bytes in the caller's
buffer than a transfer of fill bytes would.

`read_fills_iff`: up to 256 bytes, `spi_read` does what `spi_transfer` does
with fill bytes exactly when it is for one byte, or has nowhere to store it.
-/
namespace Rtos.Drivers

open Rtos.Sched (RtosStatus)

/-- The two calls send the same bytes and leave the same bytes in the buffer. -/
structure SameBytes (r r' : Option SpiBus × RtosStatus) : Prop where
  sent : r.1.map (·.sent) = r'.1.map (·.sent)
  stored : r.1.map (·.rx) = r'.1.map (·.rx)

/-- The bytes of a transfer are those of the first `len` to be sent. -/
theorem transfer_same_iff {spi : SpiHandle} (hinit : spi.initialized = true) {len : Nat} (hlen : len ≠ 0)
    (tx tx' rx : Nat → UInt8) :
    SameBytes (spiTransfer (some spi) (some tx) (some rx) len) (spiTransfer (some spi) (some tx') (some rx) len) ↔
      ∀ j < len, tx j = tx' j := by
  obtain ⟨bus, e, hrx, hsent, -⟩ := spiTransfer_ok hinit hlen tx rx
  obtain ⟨bus', e', hrx', hsent', -⟩ := spiTransfer_ok hinit hlen tx' rx
  rw [e, e']
  constructor
  · intro h j hj
    have hs : (List.range len).map tx = (List.range len).map tx' := by
      rw [← hsent, ← hsent']
      exact Option.some.inj h.sent
    exact List.map_inj_left.1 hs j (List.mem_range.2 hj)
  · intro h
    have hs : bus.sent = bus'.sent := by
      rw [hsent, hsent']
      exact List.map_congr_left fun j hj => h j (List.mem_range.1 hj)
    have hr : bus.rx = bus'.rx := by
      rw [hrx, hrx']
      funext j
      by_cases hj : j < len
      · rw [if_pos hj, if_pos hj, h j hj]
      · rw [if_neg hj, if_neg hj]
    exact ⟨congrArg some hs, congrArg some hr⟩

/-- The first byte of `dummy_tx` is a fill byte, the others are zero. -/
theorem dummyTx_get (stack : Nat → UInt8) {j : Nat} (hj : j < 256) :
    localArray 256 [0xFF] stack j = if j = 0 then 0xFF else 0 := by
  rw [localArray, if_pos hj]
  cases j <;> rfl

/-- **When `spi_read` is a transfer of fill bytes**: for one byte. -/
theorem read_fills_iff (stack : Nat → UInt8) (spi : SpiHandle) (hinit : spi.initialized = true)
    (buffer : Option (Nat → UInt8)) (tx : Nat → UInt8) (len : Nat) (hlen : 1 ≤ len) (hmax : len ≤ 256)
    (htx : ∀ j < len, tx j = 0xFF) :
    SameBytes (spiRead stack (some spi) buffer len) (spiTransfer (some spi) (some tx) buffer len) ↔
      len = 1 ∨ buffer = none := by
  cases buffer with
  | none => exact iff_of_true ⟨rfl, rfl⟩ (.inr rfl)
  | some rx =>
    rw [spiRead, transfer_same_iff hinit (Nat.ne_of_gt hlen)]
    constructor
    · intro h
      refine .inl (Nat.le_antisymm (Nat.not_lt.1 fun h1 => ?_) hlen)
      -- the second byte is zero
      have hz := h 1 h1
      rw [dummyTx_get stack (by decide), htx 1 h1] at hz
      exact absurd hz (by decide)
    · rintro (rfl | hn)
      · intro j hj
        obtain rfl : j = 0 := by omega
        rw [dummyTx_get stack (by decide), htx 0 hj]
        rfl
      · cases hn

theorem read_fills_one : SameBytes (spiRead (fun _ => 0) (some boardSpi) (some fun _ => 0) 1)
    (spiTransfer (some boardSpi) (some fun _ => 0xFF) (some fun _ => 0) 1) :=
  (read_fills_iff (fun _ => 0) boardSpi rfl (some fun _ => 0) (fun _ => 0xFF) 1 (by decide) (by decide)
    fun _ _ => rfl).2 (.inl rfl)

/-- A read of two bytes sends FF 00, not FF FF, and stores 00 FF, not 00 00. -/
theorem read_not_filled :
    boardSpi.initialized = true ∧
    (spiRead (fun _ => 0) (some boardSpi) (some fun _ => 0) 2).1.map (fun bus => (bus.sent, bus.rx 0, bus.rx 1)) =
      some ([0xFF, 0x00], 0x00, 0xFF) ∧
    (spiTransfer (some boardSpi) (some fun _ => 0xFF) (some fun _ => 0) 2).1.map
      (fun bus => (bus.sent, bus.rx 0, bus.rx 1)) = some ([0xFF, 0xFF], 0x00, 0x00) ∧
    ¬ SameBytes (spiRead (fun _ => 0) (some boardSpi) (some fun _ => 0) 2)
      (spiTransfer (some boardSpi) (some fun _ => 0xFF) (some fun _ => 0) 2) := by
  refine ⟨rfl, by decide, by decide, fun h => absurd h.sent (by decide)⟩

end Rtos.Drivers
