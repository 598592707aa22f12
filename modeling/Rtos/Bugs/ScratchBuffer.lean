import Rtos.Drivers.Spi

/-!
# The scratch buffers of one-directional SPI calls

`spi_write` receives into `dummy_rx` and `spi_read` sends from `dummy_tx`,
both arrays of 256 bytes on the stack, and `spi_transfer` accesses as many
elements as the caller asks for. Nothing compares this number with 256.

`scratch_bounded_iff`: the calls stay inside their arrays exactly when they are
for at most 256 bytes.
-/
namespace Rtos.Drivers

open Rtos.Sched (RtosStatus)

/-- No access of this call to `dummy_rx` or `dummy_tx` is past its end. -/
def ScratchBounded (array : Nat → Access) (r : Option SpiBus × RtosStatus) : Prop :=
  ∀ bus, r.1 = some bus → ∀ i, array i ∈ bus.accesses → i < 256

/-- **When `spi_write` and `spi_read` stay inside their scratch buffers**: for
lengths up to 256. -/
theorem scratch_bounded_iff (stack : Nat → UInt8) (spi : SpiHandle) (hinit : spi.initialized = true)
    (data buffer : Nat → UInt8) (len : Nat) (hlen : 1 ≤ len) :
    (ScratchBounded .rx (spiWrite stack (some spi) (some data) len) ∧
      ScratchBounded .tx (spiRead stack (some spi) (some buffer) len)) ↔ len ≤ 256 := by
  obtain ⟨busW, eW, -, -, hW⟩ := spiTransfer_ok hinit (Nat.ne_of_gt hlen) data stack
  obtain ⟨busR, eR, -, -, hR⟩ := spiTransfer_ok hinit (Nat.ne_of_gt hlen) (localArray 256 [0xFF] stack) buffer
  unfold spiWrite spiRead
  rw [eW, eR]
  constructor
  · rintro ⟨h, -⟩
    -- the last element is accessed
    have := h busW rfl (len - 1) ((hW _).2.2 (by omega))
    omega
  · intro hle
    refine ⟨fun bus e i hi => ?_, fun bus e i hi => ?_⟩
    · cases e
      have := (hW i).2.1 hi
      omega
    · cases e
      have := (hR i).1.1 hi
      omega

/-- A handle in use. -/
def boardSpi : SpiHandle := ⟨0, ⟨.mode0, .high, false⟩, true, false⟩

theorem scratch_bounded_256 :
    ScratchBounded .rx (spiWrite (fun _ => 0) (some boardSpi) (some fun _ => 1) 256) ∧
      ScratchBounded .tx (spiRead (fun _ => 0) (some boardSpi) (some fun _ => 0) 256) :=
  (scratch_bounded_iff (fun _ => 0) boardSpi rfl (fun _ => 1) (fun _ => 0) 256 (by decide)).2 (by decide)

/-- A write and a read of 257 bytes access the byte behind the array. -/
theorem scratch_exceeded :
    boardSpi.initialized = true ∧
    ¬ ScratchBounded .rx (spiWrite (fun _ => 0) (some boardSpi) (some fun _ => 1) 257) ∧
    ¬ ScratchBounded .tx (spiRead (fun _ => 0) (some boardSpi) (some fun _ => 0) 257) := by
  obtain ⟨busW, eW, -, -, hW⟩ := @spiTransfer_ok 257 boardSpi rfl (by decide) (fun _ => 1) fun _ => 0
  obtain ⟨busR, eR, -, -, hR⟩ := @spiTransfer_ok 257 boardSpi rfl (by decide)
    (localArray 256 [0xFF] fun _ => 0) fun _ => 0
  unfold spiWrite spiRead
  rw [eW, eR]
  refine ⟨rfl, fun h => ?_, fun h => ?_⟩
  · exact absurd (h busW rfl 256 ((hW _).2.2 (by decide))) (by decide)
  · exact absurd (h busR rfl 256 ((hR _).1.2 (by decide))) (by decide)

end Rtos.Drivers
