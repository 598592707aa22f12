import Rtos.Drivers.Instances
import Rtos.Sched.Types

/-!
# src/drivers/spi_driver.c: transfers

A byte array is a function of the index, with what lies behind its end; a
transfer logs which elements of the two arrays it accesses and which bytes it
sends. `printf` output is left out, the accesses of its arguments are not.
-/
namespace Rtos.Drivers

open Rtos.Sched (RtosStatus)

/-- mirrors src/drivers/spi_driver.c:37-42 -/
def spiDeinit (spis : SpiInstances) (spi : Option (Fin MAX_SPI_INSTANCES)) : SpiInstances × RtosStatus :=
  instanceDeinit (·.initialized) (fun h => { h with initialized := false }) spis spi

/-- An access to an element of the array to be sent, or of the one to be filled. -/
inductive Access where
  | tx (i : Nat)
  | rx (i : Nat)
  deriving DecidableEq, Repr

/-- The array to be filled, the bytes sent and the accesses so far. -/
structure SpiBus where
  rx : Nat → UInt8
  sent : List UInt8
  accesses : List Access

/-- mirrors src/drivers/spi_driver.c:50-53 -/
def spiTransferLoop (tx : Nat → UInt8) : Nat → Nat → SpiBus → SpiBus
  | 0, _, bus => bus
  | n + 1, i, bus => spiTransferLoop tx n (i + 1)
      ⟨Function.update bus.rx i (tx i ^^^ 0xFF), bus.sent ++ [tx i], bus.accesses ++ [.tx i, .tx i, .rx i]⟩

/-- mirrors src/drivers/spi_driver.c:55 -/
def spiPrintLoop : Nat → Nat → SpiBus → SpiBus
  | 0, _, bus => bus
  | n + 1, i, bus => spiPrintLoop n (i + 1) { bus with accesses := bus.accesses ++ [.rx i] }

/-- What the pointers point at, `none` for NULL; the arrays do not overlap.
mirrors src/drivers/spi_driver.c:44-67 -/
def spiTransfer (spi : Option SpiHandle) (txData rxData : Option (Nat → UInt8)) (len : Nat) :
    Option SpiBus × RtosStatus :=
  match spi, txData, rxData with
  | some spi, some tx, some rx =>
    if !spi.initialized ∨ len = 0 then (none, .errorInvalidParam)
    else (some (spiPrintLoop len 0 (spiTransferLoop tx len 0 ⟨rx, [], []⟩)), .ok)
  | _, _, _ => (none, .errorInvalidParam)

/-- An array of `size` elements of which the first ones are given, the others
zero, with `stack` behind its end. -/
def localArray (size : Nat) (elems : List UInt8) (stack : Nat → UInt8) (i : Nat) : UInt8 :=
  if i < size then elems.getD i 0 else stack i

/-- `dummy_rx` holds what was on the stack.
mirrors src/drivers/spi_driver.c:69-72 -/
def spiWrite (stack : Nat → UInt8) (spi : Option SpiHandle) (data : Option (Nat → UInt8)) (len : Nat) :
    Option SpiBus × RtosStatus :=
  spiTransfer spi data (some stack) len

/-- `dummy_tx` is given one element.
mirrors src/drivers/spi_driver.c:74-77 -/
def spiRead (stack : Nat → UInt8) (spi : Option SpiHandle) (buffer : Option (Nat → UInt8)) (len : Nat) :
    Option SpiBus × RtosStatus :=
  spiTransfer spi (some (localArray 256 [0xFF] stack)) buffer len

variable {tx : Nat → UInt8} {bus : SpiBus} {n i len : Nat}

theorem spiTransferLoop_eq (tx : Nat → UInt8) (n i : Nat) (bus : SpiBus) :
    spiTransferLoop tx n i bus =
      ⟨fun j => if i ≤ j ∧ j < i + n then tx j ^^^ 0xFF else bus.rx j,
        bus.sent ++ (List.range' i n).map tx,
        bus.accesses ++ (List.range' i n).flatMap fun j => [.tx j, .tx j, .rx j]⟩ := by
  induction n generalizing i bus with
  | zero =>
    have e : (fun j => if i ≤ j ∧ j < i + 0 then tx j ^^^ 0xFF else bus.rx j) = bus.rx :=
      funext fun j => if_neg (by omega)
    rw [spiTransferLoop, e, List.range'_zero, List.map_nil, List.flatMap_nil, List.append_nil, List.append_nil]
  | succ n ih =>
    rw [spiTransferLoop, ih, List.range'_succ, List.map_cons, List.flatMap_cons]
    dsimp only
    rw [List.append_assoc, List.append_assoc, List.singleton_append]
    congr 1
    funext j
    by_cases hj : j = i
    · rw [hj, if_neg (by omega), if_pos (by omega), Function.update_self]
    · rw [Function.update_of_ne hj]
      exact if_congr (by omega) rfl rfl

theorem spiPrintLoop_eq (n i : Nat) (bus : SpiBus) :
    spiPrintLoop n i bus = { bus with accesses := bus.accesses ++ (List.range' i n).map .rx } := by
  induction n generalizing i bus with
  | zero => rw [spiPrintLoop, List.range'_zero, List.map_nil, List.append_nil]
  | succ n ih =>
    rw [spiPrintLoop, ih, List.range'_succ, List.map_cons]
    dsimp only
    rw [List.append_assoc, List.singleton_append]

/-- The bytes sent, the bytes received and the accesses of a transfer. -/
theorem spiTransfer_ok {spi : SpiHandle} (hinit : spi.initialized = true) (hlen : len ≠ 0) (tx rx : Nat → UInt8) :
    ∃ bus, spiTransfer (some spi) (some tx) (some rx) len = (some bus, .ok) ∧
      bus.rx = (fun j => if j < len then tx j ^^^ 0xFF else rx j) ∧ bus.sent = (List.range len).map tx ∧
      ∀ j, (.tx j ∈ bus.accesses ↔ j < len) ∧ (.rx j ∈ bus.accesses ↔ j < len) := by
  refine ⟨spiPrintLoop len 0 (spiTransferLoop tx len 0 ⟨rx, [], []⟩), ?_, ?_, ?_, fun j => ?_⟩
  · rw [spiTransfer]
    exact if_neg (by simp [hinit, hlen])
  · rw [spiPrintLoop_eq, spiTransferLoop_eq]
    funext j
    exact if_congr (by omega) rfl rfl
  · rw [spiPrintLoop_eq, spiTransferLoop_eq, List.range_eq_range']
    rfl
  · rw [spiPrintLoop_eq, spiTransferLoop_eq]
    simp only [List.nil_append, List.mem_append, List.mem_flatMap, List.mem_map, List.mem_range'_1]
    simp

end Rtos.Drivers
