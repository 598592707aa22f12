import Rtos.Drivers.Instances

/-!
# src/drivers/i2c_driver.c: transfers, registers and the scan

The driver simulates the bus: it prints what is sent and makes up what is
received. `printf` output is kept only in `I2cTransfer`, as the bytes sent. A
pointer to bytes is a function of the index, `none` for NULL; of an array to be
filled only the bytes stored from its start on are kept, and a `Bool` says
whether the pointer is one.
-/
namespace Rtos.Drivers

open Rtos.Sched (RtosStatus)

/-- A pointer to one of `i2c_instances`, `none` for NULL. -/
abbrev I2cPtr := Option (Fin MAX_I2C_INSTANCES)

/-- What a transfer sends to the slave and stores in the buffer. -/
structure I2cTransfer where
  slaveAddr : UInt16
  sent : List UInt8
  received : List UInt8
  deriving DecidableEq, Repr

/-- mirrors src/drivers/i2c_driver.c:182-197 -/
def i2cDeinit (i2cs : I2cInstances) (i2c : I2cPtr) : I2cInstances × RtosStatus :=
  instanceDeinit (·.initialized) (fun h => { h with initialized := false }) i2cs i2c

/-- `i2c->busy = b` -/
def setBusy (i2cs : I2cInstances) (i : Fin MAX_I2C_INSTANCES) (b : Bool) : I2cInstances :=
  Function.update i2cs i { i2cs i with busy := b }

/-- mirrors src/drivers/i2c_driver.c:222-224 and :418-420 -/
def i2cSendLoop (data : Nat → UInt8) : Nat → Nat → List UInt8 → List UInt8
  | 0, _, sent => sent
  | n + 1, i, sent => i2cSendLoop data n (i + 1) (sent ++ [data i])

/-- The simulated slave sends `base`, `base + 1` and so on.
mirrors src/drivers/i2c_driver.c:333-335 and :424-426 -/
def i2cReceiveLoop (base : UInt8) : Nat → Nat → List UInt8 → List UInt8
  | 0, _, received => received
  | n + 1, i, received => i2cReceiveLoop base n (i + 1) (received ++ [base + UInt8.ofNat i])

/-- mirrors src/drivers/i2c_driver.c:204-309 -/
def i2cMasterWrite (i2cs : I2cInstances) (i2c : I2cPtr) (slaveAddr : UInt16) (data : Option (Nat → UInt8)) (len : Nat) :
    I2cInstances × RtosStatus × Option I2cTransfer :=
  match i2c, data with
  | some i, some data =>
    if !(i2cs i).initialized ∨ len = 0 then (i2cs, .errorInvalidParam, none)
    else if (i2cs i).busy then (i2cs, .errorBusy, none)
    else
      let i2cs := setBusy i2cs i true
      let sent := i2cSendLoop data len 0 []
      (setBusy i2cs i false, .ok, some ⟨slaveAddr, sent, []⟩)
  | _, _ => (i2cs, .errorInvalidParam, none)

/-- mirrors src/drivers/i2c_driver.c:316-391 -/
def i2cMasterRead (i2cs : I2cInstances) (i2c : I2cPtr) (slaveAddr : UInt16) (buffer : Bool) (len : Nat) :
    I2cInstances × RtosStatus × Option I2cTransfer :=
  match i2c, buffer with
  | some i, true =>
    if !(i2cs i).initialized ∨ len = 0 then (i2cs, .errorInvalidParam, none)
    else if (i2cs i).busy then (i2cs, .errorBusy, none)
    else
      let i2cs := setBusy i2cs i true
      let received := i2cReceiveLoop 0xAA len 0 []
      (setBusy i2cs i false, .ok, some ⟨slaveAddr, [], received⟩)
  | _, _ => (i2cs, .errorInvalidParam, none)

/-- The pointers are not checked: `none` when a byte is read or stored through
NULL.
mirrors src/drivers/i2c_driver.c:398-480 -/
def i2cMasterWriteRead (i2cs : I2cInstances) (i2c : I2cPtr) (slaveAddr : UInt16) (writeData : Option (Nat → UInt8))
    (writeLen : Nat) (readBuffer : Bool) (readLen : Nat) : Option (I2cInstances × RtosStatus × Option I2cTransfer) :=
  match i2c with
  | none => some (i2cs, .errorInvalidParam, none)
  | some i =>
    if !(i2cs i).initialized then some (i2cs, .errorInvalidParam, none)
    else if (i2cs i).busy then some (i2cs, .errorBusy, none)
    else if writeData.isNone ∧ writeLen ≠ 0 ∨ !readBuffer ∧ readLen ≠ 0 then none
    else
      let i2cs := setBusy i2cs i true
      let sent := i2cSendLoop (writeData.getD fun _ => 0) writeLen 0 []
      let received := i2cReceiveLoop 0xBB readLen 0 []
      some (setBusy i2cs i false, .ok, some ⟨slaveAddr, sent, received⟩)

/-- mirrors src/drivers/i2c_driver.c:489-497 -/
def i2cWriteRegister (i2cs : I2cInstances) (i2c : I2cPtr) (slaveAddr : UInt16) (regAddr value : UInt8) :
    I2cInstances × RtosStatus × Option I2cTransfer :=
  i2cMasterWrite i2cs i2c slaveAddr (some fun i => if i = 0 then regAddr else value) 2

/-- mirrors src/drivers/i2c_driver.c:500-507 -/
def i2cReadRegister (i2cs : I2cInstances) (i2c : I2cPtr) (slaveAddr : UInt16) (regAddr : UInt8) (value : Bool) :
    Option (I2cInstances × RtosStatus × Option I2cTransfer) :=
  i2cMasterWriteRead i2cs i2c slaveAddr (some fun _ => regAddr) 1 value 1

/-- mirrors src/drivers/i2c_driver.c:510-518 -/
def i2cReadRegisters (i2cs : I2cInstances) (i2c : I2cPtr) (slaveAddr : UInt16) (regAddr : UInt8) (buffer : Bool)
    (len : Nat) : Option (I2cInstances × RtosStatus × Option I2cTransfer) :=
  i2cMasterWriteRead i2cs i2c slaveAddr (some fun _ => regAddr) 1 buffer len

/-- The addresses from `addr` on at which the scan finds a device.
mirrors src/drivers/i2c_driver.c:536-568 -/
def i2cScanLoop : Nat → UInt16 → List UInt8 → List UInt8
  | 0, _, found => found
  | n + 1, addr, found =>
    i2cScanLoop n (addr + 1)
      (if addr = 0x50 ∨ addr = 0x68 ∨ addr = 0x77 then found ++ [addr.toUInt8] else found)

/-- The bytes stored in `found_devices`; `*count` is their number.
mirrors src/drivers/i2c_driver.c:526-573 -/
def i2cScanBus (i2cs : I2cInstances) (i2c : I2cPtr) (foundDevices count : Bool) : RtosStatus × Option (List UInt8) :=
  match i2c, foundDevices, count with
  | some i, true, true =>
    if !(i2cs i).initialized then (.errorInvalidParam, none)
    else (.ok, some (i2cScanLoop (0x77 - 0x03 + 1) 0x03 []))
  | _, _, _ => (.errorInvalidParam, none)

/-! ## The loops -/

theorem i2cSendLoop_eq (data : Nat → UInt8) (n i : Nat) (sent : List UInt8) :
    i2cSendLoop data n i sent = sent ++ (List.range' i n).map data := by
  induction n generalizing i sent with
  | zero => simp [i2cSendLoop]
  | succ n ih => simp [i2cSendLoop, ih, List.range'_succ]

theorem i2cReceiveLoop_eq (base : UInt8) (n i : Nat) (received : List UInt8) :
    i2cReceiveLoop base n i received = received ++ (List.range' i n).map fun j => base + UInt8.ofNat j := by
  induction n generalizing i received with
  | zero => simp [i2cReceiveLoop]
  | succ n ih => simp [i2cReceiveLoop, ih, List.range'_succ]

theorem i2cScanLoop_all : i2cScanLoop (0x77 - 0x03 + 1) 0x03 [] = [0x50, 0x68, 0x77] := by decide +kernel

/-- The busy flag is down again when a transfer is over. -/
theorem setBusy_setBusy {i2cs : I2cInstances} {i : Fin MAX_I2C_INSTANCES} (h : (i2cs i).busy = false) :
    setBusy (setBusy i2cs i true) i false = i2cs := by
  funext j
  by_cases hj : j = i
  · subst hj
    simp [setBusy, ← h]
  · simp [setBusy, hj]

end Rtos.Drivers
