import Mathlib.Logic.Function.Basic
import Rtos.Sched.Types

/-!
# src/drivers/i2c_driver.c and src/drivers/spi_driver.c: opening and closing a bus

Both drivers keep a static array of handles, and `init` takes the entry that
the id names, unless it is initialised: then it returns the entry as it is
(`instanceInit`). `deinit` clears the entry's flag only (`instanceDeinit`).
`printf` output is left out.
-/
namespace Rtos.Drivers

open Rtos.Sched (RtosStatus)

/-- mirrors include/drivers/i2c_driver.h:7-11 -/
inductive I2cSpeed where
  | standard | fast | fastPlus
  deriving DecidableEq, Repr

/-- mirrors include/drivers/i2c_driver.h:14-17 -/
inductive I2cAddrMode where
  | addr7bit | addr10bit
  deriving DecidableEq, Repr

/-- mirrors include/drivers/i2c_driver.h:20-25 -/
structure I2cConfig where
  speed : I2cSpeed
  addrMode : I2cAddrMode
  enableDma : Bool
  timeoutMs : UInt16
  deriving DecidableEq, Repr

/-- mirrors src/drivers/i2c_driver.c:45-50 -/
structure I2cHandle where
  i2cId : UInt8
  config : I2cConfig
  initialized : Bool
  busy : Bool
  deriving DecidableEq, Repr

/-- mirrors src/drivers/i2c_driver.c:53-54 -/
abbrev MAX_I2C_INSTANCES : Nat := 4

/-- `i2c_instances` -/
abbrev I2cInstances := Fin MAX_I2C_INSTANCES → I2cHandle

/-- mirrors include/drivers/spi_driver.h:6-11 -/
inductive SpiMode where
  | mode0 | mode1 | mode2 | mode3
  deriving DecidableEq, Repr

/-- mirrors include/drivers/spi_driver.h:13-18 -/
inductive SpiSpeed where
  | low | medium | high | veryHigh
  deriving DecidableEq, Repr

/-- mirrors include/drivers/spi_driver.h:20-24 -/
structure SpiConfig where
  mode : SpiMode
  speed : SpiSpeed
  enableDma : Bool
  deriving DecidableEq, Repr

/-- mirrors src/drivers/spi_driver.c:6-11 -/
structure SpiHandle where
  spiId : UInt8
  config : SpiConfig
  initialized : Bool
  busy : Bool
  deriving DecidableEq, Repr

/-- mirrors src/drivers/spi_driver.c:13-14 -/
abbrev MAX_SPI_INSTANCES : Nat := 4

/-- `spi_instances` -/
abbrev SpiInstances := Fin MAX_SPI_INSTANCES → SpiHandle

/-- `config` is what the pointer points at, `none` for NULL; the result is the
handle's index. -/
def instanceInit {H C : Type} {n : Nat} (initialized : H → Bool) (fresh : UInt8 → C → H) (instances : Fin n → H)
    (id : UInt8) (config : Option C) : (Fin n → H) × Option (Fin n) :=
  if hid : id.toNat ≥ n then (instances, none)
  else
    match config with
    | none => (instances, none)
    | some config =>
      let i : Fin n := ⟨id.toNat, Nat.lt_of_not_le hid⟩
      if initialized (instances i) then (instances, some i)
      else (Function.update instances i (fresh id config), some i)

/-- `close` clears `initialized`; a handle is NULL or that of an instance. -/
def instanceDeinit {H : Type} {n : Nat} (initialized : H → Bool) (close : H → H) (instances : Fin n → H)
    (h : Option (Fin n)) : (Fin n → H) × RtosStatus :=
  match h with
  | none => (instances, .errorInvalidParam)
  | some i =>
    if initialized (instances i) then (Function.update instances i (close (instances i)), .ok)
    else (instances, .errorInvalidParam)

/-- mirrors src/drivers/i2c_driver.c:61-175 -/
def i2cInit (i2cs : I2cInstances) (i2cId : UInt8) (config : Option I2cConfig) :
    I2cInstances × Option (Fin MAX_I2C_INSTANCES) :=
  instanceInit (·.initialized) (fun id config => ⟨id, config, true, false⟩) i2cs i2cId config

/-- mirrors src/drivers/spi_driver.c:16-36 -/
def spiInit (spis : SpiInstances) (spiId : UInt8) (config : Option SpiConfig) :
    SpiInstances × Option (Fin MAX_SPI_INSTANCES) :=
  instanceInit (·.initialized) (fun id config => ⟨id, config, true, false⟩) spis spiId config

/-- The handle is the entry that the id names. -/
theorem instanceInit_index {H C : Type} {n : Nat} {initialized : H → Bool} {fresh : UInt8 → C → H}
    {instances : Fin n → H} {id : UInt8} {config : Option C} {i : Fin n}
    (h : (instanceInit initialized fresh instances id config).2 = some i) : i.val = id.toNat := by
  unfold instanceInit at h
  split at h
  · cases h
  · cases config with
    | none => cases h
    | some config =>
      dsimp only at h
      split at h
      · cases h
        rfl
      · cases h
        rfl

end Rtos.Drivers
