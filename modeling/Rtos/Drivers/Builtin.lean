import Rtos.Drivers.Framework
import Rtos.Drivers.Instances
import Rtos.Drivers.Uart

/-!
# The built-in drivers

`driver_uart_init`, `driver_i2c_init` and `driver_spi_init` are the same
function of the driver's own `init`: they pass on the device's id and what
`platform_data` points at, and keep the handle in `driver_data`
(`builtinInit`). A handle is the address of the entry of a static array that
the id names, so the driver and the id decide it (`initDevice_builtin`).
-/
namespace Rtos.Drivers

open Rtos.Core Rtos.Heap

inductive Builtin where
  | uart | i2c | spi
  deriving DecidableEq, Repr

def Builtin.name : Builtin → String
  | .uart => "uart_driver"
  | .i2c => "i2c_driver"
  | .spi => "spi_driver"

/-- What the program is linked to: the configurations that `platform_data`
points at, and the addresses of the entries of the static arrays, which are
different objects. -/
structure Platform where
  target : Target
  uartConfig : Nat → UartConfig
  i2cConfig : Nat → I2cConfig
  spiConfig : Nat → SpiConfig
  handle : Builtin → Nat → Nat
  handle_inj : ∀ b c i j, i < 4 → j < 4 → handle b i = handle c j → b = c ∧ i = j

/-- The heap and the static arrays of the drivers. -/
structure Peripherals where
  heap : HeapState
  uarts : UartInstances
  i2cs : I2cInstances
  spis : SpiInstances

/-- `none`: a call does not return. -/
abbrev World := Option Peripherals

/-- `init p id config` is what the driver's own `init` makes of the peripherals,
and the handle, `none` for NULL. -/
def builtinInit (init : Peripherals → UInt8 → Nat → Option (Peripherals × Option Nat)) : DeviceInit World :=
  fun w dev =>
    if dev.platformData = 0 then (w, dev, .invalidParam)
    else
      match w.bind fun p => init p dev.id dev.platformData with
      | none => (none, dev, .error)
      | some (p, none) => (some p, dev, .error)
      | some (p, some handle) => (some p, { dev with driverData := handle }, .ok)

section

variable (pl : Platform)

/-- mirrors src/drivers/uart_driver.c:697-725 -/
def driverUartInit : DeviceInit World := builtinInit fun p id config =>
  (uartInit pl.target p.heap p.uarts id (some (pl.uartConfig config))).map fun (heap, uarts, uart) =>
    ({ p with heap := heap, uarts := uarts }, uart.map fun i : Fin _ => pl.handle .uart i.val)

/-- mirrors src/drivers/i2c_driver.c:591-619 -/
def driverI2cInit : DeviceInit World := builtinInit fun p id config =>
  let r := i2cInit p.i2cs id (some (pl.i2cConfig config))
  some ({ p with i2cs := r.1 }, r.2.map fun i : Fin _ => pl.handle .i2c i.val)

/-- mirrors src/drivers/spi_driver.c:95-123 -/
def driverSpiInit : DeviceInit World := builtinInit fun p id config =>
  let r := spiInit p.spis id (some (pl.spiConfig config))
  some ({ p with spis := r.1 }, r.2.map fun i : Fin _ => pl.handle .spi i.val)

def Builtin.init : Builtin → DeviceInit World
  | .uart => driverUartInit pl
  | .i2c => driverI2cInit pl
  | .spi => driverSpiInit pl

/-- What the three callbacks do. -/
def Builtin.call (b : Builtin) : DriverInit Builtin World := onEntry (b.init pl)

end

def Builtin.driver (b : Builtin) : Driver Builtin := ⟨some b.name, some b⟩

/-- mirrors src/driver_framework.c:218-242 -/
def deviceRegisterBuiltinDrivers (r : Registry Builtin) : Registry Builtin :=
  let r := (driverRegister r (some Builtin.uart.driver)).1
  let r := (driverRegister r (some Builtin.i2c.driver)).1
  (driverRegister r (some Builtin.spi.driver)).1

/-- The drivers it registers. -/
def builtinDrivers : List (Driver Builtin) := [Builtin.uart.driver, Builtin.i2c.driver, Builtin.spi.driver]

theorem registered_drivers : (deviceRegisterBuiltinDrivers deviceFrameworkInit).drivers = builtinDrivers := rfl

theorem registered_devices : (deviceRegisterBuiltinDrivers deviceFrameworkInit).devices = [] := rfl

variable {pl : Platform} {w : World} {dev : Device}

theorem Builtin.call_own (pl : Platform) : OwnEntry (Builtin.call pl) := onEntry_own (Builtin.init pl)

/-- A callback that fails leaves its device, one that succeeds keeps the handle,
which is that of the id if the driver's `init` gives no other. -/
theorem builtinInit_cases {init : Peripherals → UInt8 → Nat → Option (Peripherals × Option Nat)} {b : Builtin}
    (hinit : ∀ p p' id config handle, init p id config = some (p', some handle) →
      ∃ i : Fin 4, i.val = id.toNat ∧ handle = pl.handle b i) (w : World) (dev : Device) :
    (∃ w' st, builtinInit init w dev = (w', dev, st) ∧ st ≠ .ok) ∨
    ∃ w', dev.id.toNat < 4 ∧
      builtinInit init w dev = (w', { dev with driverData := pl.handle b dev.id.toNat }, .ok) := by
  unfold builtinInit
  by_cases hd : dev.platformData = 0
  · rw [if_pos hd]
    exact .inl ⟨w, .invalidParam, rfl, by decide⟩
  · rw [if_neg hd]
    cases e : w.bind fun p => init p dev.id dev.platformData with
    | none => exact .inl ⟨none, .error, rfl, by decide⟩
    | some r =>
      obtain ⟨p', handle⟩ := r
      cases handle with
      | none => exact .inl ⟨some p', .error, rfl, by decide⟩
      | some handle =>
        obtain ⟨p, -, e⟩ := Option.bind_eq_some_iff.1 e
        obtain ⟨i, hi, rfl⟩ := hinit _ _ _ _ _ e
        rw [← hi]
        exact .inr ⟨some p', i.isLt, rfl⟩

theorem Builtin.init_cases (pl : Platform) (b : Builtin) (w : World) (dev : Device) :
    (∃ w' st, b.init pl w dev = (w', dev, st) ∧ st ≠ .ok) ∨
    ∃ w', dev.id.toNat < 4 ∧
      b.init pl w dev = (w', { dev with driverData := pl.handle b dev.id.toNat }, .ok) := by
  cases b with
  | uart =>
    unfold Builtin.init driverUartInit
    refine builtinInit_cases (fun p p' id config handle e => ?_) w dev
    obtain ⟨⟨heap, uarts, uart⟩, e₁, e₂⟩ := Option.map_eq_some_iff.1 e
    obtain ⟨-, hmap⟩ := Prod.mk.inj e₂
    obtain ⟨u, hu, rfl⟩ := Option.map_eq_some_iff.1 hmap
    rw [show uart = some u from hu] at e₁
    exact ⟨u, uartInit_index e₁, rfl⟩
  | i2c =>
    unfold Builtin.init driverI2cInit
    refine builtinInit_cases (fun p p' id config handle e => ?_) w dev
    obtain ⟨-, hmap⟩ := Prod.mk.inj (Option.some.inj e)
    obtain ⟨i, hi, rfl⟩ := Option.map_eq_some_iff.1 hmap
    exact ⟨i, instanceInit_index hi, rfl⟩
  | spi =>
    unfold Builtin.init driverSpiInit
    refine builtinInit_cases (fun p p' id config handle e => ?_) w dev
    obtain ⟨-, hmap⟩ := Prod.mk.inj (Option.some.inj e)
    obtain ⟨i, hi, rfl⟩ := Option.map_eq_some_iff.1 hmap
    exact ⟨i, instanceInit_index hi, rfl⟩

theorem lookup_builtin (name : Option String) :
    (driverLookup builtinDrivers name = none ∧ name ∉ [Builtin.uart, .i2c, .spi].map fun b => some b.name) ∨
    ∃ b : Builtin, name = some b.name ∧ driverLookup builtinDrivers name = some b.driver := by
  by_cases hn : name ∈ [Builtin.uart, .i2c, .spi].map fun b => some b.name
  · obtain ⟨b, -, rfl⟩ := List.mem_map.1 hn
    refine .inr ⟨b, rfl, ?_⟩
    cases b <;> rfl
  · refine .inl ⟨?_, hn⟩
    cases hl : driverLookup builtinDrivers name with
    | none => rfl
    | some driver =>
      refine absurd ?_ hn
      have hname := driverLookup_name hl
      have hmem := driverLookup_mem hl
      simp only [builtinDrivers, List.mem_cons, List.not_mem_nil, or_false] at hmem
      rw [← hname]
      rcases hmem with rfl | rfl | rfl <;> simp [Builtin.driver]

/-- With the built-in drivers an attempt finds no driver, or its callback fails
and leaves the registry, or it succeeds and the device gets the handle of the
driver and the id. -/
theorem initDevice_builtin (pl : Platform) {r : Registry Builtin} (hd : r.drivers = builtinDrivers) (w : World)
    {i : Nat} (hi : r.devices[i]? = some dev) :
    (dev.driverName ∉ [Builtin.uart, .i2c, .spi].map (fun b => some b.name) ∧
      initDevice (Builtin.call pl) w r i dev = ⟨w, r, false, .notFound⟩) ∨
    ∃ b : Builtin, dev.driverName = some b.name ∧
      ((∃ w' st, b.init pl w dev = (w', dev, st) ∧ st ≠ .ok ∧
          initDevice (Builtin.call pl) w r i dev = ⟨w', r, true, st⟩) ∨
        ∃ w', dev.id.toNat < 4 ∧
          b.init pl w dev = (w', { dev with driverData := pl.handle b dev.id.toNat }, .ok) ∧
          initDevice (Builtin.call pl) w r i dev =
            ⟨w', r.set i { dev with driverData := pl.handle b dev.id.toNat, initialized := true }, true, .ok⟩) := by
  rcases lookup_builtin dev.driverName with ⟨hl, hn⟩ | ⟨b, hn, hl⟩
  · exact .inl ⟨hn, by rw [initDevice, hd, hl]⟩
  · have hcall : Builtin.call pl b w r i = _ := onEntry_eq (b.init pl) w hi
    refine .inr ⟨b, hn, ?_⟩
    rcases Builtin.init_cases pl b w dev with ⟨w', st, e, hst⟩ | ⟨w', hlt, e⟩
    · refine .inl ⟨w', st, e, hst, ?_⟩
      rw [initDevice, hd, hl]
      simp only [Builtin.driver, hcall, e, if_pos hst, Registry.set_self hi]
    · refine .inr ⟨w', hlt, e, ?_⟩
      rw [initDevice, hd, hl]
      simp only [Builtin.driver, hcall, e, ne_eq, not_true_eq_false, if_false, Registry.mark_set hi]

end Rtos.Drivers
