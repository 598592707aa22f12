import Rtos.Drivers.Builtin
import Rtos.Drivers.Buses
import Rtos.Drivers.InitOrder
import Rtos.Heap.Room

/-!
# `device_init_all` with the built-in drivers

The framework, the three drivers and the heap together. Seen from outside, the
peripherals are a map from a driver and an id to a configuration
(`Peripherals.config`), and an attempt that succeeds for a device opens the
peripheral that the device is for, with the configuration its `platform_data`
points at, unless it was open before.

`startup_opens`: for any devices, `device_init_all` returns, opens exactly the
peripherals of its successful attempts, each with the configuration of the
first, and leaves the payloads of the heap as they were. `startup_complete`:
if all devices are described completely and the largest free block has room
for the buffers of the UARTs, every device is initialised.
-/
namespace Rtos.Drivers

open Rtos.Core Rtos.Heap

/-! ## A UART with room for its buffers -/

section

variable {t : Target} {h : HeapState} {G : Multiset (Nat × Nat)} {uarts : UartInstances} {n r : Nat}

theorem circBufInit_room (ho : Outstanding t h G) (hn : n ≠ 0) (hm : Room t h (cost t n + r)) :
    ∃ h' p g, circBufInit t h n = some (h', ⟨p, n, 0, 0, 0⟩) ∧ p ≠ 0 ∧ Outstanding t h' ((p, g) ::ₘ G) ∧
      Kept G h.mem h'.mem ∧ Room t h' r := by
  obtain ⟨h', p, g, e, hp, ho', hk, hm'⟩ := room_malloc ho hn hm
  exact ⟨h', p, g, by rw [circBufInit, e]; rfl, hp, ho', hk, hm'⟩

/-- What the two buffers cost. -/
def UartConfig.cost (t : Target) (c : UartConfig) : Nat :=
  Heap.cost t c.rxBufferSize.toNat + Heap.cost t c.txBufferSize.toNat

/-- With room for its buffers a UART that is not open is opened. -/
theorem uartInit_room {u : Fin MAX_UART_INSTANCES} {id : UInt8} {c : UartConfig} (ho : Outstanding t h G)
    (hu : u.val = id.toNat) (hc : (uarts u).initialized = false) (hrx : c.rxBufferSize.toNat ≠ 0)
    (htx : c.txBufferSize.toNat ≠ 0) (hm : Room t h (c.cost t + r)) :
    ∃ h' uarts', uartInit t h uarts id (some c) = some (h', uarts', some u) ∧ Room t h' r := by
  rw [UartConfig.cost, Nat.add_assoc] at hm
  obtain ⟨h₁, p, g, e₁, hp, ho₁, -, hm₁⟩ := circBufInit_room ho hrx hm
  obtain ⟨h₂, q, k, e₂, hq, -, -, hm₂⟩ := circBufInit_room ho₁ htx hm₁
  have hlt := u.isLt
  have hu' : (⟨id.toNat, hu ▸ hlt⟩ : Fin MAX_UART_INSTANCES) = u := Fin.ext hu.symm
  rw [uartInit, dif_neg (by omega)]
  dsimp only
  rw [hu', hc, if_neg (by decide), e₁, Option.bind_some]
  dsimp only
  rw [e₂, Option.bind_some]
  dsimp only
  rw [if_neg (by simp [hp, hq])]
  exact ⟨h₂, _, rfl, hm₂⟩

end

/-! ## What a device is for -/

/-- The configurations of the three kinds of peripherals. -/
inductive PeripheralConfig where
  | uart (config : UartConfig)
  | i2c (config : I2cConfig)
  | spi (config : SpiConfig)

def Platform.config (pl : Platform) : Builtin → Nat → PeripheralConfig
  | .uart, a => .uart (pl.uartConfig a)
  | .i2c, a => .i2c (pl.i2cConfig a)
  | .spi, a => .spi (pl.spiConfig a)

def uartConfigs : UartInstances → Fin MAX_UART_INSTANCES → Option UartConfig := configs (·.initialized) (·.config)

/-- The configurations of the peripherals that are open. -/
def Peripherals.config (p : Peripherals) : Builtin × Fin 4 → Option PeripheralConfig
  | (.uart, i) => (uartConfigs p.uarts i).map .uart
  | (.i2c, i) => (i2cConfigs p.i2cs i).map .i2c
  | (.spi, i) => (spiConfigs p.spis i).map .spi

/-- The device is described completely, and this is its peripheral. -/
def Device.For (dev : Device) (k : Builtin × Fin 4) : Prop :=
  dev.driverName = some k.1.name ∧ dev.id.toNat = k.2.val ∧ dev.platformData ≠ 0

instance (dev : Device) (k : Builtin × Fin 4) : Decidable (dev.For k) := inferInstanceAs (Decidable (_ ∧ _ ∧ _))

/-- What an attempt comes to, if no buffer of a UART is refused. -/
def outcome (dev : Device) : DeviceStatus :=
  if dev.driverName ∉ [Builtin.uart, .i2c, .spi].map fun b => some b.name then .notFound
  else if dev.platformData = 0 then .invalidParam
  else if dev.id.toNat < 4 then .ok
  else .error

/-- The entry of a device whose initialisation succeeded. -/
def Device.bound (pl : Platform) (k : Builtin × Fin 4) (dev : Device) : Device :=
  { dev with driverData := pl.handle k.1 k.2.val, initialized := true }

/-- An entry without what `device_init_all` changes. -/
def Device.description (dev : Device) : Device := { dev with driverData := 0, initialized := false }

/-! ## One device -/

section

variable {pl : Platform} {p p' : Peripherals} {G : Multiset (Nat × Nat)} {dev : Device} {b : Builtin}
  {i : Fin 4} {k : Builtin × Fin 4}

theorem Builtin.name_inj {c : Builtin} (h : b.name = c.name) : b = c := by
  cases b <;> cases c <;> first | rfl | exact absurd h (by decide)

/-- A device is for one peripheral at most. -/
theorem Device.For.unique {k' : Builtin × Fin 4} (h : dev.For k) (h' : dev.For k') : k = k' := by
  have hb : k.1 = k'.1 := Builtin.name_inj (Option.some.inj (h.1.symm.trans h'.1))
  have hi : k.2 = k'.2 := Fin.ext (h.2.1.symm.trans h'.2.1)
  exact Prod.ext hb hi

/-- The first configuration counts. -/
def openLine (lines : Builtin × Fin 4 → Option PeripheralConfig) (k : Builtin × Fin 4) (c : PeripheralConfig) :
    Builtin × Fin 4 → Option PeripheralConfig :=
  Function.update lines k ((lines k).or (some c))

/-- The heap holds what it held before, with the same bytes, and maybe more. -/
structure Grown (t : Target) (G : Multiset (Nat × Nat)) (h h' : HeapState) : Prop where
  more : ∃ G', Outstanding t h' (G' + G)
  kept : Kept G h.mem h'.mem

theorem Grown.refl {t : Target} {h : HeapState} (ho : Outstanding t h G) : Grown t G h h :=
  ⟨⟨0, by rwa [zero_add]⟩, .refl _ _⟩

theorem Grown.trans {t : Target} {h h' h'' : HeapState} {G₁ : Multiset (Nat × Nat)} (hk : Kept G h.mem h'.mem)
    (hg : Grown t (G₁ + G) h' h'') : Grown t G h h'' := by
  obtain ⟨⟨G₂, ho⟩, hk'⟩ := hg
  exact ⟨⟨G₂ + G₁, by rwa [add_assoc]⟩,
    hk.trans (hk'.mono (Multiset.subset_of_le (Multiset.le_add_left _ _)))⟩

/-- One entry is changed. -/
theorem config_update {x : Option PeripheralConfig} (hother : ∀ c j, c ≠ b → p'.config (c, j) = p.config (c, j))
    (hthis : ∀ j, p'.config (b, j) = if j = i then x else p.config (b, j)) :
    p'.config = Function.update p.config (b, i) x := by
  funext ⟨c, j⟩
  rw [Function.update_apply]
  by_cases hc : c = b
  · subst hc
    rw [hthis j]
    simp
  · rw [hother c j hc, if_neg (by simp [hc])]

/-- The drivers do not touch each other's peripherals. -/
theorem config_uarts (p : Peripherals) (h : HeapState) (uarts : UartInstances) {c : Builtin} (j : Fin 4)
    (hc : c ≠ .uart) : { p with heap := h, uarts := uarts }.config (c, j) = p.config (c, j) := by
  cases c with
  | uart => exact absurd rfl hc
  | i2c => rfl
  | spi => rfl

theorem config_i2cs (p : Peripherals) (i2cs : I2cInstances) {c : Builtin} (j : Fin 4) (hc : c ≠ .i2c) :
    { p with i2cs := i2cs }.config (c, j) = p.config (c, j) := by
  cases c with
  | uart => rfl
  | i2c => exact absurd rfl hc
  | spi => rfl

theorem config_spis (p : Peripherals) (spis : SpiInstances) {c : Builtin} (j : Fin 4) (hc : c ≠ .spi) :
    { p with spis := spis }.config (c, j) = p.config (c, j) := by
  cases c with
  | uart => rfl
  | i2c => rfl
  | spi => exact absurd rfl hc

theorem openBus_granted {C : Type} {n : Nat} {lines : Fin n → Option C} {id : UInt8} {c : Option C} {i : Fin n}
    (h : granted n id c = some i) : openBus lines id c = Function.update lines i ((lines i).or c) := by
  rw [openBus, h]

theorem openBus_none {C : Type} {n : Nat} {lines : Fin n → Option C} {id : UInt8} {c : Option C}
    (h : granted n id c = none) : openBus lines id c = lines := by
  rw [openBus, h]

/-- An `init` that opens a bus or finds it open. -/
theorem config_openBus {C : Type} {f : C → PeripheralConfig} {lines lines' : Fin 4 → Option C} {id : UInt8} {c : C}
    (hother : ∀ c j, c ≠ b → p'.config (c, j) = p.config (c, j)) (hl : ∀ j, p.config (b, j) = (lines j).map f)
    (hl' : ∀ j, p'.config (b, j) = (lines' j).map f) (ho : lines' = openBus lines id (some c)) :
    (granted 4 id (some c) = none ∧ 4 ≤ id.toNat ∧ p'.config = p.config) ∨
    ∃ i : Fin 4, granted 4 id (some c) = some i ∧ i.val = id.toNat ∧
      p'.config = openLine p.config (b, i) (f c) := by
  by_cases hid : id.toNat < 4
  · have hg : granted 4 id (some c) = some ⟨id.toNat, hid⟩ := by rw [granted, dif_pos hid]; rfl
    refine .inr ⟨_, hg, rfl, config_update hother fun j => ?_⟩
    rw [hl', hl, hl, ho, openBus_granted hg, Function.update_apply]
    split
    · cases lines ⟨id.toNat, hid⟩ <;> rfl
    · rfl
  · have hg : granted 4 id (some c) = none := by rw [granted, dif_neg hid]
    refine .inl ⟨hg, by omega, funext fun k => ?_⟩
    obtain ⟨d, j⟩ := k
    by_cases hd : d = b
    · rw [hd, hl', hl, ho, openBus_none hg]
    · exact hother d j hd

/-- `uart_init` opens the UART or finds it open; or a buffer is refused. -/
theorem uartInit_opens {t : Target} {h : HeapState} (ho : Outstanding t h G) (uarts : UartInstances) (id : UInt8)
    (c : UartConfig) :
    ∃ h' uarts' u, uartInit t h uarts id (some c) = some (h', uarts', u) ∧ Grown t G h h' ∧
      ((u = granted 4 id (some c) ∧ uartConfigs uarts' = openBus (uartConfigs uarts) id (some c)) ∨
        u = none ∧ uartConfigs uarts' = uartConfigs uarts) := by
  have hgranted : ∀ {u : Fin MAX_UART_INSTANCES}, u.val = id.toNat → granted 4 id (some c) = some u := by
    intro u hu
    rw [granted, dif_pos (hu ▸ u.isLt), Option.map_some]
    exact congrArg some (Fin.ext hu.symm)
  rcases uartInit_granted ho uarts id (some c) with ⟨h', uarts', e, ho', hk, hinit, hopen, -⟩ |
    ⟨u, e, hu, -⟩ | ⟨h', u, c', x, g, q, k, handle, e, rfl, hc, hu, -, -, ho', hk⟩
  · refine ⟨h', uarts', none, e, ⟨⟨0, by rwa [zero_add]⟩, hk⟩, .inr ⟨rfl, funext fun u => ?_⟩⟩
    simp only [uartConfigs, configs]
    cases hu : (uarts u).initialized with
    | true => rw [hinit u hu, hu]
    | false => rw [hopen u hu, if_neg (by decide), if_neg (by decide)]
  · have hg := hgranted (uartInit_index e)
    refine ⟨h, uarts, some u, e, .refl ho, .inl ⟨hg.symm, ?_⟩⟩
    rw [openBus_granted hg, show uartConfigs uarts u = some (uarts u).config from if_pos hu]
    exact (Function.update_eq_self_iff.2 (if_pos hu).symm).symm
  · cases hc
    have hg := hgranted (uartInit_index e)
    refine ⟨h', _, some u, e, ⟨⟨(q, k) ::ₘ {(x, g)}, ?_⟩, hk⟩, .inl ⟨hg.symm, funext fun j => ?_⟩⟩
    · rwa [Multiset.cons_add, Multiset.singleton_add]
    · rw [openBus_granted hg]
      by_cases hj : j = u
      · subst hj
        simp [uartConfigs, configs, hu]
      · simp [uartConfigs, configs, hj]

/-- What the callback of a built-in driver makes of a driver's `init` that
returns these peripherals and this instance. -/
theorem builtinInit_some (pl : Platform)
    {init : Peripherals → UInt8 → Nat → Option (Peripherals × Option Nat)} {j : Option (Fin 4)}
    (hd : dev.platformData ≠ 0)
    (e : init p dev.id dev.platformData = some (p', j.map fun i => pl.handle b i.val)) :
    (builtinInit init (some p) dev).1 = some p' ∧
      (builtinInit init (some p) dev).2.2 = if j.isSome then .ok else .error := by
  unfold builtinInit
  rw [if_neg hd, Option.bind_some, e]
  cases j <;> exact ⟨rfl, rfl⟩

/-- So it opens the peripheral that the id names, or the id names none. -/
theorem builtinInit_opens (pl : Platform)
    {init : Peripherals → UInt8 → Nat → Option (Peripherals × Option Nat)} {C : Type}
    {f : C → PeripheralConfig} {lines lines' : Fin 4 → Option C} {c : C} (hd : dev.platformData ≠ 0)
    (e : init p dev.id dev.platformData =
      some (p', (granted 4 dev.id (some c)).map fun i => pl.handle b i.val))
    (hother : ∀ d j, d ≠ b → p'.config (d, j) = p.config (d, j)) (hl : ∀ j, p.config (b, j) = (lines j).map f)
    (hl' : ∀ j, p'.config (b, j) = (lines' j).map f) (ho : lines' = openBus lines dev.id (some c)) :
    (builtinInit init (some p) dev).1 = some p' ∧
      ((∃ i : Fin 4, dev.id.toNat = i.val ∧ (builtinInit init (some p) dev).2.2 = .ok ∧
          p'.config = openLine p.config (b, i) (f c)) ∨
        4 ≤ dev.id.toNat ∧ p'.config = p.config ∧ (builtinInit init (some p) dev).2.2 = .error) := by
  obtain ⟨h1, h2⟩ := builtinInit_some pl hd e
  refine ⟨h1, ?_⟩
  rcases config_openBus hother hl hl' ho with ⟨hg, hid, hp⟩ | ⟨i, hg, hi, hp⟩
  · exact .inr ⟨hid, hp, by rw [h2, hg]; rfl⟩
  · exact .inl ⟨i, hi.symm, by rw [h2, hg]; rfl, hp⟩

/-- An attempt with a built-in driver opens the peripheral of the device or
finds it open; else the description is incomplete, or it is a UART. -/
theorem Builtin.init_opens (ho : Outstanding pl.target p.heap G) (b : Builtin) (dev : Device) :
    ∃ p', (b.init pl (some p) dev).1 = some p' ∧ Grown pl.target G p.heap p'.heap ∧
      ((∃ i : Fin 4, dev.platformData ≠ 0 ∧ dev.id.toNat = i.val ∧ (b.init pl (some p) dev).2.2 = .ok ∧
          p'.config = openLine p.config (b, i) (pl.config b dev.platformData)) ∨
        (dev.platformData = 0 ∨ 4 ≤ dev.id.toNat ∨ b = .uart) ∧ p'.config = p.config ∧
          (b.init pl (some p) dev).2.2 = if dev.platformData = 0 then .invalidParam else .error) := by
  by_cases hd : dev.platformData = 0
  · have e : b.init pl (some p) dev = (some p, dev, .invalidParam) := by
      cases b <;> exact if_pos hd
    rw [e]
    exact ⟨p, rfl, .refl ho, .inr ⟨.inl hd, rfl, (if_pos hd).symm⟩⟩
  rw [if_neg hd]
  cases b with
  | uart =>
    obtain ⟨h', uarts', u, e, hgrown, ⟨rfl, hc⟩ | ⟨rfl, hc⟩⟩ :=
      uartInit_opens ho p.uarts dev.id (pl.uartConfig dev.platformData)
    · obtain ⟨h1, h2⟩ : (Builtin.uart.init pl (some p) dev).1 =
          some { p with heap := h', uarts := uarts' } ∧ _ :=
        builtinInit_opens pl (b := .uart) (f := .uart) hd (by rw [e]; rfl)
          (fun _ j hne => config_uarts p _ _ j hne) (fun _ => rfl) (fun _ => rfl) hc
      refine ⟨_, h1, hgrown, ?_⟩
      rcases h2 with ⟨i, hi, hs, hp⟩ | ⟨hid, hp, hs⟩
      · exact .inl ⟨i, hd, hi, hs, hp⟩
      · exact .inr ⟨.inr (.inl hid), hp, hs⟩
    · obtain ⟨h1, h2⟩ : (Builtin.uart.init pl (some p) dev).1 = some { p with heap := h', uarts := uarts' } ∧
          (Builtin.uart.init pl (some p) dev).2.2 = _ :=
        builtinInit_some pl (b := .uart) (j := none) hd (by rw [e]; rfl)
      refine ⟨_, h1, hgrown, .inr ⟨.inr (.inr rfl), ?_, h2⟩⟩
      funext ⟨d, j⟩
      cases d with
      | uart => exact congrArg (Option.map _) (congrFun hc j)
      | i2c => rfl
      | spi => rfl
  | i2c =>
    obtain ⟨hg, hc⟩ := i2cInit_configs p.i2cs dev.id (some (pl.i2cConfig dev.platformData))
    obtain ⟨h1, h2⟩ : (Builtin.i2c.init pl (some p) dev).1 =
        some { p with i2cs := (i2cInit p.i2cs dev.id (some (pl.i2cConfig dev.platformData))).1 } ∧ _ :=
      builtinInit_opens pl (b := .i2c) (f := .i2c) hd (by rw [← hg])
        (fun _ j hne => config_i2cs p _ j hne) (fun _ => rfl) (fun _ => rfl) hc
    refine ⟨_, h1, .refl ho, ?_⟩
    rcases h2 with ⟨i, hi, hs, hp⟩ | ⟨hid, hp, hs⟩
    · exact .inl ⟨i, hd, hi, hs, hp⟩
    · exact .inr ⟨.inr (.inl hid), hp, hs⟩
  | spi =>
    obtain ⟨hg, hc⟩ := spiInit_configs p.spis dev.id (some (pl.spiConfig dev.platformData))
    obtain ⟨h1, h2⟩ : (Builtin.spi.init pl (some p) dev).1 =
        some { p with spis := (spiInit p.spis dev.id (some (pl.spiConfig dev.platformData))).1 } ∧ _ :=
      builtinInit_opens pl (b := .spi) (f := .spi) hd (by rw [← hg])
        (fun _ j hne => config_spis p _ j hne) (fun _ => rfl) (fun _ => rfl) hc
    refine ⟨_, h1, .refl ho, ?_⟩
    rcases h2 with ⟨i, hi, hs, hp⟩ | ⟨hid, hp, hs⟩
    · exact .inl ⟨i, hd, hi, hs, hp⟩
    · exact .inr ⟨.inr (.inl hid), hp, hs⟩

/-- What `device_init_all` makes of one device. -/
theorem initDevice_opens (ho : Outstanding pl.target p.heap G) {r : Registry Builtin} (hr : r.drivers = builtinDrivers)
    {m : Nat} (hi : r.devices[m]? = some dev) :
    ∃ p' dev', (initDevice (Builtin.call pl) (some p) r m dev).world = some p' ∧
      (initDevice (Builtin.call pl) (some p) r m dev).registry = r.set m dev' ∧
      Grown pl.target G p.heap p'.heap ∧
      ((∃ k, dev.For k ∧ outcome dev = .ok ∧ (initDevice (Builtin.call pl) (some p) r m dev).status = .ok ∧
          dev' = dev.bound pl k ∧ p'.config = openLine p.config k (pl.config k.1 dev.platformData)) ∨
        (initDevice (Builtin.call pl) (some p) r m dev).status ≠ .ok ∧
          ((initDevice (Builtin.call pl) (some p) r m dev).status = outcome dev ∨
            (initDevice (Builtin.call pl) (some p) r m dev).status = .error ∧
              dev.driverName = some Builtin.uart.name) ∧
          dev' = dev ∧ p'.config = p.config) := by
  rcases initDevice_builtin pl hr (some p) hi with ⟨hn, e⟩ | ⟨b, hn, hcases⟩
  · rw [e]
    exact ⟨p, dev, rfl, (Registry.set_self hi).symm, .refl ho,
      .inr ⟨fun h => (by cases h), .inl (if_pos hn).symm, rfl, rfl⟩⟩
  obtain ⟨p', hw, hgrown, hopens⟩ := Builtin.init_opens ho b dev
  have hout : outcome dev = if dev.platformData = 0 then .invalidParam
      else if dev.id.toNat < 4 then .ok else .error := by
    rw [outcome, if_neg]
    rw [hn, not_not]
    exact List.mem_map.2 ⟨b, by cases b <;> simp, rfl⟩
  rcases hcases with ⟨w', st, e, hst, e'⟩ | ⟨w', hlt, e, e'⟩
  · rw [e] at hw hopens
    rw [e']
    rcases hopens with ⟨i, -, -, hs, -⟩ | ⟨hbad, hp, hs⟩
    · exact absurd hs hst
    · refine ⟨p', dev, hw, (Registry.set_self hi).symm, hgrown, .inr ⟨hst, ?_, rfl, hp⟩⟩
      dsimp only at hs ⊢
      rw [hout, hs]
      by_cases h0 : dev.platformData = 0
      · rw [if_pos h0, if_pos h0]
        exact .inl rfl
      · rw [if_neg h0, if_neg h0]
        rcases hbad with h | h | rfl
        · exact absurd h h0
        · exact .inl (if_neg (Nat.not_lt.2 h)).symm
        · exact .inr ⟨rfl, hn⟩
  · rw [e] at hw hopens
    rw [e']
    rcases hopens with ⟨i, hd, hi, -, hp⟩ | ⟨-, -, hs⟩
    · refine ⟨p', _, hw, rfl, hgrown, .inl ⟨(b, i), ⟨hn, hi, hd⟩, ?_, rfl, ?_, hp⟩⟩
      · rw [hout, if_neg hd, if_pos hlt]
      · rw [Device.bound, ← hi]
    · dsimp only at hs
      split at hs <;> cases hs

/-! ## All devices -/

/-- What an attempt opens, as far as the peripheral `k` is concerned. -/
def opens (pl : Platform) (devices : List Device) (k : Builtin × Fin 4) (a : Attempt) : Option PeripheralConfig :=
  if a.status = .ok then
    (devices[a.device]?).bind fun dev => if dev.For k then some (pl.config k.1 dev.platformData) else none
  else none

variable {devices : List Device} {dev' : Device} {j m : Nat}

theorem opens_eq_some {a : Attempt} {c : PeripheralConfig} : opens pl devices k a = some c ↔
    a.status = .ok ∧ ∃ dev, devices[a.device]? = some dev ∧ dev.For k ∧ pl.config k.1 dev.platformData = c := by
  simp only [opens, Option.ite_none_right_eq_some, Option.bind_eq_some_iff, Option.some.injEq]

theorem Device.bound_description (pl : Platform) (k : Builtin × Fin 4) (dev : Device) :
    (dev.bound pl k).description = dev.description := rfl

/-- Entries are written without changing what they describe. -/
theorem set_description (hi : devices[m]? = some dev) (hd : dev'.description = dev.description) (j : Nat) :
    ((devices.set m dev')[j]?).map Device.description = (devices[j]?).map Device.description := by
  by_cases hj : m = j
  · subst hj
    rw [List.getElem?_set_self (List.getElem?_eq_some_iff.1 hi).1, hi, Option.map_some, Option.map_some, hd]
  · rw [List.getElem?_set_ne hj]

theorem opens_set (hi : devices[m]? = some dev) (hd : dev'.description = dev.description) :
    opens pl (devices.set m dev') = opens pl devices := by
  funext k a
  have h := set_description hi hd a.device
  unfold opens
  congr 1
  cases e : (devices.set m dev')[a.device]? with
  | none =>
    rw [e, Option.map_none, eq_comm, Option.map_eq_none_iff] at h
    rw [h]
  | some d =>
    rw [e, Option.map_some, eq_comm, Option.map_eq_some_iff] at h
    obtain ⟨d', e', hd'⟩ := h
    rw [e']
    show (if d.description.For k then some (pl.config k.1 d.description.platformData) else none) =
      if d'.description.For k then some (pl.config k.1 d'.description.platformData) else none
    rw [hd']

theorem openLine_eq (h : dev.For k) (k' : Builtin × Fin 4) (lines : Builtin × Fin 4 → Option PeripheralConfig) :
    openLine lines k (pl.config k.1 dev.platformData) k' =
      (lines k').or (if dev.For k' then some (pl.config k'.1 dev.platformData) else none) := by
  unfold openLine
  by_cases hk : k' = k
  · subst hk
    rw [Function.update_self, if_pos h]
  · rw [Function.update_of_ne hk, if_neg fun h' => hk (h'.unique h), Option.or_none]

/-- What `device_init_all` has made of the devices `devices` and the
peripherals `p`, where the heap holds `G`. -/
structure Started (pl : Platform) (G : Multiset (Nat × Nat)) (p p' : Peripherals) (devices : List Device)
    (run : InitRun Builtin World) : Prop where
  world : run.world = some p'
  grown : Grown pl.target G p.heap p'.heap
  /-- An attempt succeeds unless the description is incomplete or a UART gets no buffers. -/
  reported : ∀ a ∈ run.log, ∃ dev, devices[a.device]? = some dev ∧
    (a.status = outcome dev ∨ a.status = .error ∧ dev.driverName = some Builtin.uart.name)
  /-- A device has its handle after a successful attempt, and else is as before. -/
  bound : ∀ (j : Nat) (dev : Device), devices[j]? = some dev →
    (run.registry.devices[j]? = some dev ∧ ∀ a ∈ run.log, a.device = j → a.status ≠ .ok) ∨
    ∃ k, dev.For k ∧ run.registry.devices[j]? = some (dev.bound pl k) ∧
      ∃ a ∈ run.log, a.device = j ∧ a.status = .ok
  /-- A peripheral has the configuration it had, or that of the first successful attempt. -/
  opened : ∀ k, p'.config k = (p.config k).or (run.log.findSome? (opens pl devices k))

theorem Started.none (ho : Outstanding pl.target p.heap G) (r : Registry Builtin) (status : DeviceStatus) :
    Started pl G p p r.devices ⟨some p, r, status, []⟩ where
  world := rfl
  grown := .refl ho
  reported := fun _ ha => absurd ha List.not_mem_nil
  bound := fun _ _ hj => .inl ⟨hj, fun _ ha => absurd ha List.not_mem_nil⟩
  opened := fun _ => Option.or_none.symm

/-- One device, then the others. -/
theorem Started.cons {p₁ : Peripherals} {G₁ : Multiset (Nat × Nat)} {called : Bool} {st : DeviceStatus}
    {run : InitRun Builtin World}
    (hi : devices[m]? = some dev) (hk : Kept G p.heap.mem p₁.heap.mem)
    (hcases : (∃ k, dev.For k ∧ outcome dev = .ok ∧ st = .ok ∧ dev' = dev.bound pl k ∧
        p₁.config = openLine p.config k (pl.config k.1 dev.platformData)) ∨
      st ≠ .ok ∧ (st = outcome dev ∨ st = .error ∧ dev.driverName = some Builtin.uart.name) ∧
        dev' = dev ∧ p₁.config = p.config)
    (h : Started pl (G₁ + G) p₁ p' (devices.set m dev') run) :
    Started pl G p p' devices { run with log := ⟨m, called, st⟩ :: run.log } := by
  -- the entry keeps its description, and the attempt opens what its log entry says
  obtain ⟨hdesc, hstatus, hopen⟩ : dev'.description = dev.description ∧
      (st = outcome dev ∨ st = .error ∧ dev.driverName = some Builtin.uart.name) ∧
      ∀ k, p₁.config k = (p.config k).or (opens pl devices k ⟨m, called, st⟩) := by
    rcases hcases with ⟨k, hk, hout, hs, hdev, hp⟩ | ⟨hs, hout, hdev, hp⟩
    · refine ⟨by rw [hdev, Device.bound_description], .inl (hs.trans hout.symm), fun k' => ?_⟩
      rw [hp, openLine_eq hk, opens, if_pos hs, hi, Option.bind_some]
    · refine ⟨by rw [hdev], hout, fun k' => ?_⟩
      rw [hp, opens, if_neg hs, Option.or_none]
  refine ⟨h.world, .trans hk h.grown,
    List.forall_mem_cons.2 ⟨⟨dev, hi, hstatus⟩, fun a ha => ?_⟩, fun j d hj => ?_,
    fun k => ?_⟩
  · obtain ⟨d, hd, hs⟩ := h.reported a ha
    have hset := set_description hi hdesc a.device
    rw [hd, Option.map_some, eq_comm, Option.map_eq_some_iff] at hset
    obtain ⟨d', hd', he⟩ := hset
    refine ⟨d', hd', ?_⟩
    show a.status = outcome d'.description ∨ a.status = .error ∧ d'.description.driverName = some Builtin.uart.name
    rw [he]
    exact hs
  · by_cases hj' : m = j
    · subst hj'
      rw [hi] at hj
      cases hj
      have hb := h.bound m dev' (List.getElem?_set_self (List.getElem?_eq_some_iff.1 hi).1)
      rcases hcases with ⟨k, hk, -, hs, hdev, -⟩ | ⟨hs, -, hdev, -⟩
      · -- the handle stays, also if another attempt were made
        refine .inr ⟨k, hk, ?_, _, List.mem_cons_self, rfl, hs⟩
        rcases hb with ⟨e, -⟩ | ⟨k', hk', e, -⟩
        · rw [e, hdev]
        · rw [hdev] at hk' e
          rw [show k' = k from Device.For.unique (show dev.For k' from hk') hk] at e
          exact e
      · rw [hdev] at hb
        rcases hb with ⟨e, hlog⟩ | ⟨k, hk, e, a, ha, haj, has⟩
        · exact .inl ⟨e, List.forall_mem_cons.2 ⟨fun _ => hs, hlog⟩⟩
        · exact .inr ⟨k, hk, e, a, List.mem_cons_of_mem _ ha, haj, has⟩
    · rcases h.bound j d (by rwa [List.getElem?_set_ne hj']) with ⟨e, hlog⟩ | ⟨k, hk, e, a, ha, haj, has⟩
      · exact .inl ⟨e, List.forall_mem_cons.2 ⟨fun he => absurd he hj', hlog⟩⟩
      · exact .inr ⟨k, hk, e, a, List.mem_cons_of_mem _ ha, haj, has⟩
  · rw [h.opened, opens_set hi hdesc, hopen, Option.or_assoc, List.findSome?_cons]
    cases opens pl devices k ⟨m, called, st⟩ <;> rfl

theorem initLoop_started (pl : Platform) (ho : Outstanding pl.target p.heap G) (n iter : Nat) {r : Registry Builtin}
    (hr : r.drivers = builtinDrivers) (status : DeviceStatus) :
    ∃ p', Started pl G p p' r.devices (initLoop (Builtin.call pl) n iter (some p) r status) := by
  induction n generalizing p G iter r status with
  | zero => exact ⟨p, .none ho r status⟩
  | succ n ih =>
    unfold initLoop
    by_cases hiter : iter < r.devices.length
    · rw [if_pos hiter]
      rcases nextDevice_spec r.devices with ⟨e, -⟩ | ⟨i, dev, ks, e, hi, -, -⟩
      · rw [e]
        exact ⟨p, .none ho r status⟩
      rw [e]
      dsimp only
      obtain ⟨p₁, dev', hw, hset, hg, hcases⟩ := initDevice_opens ho hr hi
      rw [hw, hset]
      obtain ⟨G₁, ho₁⟩ := hg.more
      obtain ⟨p', h⟩ := ih ho₁ (iter + 1) (r := r.set i dev') hr _
      exact ⟨p', .cons hi hg.kept hcases h⟩
    · rw [if_neg hiter]
      exact ⟨p, .none ho r status⟩

end

/-- **Startup opens what it reports.** In every reachable state of the heap,
`device_init_all` with the built-in drivers returns, whatever devices there
are. The payloads the application holds are as before. An attempt fails for an
incomplete description, and for a UART maybe for want of memory; the devices
whose attempts succeeded have the handles of their peripherals, and the others
are unchanged. A peripheral that was not open has the configuration of the
first device initialised for it, and is still closed if there is none. -/
theorem startup_opens (pl : Platform) (s : HeapSys) (hs : (allocSys pl.target).Reachable s) (p : Peripherals)
    (hp : p.heap = s.heap) (r : Registry Builtin)
    (hr : r.drivers = (deviceRegisterBuiltinDrivers deviceFrameworkInit).drivers) :
    ∃ G p', Outstanding pl.target s.heap G ∧ G.map Prod.fst = (s.live : Multiset Nat) ∧
      Started pl G p p' r.devices (deviceInitAll (Builtin.call pl) (some p) r) := by
  obtain ⟨G, ho, hl⟩ := ((accounted_inductive pl.target).reachable s hs).grants
  obtain ⟨p', h⟩ := initLoop_started pl (p := p) (hp ▸ ho) MAX_DEVICES 0 (hr.trans registered_drivers) .ok
  exact ⟨G, p', ho, hl, h⟩

/-- A platform where the timeout tells the configurations of I2C apart. -/
def startupPlatform : Platform where
  target := board
  uartConfig _ := boardConfig
  i2cConfig a := ⟨.fast, .addr7bit, false, .ofNat a⟩
  spiConfig _ := ⟨.mode0, .low, false⟩
  handle
    | .uart, i => 8192 + i
    | .i2c, i => 8196 + i
    | .spi, i => 8200 + i
  handle_inj b c i j hi hj h := by
    cases b <;> cases c <;> first | exact ⟨rfl, Nat.add_left_cancel h⟩ | (dsimp only at h; omega)

/-- After `memory_init`, with every peripheral closed. -/
def startupPeripherals : Peripherals where
  heap := (HeapSys.boot board).heap
  uarts := boardUarts
  i2cs _ := ⟨0, ⟨.standard, .addr7bit, false, 100⟩, false, false⟩
  spis _ := ⟨0, ⟨.mode0, .low, false⟩, false, false⟩

/-- Two devices on one bus, and one with a bad id. -/
def startupRegistry : Registry Builtin where
  drivers := builtinDrivers
  devices := [⟨some "clock", 0, some "i2c_driver", 64, 0, 20, false⟩,
    ⟨some "sensor", 0, some "i2c_driver", 128, 0, 10, false⟩,
    ⟨some "flash", 7, some "spi_driver", 64, 0, 30, false⟩]
  drivers_le := by decide
  devices_le := by decide

/-- The bus has the configuration of the sensor, and there is no other. -/
theorem startup_opens_board : ∃ G p', G.map Prod.fst = (([] : List Nat) : Multiset Nat) ∧
    Started startupPlatform G startupPeripherals p' startupRegistry.devices
      (deviceInitAll (Builtin.call startupPlatform) (some startupPeripherals) startupRegistry) ∧
    (deviceInitAll (Builtin.call startupPlatform) (some startupPeripherals) startupRegistry).log =
      [⟨1, true, .ok⟩, ⟨0, true, .ok⟩, ⟨2, true, .error⟩] ∧
    p'.config (.i2c, 0) = some (.i2c ⟨.fast, .addr7bit, false, 128⟩) ∧ p'.config (.spi, 3) = none := by
  obtain ⟨G, p', -, hG, h⟩ := startup_opens startupPlatform (HeapSys.boot board) ⟨_, [], rfl, .nil _⟩
    startupPeripherals rfl startupRegistry rfl
  have hlog : (deviceInitAll (Builtin.call startupPlatform) (some startupPeripherals) startupRegistry).log =
      [⟨1, true, .ok⟩, ⟨0, true, .ok⟩, ⟨2, true, .error⟩] := by decide +kernel
  refine ⟨G, p', hG, h, hlog, ?_, ?_⟩
  · rw [h.opened, hlog]
    rfl
  · rw [h.opened, hlog]
    rfl

/-! ## Devices that are all described completely -/

/-- The device waits for initialisation, and its description names a
peripheral; the buffers of a UART are not empty. -/
structure Device.Complete (pl : Platform) (dev : Device) : Prop where
  pending : dev.Pending
  peripheral : ∃ k, dev.For k
  buffers : dev.driverName = some Builtin.uart.name →
    (pl.uartConfig dev.platformData).rxBufferSize.toNat ≠ 0 ∧
      (pl.uartConfig dev.platformData).txBufferSize.toNat ≠ 0

/-- What its initialisation may cost. -/
def Device.cost (pl : Platform) (dev : Device) : Nat :=
  if dev.driverName = some Builtin.uart.name then (pl.uartConfig dev.platformData).cost pl.target else 0

section

variable {pl : Platform} {p p' : Peripherals} {G : Multiset (Nat × Nat)} {dev dev' : Device} {b : Builtin}
  {i : Fin 4} {devices : List Device} {m x : Nat}

theorem granted_of_lt {C : Type} {id : UInt8} (c : C) (hi : id.toNat = i.val) : granted 4 id (some c) = some i := by
  rw [granted, dif_pos (hi ▸ i.isLt), Option.map_some]
  exact congrArg some (Fin.ext hi)

/-- With room for what it costs an initialisation succeeds, and leaves the rest. -/
theorem Builtin.init_room (ho : Outstanding pl.target p.heap G) (hf : dev.For (b, i))
    (hb : b = .uart → (pl.uartConfig dev.platformData).rxBufferSize.toNat ≠ 0 ∧
      (pl.uartConfig dev.platformData).txBufferSize.toNat ≠ 0)
    (hm : Room pl.target p.heap (dev.cost pl + x)) :
    ∃ p', (b.init pl (some p) dev).1 = some p' ∧ (b.init pl (some p) dev).2.2 = .ok ∧
      Room pl.target p'.heap x := by
  obtain ⟨hn, hi, hd⟩ := hf
  cases b with
  | uart =>
    obtain ⟨hrx, htx⟩ := hb rfl
    rw [Device.cost, if_pos hn] at hm
    obtain ⟨h', uarts', e, hm'⟩ : ∃ h' uarts',
        uartInit pl.target p.heap p.uarts dev.id (some (pl.uartConfig dev.platformData)) =
          some (h', uarts', some i) ∧ Room pl.target h' x := by
      cases hinit : (p.uarts i).initialized with
      | false => exact uartInit_room ho hi.symm hinit hrx htx hm
      | true =>
        have hlt : ¬ dev.id.toNat ≥ MAX_UART_INSTANCES := Nat.not_le.2 (hi ▸ i.isLt)
        refine ⟨p.heap, p.uarts, ?_, hm.mono (by omega)⟩
        rw [uartInit, dif_neg hlt]
        dsimp only
        rw [show (⟨dev.id.toNat, Nat.lt_of_not_le hlt⟩ : Fin MAX_UART_INSTANCES) = i from Fin.ext hi,
          hinit, if_pos rfl]
    obtain ⟨h1, h2⟩ : (Builtin.uart.init pl (some p) dev).1 = some { p with heap := h', uarts := uarts' } ∧
        (Builtin.uart.init pl (some p) dev).2.2 = _ :=
      builtinInit_some pl (b := .uart) (j := some i) hd (by rw [e]; rfl)
    exact ⟨_, h1, h2, hm'⟩
  | i2c =>
    have hg := (i2cInit_configs p.i2cs dev.id (some (pl.i2cConfig dev.platformData))).1.trans (granted_of_lt _ hi)
    obtain ⟨h1, h2⟩ : (Builtin.i2c.init pl (some p) dev).1 =
        some { p with i2cs := (i2cInit p.i2cs dev.id (some (pl.i2cConfig dev.platformData))).1 } ∧
          (Builtin.i2c.init pl (some p) dev).2.2 = _ :=
      builtinInit_some pl (b := .i2c) (j := some i) hd (by rw [← hg])
    exact ⟨_, h1, h2, hm.mono (Nat.le_add_left _ _)⟩
  | spi =>
    have hg := (spiInit_configs p.spis dev.id (some (pl.spiConfig dev.platformData))).1.trans (granted_of_lt _ hi)
    obtain ⟨h1, h2⟩ : (Builtin.spi.init pl (some p) dev).1 =
        some { p with spis := (spiInit p.spis dev.id (some (pl.spiConfig dev.platformData))).1 } ∧
          (Builtin.spi.init pl (some p) dev).2.2 = _ :=
      builtinInit_some pl (b := .spi) (j := some i) hd (by rw [← hg])
    exact ⟨_, h1, h2, hm.mono (Nat.le_add_left _ _)⟩

theorem initDevice_room (ho : Outstanding pl.target p.heap G) {r : Registry Builtin} (hr : r.drivers = builtinDrivers)
    (hi : r.devices[m]? = some dev) (hc : dev.Complete pl) (hm : Room pl.target p.heap (dev.cost pl + x)) :
    ∃ p', (initDevice (Builtin.call pl) (some p) r m dev).world = some p' ∧
      (initDevice (Builtin.call pl) (some p) r m dev).status = .ok ∧ Room pl.target p'.heap x := by
  obtain ⟨⟨b, i⟩, hf⟩ := hc.peripheral
  obtain ⟨p', hw, hs, hm'⟩ := Builtin.init_room ho hf (fun hb => hc.buffers (by rw [hf.1, hb])) hm
  rcases initDevice_builtin pl hr (some p) hi with ⟨hn, -⟩ | ⟨c, hn, hcases⟩
  · refine absurd ?_ hn
    rw [hf.1]
    exact List.mem_map.2 ⟨b, by cases b <;> simp, rfl⟩
  · have hbc : c = b := Builtin.name_inj (Option.some.inj (hn.symm.trans hf.1))
    subst hbc
    rcases hcases with ⟨w', st, e, hst, -⟩ | ⟨w', -, e, e'⟩
    · rw [e] at hs
      exact absurd hs hst
    · rw [e] at hw
      rw [e']
      exact ⟨p', hw, rfl, hm'⟩

/-- What the devices that wait may still cost. -/
def remaining (pl : Platform) (devices : List Device) : Nat :=
  ((devices.filter (·.Pending)).map (Device.cost pl)).sum

theorem remaining_set (pl : Platform) (hi : devices[m]? = some dev) (hp : dev.Pending) (hd : dev'.initialized = true) :
    dev.cost pl + remaining pl (devices.set m dev') = remaining pl devices := by
  have hd' : ¬ dev'.Pending := fun h => by rw [h.1] at hd; cases hd
  unfold remaining
  induction devices generalizing m with
  | nil => cases hi
  | cons d devices ih =>
    cases m with
    | zero =>
      cases hi
      rw [List.set_cons_zero, List.filter_cons_of_neg (by simpa using hd'), List.filter_cons_of_pos (by simpa using hp),
        List.map_cons, List.sum_cons]
    | succ m =>
      have h := ih hi
      rw [List.set_cons_succ]
      by_cases hq : d.Pending
      · rw [List.filter_cons_of_pos (by simpa using hq), List.filter_cons_of_pos (by simpa using hq), List.map_cons,
          List.map_cons, List.sum_cons, List.sum_cons, ← h]
        omega
      · rw [List.filter_cons_of_neg (by simpa using hq), List.filter_cons_of_neg (by simpa using hq), h]

/-- With room for all of them no attempt fails. -/
theorem initLoop_room (ho : Outstanding pl.target p.heap G) {r : Registry Builtin} (hr : r.drivers = builtinDrivers)
    (hc : ∀ dev ∈ r.devices, dev.Pending → dev.Complete pl) (hm : Room pl.target p.heap (remaining pl r.devices))
    (n iter : Nat) (status : DeviceStatus) :
    ∀ a ∈ (initLoop (Builtin.call pl) n iter (some p) r status).log, a.status = .ok := by
  induction n generalizing p G iter r status with
  | zero => exact fun a ha => absurd ha List.not_mem_nil
  | succ n ih =>
    unfold initLoop
    by_cases hiter : iter < r.devices.length
    · rw [if_pos hiter]
      rcases nextDevice_spec r.devices with ⟨e, -⟩ | ⟨j, dev, ks, e, hj, hp, -⟩
      · rw [e]
        exact fun a ha => absurd ha List.not_mem_nil
      rw [e]
      dsimp only
      obtain ⟨p₁, dev', hw, hset, hg, -⟩ := initDevice_opens ho hr hj
      obtain ⟨G₁, ho₁⟩ := hg.more
      -- what is left for the others does not depend on how the entry is marked
      have hleft := remaining_set pl hj hp (show { dev with initialized := true }.initialized = true from rfl)
      obtain ⟨p₁', hw', hs, hm₁⟩ := initDevice_room ho hr hj (hc dev (List.mem_of_getElem? hj) hp) (hleft ▸ hm)
      obtain rfl : p₁ = p₁' := Option.some.inj (hw.symm.trans hw')
      have hmarked : dev'.initialized = true := by
        obtain ⟨d, e, hd⟩ := initDevice_own (Builtin.call_own pl) (some p) hj
        have hsame := congrArg (·.devices[j]?) (hset.symm.trans e)
        have hlt := (List.getElem?_eq_some_iff.1 hj).1
        simp only [Registry.set_devices, List.getElem?_set_self hlt, Option.some.injEq] at hsame
        exact hsame ▸ hd hs
      have hleft' := remaining_set pl hj hp hmarked
      rw [hw, hset]
      refine List.forall_mem_cons.2 ⟨hs, ih ho₁ (r := r.set j dev') hr (fun d hd hpd => ?_) (hm₁.mono ?_) _ _⟩
      · rcases List.mem_or_eq_of_mem_set hd with hd | rfl
        · exact hc d hd hpd
        · rw [hpd.1] at hmarked
          cases hmarked
      · rw [Registry.set_devices]
        omega
    · rw [if_neg hiter]
      exact fun a ha => absurd ha List.not_mem_nil

theorem Builtin.call_keeps (pl : Platform) : FailuresKeep (Builtin.call pl) := by
  intro b w r i dev hi _
  rw [Builtin.call, onEntry_eq _ _ hi]
  refine ⟨_, List.getElem?_set_self (List.getElem?_eq_some_iff.1 hi).1, ?_⟩
  rcases Builtin.init_cases pl b w dev with ⟨w', st, e, -⟩ | ⟨w', -, e⟩
  · rw [e]
    exact ⟨rfl, rfl⟩
  · rw [e]
    exact ⟨rfl, rfl⟩

/-- Attempts that come in the order of the devices open a peripheral with the
configuration of the first device that it is for. -/
theorem findSome_first {log : List Attempt} {k : Builtin × Fin 4} {a : Attempt}
    (hlog : log.Pairwise fun a b => place devices a.device ≤ place devices b.device)
    (hfirst : ∀ j dev', devices[j]? = some dev' → dev'.For k → place devices a.device ≤ place devices j)
    (ha : a ∈ log) (hi : devices[a.device]? = some dev) (hs : a.status = .ok) (hf : dev.For k) :
    log.findSome? (opens pl devices k) = some (pl.config k.1 dev.platformData) := by
  have hopens : opens pl devices k a = some _ := opens_eq_some.2 ⟨hs, dev, hi, hf, rfl⟩
  cases e : log.findSome? (opens pl devices k) with
  | none =>
    rw [List.findSome?_eq_none_iff.1 e a ha] at hopens
    cases hopens
  | some c =>
    obtain ⟨pre, a₀, post, rfl, hc, hpre⟩ := List.findSome?_eq_some_iff.1 e
    -- the attempt found is for a device of the same peripheral, and not after this one
    have hle : place devices a₀.device ≤ place devices a.device := by
      rcases List.mem_append.1 ha with ha | ha
      · rw [hpre a ha] at hopens
        cases hopens
      · rcases List.mem_cons.1 ha with rfl | ha
        · exact le_refl _
        · exact (List.pairwise_cons.1 (List.pairwise_append.1 hlog).2.1).1 a ha
    obtain ⟨-, d, hd, hf', rfl⟩ := opens_eq_some.1 hc
    have hplace := le_antisymm hle (hfirst _ d hd hf')
    have hdev : a₀.device = a.device := (Prod.mk.inj (toLex.injective hplace)).2
    rw [hdev, hi] at hd
    rw [Option.some.inj hd]

end

/-- **Complete descriptions are all initialised.** In every reachable state of
the heap whose largest free block has room for the buffers of the UARTs,
`device_init_all` with the built-in drivers succeeds for devices that are all
described completely: each is initialised with the handle of its peripheral, a
peripheral has the configuration of the device that comes first by priority and
place among those for it, unless it was open before, and no other is opened. -/
theorem startup_complete (pl : Platform) (s : HeapSys) (hs : (allocSys pl.target).Reachable s) (p : Peripherals)
    (hp : p.heap = s.heap) (r : Registry Builtin)
    (hr : r.drivers = (deviceRegisterBuiltinDrivers deviceFrameworkInit).drivers)
    (hc : ∀ dev ∈ r.devices, dev.Complete pl) (stats st : MemoryStats)
    (hst : memoryGetStats pl.target p.heap (some stats) = some (some st))
    (hroom : (r.devices.map (Device.cost pl)).sum ≤ st.largestFreeBlock) :
    ∃ p', (deviceInitAll (Builtin.call pl) (some p) r).world = some p' ∧
      (deviceInitAll (Builtin.call pl) (some p) r).status = .ok ∧
      (∀ (j : Nat) (dev : Device), r.devices[j]? = some dev → ∃ k, dev.For k ∧
        (deviceInitAll (Builtin.call pl) (some p) r).registry.devices[j]? = some (dev.bound pl k)) ∧
      ∀ k,
        (∀ (j : Nat) (dev : Device), r.devices[j]? = some dev → dev.For k →
          (∀ (j' : Nat) (dev' : Device), r.devices[j']? = some dev' → dev'.For k →
            place r.devices j ≤ place r.devices j') →
          p'.config k = (p.config k).or (some (pl.config k.1 dev.platformData))) ∧
        ((∀ dev ∈ r.devices, ¬ dev.For k) → p'.config k = p.config k) := by
  obtain ⟨G, ho, -⟩ := ((accounted_inductive pl.target).reachable s hs).grants
  rw [← hp] at ho
  have hr := hr.trans registered_drivers
  have hown := Builtin.call_own pl
  have hleft : remaining pl r.devices = (r.devices.map (Device.cost pl)).sum := by
    rw [remaining, List.filter_eq_self.2 fun dev hd => decide_eq_true (hc dev hd).pending]
  -- no attempt fails, so nothing is left pending
  have hlog : ∀ a ∈ (deviceInitAll (Builtin.call pl) (some p) r).log, a.status = .ok :=
    initLoop_room ho hr (fun dev hd _ => hc dev hd) (room_of_stats ho hst (hleft ▸ hroom)) _ _ _
  have hok : (deviceInitAll (Builtin.call pl) (some p) r).status = .ok :=
    (deviceInitAll_run hown (some p) r).2.2.2 hlog
  have hnone := pending_of_ok hown hok
  obtain ⟨p', h⟩ : ∃ p', Started pl G p p' r.devices (deviceInitAll (Builtin.call pl) (some p) r) :=
    initLoop_started pl ho MAX_DEVICES 0 hr .ok
  have hbound : ∀ (j : Nat) (dev : Device), r.devices[j]? = some dev →
      ∃ k, dev.For k ∧ (deviceInitAll (Builtin.call pl) (some p) r).registry.devices[j]? = some (dev.bound pl k) ∧
        ∃ a ∈ (deviceInitAll (Builtin.call pl) (some p) r).log, a.device = j ∧ a.status = .ok := by
    intro j dev hj
    refine (h.bound j dev hj).resolve_left fun hd => ?_
    have hmem := mem_pending_of hd.1 (hc dev (List.mem_of_getElem? hj)).pending
    rw [hnone] at hmem
    exact Finset.notMem_empty _ hmem
  refine ⟨p', h.world, hok, fun j dev hj => ?_, fun k => ⟨fun j dev hj hf hfirst => ?_, fun hno => ?_⟩⟩
  · obtain ⟨k, hk, e, -⟩ := hbound j dev hj
    exact ⟨k, hk, e⟩
  · obtain ⟨-, -, -, a, ha, rfl, has⟩ := hbound j dev hj
    have hpairs := log_pairwise hown (Builtin.call_keeps pl) (some p) r
    rw [h.opened, findSome_first (hpairs.imp fun h => h.1) hfirst ha hj has hf]
  · rw [h.opened, List.findSome?_eq_none_iff.2 fun a _ => ?_, Option.or_none]
    cases e : opens pl r.devices k a with
    | none => rfl
    | some c =>
      obtain ⟨-, dev, hd, hf, -⟩ := opens_eq_some.1 e
      exact absurd hf (hno dev (List.mem_of_getElem? hd))

/-- The same bus and a UART. -/
def completeRegistry : Registry Builtin where
  drivers := builtinDrivers
  devices := [⟨some "clock", 0, some "i2c_driver", 64, 0, 20, false⟩,
    ⟨some "sensor", 0, some "i2c_driver", 128, 0, 10, false⟩,
    ⟨some "console", 1, some "uart_driver", 64, 0, 10, false⟩]
  drivers_le := by decide
  devices_le := by decide

theorem completeRegistry_complete : ∀ dev ∈ completeRegistry.devices, dev.Complete startupPlatform := by
  intro dev hd
  simp only [completeRegistry, List.mem_cons, List.not_mem_nil, or_false] at hd
  rcases hd with rfl | rfl | rfl
  · exact ⟨by decide, ⟨(.i2c, 0), by decide⟩, fun _ => by decide⟩
  · exact ⟨by decide, ⟨(.i2c, 0), by decide⟩, fun _ => by decide⟩
  · exact ⟨by decide, ⟨(.uart, 1), by decide⟩, fun _ => by decide⟩

/-- The sensor comes first on the bus. -/
theorem startup_complete_board : ∃ p',
    (deviceInitAll (Builtin.call startupPlatform) (some startupPeripherals) completeRegistry).world = some p' ∧
    (deviceInitAll (Builtin.call startupPlatform) (some startupPeripherals) completeRegistry).status = .ok ∧
    p'.config (.i2c, 0) = some (.i2c ⟨.fast, .addr7bit, false, 128⟩) ∧
    p'.config (.uart, 1) = some (.uart boardConfig) ∧ p'.config (.spi, 0) = none := by
  have hr : Represents board startupPeripherals.heap (.fresh board.dvd_header board.header_le_heap) :=
    init_represents (h := HeapState.static) rfl
  obtain ⟨p', hw, hok, -, hconfig⟩ := startup_complete startupPlatform (HeapSys.boot board) ⟨_, [], rfl, .nil _⟩
    startupPeripherals rfl completeRegistry rfl completeRegistry_complete startupPeripherals.heap.globalStats _
    (getStats_represents hr _) (by decide)
  refine ⟨p', hw, hok, ?_, ?_, ?_⟩
  · refine ((hconfig (.i2c, 0)).1 1 _ rfl (by decide) fun j dev hj hf => ?_).trans rfl
    match j, hj with
    | 0, _ => exact (Prod.Lex.toLex_le_toLex).2 (.inl (by decide))
    | 1, _ => exact le_refl _
    | 2, hj =>
      cases hj
      exact absurd hf (by decide)
  · refine ((hconfig (.uart, 1)).1 2 _ rfl (by decide) fun j dev hj hf => ?_).trans rfl
    match j, hj with
    | 0, hj =>
      cases hj
      exact absurd hf (by decide)
    | 1, hj =>
      cases hj
      exact absurd hf (by decide)
    | 2, _ => exact le_refl _
  · exact ((hconfig (.spi, 0)).2 (by decide)).trans rfl

end Rtos.Drivers
