import Rtos.Drivers.Builtin

/-!
# Two devices with one handle

A device has a unique name and a "device instance number", its `id`, by which
`device_get_by_driver_and_id` finds it. `device_register` compares names only,
so a second device of a driver is registered under an id that is taken. The
lookup by driver and id then returns the first of the two, and as the `init`
of a driver returns the entry of an instance that is initialised as it is, both
devices get the same handle, with the configuration of the first.

`lookups_agree_iff`: along every sequence of registrations the two lookups
agree, and no handle is shared, as long as no device is registered under the
driver name and id of another.
-/
namespace Rtos.Drivers

open Rtos.Heap

/-- The registries after `device_register_builtin_drivers`. -/
def builtinRegistry : Registry Builtin := deviceRegisterBuiltinDrivers deviceFrameworkInit

/-- Registrations of devices, `none` for NULL. -/
def deviceSys : LTS (Registry Builtin) (Option Device) :=
  LTS.ofFn (· = builtinRegistry) fun r dev => some (deviceRegister r dev).1

/-- Both lookups of a registered device return its own entry. -/
def LookupsAgree (r : Registry Builtin) : Prop :=
  ∀ i dev, r.devices[i]? = some dev →
    deviceGetByName r dev.name = some i ∧ deviceGetByDriverAndId r dev.driverName dev.id = some i

/-- Devices that `device_init_all` initialises get different handles. -/
def NoSharedHandle (pl : Platform) (r : Registry Builtin) : Prop :=
  ∀ w, ∀ a ∈ (deviceInitAll (Builtin.call pl) w r).log, ∀ b ∈ (deviceInitAll (Builtin.call pl) w r).log,
    a.status = .ok → b.status = .ok → a.device ≠ b.device →
      ((deviceInitAll (Builtin.call pl) w r).registry.devices[a.device]?).map (·.driverData) ≠
        ((deviceInitAll (Builtin.call pl) w r).registry.devices[b.device]?).map (·.driverData)

/-- A device that there is room for and whose name is new is the only one with
its driver name and id. -/
def NewInstance (r : Registry Builtin) (dev : Option Device) : Prop :=
  ∀ d, dev = some d → d.name ≠ none → d.driverName ≠ none → (∀ e ∈ r.devices, e.name ≠ d.name) →
    r.devices.length < MAX_DEVICES → ∀ e ∈ r.devices, ¬ (e.driverName = d.driverName ∧ e.id = d.id)

/-- What decides a device's handle. -/
def Device.key (dev : Device) : Option String × UInt8 := (dev.driverName, dev.id)

/-- Names and keys are not NULL and there is one device for each. -/
structure Keyed (r : Registry Builtin) : Prop where
  drivers : r.drivers = builtinDrivers
  names : (r.devices.map (·.name)).Nodup
  keys : (r.devices.map Device.key).Nodup
  nonNull : ∀ dev ∈ r.devices, dev.name ≠ none ∧ dev.driverName ≠ none

variable {pl : Platform} {r r' : Registry Builtin} {w : World} {dev : Device} {i : Nat}

/-! ## Registration -/

theorem deviceRegister_new (hn : dev.name ≠ none) (hd : dev.driverName ≠ none)
    (hname : ∀ e ∈ r.devices, e.name ≠ dev.name) (hroom : r.devices.length < MAX_DEVICES) :
    (deviceRegister r (some dev)).1.drivers = r.drivers ∧
      (deviceRegister r (some dev)).1.devices = r.devices ++ [dev] := by
  have hany : ¬ r.devices.any (·.name = dev.name) = true := by
    intro h
    obtain ⟨e, he, h⟩ := List.any_eq_true.1 h
    exact hname e he (of_decide_eq_true h)
  rw [deviceRegister, if_neg (by simp [hn, hd]), if_neg hany, dif_neg (Nat.not_le_of_lt hroom)]
  exact ⟨rfl, rfl⟩

/-- A registration changes nothing, or appends a device with a new name. -/
theorem deviceRegister_cases (r : Registry Builtin) (dev : Option Device) :
    (deviceRegister r dev).1 = r ∨
    ∃ d, dev = some d ∧ d.name ≠ none ∧ d.driverName ≠ none ∧ (∀ e ∈ r.devices, e.name ≠ d.name) ∧
      r.devices.length < MAX_DEVICES ∧ (deviceRegister r dev).1.drivers = r.drivers ∧
      (deviceRegister r dev).1.devices = r.devices ++ [d] := by
  cases dev with
  | none => exact .inl rfl
  | some d =>
    by_cases hnull : d.name = none ∨ d.driverName = none
    · exact .inl (by rw [deviceRegister, if_pos hnull])
    by_cases hname : r.devices.any (·.name = d.name) = true
    · exact .inl (by rw [deviceRegister, if_neg hnull, if_pos hname])
    by_cases hfull : r.devices.length ≥ MAX_DEVICES
    · exact .inl (by rw [deviceRegister, if_neg hnull, if_neg hname, dif_pos hfull])
    have hn : d.name ≠ none := fun h => hnull (.inl h)
    have hd : d.driverName ≠ none := fun h => hnull (.inr h)
    have hne : ∀ e ∈ r.devices, e.name ≠ d.name :=
      fun e he h => hname (List.any_eq_true.2 ⟨e, he, decide_eq_true h⟩)
    have hroom := Nat.lt_of_not_le hfull
    exact .inr ⟨d, rfl, hn, hd, hne, hroom, deviceRegister_new hn hd hne hroom⟩

theorem keyed_builtin : Keyed builtinRegistry where
  drivers := registered_drivers
  names := by rw [builtinRegistry, registered_devices]; exact List.nodup_nil
  keys := by rw [builtinRegistry, registered_devices]; exact List.nodup_nil
  nonNull dev h := by
    rw [builtinRegistry, registered_devices] at h
    exact absurd h List.not_mem_nil

/-- Registering a new instance keeps names and keys unique. -/
theorem Keyed.register (h : Keyed r) {dev : Option Device} (hnew : NewInstance r dev) :
    Keyed (deviceRegister r dev).1 := by
  rcases deviceRegister_cases r dev with e | ⟨d, rfl, hn, hd, hname, hroom, e, e'⟩
  · rw [e]
    exact h
  · refine ⟨e.trans h.drivers, ?_, ?_, ?_⟩ <;> rw [e']
    · rw [List.map_append, List.map_singleton, ← List.concat_eq_append, List.nodup_concat]
      refine ⟨fun hm => ?_, h.names⟩
      obtain ⟨e, he, hen⟩ := List.mem_map.1 hm
      exact hname e he hen
    · rw [List.map_append, List.map_singleton, ← List.concat_eq_append, List.nodup_concat]
      refine ⟨fun hm => ?_, h.keys⟩
      obtain ⟨e, he, hek⟩ := List.mem_map.1 hm
      exact hnew d rfl hn hd hname hroom e he (Prod.mk.inj hek)
    · intro dev hdev
      rcases List.mem_append.1 hdev with hdev | hdev
      · exact h.nonNull dev hdev
      · rw [List.mem_singleton.1 hdev]
        exact ⟨hn, hd⟩

/-! ## Lookups -/

/-- A scan for what only one entry has finds this entry. -/
theorem findIdx_of_nodup {α β : Type} {f : α → β} {l : List α} {x : α} {p : α → Bool}
    (hnodup : (l.map f).Nodup) (hi : l[i]? = some x) (hp : ∀ y, p y = true ↔ f y = f x) :
    l.findIdx? p = some i := by
  obtain ⟨hlt, hx⟩ := List.getElem?_eq_some_iff.1 hi
  rw [List.findIdx?_eq_some_iff_getElem]
  refine ⟨hlt, by rw [hx, hp], fun j hj hpj => ?_⟩
  have hjlt : j < l.length := by omega
  rw [hp] at hpj
  have hidx : j = i := by
    refine (List.getElem?_inj ?_ hnodup).1 ?_
    · rw [List.length_map]
      exact hjlt
    · rw [List.getElem?_map, List.getElem?_map, hi, List.getElem?_eq_getElem hjlt, Option.map_some,
        Option.map_some, hpj]
  omega

theorem Keyed.lookupsAgree (h : Keyed r) : LookupsAgree r := by
  intro i dev hi
  obtain ⟨hn, hd⟩ := h.nonNull dev (List.mem_of_getElem? hi)
  constructor
  · rw [deviceGetByName, if_neg hn]
    exact findIdx_of_nodup h.names hi fun y => decide_eq_true_iff
  · rw [deviceGetByDriverAndId, if_neg hd]
    refine findIdx_of_nodup h.keys hi fun y => ?_
    rw [decide_eq_true_iff, Device.key, Device.key, Prod.mk.injEq]

/-! ## Handles -/

/-- An attempt writes the entry of its device, whose key it keeps. -/
theorem initDevice_key (pl : Platform) (hd : r.drivers = builtinDrivers) (w : World) (hi : r.devices[i]? = some dev) :
    ∃ dev', (initDevice (Builtin.call pl) w r i dev).registry = r.set i dev' ∧ dev'.key = dev.key := by
  rcases initDevice_builtin pl hd w hi with ⟨-, e⟩ | ⟨b, -, ⟨w', st, -, -, e⟩ | ⟨w', -, -, e⟩⟩
  · rw [e]
    exact ⟨dev, (Registry.set_self hi).symm, rfl⟩
  · rw [e]
    exact ⟨dev, (Registry.set_self hi).symm, rfl⟩
  · rw [e]
    exact ⟨_, rfl, rfl⟩

/-- `device_init_all` leaves the keys of the devices. -/
theorem keys_kept (pl : Platform) (hd : r.drivers = builtinDrivers) (w : World) :
    (deviceInitAll (Builtin.call pl) w r).registry.devices.map Device.key = r.devices.map Device.key := by
  have hown := Builtin.call_own pl
  obtain ⟨hstate, -, -⟩ := deviceInitAll_run hown w r
  rw [show (deviceInitAll (Builtin.call pl) w r).registry = _ from congrArg Prod.snd hstate]
  refine (LeastFirst.run_keeps (M := worklist hown) (P := fun _ => True)
    (I := fun s => s.2.drivers = builtinDrivers ∧ s.2.devices.map Device.key = r.devices.map Device.key) ?_ ⟨hd, rfl⟩
    fun _ _ => trivial).2
  intro s k hs hk _
  refine ⟨(attemptDevice_drivers hown s k).trans hs.1, ?_⟩
  obtain ⟨⟨q, j⟩, rfl⟩ := toLex.surjective k
  obtain ⟨dev, hj, -, -⟩ := mem_pending.1 hk
  obtain ⟨dev', e, hkey⟩ := initDevice_key pl hs.1 s.1 hj
  rw [show (worklist hown).attempt s (toLex (q, j)) = _ from attemptDevice_eq _ q hj, ← hs.2]
  dsimp only
  rw [e, Registry.set_devices, List.map_set, hkey]
  apply List.ext_getElem?
  intro i
  by_cases hij : i = j
  · rw [hij, List.getElem?_set_self (by rw [List.length_map]; exact (List.getElem?_eq_some_iff.1 hj).1),
      List.getElem?_map, hj, Option.map_some]
  · rw [List.getElem?_set_ne (Ne.symm hij)]

/-- Initialised, with the handle of its driver and id. -/
def Handled (pl : Platform) (dev : Device) : Prop :=
  dev.initialized = true ∧ ∃ b : Builtin, dev.driverName = some b.name ∧ dev.id.toNat < 4 ∧
    dev.driverData = pl.handle b dev.id.toNat

/-- A device that was initialised has the handle of its driver and id. -/
theorem handle_of_ok (hd : r.drivers = builtinDrivers) {a : Attempt}
    (ha : a ∈ (deviceInitAll (Builtin.call pl) w r).log) (hs : a.status = .ok) :
    ∃ dev, (deviceInitAll (Builtin.call pl) w r).registry.devices[a.device]? = some dev ∧ Handled pl dev := by
  refine achieved_of_ok (Builtin.call_own pl) (fun _ h => h.1) (fun w r' i dev hr hi hok => ?_) ha hs
  rcases initDevice_builtin pl (hr.trans hd) w hi with ⟨-, e⟩ | ⟨b, hn, ⟨w', st, -, hst, e⟩ | ⟨w', hlt, -, e⟩⟩
  · rw [e] at hok
    cases hok
  · rw [e] at hok
    exact absurd hok hst
  · rw [e]
    exact ⟨_, List.getElem?_set_self (List.getElem?_eq_some_iff.1 hi).1, rfl, b, hn, hlt, rfl⟩

theorem Keyed.noSharedHandle (h : Keyed r) : NoSharedHandle pl r := by
  intro w a ha b hb hsa hsb hne heq
  obtain ⟨d, hd, -, c, hc, hlt, hdata⟩ := handle_of_ok h.drivers ha hsa
  obtain ⟨d', hd', -, c', hc', hlt', hdata'⟩ := handle_of_ok h.drivers hb hsb
  rw [hd, hd', Option.map_some, Option.map_some, Option.some.injEq, hdata, hdata'] at heq
  obtain ⟨hcc, hid⟩ := pl.handle_inj _ _ _ _ hlt hlt' heq
  -- one driver and one id, so one device
  have hkey : d.key = d'.key := by
    rw [Device.key, Device.key, hc, hc', hcc, UInt8.toNat_inj.1 hid]
  have hnodup : ((deviceInitAll (Builtin.call pl) w r).registry.devices.map Device.key).Nodup := by
    rw [keys_kept pl h.drivers]
    exact h.keys
  apply hne
  refine (List.getElem?_inj ?_ hnodup).1 ?_
  · rw [List.length_map]
    exact (List.getElem?_eq_some_iff.1 hd).1
  · rw [List.getElem?_map, List.getElem?_map, hd, hd', Option.map_some, Option.map_some, hkey]

/-! ## The condition -/

/-- A second device under one key would not be found by it. -/
theorem newInstance_of_agree {dev : Option Device} (hagree : LookupsAgree (deviceRegister r dev).1) :
    NewInstance r dev := by
  rintro d rfl hn hd hname hroom e he hkey
  have hdevices := (deviceRegister_new hn hd hname hroom).2
  have hlast := (hagree r.devices.length d (by rw [hdevices]; simp)).2
  rw [deviceGetByDriverAndId, if_neg hd, hdevices, List.findIdx?_eq_some_iff_getElem] at hlast
  obtain ⟨hlt, -, hbefore⟩ := hlast
  obtain ⟨j, hj, rfl⟩ := List.getElem_of_mem he
  apply hbefore j hj
  rw [List.getElem_append_left hj]
  exact decide_eq_true hkey

/-- **When the two lookups agree**: along every sequence of registrations, as
long as each device that is accepted is a new instance of its driver, they
return the device's own entry and no handle is shared. -/
theorem lookups_agree_iff (pl : Platform) (devs : List (Option Device)) :
    deviceSys.Always (fun r => LookupsAgree r ∧ NoSharedHandle pl r) builtinRegistry devs ↔
      deviceSys.Steps NewInstance builtinRegistry devs := by
  refine LTS.always_iff_steps (I := Keyed) (fun r h => ⟨h.lookupsAgree, h.noSharedHandle⟩) ?_ ?_ devs _
    keyed_builtin
  · intro r dev r' h hnew hs
    cases hs
    exact h.register hnew
  · intro r dev r' h hnew hs hall
    cases hs
    exact hnew (newInstance_of_agree hall.1)

/-- A platform on which the handles lie one after the other. -/
def boardPlatform : Platform where
  target := board
  uartConfig _ := boardConfig
  i2cConfig _ := ⟨.standard, .addr7bit, false, 100⟩
  spiConfig _ := ⟨.mode0, .low, false⟩
  handle
    | .uart, i => 4096 + i
    | .i2c, i => 4100 + i
    | .spi, i => 4104 + i
  handle_inj b c i j hi hj h := by
    cases b <;> cases c <;> first | exact ⟨rfl, Nat.add_left_cancel h⟩ | (dsimp only at h; omega)

def boardPeripherals : Peripherals where
  heap := (HeapSys.boot board).heap
  uarts := boardUarts
  i2cs _ := ⟨0, ⟨.standard, .addr7bit, false, 100⟩, false, false⟩
  spis _ := ⟨0, ⟨.mode0, .low, false⟩, false, false⟩

/-- Two UARTs under one id. -/
def boardDevices : List (Option Device) :=
  [some ⟨some "uart_0", 0, some "uart_driver", 64, 0, 10, false⟩,
    some ⟨some "console", 0, some "uart_driver", 128, 0, 20, false⟩]

/-- Both are registered and initialised, and share the handle of the first. -/
theorem handle_shared : ∃ r, deviceSys.Run builtinRegistry boardDevices r ∧
    ¬ LookupsAgree r ∧ ¬ NoSharedHandle boardPlatform r := by
  have hrun : deviceSys.Run builtinRegistry boardDevices
      (boardDevices.foldl (fun r dev => (deviceRegister r dev).1) builtinRegistry) :=
    .cons rfl (.cons rfl (.nil _))
  refine ⟨_, hrun, fun h => ?_, fun h => ?_⟩
  · have h1 := (h 1 ⟨some "console", 0, some "uart_driver", 128, 0, 20, false⟩ (by decide +kernel)).2
    exact absurd h1 (by decide +kernel)
  · exact absurd (h (some boardPeripherals) ⟨0, true, .ok⟩ (by decide +kernel) ⟨1, true, .ok⟩ (by decide +kernel)
      rfl rfl (by decide)) (by decide +kernel)

end Rtos.Drivers
