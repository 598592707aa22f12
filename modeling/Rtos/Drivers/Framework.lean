import Mathlib.Data.Prod.Lex
import Rtos.Core.LTS
import Rtos.Core.LeastFirst

/-!
# src/driver_framework.c: the registries and `device_init_all`

A string is `none` for NULL; entries with a NULL name are not registered, so
`strcmp` compares two strings. `F` are the callbacks that pointers may point
at, and what they do is a parameter `call`: they act on both registries, which
they reach through this interface, and on a `W` of their own. `printf` output
is left out, but for what `device_init_all` reports of each device it selects
(`Attempt`).

If the callbacks write no entry but their own device's (`OwnEntry`),
`device_init_all` is a loop that takes the least device first (`worklist`,
`initLoop_run`), where devices are ordered by `init_priority` and then by their
place in the registry.
-/
namespace Rtos.Drivers

/-- mirrors include/driver_framework.h:26-32 -/
inductive DeviceStatus where
  | ok | error | notFound | alreadyInitialized | invalidParam
  deriving DecidableEq, Repr

/-- mirrors include/driver_framework.h:46-54 -/
structure Device where
  name : Option String
  id : UInt8
  driverName : Option String
  platformData : Nat
  driverData : Nat
  initPriority : UInt8
  initialized : Bool
  deriving DecidableEq, Repr

/-- `init` points at one of the callbacks `F`; `deinit` is never called.
mirrors include/driver_framework.h:81-85 -/
structure Driver (F : Type) where
  name : Option String
  init : Option F

/-- mirrors src/driver_framework.c:15-16 -/
abbrev MAX_DRIVERS : Nat := 16
abbrev MAX_DEVICES : Nat := 32

/-- mirrors src/driver_framework.c:20-24 -/
structure Registry (F : Type) where
  drivers : List (Driver F)
  devices : List Device
  drivers_le : drivers.length ≤ MAX_DRIVERS
  devices_le : devices.length ≤ MAX_DEVICES

section

variable {F : Type}

/-- mirrors src/driver_framework.c:200-206 -/
def deviceFrameworkInit : Registry F := ⟨[], [], Nat.zero_le _, Nat.zero_le _⟩

/-- mirrors src/driver_framework.c:28-51 -/
def driverRegister (r : Registry F) (driver : Option (Driver F)) : Registry F × DeviceStatus :=
  match driver with
  | none => (r, .invalidParam)
  | some driver =>
    if driver.name = none then (r, .invalidParam)
    else if r.drivers.any (·.name = driver.name) then (r, .alreadyInitialized)
    else if h : r.drivers.length ≥ MAX_DRIVERS then (r, .error)
    else
      ({ r with
        drivers := r.drivers ++ [driver]
        drivers_le := by rw [List.length_append]; exact Nat.lt_of_not_le h }, .ok)

/-- mirrors src/driver_framework.c:53-65 -/
def driverLookup (drivers : List (Driver F)) (name : Option String) : Option (Driver F) :=
  if name = none then none else drivers.find? (·.name = name)

/-- mirrors src/driver_framework.c:69-92 -/
def deviceRegister (r : Registry F) (dev : Option Device) : Registry F × DeviceStatus :=
  match dev with
  | none => (r, .invalidParam)
  | some dev =>
    if dev.name = none ∨ dev.driverName = none then (r, .invalidParam)
    else if r.devices.any (·.name = dev.name) then (r, .alreadyInitialized)
    else if h : r.devices.length ≥ MAX_DEVICES then (r, .error)
    else
      ({ r with
        devices := r.devices ++ [dev]
        devices_le := by rw [List.length_append]; exact Nat.lt_of_not_le h }, .ok)

/-- The index of the entry that is returned, `none` for NULL.
mirrors src/driver_framework.c:94-106 -/
def deviceGetByName (r : Registry F) (name : Option String) : Option Nat :=
  if name = none then none else r.devices.findIdx? (·.name = name)

/-- mirrors src/driver_framework.c:108-121 -/
def deviceGetByDriverAndId (r : Registry F) (driverName : Option String) (id : UInt8) : Option Nat :=
  if driverName = none then none
  else r.devices.findIdx? fun dev => dev.driverName = driverName ∧ dev.id = id

/-- The scan for the next device; `next` is what `min_index` and `next_dev`
hold.
mirrors src/driver_framework.c:156-163 -/
def selectLoop : List Device → Nat → UInt8 → Option (Nat × Device) → Option (Nat × Device)
  | [], _, _, next => next
  | dev :: devices, i, minPriority, next =>
    if !dev.initialized ∧ dev.initPriority < minPriority then
      selectLoop devices (i + 1) dev.initPriority (some (i, dev))
    else selectLoop devices (i + 1) minPriority next

/-- mirrors src/driver_framework.c:151-163 -/
def nextDevice (devices : List Device) : Option (Nat × Device) := selectLoop devices 0 255 none

/-- `device_registry[i].initialized = true` -/
def Registry.mark (r : Registry F) (i : Nat) : Registry F :=
  { r with
    devices := r.devices.modify i fun dev => { dev with initialized := true }
    devices_le := by rw [List.length_modify]; exact r.devices_le }

end

/-- The callback gets the index of the registry entry of its device.
mirrors include/driver_framework.h:67 -/
abbrev DriverInit (F W : Type) := W → Registry F → Nat → W × Registry F × DeviceStatus

/-- What becomes of a selected device; `called`: its driver's `init` was called. -/
structure Initialization (F W : Type) where
  world : W
  registry : Registry F
  called : Bool
  status : DeviceStatus

/-- What is reported of a device that was selected: its index, whether `init`
was called, and how it went. -/
structure Attempt where
  device : Nat
  called : Bool
  status : DeviceStatus
  deriving DecidableEq, Repr

structure InitRun (F W : Type) where
  world : W
  registry : Registry F
  status : DeviceStatus
  log : List Attempt

section

variable {F W : Type} (call : F → DriverInit F W)

/-- mirrors src/driver_framework.c:169-192 -/
def initDevice (w : W) (r : Registry F) (minIndex : Nat) (nextDev : Device) : Initialization F W :=
  match driverLookup r.drivers nextDev.driverName with
  | none => ⟨w, r, false, .notFound⟩
  | some driver =>
    match driver.init with
    | none => ⟨w, r.mark minIndex, false, .ok⟩
    | some init =>
      match call init w r minIndex with
      | (w, r, devStatus) =>
        if devStatus ≠ .ok then ⟨w, r, true, devStatus⟩ else ⟨w, r.mark minIndex, true, .ok⟩

/-- The loop over `iter` with at most `n` iterations left; `device_count` is
read again before each.
mirrors src/driver_framework.c:150-193 -/
def initLoop : Nat → Nat → W → Registry F → DeviceStatus → InitRun F W
  | 0, _, w, r, status => ⟨w, r, status, []⟩
  | n + 1, iter, w, r, status =>
    if iter < r.devices.length then
      match nextDevice r.devices with
      | none => ⟨w, r, status, []⟩
      | some (i, dev) =>
        let x := initDevice call w r i dev
        let status := if x.status ≠ .ok then x.status else status
        let rest := initLoop n (iter + 1) x.world x.registry status
        { rest with log := ⟨i, x.called, x.status⟩ :: rest.log }
    else ⟨w, r, status, []⟩

/-- `device_count` is at most `MAX_DEVICES`, and so are the iterations.
mirrors src/driver_framework.c:144-196 -/
def deviceInitAll (w : W) (r : Registry F) : InitRun F W := initLoop call MAX_DEVICES 0 w r .ok

end

/-- The calls that build the registries. -/
inductive RegistryCall (F : Type) where
  | driver (driver : Option (Driver F))
  | device (dev : Option Device)

def registryCall {F : Type} (r : Registry F) : RegistryCall F → Registry F
  | .driver driver => (driverRegister r driver).1
  | .device dev => (deviceRegister r dev).1

/-- The registries from `device_framework_init` on. -/
def registrySys (F : Type) : LTS (Registry F) (RegistryCall F) where
  init r := r = deviceFrameworkInit
  step r c r' := registryCall r c = r'

theorem registrySys_run {F : Type} (r : Registry F) (cs : List (RegistryCall F)) :
    (registrySys F).Run r cs (cs.foldl registryCall r) := by
  induction cs generalizing r with
  | nil => exact .nil r
  | cons c cs ih => exact .cons rfl (ih (registryCall r c))

/-! ## The devices that wait for initialisation -/

/-- Not initialised, and of a priority the scan can select. -/
def Device.Pending (dev : Device) : Prop := dev.initialized = false ∧ dev.initPriority < 255

instance (dev : Device) : Decidable dev.Pending := inferInstanceAs (Decidable (_ ∧ _))

/-- A device by its priority and its place in the registry. -/
def pending (devices : List Device) : Finset (Nat ×ₗ Nat) :=
  ((devices.zipIdx.filter (·.1.Pending)).map fun e => toLex (e.1.initPriority.toNat, e.2)).toFinset

variable {devices : List Device} {dev dev' : Device} {i j p : Nat}

theorem mem_pending : toLex (p, i) ∈ pending devices ↔
    ∃ dev, devices[i]? = some dev ∧ dev.Pending ∧ dev.initPriority.toNat = p := by
  simp only [pending, List.mem_toFinset, List.mem_map, List.mem_filter, Prod.exists,
    List.mem_zipIdx_iff_getElem?, decide_eq_true_eq, EmbeddingLike.apply_eq_iff_eq, Prod.mk.injEq]
  constructor
  · rintro ⟨dev, j, ⟨hj, hp⟩, he, rfl⟩
    exact ⟨dev, hj, hp, he⟩
  · rintro ⟨dev, hj, hp, he⟩
    exact ⟨dev, i, ⟨hj, hp⟩, he, rfl⟩

theorem mem_pending_of (hi : devices[i]? = some dev) (hp : dev.Pending) :
    toLex (dev.initPriority.toNat, i) ∈ pending devices := mem_pending.2 ⟨dev, hi, hp, rfl⟩

theorem pending_card_le (devices : List Device) : (pending devices).card ≤ devices.length := by
  apply (List.toFinset_card_le _).trans
  rw [List.length_map, ← List.length_zipIdx (l := devices)]
  exact List.length_filter_le _ _

/-- Writing an entry concerns the items of that entry only. -/
theorem mem_pending_set_ne (h : j ≠ i) : toLex (p, j) ∈ pending (devices.set i dev') ↔
    toLex (p, j) ∈ pending devices := by
  rw [mem_pending, mem_pending, List.getElem?_set_ne h.symm]

theorem mem_pending_set_self (hi : devices[i]? = some dev) : toLex (p, i) ∈ pending (devices.set i dev') ↔
    dev'.Pending ∧ dev'.initPriority.toNat = p := by
  have hlt : i < devices.length := (List.getElem?_eq_some_iff.1 hi).1
  rw [mem_pending, List.getElem?_set_self hlt]
  constructor
  · rintro ⟨d, hd, hp, he⟩
    cases hd
    exact ⟨hp, he⟩
  · rintro ⟨hp, he⟩
    exact ⟨dev', rfl, hp, he⟩

/-- An initialised entry has no item left. -/
theorem pending_set_initialized (hi : devices[i]? = some dev) (hp : dev.initPriority.toNat = p)
    (h : dev'.initialized = true) : pending (devices.set i dev') = (pending devices).erase (toLex (p, i)) := by
  ext k
  obtain ⟨⟨q, j⟩, rfl⟩ := toLex.surjective k
  rw [Finset.mem_erase]
  by_cases hj : j = i
  · subst hj
    rw [mem_pending_set_self hi]
    refine iff_of_false (fun hd => ?_) (fun hd => ?_)
    · have h1 := hd.1.1
      rw [h] at h1
      cases h1
    · obtain ⟨d, hd1, -, rfl⟩ := mem_pending.1 hd.2
      rw [hi] at hd1
      cases hd1
      exact hd.1 (by rw [hp])
  · rw [mem_pending_set_ne hj]
    refine (and_iff_right ?_).symm
    intro e
    exact hj (Prod.mk.inj (toLex.injective e)).2

/-- An entry that keeps its flag and its priority keeps its item. -/
theorem pending_set_kept (hi : devices[i]? = some dev) (hinit : dev'.initialized = dev.initialized)
    (hprio : dev'.initPriority = dev.initPriority) : pending (devices.set i dev') = pending devices := by
  ext k
  obtain ⟨⟨q, j⟩, rfl⟩ := toLex.surjective k
  by_cases hj : j = i
  · subst hj
    rw [mem_pending_set_self hi, mem_pending, Device.Pending, hinit, hprio]
    constructor
    · rintro ⟨hp, he⟩
      exact ⟨dev, hi, hp, he⟩
    · rintro ⟨d, hd, hp, he⟩
      rw [hi] at hd
      cases hd
      exact ⟨hp, he⟩
  · exact mem_pending_set_ne hj

/-! ## The scan -/

/-- No device before this one in the order is uninitialised. -/
def Least (devices : List Device) (i : Nat) (dev : Device) : Prop :=
  ∀ j dev', devices[j]? = some dev' → dev'.initialized = false →
    dev.initPriority.toNat < dev'.initPriority.toNat ∨
      dev.initPriority.toNat = dev'.initPriority.toNat ∧ i ≤ j

theorem least_zero (h : ∀ dev' ∈ devices, dev'.initialized = false → dev.initPriority.toNat ≤ dev'.initPriority.toNat) :
    Least (dev :: devices) 0 dev := by
  intro j dev' hj hi
  cases j with
  | zero =>
    cases hj
    exact .inr ⟨rfl, Nat.le_refl 0⟩
  | succ j =>
    have hle := h dev' (List.mem_of_getElem? hj) hi
    omega

theorem least_succ (hd : dev'.initialized = false → dev.initPriority.toNat < dev'.initPriority.toNat)
    (h : Least devices i dev) : Least (dev' :: devices) (i + 1) dev := by
  intro j d hj hi
  cases j with
  | zero =>
    cases hj
    exact .inl (hd hi)
  | succ j =>
    have hle := h j d hj hi
    omega

/-- The scan keeps what it has, or finds the least device if its priority is
below the one it has. -/
theorem selectLoop_spec (devices : List Device) (i : Nat) (minPriority : UInt8) (next : Option (Nat × Device)) :
    (selectLoop devices i minPriority next = next ∧
      ∀ dev ∈ devices, dev.initialized = false → minPriority.toNat ≤ dev.initPriority.toNat) ∨
    ∃ j dev, selectLoop devices i minPriority next = some (i + j, dev) ∧ devices[j]? = some dev ∧
      dev.initialized = false ∧ dev.initPriority.toNat < minPriority.toNat ∧ Least devices j dev := by
  induction devices generalizing i minPriority next with
  | nil => exact .inl ⟨rfl, fun dev h => absurd h List.not_mem_nil⟩
  | cons d devices ih =>
    unfold selectLoop
    by_cases hd : !d.initialized ∧ d.initPriority < minPriority
    · right
      have hi : d.initialized = false := by simpa using hd.1
      have hlt : d.initPriority.toNat < minPriority.toNat := hd.2
      rw [if_pos hd]
      rcases ih (i + 1) d.initPriority (some (i, d)) with ⟨e, hle⟩ | ⟨j, dev, e, hj, hi', hlt', hmin⟩
      · exact ⟨0, d, e, rfl, hi, hlt, least_zero hle⟩
      · refine ⟨j + 1, dev, ?_, hj, hi', hlt'.trans hlt, least_succ (fun _ => hlt') hmin⟩
        rw [e, Nat.add_assoc, Nat.add_comm 1 j]
    · -- the first device is no candidate, or not below what the scan has
      have hd' : d.initialized = false → minPriority.toNat ≤ d.initPriority.toNat := by
        intro h
        rw [h] at hd
        exact Nat.not_lt.1 fun hlt => hd ⟨rfl, hlt⟩
      rw [if_neg hd]
      rcases ih (i + 1) minPriority next with ⟨e, hle⟩ | ⟨j, dev, e, hj, hi', hlt', hmin⟩
      · exact .inl ⟨e, List.forall_mem_cons.2 ⟨hd', hle⟩⟩
      · refine .inr ⟨j + 1, dev, ?_, hj, hi', hlt', least_succ (fun h => hlt'.trans_le (hd' h)) hmin⟩
        rw [e, Nat.add_assoc, Nat.add_comm 1 j]

/-- The scan finds the first of the pending devices in their order. -/
theorem nextDevice_spec (devices : List Device) :
    (nextDevice devices = none ∧ (pending devices).sort = []) ∨
    ∃ i dev ks, nextDevice devices = some (i, dev) ∧ devices[i]? = some dev ∧ dev.Pending ∧
      (pending devices).sort = toLex (dev.initPriority.toNat, i) :: ks := by
  rcases selectLoop_spec devices 0 255 none with ⟨e, hle⟩ | ⟨i, dev, e, hi, h0, hlt, hmin⟩
  · refine .inl ⟨e, ?_⟩
    have hempty : pending devices = ∅ := by
      refine Finset.eq_empty_of_forall_notMem fun k hk => ?_
      obtain ⟨⟨q, j⟩, rfl⟩ := toLex.surjective k
      obtain ⟨dev, hj, hp, -⟩ := mem_pending.1 hk
      exact absurd (hle dev (List.mem_of_getElem? hj) hp.1) (Nat.not_le.2 hp.2)
    rw [hempty, Finset.sort_empty]
  · rw [Nat.zero_add] at e
    have hp : dev.Pending := ⟨h0, hlt⟩
    refine .inr ⟨i, dev, _, e, hi, hp, LeastFirst.sort_of_least (mem_pending_of hi hp) ?_⟩
    intro k hk
    obtain ⟨⟨q, j⟩, rfl⟩ := toLex.surjective k
    obtain ⟨dev', hj, hp', rfl⟩ := mem_pending.1 hk
    exact Prod.Lex.toLex_le_toLex.2 (hmin j dev' hj hp'.1)

/-! ## One device -/

section

variable {F W : Type} {call : F → DriverInit F W} {drivers : List (Driver F)} {w : W} {r : Registry F}

theorem driverLookup_mem {name : Option String} {driver : Driver F}
    (h : driverLookup drivers name = some driver) : driver ∈ drivers := by
  unfold driverLookup at h
  split at h
  · cases h
  · exact List.mem_of_find?_eq_some h

theorem driverLookup_name {name : Option String} {driver : Driver F}
    (h : driverLookup drivers name = some driver) : driver.name = name := by
  unfold driverLookup at h
  split at h
  · cases h
  · have hname := List.find?_some h
    exact of_decide_eq_true hname

/-- There is no driver, or it has no `init`, or its `init` succeeds or fails. -/
theorem initDevice_cases (call : F → DriverInit F W) (w : W) (r : Registry F) (i : Nat) (dev : Device) :
    initDevice call w r i dev = ⟨w, r, false, .notFound⟩ ∨
    ∃ driver, driverLookup r.drivers dev.driverName = some driver ∧
      (driver.init = none ∧ initDevice call w r i dev = ⟨w, r.mark i, false, .ok⟩ ∨
      ∃ init, driver.init = some init ∧
        ((call init w r i).2.2 = .ok ∧ initDevice call w r i dev =
            ⟨(call init w r i).1, (call init w r i).2.1.mark i, true, .ok⟩ ∨
          (call init w r i).2.2 ≠ .ok ∧ initDevice call w r i dev =
            ⟨(call init w r i).1, (call init w r i).2.1, true, (call init w r i).2.2⟩)) := by
  unfold initDevice
  cases driverLookup r.drivers dev.driverName with
  | none => exact .inl rfl
  | some driver =>
    refine .inr ⟨driver, rfl, ?_⟩
    dsimp only
    cases driver.init with
    | none => exact .inl ⟨rfl, rfl⟩
    | some init =>
      refine .inr ⟨init, rfl, ?_⟩
      dsimp only
      by_cases hs : (call init w r i).2.2 = .ok
      · exact .inl ⟨hs, if_neg (not_not.2 hs)⟩
      · exact .inr ⟨hs, if_pos hs⟩

/-- One entry is written. -/
def Registry.set (r : Registry F) (i : Nat) (dev : Device) : Registry F :=
  { r with
    devices := r.devices.set i dev
    devices_le := by rw [List.length_set]; exact r.devices_le }

@[simp] theorem Registry.set_drivers (r : Registry F) (i : Nat) (dev : Device) :
    (r.set i dev).drivers = r.drivers := rfl

@[simp] theorem Registry.set_devices (r : Registry F) (i : Nat) (dev : Device) :
    (r.set i dev).devices = r.devices.set i dev := rfl

@[ext] theorem Registry.ext {r r' : Registry F} (hdrivers : r.drivers = r'.drivers)
    (hdevices : r.devices = r'.devices) : r = r' := by
  cases r
  cases r'
  cases hdrivers
  cases hdevices
  rfl

theorem Registry.mark_eq (hi : r.devices[i]? = some dev) : r.mark i = r.set i { dev with initialized := true } := by
  have : Inhabited Device := ⟨dev⟩
  refine Registry.ext rfl ((List.modify_eq_set ..).trans ?_)
  rw [hi]
  rfl

theorem Registry.set_self (hi : r.devices[i]? = some dev) : r.set i dev = r := by
  obtain ⟨hlt, rfl⟩ := List.getElem?_eq_some_iff.1 hi
  exact Registry.ext rfl (List.set_getElem_self hlt)

theorem Registry.mark_set (hi : r.devices[i]? = some dev) (dev' : Device) :
    (r.set i dev').mark i = r.set i { dev' with initialized := true } := by
  rw [Registry.mark_eq (List.getElem?_set_self (List.getElem?_eq_some_iff.1 hi).1)]
  exact Registry.ext rfl (List.set_set ..)

/-- **What a callback is for** (include/driver_framework.h:56-66): of the two
registries it writes no more than the entry of its own device. -/
def OwnEntry (call : F → DriverInit F W) : Prop :=
  ∀ f w r i dev, r.devices[i]? = some dev → ∃ dev', (call f w r i).2.1 = r.set i dev'

/-- A callback that fails leaves the flag and the priority of its device. -/
def FailuresKeep (call : F → DriverInit F W) : Prop :=
  ∀ f w r i dev, r.devices[i]? = some dev → (call f w r i).2.2 ≠ .ok →
    ∃ dev', (call f w r i).2.1.devices[i]? = some dev' ∧
      dev'.initialized = dev.initialized ∧ dev'.initPriority = dev.initPriority

/-- An attempt writes one entry, and success marks it. -/
theorem initDevice_own (hown : OwnEntry call) (w : W) (hi : r.devices[i]? = some dev) :
    ∃ dev', (initDevice call w r i dev).registry = r.set i dev' ∧
      ((initDevice call w r i dev).status = .ok → dev'.initialized = true) := by
  rcases initDevice_cases call w r i dev with e | ⟨driver, -, ⟨-, e⟩ | ⟨init, -, ⟨-, e⟩ | ⟨hs, e⟩⟩⟩
  · rw [e]
    exact ⟨dev, (Registry.set_self hi).symm, fun h => by cases h⟩
  · rw [e]
    exact ⟨_, Registry.mark_eq hi, fun _ => rfl⟩
  · rw [e]
    obtain ⟨dev', e'⟩ := hown init w r i dev hi
    rw [e']
    exact ⟨_, Registry.mark_set hi dev', fun _ => rfl⟩
  · rw [e]
    obtain ⟨dev', e'⟩ := hown init w r i dev hi
    exact ⟨dev', e', fun h => absurd h hs⟩

/-- An attempt that fails keeps flag and priority. -/
theorem initDevice_fail (hkeep : FailuresKeep call) (hi : r.devices[i]? = some dev)
    (h : (initDevice call w r i dev).status ≠ .ok) :
    ∃ dev', (initDevice call w r i dev).registry.devices[i]? = some dev' ∧
      dev'.initialized = dev.initialized ∧ dev'.initPriority = dev.initPriority := by
  rcases initDevice_cases call w r i dev with e | ⟨driver, -, ⟨-, e⟩ | ⟨init, -, ⟨-, e⟩ | ⟨hs, e⟩⟩⟩
  · rw [e]
    exact ⟨dev, hi, rfl, rfl⟩
  · rw [e] at h
    exact absurd rfl h
  · rw [e] at h
    exact absurd rfl h
  · rw [e]
    exact hkeep init w r i dev hi hs

/-! ## Callbacks that are given their device only -/

/-- What such a callback makes of the device. -/
abbrev DeviceInit (W : Type) := W → Device → W × Device × DeviceStatus

/-- The callback reads and writes the entry that it is given. -/
def onEntry (init : DeviceInit W) : DriverInit F W := fun w r i =>
  match r.devices[i]? with
  | none => (w, r, .error)
  | some dev => ((init w dev).1, r.set i (init w dev).2.1, (init w dev).2.2)

theorem onEntry_eq (init : DeviceInit W) (w : W) (hi : r.devices[i]? = some dev) :
    onEntry init w r i = ((init w dev).1, r.set i (init w dev).2.1, (init w dev).2.2) := by
  rw [onEntry, hi]

theorem onEntry_own (init : F → DeviceInit W) : OwnEntry fun f => onEntry (init f) := by
  intro f w r i dev hi
  exact ⟨_, congrArg (·.2.1) (onEntry_eq (init f) w hi)⟩

end

/-! ## The loop takes the least device first -/

section

variable {F W : Type} {call : F → DriverInit F W} {w : W} {r : Registry F}

/-- A pending device is attempted. -/
def attemptDevice (call : F → DriverInit F W) (s : W × Registry F) (k : Nat ×ₗ Nat) : (W × Registry F) × Bool :=
  match s.2.devices[(ofLex k).2]? with
  | none => (s, false)
  | some dev =>
    let x := initDevice call s.1 s.2 (ofLex k).2 dev
    ((x.world, x.registry), x.status = .ok)

theorem attemptDevice_eq (call : F → DriverInit F W) (p : Nat) {s : W × Registry F} (hi : s.2.devices[i]? = some dev) :
    attemptDevice call s (toLex (p, i)) =
      (((initDevice call s.1 s.2 i dev).world, (initDevice call s.1 s.2 i dev).registry),
        decide ((initDevice call s.1 s.2 i dev).status = .ok)) := by
  show (match s.2.devices[i]? with | none => _ | some dev => _) = _
  rw [hi]
  rfl

/-- The pending devices, attempted by `initDevice`. -/
def worklist (hown : OwnEntry call) : LeastFirst (W × Registry F) (Nat ×ₗ Nat) where
  pending s := pending s.2.devices
  attempt := attemptDevice call
  erase := by
    intro s k hk hok
    obtain ⟨⟨q, j⟩, rfl⟩ := toLex.surjective k
    obtain ⟨dev, hj, -, hq⟩ := mem_pending.1 hk
    rw [attemptDevice_eq call q hj] at hok ⊢
    obtain ⟨dev', e, hmark⟩ := initDevice_own hown s.1 hj
    dsimp only
    rw [e]
    exact pending_set_initialized hj hq (hmark (of_decide_eq_true hok))

theorem worklist_stays (hown : OwnEntry call) (hkeep : FailuresKeep call) : (worklist hown).Stays := by
  intro s k hk hfail
  obtain ⟨⟨q, j⟩, rfl⟩ := toLex.surjective k
  obtain ⟨dev, hj, -, hq⟩ := mem_pending.1 hk
  have e : (worklist hown).attempt s (toLex (q, j)) = _ := attemptDevice_eq call q hj
  rw [e] at hfail ⊢
  obtain ⟨dev', hset, -⟩ := initDevice_own hown s.1 hj
  obtain ⟨d, hd, h1, h2⟩ := initDevice_fail hkeep hj (of_decide_eq_false hfail)
  show pending (initDevice call s.1 s.2 j dev).registry.devices = _
  rw [hset] at hd ⊢
  rw [Registry.set_devices, List.getElem?_set_self (List.getElem?_eq_some_iff.1 hj).1] at hd
  cases hd
  exact pending_set_kept hj h1 h2

/-- The other entries and the drivers are left alone. -/
theorem attemptDevice_other (hown : OwnEntry call) {s : W × Registry F} (hi : i ≠ j) (p : Nat) :
    (attemptDevice call s (toLex (p, j))).1.2.devices[i]? = s.2.devices[i]? := by
  cases hj : s.2.devices[j]? with
  | none =>
    rw [attemptDevice, show s.2.devices[(ofLex (toLex (p, j))).2]? = none from hj]
  | some dev =>
    obtain ⟨dev', e, -⟩ := initDevice_own hown s.1 hj
    rw [attemptDevice_eq call p hj]
    dsimp only
    rw [e]
    exact List.getElem?_set_ne hi.symm

theorem attemptDevice_drivers (hown : OwnEntry call) (s : W × Registry F) (k : Nat ×ₗ Nat) :
    (attemptDevice call s k).1.2.drivers = s.2.drivers := by
  obtain ⟨⟨p, j⟩, rfl⟩ := toLex.surjective k
  cases hj : s.2.devices[j]? with
  | none =>
    rw [attemptDevice, show s.2.devices[(ofLex (toLex (p, j))).2]? = none from hj]
  | some dev =>
    obtain ⟨dev', e, -⟩ := initDevice_own hown s.1 hj
    rw [attemptDevice_eq call p hj]
    dsimp only
    rw [e, Registry.set_drivers]

/-- `device_init_all` is that loop: same registries, same devices selected with
the same results; and it reports a failure exactly if there was one. -/
theorem initLoop_run (hown : OwnEntry call) (n iter : Nat) (w : W) (r : Registry F) (status : DeviceStatus)
    (hn : r.devices.length ≤ iter + n) :
    ((initLoop call n iter w r status).world, (initLoop call n iter w r status).registry) =
      ((worklist hown).run (r.devices.length - iter) (w, r)).1 ∧
    (initLoop call n iter w r status).log.map (fun a => (a.device, decide (a.status = .ok))) =
      ((worklist hown).run (r.devices.length - iter) (w, r)).2.map (fun e => ((ofLex e.1).2, e.2)) ∧
    ((initLoop call n iter w r status).status = .ok ↔
      status = .ok ∧ ∀ a ∈ (initLoop call n iter w r status).log, a.status = .ok) := by
  induction n generalizing iter w r status with
  | zero =>
    rw [Nat.sub_eq_zero_of_le (show r.devices.length ≤ iter from hn)]
    exact ⟨rfl, rfl, (and_iff_left fun a h => absurd h List.not_mem_nil).symm⟩
  | succ n ih =>
    unfold initLoop
    by_cases hiter : iter < r.devices.length
    · rw [if_pos hiter, show r.devices.length - iter = r.devices.length - (iter + 1) + 1 by omega]
      rcases nextDevice_spec r.devices with ⟨e, hs⟩ | ⟨i, dev, ks, e, hi, -, hs⟩
      · rw [e, LeastFirst.run_nil (M := worklist hown) (s := (w, r)) hs]
        exact ⟨rfl, rfl, (and_iff_left fun a h => absurd h List.not_mem_nil).symm⟩
      · rw [e, LeastFirst.run_cons (M := worklist hown) (s := (w, r)) hs,
          show (worklist hown).attempt (w, r) _ = _ from attemptDevice_eq call _ hi]
        dsimp only
        have hlen : (initDevice call w r i dev).registry.devices.length = r.devices.length := by
          obtain ⟨dev', e, -⟩ := initDevice_own hown w hi
          rw [e, Registry.set_devices, List.length_set]
        generalize initDevice call w r i dev = x at hlen
        obtain ⟨h1, h2, h3⟩ := ih (iter + 1) x.world x.registry (if x.status ≠ .ok then x.status else status)
          (by omega)
        rw [hlen] at h1 h2
        refine ⟨h1, ?_, ?_⟩
        · rw [List.map_cons, List.map_cons, h2]
          rfl
        · rw [h3, List.forall_mem_cons]
          by_cases hr : x.status = .ok
          · rw [if_neg (not_not.2 hr)]
            simp only [hr, true_and]
          · rw [if_pos hr]
            simp only [hr, false_and, and_false]
    · rw [if_neg hiter, Nat.sub_eq_zero_of_le (Nat.le_of_not_lt hiter)]
      exact ⟨rfl, rfl, (and_iff_left fun a h => absurd h List.not_mem_nil).symm⟩

theorem deviceInitAll_run (hown : OwnEntry call) (w : W) (r : Registry F) :
    ((deviceInitAll call w r).world, (deviceInitAll call w r).registry) =
      ((worklist hown).run r.devices.length (w, r)).1 ∧
    (deviceInitAll call w r).log.map (fun a => (a.device, decide (a.status = .ok))) =
      ((worklist hown).run r.devices.length (w, r)).2.map (fun e => ((ofLex e.1).2, e.2)) ∧
    ((deviceInitAll call w r).status = .ok ↔ ∀ a ∈ (deviceInitAll call w r).log, a.status = .ok) := by
  obtain ⟨h1, h2, h3⟩ := initLoop_run hown MAX_DEVICES 0 w r .ok (by rw [Nat.zero_add]; exact r.devices_le)
  exact ⟨h1, h2, by rw [deviceInitAll, h3, eq_self_iff_true, true_and]⟩

/-- How the pending devices fare when each is attempted once, in their order. -/
def onePass (call : F → DriverInit F W) (w : W) (r : Registry F) : List Bool :=
  LeastFirst.pass (attemptDevice call) (w, r) (pending r.devices).sort

/-- `device_init_all` reports success exactly if one pass has no failure. -/
theorem deviceInitAll_ok_iff (hown : OwnEntry call) (w : W) (r : Registry F) :
    (deviceInitAll call w r).status = .ok ↔ ∀ ok ∈ onePass call w r, ok = true := by
  obtain ⟨-, hlog, hstatus⟩ := deviceInitAll_run hown w r
  have hrun := LeastFirst.run_ok_iff (M := worklist hown) (s := (w, r)) (pending_card_le r.devices)
  -- the two logs have the same results
  have hres := congrArg (List.map Prod.snd) hlog
  rw [List.map_map, List.map_map] at hres
  rw [hstatus, onePass]
  refine Iff.trans ?_ hrun
  have h := congrArg (fun l => ∀ ok ∈ l, ok = true) hres
  simpa only [List.forall_mem_map, Function.comp_apply, decide_eq_true_eq, eq_iff_iff] using h

/-- What a successful attempt makes of any device that it marks is so in the end
of a device whose attempt succeeded, whatever happened to the others. -/
theorem achieved_of_ok (hown : OwnEntry call) {Q : Device → Prop} {a : Attempt}
    (hmark : ∀ dev, Q dev → dev.initialized = true)
    (hok : ∀ w r' i dev, r'.drivers = r.drivers → r'.devices[i]? = some dev →
      (initDevice call w r' i dev).status = .ok →
      ∃ dev', (initDevice call w r' i dev).registry.devices[i]? = some dev' ∧ Q dev')
    (ha : a ∈ (deviceInitAll call w r).log) (hs : a.status = .ok) :
    ∃ dev', (deviceInitAll call w r).registry.devices[a.device]? = some dev' ∧ Q dev' := by
  obtain ⟨hstate, hlog, -⟩ := deviceInitAll_run hown w r
  have hmem : (a.device, true) ∈ ((deviceInitAll call w r).log.map fun a => (a.device, decide (a.status = .ok))) :=
    List.mem_map.2 ⟨a, ha, by rw [hs]; rfl⟩
  rw [hlog] at hmem
  obtain ⟨⟨k, ok⟩, he, heq⟩ := List.mem_map.1 hmem
  obtain ⟨hk, rfl⟩ := Prod.mk.inj heq
  rw [← hk, show (deviceInitAll call w r).registry = _ from congrArg Prod.snd hstate]
  obtain ⟨⟨q, j⟩, rfl⟩ := toLex.surjective k
  refine LeastFirst.run_achieves (M := worklist hown) (J := fun s => s.2.drivers = r.drivers)
    (I := fun s => ∃ dev', s.2.devices[j]? = some dev' ∧ Q dev') ?_ ?_ ?_ rfl he
  · intro s k hJ _
    exact (attemptDevice_drivers hown s k).trans hJ
  · intro s hJ hmem hsucc
    obtain ⟨dev, hj, -, -⟩ := mem_pending.1 hmem
    have e : (worklist hown).attempt s (toLex (q, j)) = _ := attemptDevice_eq call q hj
    rw [e] at hsucc ⊢
    exact hok s.1 s.2 j dev hJ hj (of_decide_eq_true hsucc)
  · intro s k hI hk
    obtain ⟨dev', hj, hq⟩ := hI
    obtain ⟨⟨q', j'⟩, rfl⟩ := toLex.surjective k
    obtain ⟨dev, hj', hp, -⟩ := mem_pending.1 hk
    refine ⟨dev', (attemptDevice_other hown ?_ q').trans hj, hq⟩
    -- the device attempted is not initialised, so it is another one
    rintro rfl
    rw [hj] at hj'
    cases hj'
    have hinit := hmark dev' hq
    rw [hp.1] at hinit
    cases hinit

/-- After a success nothing is pending. -/
theorem pending_of_ok (hown : OwnEntry call) (h : (deviceInitAll call w r).status = .ok) :
    pending (deviceInitAll call w r).registry.devices = ∅ := by
  obtain ⟨hstate, -, -⟩ := deviceInitAll_run hown w r
  have hok := (LeastFirst.run_ok_iff (M := worklist hown) (s := (w, r)) (pending_card_le r.devices)).2
    ((deviceInitAll_ok_iff hown w r).1 h)
  rw [show (deviceInitAll call w r).registry = _ from congrArg Prod.snd hstate]
  exact LeastFirst.run_pending_empty (M := worklist hown) (pending_card_le r.devices) hok

end

end Rtos.Drivers
