import Rtos.Core.Simulation
import Rtos.Drivers.I2c
import Rtos.Drivers.Spi

/-!
# What the I2C and SPI drivers show over any run of calls

Seen from outside a driver is a map from the ids of open buses to their
configurations (`I2cBuses`, `SpiBuses`): the configuration of the first `init`
counts until the `deinit`. The results of all calls follow from the map
(`i2c_history`, `spi_history`); a busy bus is never seen.
-/
namespace Rtos.Drivers

open Rtos.Sched (RtosStatus)

section Instances

variable {H C : Type} {n : Nat} {initialized : H → Bool} {config : H → C} {fresh : UInt8 → C → H}
  {close : H → H}
  {instances : Fin n → H} {id : UInt8} {c : Option C} {h : Option (Fin n)} {i : Fin n}

/-- The configurations of the instances that are initialised. -/
def configs (initialized : H → Bool) (config : H → C) (instances : Fin n → H) (i : Fin n) : Option C :=
  if initialized (instances i) then some (config (instances i)) else none

/-- The instance an `init` opens or finds open. -/
def granted (n : Nat) (id : UInt8) (c : Option C) : Option (Fin n) :=
  if hid : id.toNat < n then c.map fun _ => ⟨id.toNat, hid⟩ else none

/-- The configuration a bus has is kept. -/
def openBus (buses : Fin n → Option C) (id : UInt8) (c : Option C) : Fin n → Option C :=
  match granted n id c with
  | none => buses
  | some i => Function.update buses i ((buses i).or c)

def closeBus (buses : Fin n → Option C) : Option (Fin n) → Fin n → Option C
  | none => buses
  | some i => Function.update buses i none

def isOpen (buses : Fin n → Option C) (h : Option (Fin n)) : Bool := h.any fun i => (buses i).isSome

theorem configs_isSome : (configs initialized config instances i).isSome = initialized (instances i) := by
  unfold configs
  split <;> simp_all

theorem configs_init (hf : ∀ id c, initialized (fresh id c) = true ∧ config (fresh id c) = c) :
    (instanceInit initialized fresh instances id c).2 = granted n id c ∧
    configs initialized config (instanceInit initialized fresh instances id c).1 =
      openBus (configs initialized config instances) id c := by
  unfold instanceInit openBus granted
  by_cases hid : id.toNat < n
  · rw [dif_neg (by omega), dif_pos hid]
    cases c with
    | none => exact ⟨rfl, rfl⟩
    | some c =>
      simp only [Option.map_some]
      cases hi : initialized (instances ⟨id.toNat, hid⟩)
      · refine ⟨rfl, funext fun j => ?_⟩
        by_cases hj : j = ⟨id.toNat, hid⟩
        · subst hj
          simp [configs, hi, hf]
        · simp [configs, hj]
      · refine ⟨rfl, funext fun j => ?_⟩
        by_cases hj : j = ⟨id.toNat, hid⟩
        · subst hj
          simp [configs, hi]
        · simp [configs, hj]
  · rw [dif_pos (by omega), dif_neg hid]
    exact ⟨rfl, rfl⟩

theorem configs_deinit (hc : ∀ x, initialized (close x) = false) :
    (instanceDeinit initialized close instances h).2 =
      (if isOpen (configs initialized config instances) h then .ok else .errorInvalidParam) ∧
    configs initialized config (instanceDeinit initialized close instances h).1 =
      closeBus (configs initialized config instances) h := by
  cases h with
  | none => exact ⟨rfl, rfl⟩
  | some i =>
    have ho : isOpen (configs initialized config instances) (some i) = initialized (instances i) := configs_isSome
    rw [ho]
    simp only [instanceDeinit]
    cases hi : initialized (instances i)
    · refine ⟨rfl, funext fun j => ?_⟩
      by_cases hj : j = i
      · subst hj
        simp [configs, closeBus, hi]
      · simp [configs, closeBus, hj]
    · refine ⟨rfl, funext fun j => ?_⟩
      by_cases hj : j = i
      · subst hj
        simp [configs, closeBus, hc]
      · simp [configs, closeBus, hj]

/-- What holds of a new instance and of every one before. -/
theorem instanceInit_keeps {P : H → Prop} (hf : ∀ id c, P (fresh id c)) (hp : ∀ i, P (instances i)) (i : Fin n) :
    P ((instanceInit initialized fresh instances id c).1 i) := by
  unfold instanceInit
  split
  · exact hp i
  · cases c with
    | none => exact hp i
    | some c =>
      dsimp only
      split
      · exact hp i
      · dsimp only
        rw [Function.update_apply]
        split
        · exact hf id c
        · exact hp i

theorem instanceDeinit_keeps {P : H → Prop} (hc : ∀ x, P x → P (close x)) (hp : ∀ i, P (instances i)) (i : Fin n) :
    P ((instanceDeinit initialized close instances h).1 i) := by
  cases h with
  | none => exact hp i
  | some j =>
    simp only [instanceDeinit]
    split
    · dsimp only
      rw [Function.update_apply]
      split
      · exact hc _ (hp j)
      · exact hp i
    · exact hp i

end Instances

/-! ## I2C -/

inductive I2cCall where
  | init (i2cId : UInt8) (config : Option I2cConfig)
  | deinit (i2c : I2cPtr)
  | masterWrite (i2c : I2cPtr) (slaveAddr : UInt16) (data : Option (Nat → UInt8)) (len : Nat)
  | masterRead (i2c : I2cPtr) (slaveAddr : UInt16) (buffer : Bool) (len : Nat)
  | masterWriteRead (i2c : I2cPtr) (slaveAddr : UInt16) (writeData : Option (Nat → UInt8)) (writeLen : Nat)
      (readBuffer : Bool) (readLen : Nat)
  | writeRegister (i2c : I2cPtr) (slaveAddr : UInt16) (regAddr value : UInt8)
  | readRegister (i2c : I2cPtr) (slaveAddr : UInt16) (regAddr : UInt8) (value : Bool)
  | readRegisters (i2c : I2cPtr) (slaveAddr : UInt16) (regAddr : UInt8) (buffer : Bool) (len : Nat)
  | scanBus (i2c : I2cPtr) (foundDevices count : Bool)

inductive I2cRet where
  | handle (i2c : I2cPtr)
  | status (st : RtosStatus)
  | transfer (r : RtosStatus × Option I2cTransfer)
  | devices (st : RtosStatus) (found : Option (List UInt8))
  deriving DecidableEq, Repr

def I2cCall.run (i2cs : I2cInstances) : I2cCall → Option (I2cInstances × I2cRet)
  | .init id config => let r := i2cInit i2cs id config; some (r.1, .handle r.2)
  | .deinit h => let r := i2cDeinit i2cs h; some (r.1, .status r.2)
  | .masterWrite h addr data len => let r := i2cMasterWrite i2cs h addr data len; some (r.1, .transfer r.2)
  | .masterRead h addr buffer len => let r := i2cMasterRead i2cs h addr buffer len; some (r.1, .transfer r.2)
  | .masterWriteRead h addr data wlen buffer rlen =>
    (i2cMasterWriteRead i2cs h addr data wlen buffer rlen).map fun r => (r.1, .transfer r.2)
  | .writeRegister h addr reg value =>
    let r := i2cWriteRegister i2cs h addr reg value; some (r.1, .transfer r.2)
  | .readRegister h addr reg value =>
    (i2cReadRegister i2cs h addr reg value).map fun r => (r.1, .transfer r.2)
  | .readRegisters h addr reg buffer len =>
    (i2cReadRegisters i2cs h addr reg buffer len).map fun r => (r.1, .transfer r.2)
  | .scanBus h found count => let r := i2cScanBus i2cs h found count; some (i2cs, .devices r.1 r.2)

/-- The driver; before any call no instance is initialised. -/
def i2cSys : LTS I2cInstances (Observed I2cCall I2cRet) :=
  callSys (fun s => ∀ i, (s i).initialized = false ∧ (s i).busy = false) I2cCall.run

abbrev I2cBuses := Fin MAX_I2C_INSTANCES → Option I2cConfig

/-- The bytes that the simulated slave sends. -/
def dummyBytes (base : UInt8) (len : Nat) : List UInt8 := (List.range len).map fun i => base + UInt8.ofNat i

/-- A transfer, refused if it is not `ok`. -/
def transferred (ok : Bool) (t : I2cTransfer) : RtosStatus × Option I2cTransfer :=
  if ok then (.ok, some t) else (.errorInvalidParam, none)

/-- What a call returns; none if it is one that goes through NULL. -/
def I2cBuses.answer (b : I2cBuses) : I2cCall → Option I2cRet
  | .init id config => some (.handle (granted _ id config))
  | .deinit h => some (.status (if isOpen b h then .ok else .errorInvalidParam))
  | .masterWrite h addr data len => some (.transfer (transferred (isOpen b h && data.isSome && len != 0)
      ⟨addr, (List.range len).map (data.getD fun _ => 0), []⟩))
  | .masterRead h addr buffer len => some (.transfer (transferred (isOpen b h && buffer && len != 0)
      ⟨addr, [], dummyBytes 0xAA len⟩))
  | .masterWriteRead h addr data wlen buffer rlen =>
    if isOpen b h ∧ (data.isNone ∧ wlen ≠ 0 ∨ !buffer ∧ rlen ≠ 0) then none
    else some (.transfer (transferred (isOpen b h)
      ⟨addr, (List.range wlen).map (data.getD fun _ => 0), dummyBytes 0xBB rlen⟩))
  | .writeRegister h addr reg value => some (.transfer (transferred (isOpen b h) ⟨addr, [reg, value], []⟩))
  | .readRegister h addr reg value =>
    if isOpen b h ∧ !value then none else some (.transfer (transferred (isOpen b h) ⟨addr, [reg], [0xBB]⟩))
  | .readRegisters h addr reg buffer len =>
    if isOpen b h ∧ !buffer ∧ len ≠ 0 then none
    else some (.transfer (transferred (isOpen b h) ⟨addr, [reg], dummyBytes 0xBB len⟩))
  | .scanBus h found count => some (if isOpen b h && found && count then .devices .ok (some [0x50, 0x68, 0x77])
      else .devices .errorInvalidParam none)

def I2cBuses.next (b : I2cBuses) : I2cCall → I2cBuses
  | .init id config => openBus b id config
  | .deinit h => closeBus b h
  | _ => b

/-- The buses open after the calls. -/
def opened (es : List (Observed I2cCall I2cRet)) : I2cBuses := es.foldl (fun b e => b.next e.call) fun _ => none

def i2cConfigs : I2cInstances → I2cBuses := configs (·.initialized) (·.config)

variable {i2cs i2cs' : I2cInstances} {h : I2cPtr} {addr : UInt16} {data : Option (Nat → UInt8)} {len wlen rlen : Nat}
  {buffer : Bool} {c : I2cCall} {r : I2cRet}

theorem i2cInit_configs (i2cs : I2cInstances) (id : UInt8) (config : Option I2cConfig) :
    (i2cInit i2cs id config).2 = granted _ id config ∧
    i2cConfigs (i2cInit i2cs id config).1 = openBus (i2cConfigs i2cs) id config :=
  configs_init fun _ _ => ⟨rfl, rfl⟩

theorem i2cDeinit_configs (i2cs : I2cInstances) (h : I2cPtr) :
    (i2cDeinit i2cs h).2 = (if isOpen (i2cConfigs i2cs) h then .ok else .errorInvalidParam) ∧
    i2cConfigs (i2cDeinit i2cs h).1 = closeBus (i2cConfigs i2cs) h :=
  configs_deinit fun _ => rfl

theorem i2cInit_idle (hb : ∀ i, (i2cs i).busy = false) (id : UInt8) (config : Option I2cConfig) :
    ∀ i, ((i2cInit i2cs id config).1 i).busy = false :=
  instanceInit_keeps (P := fun x => I2cHandle.busy x = false) (fun _ _ => rfl) hb

theorem i2cDeinit_idle (hb : ∀ i, (i2cs i).busy = false) (h : I2cPtr) :
    ∀ i, ((i2cDeinit i2cs h).1 i).busy = false :=
  instanceDeinit_keeps (P := fun x => I2cHandle.busy x = false) (fun _ hx => hx) hb

theorem isOpen_some (i : Fin MAX_I2C_INSTANCES) : isOpen (i2cConfigs i2cs) (some i) = (i2cs i).initialized :=
  configs_isSome

theorem write_spec (hb : ∀ i, (i2cs i).busy = false) : i2cMasterWrite i2cs h addr data len = (i2cs,
    transferred (isOpen (i2cConfigs i2cs) h && data.isSome && len != 0)
      ⟨addr, (List.range len).map (data.getD fun _ => 0), []⟩) := by
  cases h with
  | none => rfl
  | some i =>
    rw [isOpen_some]
    cases data with
    | none => simp [i2cMasterWrite, transferred]
    | some data =>
      simp only [i2cMasterWrite, hb i, setBusy_setBusy (hb i), i2cSendLoop_eq, ← List.range_eq_range']
      by_cases hl : len = 0
      · simp [transferred, hl]
      · cases hi : (i2cs i).initialized <;> simp [transferred, hl]

theorem read_spec (hb : ∀ i, (i2cs i).busy = false) : i2cMasterRead i2cs h addr buffer len = (i2cs,
    transferred (isOpen (i2cConfigs i2cs) h && buffer && len != 0) ⟨addr, [], dummyBytes 0xAA len⟩) := by
  cases h with
  | none => rfl
  | some i =>
    rw [isOpen_some]
    cases buffer with
    | false => simp [i2cMasterRead, transferred]
    | true =>
      simp only [i2cMasterRead, hb i, setBusy_setBusy (hb i), i2cReceiveLoop_eq, ← List.range_eq_range']
      by_cases hl : len = 0
      · simp [transferred, hl]
      · cases hi : (i2cs i).initialized <;> simp [transferred, hl, dummyBytes]

theorem write_read_spec (hb : ∀ i, (i2cs i).busy = false) :
    i2cMasterWriteRead i2cs h addr data wlen buffer rlen =
      if isOpen (i2cConfigs i2cs) h ∧ (data.isNone ∧ wlen ≠ 0 ∨ !buffer ∧ rlen ≠ 0) then none
      else some (i2cs, transferred (isOpen (i2cConfigs i2cs) h)
        ⟨addr, (List.range wlen).map (data.getD fun _ => 0), dummyBytes 0xBB rlen⟩) := by
  cases h with
  | none => rfl
  | some i =>
    rw [isOpen_some]
    simp only [i2cMasterWriteRead, hb i, setBusy_setBusy (hb i), i2cSendLoop_eq, i2cReceiveLoop_eq,
      ← List.range_eq_range']
    cases hi : (i2cs i).initialized <;> simp [transferred, dummyBytes]

/-- What one call returns, and what it leaves. -/
theorem run_spec (hb : ∀ i, (i2cs i).busy = false) (c : I2cCall) : ∃ s', (∀ i, (s' i).busy = false) ∧
    i2cConfigs s' = (i2cConfigs i2cs).next c ∧ c.run i2cs = ((i2cConfigs i2cs).answer c).map fun r => (s', r) := by
  cases c with
  | init id config =>
    obtain ⟨h1, h2⟩ := i2cInit_configs i2cs id config
    exact ⟨_, i2cInit_idle hb id config, h2, congrArg (fun r => some (_, I2cRet.handle r)) h1⟩
  | deinit h =>
    obtain ⟨h1, h2⟩ := i2cDeinit_configs i2cs h
    exact ⟨_, i2cDeinit_idle hb h, h2, congrArg (fun r => some (_, I2cRet.status r)) h1⟩
  | masterWrite h addr data len =>
    exact ⟨i2cs, hb, rfl, by simp only [I2cCall.run, write_spec hb]; rfl⟩
  | masterRead h addr buffer len =>
    exact ⟨i2cs, hb, rfl, by simp only [I2cCall.run, read_spec hb]; rfl⟩
  | masterWriteRead h addr data wlen buffer rlen =>
    refine ⟨i2cs, hb, rfl, ?_⟩
    simp only [I2cCall.run, write_read_spec hb, I2cBuses.answer]
    split <;> rfl
  | writeRegister h addr reg value =>
    refine ⟨i2cs, hb, rfl, ?_⟩
    simp only [I2cCall.run, i2cWriteRegister, write_spec hb, I2cBuses.answer]
    simp [List.range_succ]
  | readRegister h addr reg value =>
    refine ⟨i2cs, hb, rfl, ?_⟩
    simp only [I2cCall.run, i2cReadRegister, write_read_spec hb, I2cBuses.answer]
    cases isOpen (i2cConfigs i2cs) h <;> cases value <;> simp [dummyBytes]
  | readRegisters h addr reg buffer len =>
    refine ⟨i2cs, hb, rfl, ?_⟩
    simp only [I2cCall.run, i2cReadRegisters, write_read_spec hb, I2cBuses.answer]
    cases isOpen (i2cConfigs i2cs) h <;> cases buffer <;> by_cases hl : len = 0 <;> simp [hl]
  | scanBus h found count =>
    refine ⟨i2cs, hb, rfl, ?_⟩
    simp only [I2cCall.run, I2cBuses.answer, Option.map_some]
    cases h with
    | none => rfl
    | some i =>
      rw [isOpen_some]
      cases hi : (i2cs i).initialized <;> cases found <;> cases count <;>
        simp [i2cScanBus, hi, i2cScanLoop_all]

/-- **The I2C driver over any run**: the buses open and their configurations
are those of the first `i2c_init` since the last `i2c_deinit`, no bus is ever
found busy, and of the next call exactly the answer that follows from the open
buses can be observed. -/
theorem i2c_history {es : List (Observed I2cCall I2cRet)} {s₀ s : I2cInstances} (h0 : i2cSys.init s₀)
    (hr : i2cSys.Run s₀ es s) :
    (∀ i, (s i).busy = false) ∧ i2cConfigs s = opened es ∧
    ∀ e, (∃ s', i2cSys.step s e s') ↔ (opened es).answer e.call = some e.ret :=
  callSys_history (I := fun s : I2cInstances => ∀ i, (s i).busy = false) I2cBuses.answer I2cBuses.next
    (fun s h0 => ⟨fun i => (h0 i).2, funext fun i => by simp [i2cConfigs, configs, (h0 i).1]⟩)
    (fun s hb c => run_spec hb c) h0 hr

/-- The second `i2c_init` finds the bus open and changes nothing. -/
theorem i2c_history_reopened : ∃ s₀ s, i2cSys.Run s₀
      [⟨.init 2 (some ⟨.standard, .addr7bit, false, 10⟩), .handle (some 2)⟩,
        ⟨.init 2 (some ⟨.fast, .addr7bit, true, 10⟩), .handle (some 2)⟩,
        ⟨.writeRegister (some 2) 0x68 0x6B 0, .transfer (.ok, some ⟨0x68, [0x6B, 0], []⟩)⟩] s ∧
    i2cConfigs s 2 = some ⟨.standard, .addr7bit, false, 10⟩ := by
  have h0 : i2cSys.init fun _ => ⟨0, ⟨.standard, .addr7bit, false, 0⟩, false, false⟩ := fun _ => ⟨rfl, rfl⟩
  obtain ⟨s, hr, -, -⟩ := LTS.reachable_of_exec (M := i2cSys) step_of_callStep h0 (fun _ => True)
    [⟨.init 2 (some ⟨.standard, .addr7bit, false, 10⟩), .handle (some 2)⟩,
      ⟨.init 2 (some ⟨.fast, .addr7bit, true, 10⟩), .handle (some 2)⟩,
      ⟨.writeRegister (some 2) 0x68 0x6B 0, .transfer (.ok, some ⟨0x68, [0x6B, 0], []⟩)⟩] (by decide)
  exact ⟨_, s, hr, congrFun (i2c_history h0 hr).2.1 2⟩

/-! ## SPI -/

abbrev SpiPtr := Option (Fin MAX_SPI_INSTANCES)

/-- `stack` is what lies on the stack where the function has its local array;
of an array to be filled the bytes stored are returned. -/
inductive SpiCall where
  | init (spiId : UInt8) (config : Option SpiConfig)
  | deinit (spi : SpiPtr)
  | transfer (spi : SpiPtr) (txData rxData : Option (Nat → UInt8)) (len : Nat)
  | write (spi : SpiPtr) (stack : Nat → UInt8) (data : Option (Nat → UInt8)) (len : Nat)
  | read (spi : SpiPtr) (stack : Nat → UInt8) (buffer : Option (Nat → UInt8)) (len : Nat)

inductive SpiRet where
  | handle (spi : SpiPtr)
  | status (st : RtosStatus)
  | transfer (st : RtosStatus) (bytes : Option (List UInt8 × List UInt8))
  deriving DecidableEq, Repr

/-- The bytes sent and the bytes stored. -/
def SpiBus.bytes (bus : SpiBus) (len : Nat) : List UInt8 × List UInt8 := (bus.sent, (List.range len).map bus.rx)

/-- The result of a transfer with an array of `size` elements; none if it runs
over its end. -/
def within (size len : Nat) (r : Option SpiBus × RtosStatus) : Option SpiRet :=
  if r.1.isSome ∧ size < len then none else some (.transfer r.2 (r.1.map (·.bytes len)))

def SpiCall.run (spis : SpiInstances) : SpiCall → Option (SpiInstances × SpiRet)
  | .init id config => let r := spiInit spis id config; some (r.1, .handle r.2)
  | .deinit h => let r := spiDeinit spis h; some (r.1, .status r.2)
  | .transfer h tx rx len => (within len len (spiTransfer (h.map spis) tx rx len)).map fun r => (spis, r)
  | .write h stack data len => (within 256 len (spiWrite stack (h.map spis) data len)).map fun r => (spis, r)
  | .read h stack buffer len => (within 256 len (spiRead stack (h.map spis) buffer len)).map fun r => (spis, r)

/-- The driver; before any call no instance is initialised. -/
def spiSys : LTS SpiInstances (Observed SpiCall SpiRet) :=
  callSys (fun s => ∀ i, (s i).initialized = false) SpiCall.run

abbrev SpiBuses := Fin MAX_SPI_INSTANCES → Option SpiConfig

/-- What is sent comes back inverted; a transfer that is not `ok` is refused. -/
def looped (ok : Bool) (sent : List UInt8) : SpiRet :=
  if ok then .transfer .ok (some (sent, sent.map (· ^^^ 0xFF))) else .transfer .errorInvalidParam none

/-- What a call returns; none if it runs over a local array. -/
def SpiBuses.answer (b : SpiBuses) : SpiCall → Option SpiRet
  | .init id config => some (.handle (granted _ id config))
  | .deinit h => some (.status (if isOpen b h then .ok else .errorInvalidParam))
  | .transfer h tx rx len =>
    some (looped (isOpen b h && tx.isSome && rx.isSome && len != 0) ((List.range len).map (tx.getD fun _ => 0)))
  | .write h _ data len =>
    if isOpen b h ∧ data.isSome ∧ 256 < len then none
    else some (looped (isOpen b h && data.isSome && len != 0) ((List.range len).map (data.getD fun _ => 0)))
  | .read h _ buffer len =>
    if isOpen b h ∧ buffer.isSome ∧ 256 < len then none
    else some (looped (isOpen b h && buffer.isSome && len != 0)
      ((List.range len).map fun i => if i = 0 then 0xFF else 0))

def SpiBuses.next (b : SpiBuses) : SpiCall → SpiBuses
  | .init id config => openBus b id config
  | .deinit h => closeBus b h
  | _ => b

def openedSpi (es : List (Observed SpiCall SpiRet)) : SpiBuses := es.foldl (fun b e => b.next e.call) fun _ => none

def spiConfigs : SpiInstances → SpiBuses := configs (·.initialized) (·.config)

variable {spis : SpiInstances} {g : SpiPtr} {tx rx : Option (Nat → UInt8)}

theorem spiInit_configs (spis : SpiInstances) (id : UInt8) (config : Option SpiConfig) :
    (spiInit spis id config).2 = granted _ id config ∧
    spiConfigs (spiInit spis id config).1 = openBus (spiConfigs spis) id config :=
  configs_init fun _ _ => ⟨rfl, rfl⟩

theorem spiDeinit_configs (spis : SpiInstances) (g : SpiPtr) :
    (spiDeinit spis g).2 = (if isOpen (spiConfigs spis) g then .ok else .errorInvalidParam) ∧
    spiConfigs (spiDeinit spis g).1 = closeBus (spiConfigs spis) g :=
  configs_deinit fun _ => rfl

theorem isOpen_spi (i : Fin MAX_SPI_INSTANCES) : isOpen (spiConfigs spis) (some i) = (spis i).initialized :=
  configs_isSome

theorem transfer_spec (size : Nat) : within size len (spiTransfer (g.map spis) tx rx len) =
    if (isOpen (spiConfigs spis) g && tx.isSome && rx.isSome && len != 0) ∧ size < len then none
    else some (looped (isOpen (spiConfigs spis) g && tx.isSome && rx.isSome && len != 0)
      ((List.range len).map (tx.getD fun _ => 0))) := by
  cases g with
  | none => rfl
  | some i =>
    rw [isOpen_spi, Option.map_some]
    cases tx with
    | none => simp [spiTransfer, within, looped]
    | some tx =>
      cases rx with
      | none => simp [spiTransfer, within, looped]
      | some rx =>
        cases hi : (spis i).initialized with
        | false => simp [spiTransfer, within, looped, hi]
        | true =>
          by_cases hl : len = 0
          · simp [spiTransfer, within, looped, hl]
          · obtain ⟨bus, e, hrx, hsent, -⟩ := spiTransfer_ok hi hl tx rx
            have hbytes : bus.bytes len = ((List.range len).map tx, ((List.range len).map tx).map (· ^^^ 0xFF)) := by
              rw [SpiBus.bytes, hsent, hrx, List.map_map]
              congr 1
              exact List.map_congr_left fun j hj => if_pos (List.mem_range.1 hj)
            rw [e]
            simp [within, looped, hl, hbytes]

theorem dummy_tx (stack : Nat → UInt8) (hl : len ≤ 256) :
    (List.range len).map (localArray 256 [0xFF] stack) = (List.range len).map fun i => if i = 0 then 0xFF else 0 := by
  refine List.map_congr_left fun i hi => ?_
  rw [localArray, if_pos (by have := List.mem_range.1 hi; omega)]
  cases i <;> rfl

/-- What one call returns, and what it leaves. -/
theorem spi_spec (spis : SpiInstances) (c : SpiCall) : ∃ s', spiConfigs s' = (spiConfigs spis).next c ∧
    c.run spis = ((spiConfigs spis).answer c).map fun r => (s', r) := by
  cases c with
  | init id config =>
    obtain ⟨h1, h2⟩ := spiInit_configs spis id config
    exact ⟨_, h2, congrArg (fun r => some (_, SpiRet.handle r)) h1⟩
  | deinit g =>
    obtain ⟨h1, h2⟩ := spiDeinit_configs spis g
    exact ⟨_, h2, congrArg (fun r => some (_, SpiRet.status r)) h1⟩
  | transfer g tx rx len =>
    refine ⟨spis, rfl, ?_⟩
    rw [SpiCall.run, transfer_spec, if_neg (by omega)]
    rfl
  | write g stack data len =>
    refine ⟨spis, rfl, ?_⟩
    simp only [SpiCall.run, spiWrite, transfer_spec, SpiBuses.answer, Option.isSome_some, Bool.and_true]
    cases isOpen (spiConfigs spis) g <;> cases data <;> by_cases hl : len = 0 <;> simp [hl]
  | read g stack buffer len =>
    refine ⟨spis, rfl, ?_⟩
    simp only [SpiCall.run, spiRead, transfer_spec, SpiBuses.answer, Option.isSome_some, Bool.and_true,
      Option.getD_some]
    by_cases hl : 256 < len
    · have h0 : len ≠ 0 := by omega
      cases isOpen (spiConfigs spis) g <;> cases buffer <;> simp [hl, h0, looped]
    · rw [dummy_tx stack (by omega)]
      simp [hl]

/-- **The SPI driver over any run**: as for I2C, and what a transfer stores is
what it sends, inverted. -/
theorem spi_history {es : List (Observed SpiCall SpiRet)} {s₀ s : SpiInstances} (h0 : spiSys.init s₀)
    (hr : spiSys.Run s₀ es s) :
    spiConfigs s = openedSpi es ∧ ∀ e, (∃ s', spiSys.step s e s') ↔ (openedSpi es).answer e.call = some e.ret := by
  refine (callSys_history (I := fun _ => True) (f := spiConfigs) SpiBuses.answer SpiBuses.next
    (fun s h0 => ⟨trivial, funext fun i => ?_⟩) (fun s _ c => ?_) h0 hr).2
  · simp [spiConfigs, configs, h0 i]
  · obtain ⟨s', hc, e⟩ := spi_spec s c
    exact ⟨s', trivial, hc, e⟩

/-- A bus that was closed is refused. -/
theorem spi_history_closed : ∃ s₀ s, spiSys.Run s₀ [⟨.init 1 (some ⟨.mode0, .low, false⟩), .handle (some 1)⟩,
      ⟨.read (some 1) (fun _ => 7) (some fun _ => 0) 2, .transfer .ok (some ([0xFF, 0], [0, 0xFF]))⟩,
      ⟨.deinit (some 1), .status .ok⟩] s ∧
    ¬ ∃ s', spiSys.step s ⟨.deinit (some 1), .status .ok⟩ s' := by
  have h0 : spiSys.init fun _ => ⟨0, ⟨.mode0, .low, false⟩, false, false⟩ := fun _ => rfl
  obtain ⟨s, hr, -, -⟩ := LTS.reachable_of_exec (M := spiSys) step_of_callStep h0 (fun _ => True)
    [⟨.init 1 (some ⟨.mode0, .low, false⟩), .handle (some 1)⟩,
      ⟨.read (some 1) (fun _ => 7) (some fun _ => 0) 2, .transfer .ok (some ([0xFF, 0], [0, 0xFF]))⟩,
      ⟨.deinit (some 1), .status .ok⟩] (by decide)
  exact ⟨_, s, hr, fun h => absurd (((spi_history h0 hr).2 _).1 h) (by decide)⟩

end Rtos.Drivers
