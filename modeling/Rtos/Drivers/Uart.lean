import Rtos.Heap.Usage
import Rtos.Sched.Types

/-!
# src/drivers/uart_driver.c

The two circular buffers of a UART are payloads of the heap, the handles are
the entries of `uart_instances`. A callback is a function pointer, 0 for NULL,
and what it does is a parameter. `printf` output is left out.
-/
namespace Rtos.Drivers

open Rtos.Core Rtos.Heap
open Rtos.Sched (RtosStatus)

/-- mirrors include/drivers/uart_driver.h:7-16 -/
inductive UartBaud where
  | baud9600 | baud19200 | baud38400 | baud57600 | baud115200 | baud230400 | baud460800 | baud921600
  deriving DecidableEq, Repr

/-- mirrors include/drivers/uart_driver.h:18-22 -/
inductive UartParity where
  | none | even | odd
  deriving DecidableEq, Repr

/-- mirrors include/drivers/uart_driver.h:24-27 -/
inductive UartStopbits where
  | one | two
  deriving DecidableEq, Repr

/-- mirrors include/drivers/uart_driver.h:29-33 -/
inductive UartDatabits where
  | seven | eight | nine
  deriving DecidableEq, Repr

/-- mirrors include/drivers/uart_driver.h:35-44 -/
structure UartConfig where
  baudRate : UartBaud
  parity : UartParity
  stopBits : UartStopbits
  dataBits : UartDatabits
  enableDma : Bool
  enableInterrupts : Bool
  rxBufferSize : UInt16
  txBufferSize : UInt16

/-- mirrors src/drivers/uart_driver.c:32-38 -/
structure CircularBuffer where
  buffer : Nat
  size : Nat
  head : Nat
  tail : Nat
  count : Nat
  deriving DecidableEq, Repr

/-- mirrors src/drivers/uart_driver.c:52-63 -/
structure UartHandle where
  uartId : UInt8
  config : UartConfig
  rxBuffer : CircularBuffer
  txBuffer : CircularBuffer
  rxCallback : Nat
  rxCallbackData : Nat
  txCallback : Nat
  txCallbackData : Nat
  initialized : Bool
  txBusy : Bool

/-- mirrors src/drivers/uart_driver.c:66-67 -/
abbrev MAX_UART_INSTANCES : Nat := 4

/-- `uart_instances` -/
abbrev UartInstances := Fin MAX_UART_INSTANCES → UartHandle

section

variable (t : Target)

/-- mirrors src/drivers/uart_driver.c:76-82 -/
def circBufInit (h : HeapState) (size : Nat) : Option (HeapState × CircularBuffer) :=
  (rtosMalloc t h size).map fun (h, buffer) => (h, ⟨buffer, size, 0, 0, 0⟩)

/-- mirrors src/drivers/uart_driver.c:85-90 -/
def circBufDeinit (h : HeapState) (cb : CircularBuffer) : Option (HeapState × CircularBuffer) :=
  if cb.buffer ≠ 0 then (rtosFree t h cb.buffer).map fun h => (h, { cb with buffer := 0 })
  else some (h, cb)

/-- mirrors src/drivers/uart_driver.c:93-107 -/
def circBufPut (m : Mem) (cb : CircularBuffer) (data : UInt8) : Mem × CircularBuffer × Bool :=
  if cb.count ≥ cb.size then (m, cb, false)
  else
    (Function.update m (t.add cb.buffer cb.head) data,
      { cb with
        head := t.add cb.head 1 % cb.size
        count := t.add cb.count 1 }, true)

/-- The byte for `*data`, `none` if the buffer is empty.
mirrors src/drivers/uart_driver.c:110-124 -/
def circBufGet (m : Mem) (cb : CircularBuffer) : CircularBuffer × Option UInt8 :=
  if cb.count = 0 then (cb, none)
  else
    ({ cb with
        tail := t.add cb.tail 1 % cb.size
        count := cb.count - 1 }, some (m (t.add cb.buffer cb.tail)))

/-- mirrors src/drivers/uart_driver.c:127-129 -/
def circBufAvailable (cb : CircularBuffer) : Nat := cb.count

/-- mirrors src/drivers/uart_driver.c:132-138 -/
def circBufFlush (cb : CircularBuffer) : CircularBuffer := { cb with head := 0, tail := 0, count := 0 }

/-- `config` is what the pointer points at, `none` for NULL; the result is the
handle's index.
mirrors src/drivers/uart_driver.c:158-300 -/
def uartInit (h : HeapState) (uarts : UartInstances) (uartId : UInt8) (config : Option UartConfig) :
    Option (HeapState × UartInstances × Option (Fin MAX_UART_INSTANCES)) :=
  if hid : uartId.toNat ≥ MAX_UART_INSTANCES then some (h, uarts, none)
  else
    match config with
    | none => some (h, uarts, none)
    | some config =>
      let uart : Fin MAX_UART_INSTANCES := ⟨uartId.toNat, Nat.lt_of_not_le hid⟩
      if (uarts uart).initialized then some (h, uarts, some uart)
      else
        (circBufInit t h config.rxBufferSize.toNat).bind fun (h, rxBuffer) =>
          (circBufInit t h config.txBufferSize.toNat).bind fun (h, txBuffer) =>
            let handle : UartHandle := ⟨uartId, config, rxBuffer, txBuffer, 0, 0, 0, 0, false, false⟩
            if rxBuffer.buffer = 0 ∨ txBuffer.buffer = 0 then
              (circBufDeinit t h rxBuffer).bind fun (h, rxBuffer) =>
                (circBufDeinit t h txBuffer).map fun (h, txBuffer) =>
                  (h, Function.update uarts uart { handle with rxBuffer := rxBuffer, txBuffer := txBuffer },
                    none)
            else
              some (h, Function.update uarts uart { handle with initialized := true, txBusy := false },
                some uart)

/-- mirrors src/drivers/uart_driver.c:307-340 -/
def uartDeinit (h : HeapState) (uarts : UartInstances) (uart : Option (Fin MAX_UART_INSTANCES)) :
    Option (HeapState × UartInstances × RtosStatus) :=
  match uart with
  | none => some (h, uarts, .errorInvalidParam)
  | some uart =>
    if !(uarts uart).initialized then some (h, uarts, .errorInvalidParam)
    else
      (circBufDeinit t h (uarts uart).rxBuffer).bind fun (h, rxBuffer) =>
        (circBufDeinit t h (uarts uart).txBuffer).map fun (h, txBuffer) =>
          (h, Function.update uarts uart { uarts uart with
            rxBuffer := rxBuffer
            txBuffer := txBuffer
            initialized := false }, .ok)

/-- mirrors src/drivers/uart_driver.c:362-391 -/
def uartWriteLoop (data : Nat → UInt8) : Nat → Nat → Mem → CircularBuffer → Mem × CircularBuffer × Bool
  | 0, _, m, cb => (m, cb, true)
  | n + 1, i, m, cb =>
    match circBufPut t m cb (data i) with
    | (m, cb, false) => (m, cb, false)
    | (m, cb, true) => uartWriteLoop data n (i + 1) m cb

/-- `uart` and `data` are what the pointers point at, `none` for NULL.
mirrors src/drivers/uart_driver.c:355-409 -/
def uartWrite (callbacks : Nat → Nat → Mem × UartHandle → Mem × UartHandle) (m : Mem)
    (uart : Option UartHandle) (data : Option (Nat → UInt8)) (len : Nat) :
    Mem × Option UartHandle × RtosStatus :=
  match uart, data with
  | none, _ => (m, none, .errorInvalidParam)
  | some uart, none => (m, some uart, .errorInvalidParam)
  | some uart, some data =>
    if !uart.initialized ∨ len = 0 then (m, some uart, .errorInvalidParam)
    else
      match uartWriteLoop t data len 0 m uart.txBuffer with
      | (m, txBuffer, false) => (m, some { uart with txBuffer := txBuffer }, .errorBusy)
      | (m, txBuffer, true) =>
        let uart := { uart with txBuffer := txBuffer }
        let r := if uart.txCallback ≠ 0 then callbacks uart.txCallback uart.txCallbackData (m, uart) else (m, uart)
        (r.1, some r.2, .ok)

/-- mirrors src/drivers/uart_driver.c:433-438 -/
def uartReadLoop (m : Mem) :
    Nat → Nat → CircularBuffer → (Nat → UInt8) → Nat → CircularBuffer × (Nat → UInt8) × Nat
  | 0, _, cb, buffer, bytesRead => (cb, buffer, bytesRead)
  | n + 1, i, cb, buffer, bytesRead =>
    match circBufGet t m cb with
    | (cb, none) => (cb, buffer, bytesRead)
    | (cb, some data) => uartReadLoop m n (i + 1) cb (Function.update buffer i data) (t.add bytesRead 1)

/-- `uart`, `buffer` and `bytesRead` are what the pointers point at, `none` for
NULL. The caller's `buffer` and `bytesRead` are not part of the UART.
mirrors src/drivers/uart_driver.c:425-461 -/
def uartRead (m : Mem) (uart : Option UartHandle) (buffer : Option (Nat → UInt8)) (len : Nat)
    (bytesRead : Option Nat) : Option UartHandle × Option (Nat → UInt8) × Option Nat × RtosStatus :=
  match uart, buffer, bytesRead with
  | some uart, some buffer, some bytesRead =>
    if !uart.initialized then (some uart, some buffer, some bytesRead, .errorInvalidParam)
    else
      let r := uartReadLoop t m len 0 uart.rxBuffer buffer 0
      (some { uart with rxBuffer := r.1 }, some r.2.1, some r.2.2, .ok)
  | uart, buffer, bytesRead => (uart, buffer, bytesRead, .errorInvalidParam)

/-- The transfer is simulated: it is over when the function returns.
mirrors src/drivers/uart_driver.c:471-543 -/
def uartWriteDma (uart : Option UartHandle) (data : Option (Nat → UInt8)) (len : Nat) :
    Option UartHandle × RtosStatus :=
  match uart, data with
  | none, _ => (none, .errorInvalidParam)
  | some uart, none => (some uart, .errorInvalidParam)
  | some uart, some _ =>
    if !uart.initialized ∨ len = 0 then (some uart, .errorInvalidParam)
    else if !uart.config.enableDma then (some uart, .errorNotReady)
    else if uart.txBusy then (some uart, .errorBusy)
    else
      let uart := { uart with txBusy := true }
      let uart := { uart with txBusy := false }
      (some uart, .ok)

/-- mirrors src/drivers/uart_driver.c:580-591 -/
def uartSetCallback (uart : Option UartHandle) (callback userData : Nat) : Option UartHandle × RtosStatus :=
  match uart with
  | none => (none, .errorInvalidParam)
  | some uart =>
    if !uart.initialized then (some uart, .errorInvalidParam)
    else (some { uart with rxCallback := callback, rxCallbackData := userData }, .ok)

/-- mirrors src/drivers/uart_driver.c:549-555 -/
def uartAvailable (uart : Option UartHandle) : Nat :=
  match uart with
  | none => 0
  | some uart => if !uart.initialized then 0 else circBufAvailable uart.rxBuffer

/-- mirrors src/drivers/uart_driver.c:562-573 -/
def uartFlush (uart : Option UartHandle) : Option UartHandle × RtosStatus :=
  match uart with
  | none => (none, .errorInvalidParam)
  | some uart =>
    if !uart.initialized then (some uart, .errorInvalidParam)
    else (some { uart with rxBuffer := circBufFlush uart.rxBuffer, txBuffer := circBufFlush uart.txBuffer }, .ok)

end

variable {t : Target} {h h' : HeapState} {G : Multiset (Nat × Nat)} {uarts : UartInstances}
  {u : Fin MAX_UART_INSTANCES} {g k n size : Nat}

/-! ## Initialisation -/

/-- A buffer is NULL or one more grant. -/
theorem circBufInit_outstanding (ho : Outstanding t h G) (size : Nat) :
    circBufInit t h size = some (h, ⟨0, size, 0, 0, 0⟩) ∨
    ∃ h' p g, circBufInit t h size = some (h', ⟨p, size, 0, 0, 0⟩) ∧ p ≠ 0 ∧ size ≠ 0 ∧ alignSize t size ≤ g ∧
      Outstanding t h' ((p, g) ::ₘ G) ∧ Kept G h.mem h'.mem := by
  unfold circBufInit
  rcases malloc_outstanding ho size with e | ⟨h₁, p, g, e, hp, hg, ho₁, hk₁, -⟩
  · left
    rw [e]
    rfl
  · right
    have h0 := malloc_ne_zero e hp
    rw [e]
    exact ⟨h₁, p, g, rfl, hp, h0, hg, ho₁, hk₁⟩

theorem circBufDeinit_outstanding (cb : CircularBuffer) (ho : Outstanding t h ((cb.buffer, g) ::ₘ G)) :
    ∃ h', circBufDeinit t h cb = some (h', { cb with buffer := 0 }) ∧ Outstanding t h' G ∧
      Kept G h.mem h'.mem := by
  obtain ⟨h', e, ho', hk, -⟩ := free_outstanding ho
  refine ⟨h', ?_, ho', hk.mono (Multiset.subset_cons _ _)⟩
  rw [circBufDeinit, if_pos (ho.ne_zero (Multiset.mem_cons_self _ _)), e]
  rfl

/-- A UART is initialised with two more grants, its buffers not empty, was
initialised before, or is not initialised. -/
theorem uartInit_granted (ho : Outstanding t h G) (uarts : UartInstances) (id : UInt8)
    (config : Option UartConfig) :
    (∃ h' uarts', uartInit t h uarts id config = some (h', uarts', none) ∧ Outstanding t h' G ∧
      Kept G h.mem h'.mem ∧ (∀ u, (uarts u).initialized = true → uarts' u = uarts u) ∧
      (∀ u, (uarts u).initialized = false → (uarts' u).initialized = false) ∧
      ∀ u : Fin MAX_UART_INSTANCES, u.val = id.toNat → config.isSome → (uarts u).initialized = false) ∨
    (∃ u, uartInit t h uarts id config = some (h, uarts, some u) ∧ (uarts u).initialized = true ∧
      config.isSome) ∨
    ∃ h' u c p g q k handle, uartInit t h uarts id config = some (h', Function.update uarts u handle, some u) ∧
      handle = ⟨id, c, ⟨p, c.rxBufferSize.toNat, 0, 0, 0⟩, ⟨q, c.txBufferSize.toNat, 0, 0, 0⟩, 0, 0, 0, 0,
        true, false⟩ ∧ config = some c ∧ (uarts u).initialized = false ∧
      c.txBufferSize.toNat ≠ 0 ∧ alignSize t c.txBufferSize.toNat ≤ k ∧
      Outstanding t h' ((q, k) ::ₘ (p, g) ::ₘ G) ∧ Kept G h.mem h'.mem := by
  unfold uartInit
  by_cases hid : id.toNat ≥ MAX_UART_INSTANCES
  · refine .inl ⟨h, uarts, dif_pos hid, ho, .refl G _, fun _ _ => rfl, fun _ hu => hu, fun u hu => ?_⟩
    have := u.isLt
    omega
  rw [dif_neg hid]
  cases config with
  | none => exact .inl ⟨h, uarts, rfl, ho, .refl G _, fun _ _ => rfl, fun _ hu => hu, fun _ _ hc => by cases hc⟩
  | some c =>
    dsimp only
    cases hinit : (uarts ⟨id.toNat, Nat.lt_of_not_le hid⟩).initialized with
    | true => exact .inr (.inl ⟨_, if_pos rfl, hinit, rfl⟩)
    | false =>
      -- a handle stored in an uninitialised entry changes no initialised one
      have hother : ∀ handle u, (uarts u).initialized = true →
          Function.update uarts ⟨id.toNat, Nat.lt_of_not_le hid⟩ handle u = uarts u := by
        intro handle u hu
        refine Function.update_of_ne ?_ _ _
        intro e
        rw [e, hinit] at hu
        cases hu
      have hfailed : ∀ handle : UartHandle, handle.initialized = false → ∀ u, (uarts u).initialized = false →
          (Function.update uarts ⟨id.toNat, Nat.lt_of_not_le hid⟩ handle u).initialized = false := by
        intro handle hh u hu
        rw [Function.update_apply]
        split
        · exact hh
        · exact hu
      have hthis : ∀ u : Fin MAX_UART_INSTANCES, u.val = id.toNat → (some c).isSome = true →
          (uarts u).initialized = false := fun u hu _ => by
        rw [show u = ⟨id.toNat, Nat.lt_of_not_le hid⟩ from Fin.ext hu, hinit]
      rw [if_neg (by decide)]
      rcases circBufInit_outstanding ho c.rxBufferSize.toNat with e | ⟨h₁, p, g, e, hp, -, -, ho₁, hk₁⟩
      · left
        rw [e, Option.bind_some]
        rcases circBufInit_outstanding ho c.txBufferSize.toNat with e₂ | ⟨h₂, q, k, e₂, hq, -, -, ho₂, hk₂⟩
        · rw [e₂]
          exact ⟨h, _, rfl, ho, .refl G _, hother _, hfailed _ rfl, hthis⟩
        · obtain ⟨h₃, e₃, ho₃, hk₃⟩ := circBufDeinit_outstanding
            ⟨q, c.txBufferSize.toNat, 0, 0, 0⟩ ho₂
          rw [e₂, Option.bind_some]
          dsimp only
          rw [if_pos (.inl rfl), circBufDeinit, if_neg (by simp), Option.bind_some, e₃]
          exact ⟨h₃, _, rfl, ho₃, hk₂.trans hk₃, hother _, hfailed _ rfl, hthis⟩
      · rw [e, Option.bind_some]
        dsimp only
        rcases circBufInit_outstanding ho₁ c.txBufferSize.toNat with e₂ | ⟨h₂, q, k, e₂, hq, h0, hk, ho₂, hk₂⟩
        · -- the RX buffer goes back when there is no TX buffer
          left
          obtain ⟨h₃, e₃, ho₃, hk₃⟩ := circBufDeinit_outstanding
            ⟨p, c.rxBufferSize.toNat, 0, 0, 0⟩ ho₁
          rw [e₂, Option.bind_some]
          dsimp only
          rw [if_pos (.inr rfl), e₃]
          exact ⟨h₃, _, rfl, ho₃, hk₁.trans hk₃, hother _, hfailed _ rfl, hthis⟩
        · right; right
          rw [e₂, Option.bind_some]
          dsimp only
          rw [if_neg (by simp [hp, hq])]
          exact ⟨h₂, _, c, p, g, q, k, _, rfl, rfl, rfl, hinit, h0, hk, ho₂,
            hk₁.trans (hk₂.mono (Multiset.subset_cons _ _))⟩

/-- Without the sizes of the buffers. -/
theorem uartInit_outstanding (ho : Outstanding t h G) (uarts : UartInstances) (id : UInt8)
    (config : Option UartConfig) :
    (∃ h' uarts', uartInit t h uarts id config = some (h', uarts', none) ∧ Outstanding t h' G ∧
      Kept G h.mem h'.mem ∧ ∀ u, (uarts u).initialized = true → uarts' u = uarts u) ∨
    (∃ u, uartInit t h uarts id config = some (h, uarts, some u) ∧ (uarts u).initialized = true) ∨
    ∃ h' u c p g q k handle, uartInit t h uarts id config = some (h', Function.update uarts u handle, some u) ∧
      handle = ⟨id, c, ⟨p, c.rxBufferSize.toNat, 0, 0, 0⟩, ⟨q, c.txBufferSize.toNat, 0, 0, 0⟩, 0, 0, 0, 0,
        true, false⟩ ∧ config = some c ∧ (uarts u).initialized = false ∧
      Outstanding t h' ((q, k) ::ₘ (p, g) ::ₘ G) ∧ Kept G h.mem h'.mem := by
  rcases uartInit_granted ho uarts id config with ⟨h', uarts', e, ho', hk, hu, -⟩ | ⟨u, e, hu, -⟩ |
    ⟨h', u, c, p, g, q, k, handle, e, hh, hc, hu, -, -, ho', hk⟩
  · exact .inl ⟨h', uarts', e, ho', hk, hu⟩
  · exact .inr (.inl ⟨u, e, hu⟩)
  · exact .inr (.inr ⟨h', u, c, p, g, q, k, handle, e, hh, hc, hu, ho', hk⟩)

/-- The handle is the entry that the id names. -/
theorem uartInit_index {h' : HeapState} {uarts' : UartInstances} {id : UInt8} {config : Option UartConfig}
    (e : uartInit t h uarts id config = some (h', uarts', some u)) : u.val = id.toNat := by
  unfold uartInit at e
  split at e
  · cases e
  · cases config with
    | none => cases e
    | some config =>
      dsimp only at e
      split at e
      · cases e
        rfl
      · obtain ⟨⟨h₁, rxBuffer⟩, -, e⟩ := Option.bind_eq_some_iff.1 e
        obtain ⟨⟨h₂, txBuffer⟩, -, e⟩ := Option.bind_eq_some_iff.1 e
        dsimp only at e
        split at e
        · -- a failed initialisation has no handle
          obtain ⟨⟨h₃, rxBuffer'⟩, -, e⟩ := Option.bind_eq_some_iff.1 e
          obtain ⟨⟨h₄, txBuffer'⟩, -, e⟩ := Option.map_eq_some_iff.1 e
          cases e
        · cases e
          rfl

/-- Deinitialising a UART takes both grants back. -/
theorem uartDeinit_outstanding (hinit : (uarts u).initialized = true)
    (ho : Outstanding t h (((uarts u).txBuffer.buffer, k) ::ₘ ((uarts u).rxBuffer.buffer, g) ::ₘ G)) :
    ∃ h' handle, uartDeinit t h uarts (some u) = some (h', Function.update uarts u handle, .ok) ∧
      handle.initialized = false ∧ Outstanding t h' G ∧ Kept G h.mem h'.mem := by
  rw [Multiset.cons_swap] at ho
  obtain ⟨h₁, e₁, ho₁, hk₁⟩ := circBufDeinit_outstanding _ ho
  obtain ⟨h₂, e₂, ho₂, hk₂⟩ := circBufDeinit_outstanding _ ho₁
  refine ⟨h₂, { uarts u with
    rxBuffer := { (uarts u).rxBuffer with buffer := 0 }
    txBuffer := { (uarts u).txBuffer with buffer := 0 }
    initialized := false }, ?_, rfl, ho₂, (hk₁.mono (Multiset.subset_cons _ _)).trans hk₂⟩
  rw [uartDeinit, hinit]
  dsimp only
  rw [if_neg (by decide), e₁, Option.bind_some]
  dsimp only
  rw [e₂]
  rfl

/-- A configuration with buffers of 16 and 4 bytes. -/
def boardConfig : UartConfig := ⟨.baud115200, .none, .one, .eight, false, true, 16, 4⟩

/-- Entries not initialised, whose configurations are not read. -/
def boardUarts : UartInstances :=
  fun _ => ⟨0, boardConfig, ⟨0, 0, 0, 0, 0⟩, ⟨0, 0, 0, 0, 0⟩, 0, 0, 0, 0, false, false⟩

end Rtos.Drivers
