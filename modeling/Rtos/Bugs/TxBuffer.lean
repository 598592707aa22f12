import Rtos.Drivers.Uart

/-!
# Nothing drains the TX buffer of a UART

`uart_write` is documented as blocking: it puts each byte into the TX buffer
and transmits it. But no function takes a byte out of that buffer again, and
`uart_irq_handler` only prints. So the bytes of every write stay, and when
they add up to the size of the buffer the next write fails.

`writes_ok_iff`: on a UART just initialised all writes of a sequence succeed
exactly when their lengths add up to at most `tx_buffer_size`.
-/
namespace Rtos.Drivers

open Rtos.Core Rtos.Heap
open Rtos.Sched (RtosStatus)

section

variable (t : Target) (callbacks : Nat → Nat → Mem × UartHandle → Mem × UartHandle)

/-- Writes one after the other, each with its bytes and length, and what they
returned. -/
def uartWrites (m : Mem) (uart : UartHandle) : List ((Nat → UInt8) × Nat) → Mem × UartHandle × List RtosStatus
  | [] => (m, uart, [])
  | w :: ws =>
    let r := uartWrite t callbacks m (some uart) (some w.1) w.2
    let rs := uartWrites r.1 (r.2.1.getD uart) ws
    (rs.1, rs.2.1, r.2.2 :: rs.2.2)

end

variable {t : Target} {callbacks : Nat → Nat → Mem × UartHandle → Mem × UartHandle} {m : Mem}
  {cb : CircularBuffer} {uart : UartHandle} {n i : Nat} {data : Nat → UInt8}

/-- A byte is put while there is room. -/
theorem circBufPut_count (hsize : cb.size < t.sizeMod) (hc : cb.count < cb.size) (m : Mem) (data : UInt8) :
    ∃ m' cb', circBufPut t m cb data = (m', cb', true) ∧ cb'.size = cb.size ∧ cb'.count = cb.count + 1 := by
  rw [circBufPut, if_neg (by omega)]
  exact ⟨_, _, rfl, rfl, Target.add_of_lt (by omega)⟩

/-- The bytes of a write all find room, or the buffer is full at its end. -/
theorem uartWriteLoop_count (data : Nat → UInt8) (n i : Nat) (m : Mem) (hsize : cb.size < t.sizeMod)
    (hc : cb.count ≤ cb.size) :
    ∃ m' cb', uartWriteLoop t data n i m cb = (m', cb', decide (cb.count + n ≤ cb.size)) ∧
      cb'.size = cb.size ∧ cb'.count = min (cb.count + n) cb.size := by
  induction n generalizing i m cb with
  | zero => exact ⟨m, cb, by rw [uartWriteLoop, decide_eq_true (by omega)], rfl, by omega⟩
  | succ n ih =>
    unfold uartWriteLoop
    by_cases hlt : cb.count < cb.size
    · obtain ⟨m₁, cb₁, e, hs, hc₁⟩ := circBufPut_count hsize hlt m (data i)
      obtain ⟨m₂, cb₂, e₂, hs₂, hc₂⟩ := @ih cb₁ (i + 1) m₁ (by omega) (by omega)
      rw [e]
      dsimp only
      rw [e₂]
      refine ⟨m₂, cb₂, ?_, by omega, by omega⟩
      rw [hs, hc₁, Nat.add_assoc, Nat.add_comm 1 n]
    · rw [circBufPut, if_pos (by omega)]
      refine ⟨m, cb, ?_, rfl, by omega⟩
      rw [decide_eq_false (by omega)]

/-- One write on an initialised UART without a TX callback. -/
theorem uartWrite_count (callbacks : Nat → Nat → Mem × UartHandle → Mem × UartHandle) (m : Mem)
    (data : Nat → UInt8) (hinit : uart.initialized = true) (hcall : uart.txCallback = 0)
    (hsize : uart.txBuffer.size < t.sizeMod) (hc : uart.txBuffer.count ≤ uart.txBuffer.size) (hn : n ≠ 0) :
    ∃ m' uart', uartWrite t callbacks m (some uart) (some data) n = (m', some uart',
        if uart.txBuffer.count + n ≤ uart.txBuffer.size then .ok else .errorBusy) ∧
      uart'.initialized = true ∧ uart'.txCallback = 0 ∧ uart'.txBuffer.size = uart.txBuffer.size ∧
      uart'.txBuffer.count = min (uart.txBuffer.count + n) uart.txBuffer.size := by
  obtain ⟨m', cb', e, hs, hc'⟩ := uartWriteLoop_count data n 0 m hsize hc
  unfold uartWrite
  dsimp only
  rw [if_neg (by simp [hinit, hn]), e]
  by_cases hfit : uart.txBuffer.count + n ≤ uart.txBuffer.size
  · rw [decide_eq_true hfit, if_pos hfit]
    dsimp only
    rw [if_neg (not_not.2 hcall)]
    exact ⟨m', _, rfl, hinit, hcall, hs, hc'⟩
  · rw [decide_eq_false hfit, if_neg hfit]
    exact ⟨m', _, rfl, hinit, hcall, hs, hc'⟩

/-- The buffer fills up with the writes, and none fails before it is full. -/
theorem uartWrites_count (callbacks : Nat → Nat → Mem × UartHandle → Mem × UartHandle) (m : Mem)
    (uart : UartHandle) (hinit : uart.initialized = true) (hcall : uart.txCallback = 0)
    (hsize : uart.txBuffer.size < t.sizeMod) (hc : uart.txBuffer.count ≤ uart.txBuffer.size)
    (ws : List ((Nat → UInt8) × Nat)) (hws : ∀ w ∈ ws, w.2 ≠ 0) :
    ((∀ st ∈ (uartWrites t callbacks m uart ws).2.2, st = .ok) ↔
      uart.txBuffer.count + (ws.map (·.2)).sum ≤ uart.txBuffer.size) ∧
    (uartWrites t callbacks m uart ws).2.1.txBuffer.count =
      min (uart.txBuffer.count + (ws.map (·.2)).sum) uart.txBuffer.size := by
  induction ws generalizing m uart with
  | nil =>
    refine ⟨iff_of_true (fun _ h => absurd h List.not_mem_nil) ?_, ?_⟩
    · rw [List.map_nil, List.sum_nil]; omega
    · show uart.txBuffer.count = _
      rw [List.map_nil, List.sum_nil]; omega
  | cons w ws ih =>
    obtain ⟨m₁, u₁, e, h1, h2, h3, h4⟩ := uartWrite_count callbacks m w.1
      hinit hcall hsize hc (hws w List.mem_cons_self)
    obtain ⟨ih1, ih2⟩ := ih m₁ u₁ h1 h2 (by omega) (by omega)
      fun w h => hws w (List.mem_cons_of_mem _ h)
    rw [uartWrites, e, List.map_cons, List.sum_cons]
    dsimp only [Option.getD_some]
    refine ⟨?_, by rw [ih2, h3, h4]; omega⟩
    rw [List.forall_mem_cons, ih1, h3, h4]
    by_cases hfit : uart.txBuffer.count + w.2 ≤ uart.txBuffer.size
    · rw [if_pos hfit]
      simp only [true_and]
      omega
    · have hpos := hws w List.mem_cons_self
      rw [if_neg hfit]
      refine iff_of_false (fun h => ?_) (by omega)
      cases h.1

/-- **When writes never starve each other**: all writes after `uart_init`
succeed if and only if their lengths add up to at most `tx_buffer_size`. Their
bytes are gone from the buffer only if there was no write. -/
theorem writes_ok_iff (t : Target) (callbacks : Nat → Nat → Mem × UartHandle → Mem × UartHandle)
    (hs : HeapSys) (h : (allocSys t).Reachable hs) (uarts uarts' : UartInstances) (id : UInt8)
    (config : UartConfig) (h' : HeapState) (u : Fin MAX_UART_INSTANCES)
    (hnew : (uarts u).initialized = false)
    (e : uartInit t hs.heap uarts id (some config) = some (h', uarts', some u))
    (ws : List ((Nat → UInt8) × Nat)) (hws : ∀ w ∈ ws, 1 ≤ w.2 ∧ w.2 ≤ config.txBufferSize.toNat) :
    ((∀ st ∈ (uartWrites t callbacks h'.mem (uarts' u) ws).2.2, st = .ok) ↔
      (ws.map (·.2)).sum ≤ config.txBufferSize.toNat) ∧
    ((uartWrites t callbacks h'.mem (uarts' u) ws).2.1.txBuffer.count = 0 ↔ ws = []) := by
  obtain ⟨G, ho, -⟩ := ((accounted_inductive t).reachable hs h).grants
  have hlt : config.txBufferSize.toNat < 2 ^ 16 := config.txBufferSize.toNat_lt
  have hmod := t.sizeMod_ge
  rcases uartInit_outstanding ho uarts id (some config) with
    ⟨_, _, e', -⟩ | ⟨u', e', hu⟩ | ⟨h₂, u', c, p, g, q, k, handle, e', rfl, hc, -, -⟩
  · rw [e'] at e
    cases e
  · rw [e'] at e
    cases e
    rw [hnew] at hu
    cases hu
  · rw [e'] at e
    cases hc
    cases e
    rw [Function.update_self]
    obtain ⟨h1, h2⟩ := uartWrites_count (t := t) callbacks h'.mem
      ⟨id, config, ⟨p, config.rxBufferSize.toNat, 0, 0, 0⟩, ⟨q, config.txBufferSize.toNat, 0, 0, 0⟩,
        0, 0, 0, 0, true, false⟩ rfl rfl (by dsimp only; omega) (Nat.zero_le _) ws
      fun w hw => by have := (hws w hw).1; omega
    rw [Nat.zero_add] at h1 h2
    refine ⟨h1, ?_⟩
    rw [h2]
    cases ws with
    | nil => simp
    | cons w ws =>
      obtain ⟨hw1, hw2⟩ := hws w List.mem_cons_self
      rw [List.map_cons, List.sum_cons]
      exact iff_of_false (by dsimp only; omega) (by simp)

theorem boardUart_init (P : HeapState → UartInstances → Fin MAX_UART_INSTANCES → Bool)
    (h : (uartInit board (HeapSys.boot board).heap boardUarts 0 (some boardConfig)).any (fun r =>
      r.2.2.any fun u => P r.1 r.2.1 u) = true) :
    ∃ h' uarts' u, uartInit board (HeapSys.boot board).heap boardUarts 0 (some boardConfig) =
      some (h', uarts', some u) ∧ P h' uarts' u = true := by
  obtain ⟨⟨h', uarts', u⟩, e, h⟩ := (Option.any_eq_true _ _).1 h
  obtain ⟨u, rfl, h⟩ := (Option.any_eq_true _ _).1 h
  exact ⟨h', uarts', u, e, h⟩

/-- Two writes of 2 bytes fill the buffer and succeed. -/
theorem writes_ok_iff_board : ∃ h' uarts' u,
    uartInit board (HeapSys.boot board).heap boardUarts 0 (some boardConfig) = some (h', uarts', some u) ∧
    ((∀ st ∈ (uartWrites board (fun _ _ s => s) h'.mem (uarts' u) [(fun _ => 1, 2), (fun _ => 2, 2)]).2.2,
      st = .ok) ↔ 4 ≤ 4) := by
  obtain ⟨h', uarts', u, e, -⟩ := boardUart_init (fun _ _ _ => true) (by decide +kernel)
  have hws : ∀ w ∈ [((fun _ => 1 : Nat → UInt8), 2), (fun _ => 2, 2)],
      1 ≤ w.2 ∧ w.2 ≤ boardConfig.txBufferSize.toNat := by
    intro w hw
    rcases List.mem_cons.1 hw with rfl | hw
    · decide
    · rw [List.mem_singleton.1 hw]; decide
  exact ⟨h', uarts', u, e, (writes_ok_iff board (fun _ _ s => s) (HeapSys.boot board) ⟨_, [], rfl, .nil _⟩
    boardUarts uarts' 0 boardConfig h' u rfl e _ hws).1⟩

/-- After "Test" a write of one byte is turned down. -/
theorem write_starved : ∃ h' uarts' u,
    uartInit board (HeapSys.boot board).heap boardUarts 0 (some boardConfig) = some (h', uarts', some u) ∧
    (uartWrites board (fun _ _ s => s) h'.mem (uarts' u)
      [(fun i => [84, 101, 115, 116].getD i 0, 4), (fun _ => 33, 1)]).2.2 = [.ok, .errorBusy] := by
  obtain ⟨h', uarts', u, e, h⟩ := boardUart_init (fun h' uarts' u =>
    (uartWrites board (fun _ _ s => s) h'.mem (uarts' u)
      [(fun i => [84, 101, 115, 116].getD i 0, 4), (fun _ => 33, 1)]).2.2 = [.ok, .errorBusy]) (by decide +kernel)
  exact ⟨h', uarts', u, e, of_decide_eq_true h⟩

end Rtos.Drivers
