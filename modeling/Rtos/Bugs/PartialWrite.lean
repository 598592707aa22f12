import Rtos.Bugs.TxBuffer

/-!
# A write turned down stays in the TX buffer

`uart_write` puts the bytes into the TX buffer one by one and returns
`RTOS_ERROR_BUSY` from the middle of this loop when there is no room for the
next one. The bytes before it stay in the buffer, and the caller, who is not
told how many they are, sends them twice when it tries again. `mq_send` and
`uart_init` leave nothing behind when they fail.

`busy_atomic_iff`: a write that fails has left the buffer alone exactly when
there was no room for its first byte.
-/
namespace Rtos.Drivers

open Rtos.Core Rtos.Heap
open Rtos.Sched (RtosStatus)

variable {t : Target} {callbacks : Nat → Nat → Mem × UartHandle → Mem × UartHandle} {m : Mem}
  {uart : UartHandle} {data : Nat → UInt8} {len : Nat}

/-- If this write fails, the TX buffer and its bytes are as before. -/
def BusyAtomic (t : Target) (callbacks : Nat → Nat → Mem × UartHandle → Mem × UartHandle) (m : Mem)
    (uart : UartHandle) (data : Nat → UInt8) (len : Nat) : Prop :=
  ∀ m' uart', uartWrite t callbacks m (some uart) (some data) len = (m', some uart', .errorBusy) →
    uart'.txBuffer = uart.txBuffer ∧
      ∀ i, i < uart.txBuffer.size → m' (t.add uart.txBuffer.buffer i) = m (t.add uart.txBuffer.buffer i)

/-- A write into a full buffer changes nothing. -/
theorem uartWrite_full (hinit : uart.initialized = true) (hlen : len ≠ 0)
    (hfull : uart.txBuffer.size ≤ uart.txBuffer.count) :
    uartWrite t callbacks m (some uart) (some data) len = (m, some uart, .errorBusy) := by
  obtain ⟨n, rfl⟩ := Nat.exists_eq_succ_of_ne_zero hlen
  unfold uartWrite uartWriteLoop circBufPut
  dsimp only
  rw [if_neg (by simp [hinit]), if_pos hfull]

/-- A write that does not fit fills the buffer. -/
theorem uartWrite_overfull (callbacks : Nat → Nat → Mem × UartHandle → Mem × UartHandle) (m : Mem)
    (data : Nat → UInt8) (hinit : uart.initialized = true) (hsize : uart.txBuffer.size < t.sizeMod)
    (hcount : uart.txBuffer.count ≤ uart.txBuffer.size) (hover : uart.txBuffer.size < uart.txBuffer.count + len) :
    ∃ m' uart', uartWrite t callbacks m (some uart) (some data) len = (m', some uart', .errorBusy) ∧
      uart'.txBuffer.count = uart.txBuffer.size := by
  obtain ⟨m', cb', e, -, hc⟩ := uartWriteLoop_count data len 0 m hsize hcount
  unfold uartWrite
  dsimp only
  rw [if_neg (by simp [hinit]; omega), e, decide_eq_false (by omega)]
  exact ⟨m', _, rfl, by dsimp only; omega⟩

/-- A write that fits does not fail. -/
theorem uartWrite_fits (hsize : uart.txBuffer.size < t.sizeMod)
    (hfits : uart.txBuffer.count + len ≤ uart.txBuffer.size) {m' : Mem} {uart' : Option UartHandle} {st : RtosStatus}
    (e : uartWrite t callbacks m (some uart) (some data) len = (m', uart', st)) : st ≠ .errorBusy := by
  obtain ⟨m₁, cb₁, e₁, -, -⟩ := uartWriteLoop_count data len 0 m hsize (Nat.le_of_add_right_le hfits)
  rw [decide_eq_true hfits] at e₁
  unfold uartWrite at e
  dsimp only at e
  rw [e₁] at e
  rintro rfl
  split at e
  · cases e
  · cases e

/-- **When a failed write is atomic**: when the write does not fail, because
it fits, or fails before its first byte, because the buffer is full. -/
theorem busy_atomic_iff (t : Target) (callbacks : Nat → Nat → Mem × UartHandle → Mem × UartHandle) (m : Mem)
    (uart : UartHandle) (hinit : uart.initialized = true) (hsize : uart.txBuffer.size < t.sizeMod)
    (data : Nat → UInt8) (len : Nat) :
    BusyAtomic t callbacks m uart data len ↔
      uart.txBuffer.count + len ≤ uart.txBuffer.size ∨ uart.txBuffer.size ≤ uart.txBuffer.count := by
  constructor
  · intro hatomic
    by_contra hno
    obtain ⟨m', uart', e, hc⟩ := uartWrite_overfull callbacks m data
      hinit hsize (by omega) (by omega : _ < _ + len)
    obtain ⟨hcb, -⟩ := hatomic m' uart' e
    rw [hcb] at hc
    omega
  · rintro (hfits | hfull) m' uart' e
    · exact absurd rfl (uartWrite_fits hsize hfits e)
    · by_cases hlen : len = 0
      · rw [hlen, uartWrite] at e
        dsimp only at e
        rw [if_pos (.inr rfl)] at e
        cases e
      · rw [uartWrite_full hinit hlen hfull] at e
        cases e
        exact ⟨rfl, fun _ _ => rfl⟩

/-- A write of four bytes fits into the empty buffer of four. -/
theorem busy_atomic_iff_board : ∃ h' uarts' u,
    uartInit board (HeapSys.boot board).heap boardUarts 0 (some boardConfig) = some (h', uarts', some u) ∧
    BusyAtomic board (fun _ _ s => s) h'.mem (uarts' u) (fun i => [84, 101, 115, 116].getD i 0) 4 := by
  obtain ⟨h', uarts', u, e, h⟩ := boardUart_init (fun _ uarts' u =>
    (uarts' u).initialized ∧ (uarts' u).txBuffer.size = 4 ∧ (uarts' u).txBuffer.count = 0) (by decide +kernel)
  obtain ⟨hinit, hsize, hcount⟩ := of_decide_eq_true h
  refine ⟨h', uarts', u, e, (busy_atomic_iff board _ h'.mem _ hinit (by rw [hsize]; decide) _ 4).2 (.inl ?_)⟩
  rw [hsize, hcount]

/-- A write of five bytes fails, and four of them are in the buffer. -/
theorem busy_not_atomic : ∃ h' uarts' u,
    uartInit board (HeapSys.boot board).heap boardUarts 0 (some boardConfig) = some (h', uarts', some u) ∧
    (uarts' u).initialized = true ∧
    ¬ BusyAtomic board (fun _ _ s => s) h'.mem (uarts' u) (fun i => [84, 101, 115, 116, 33].getD i 0) 5 := by
  obtain ⟨h', uarts', u, e, h⟩ := boardUart_init (fun h' uarts' u =>
    let r := uartWrite board (fun _ _ s => s) h'.mem (some (uarts' u))
      (some fun i => [84, 101, 115, 116, 33].getD i 0) 5
    (uarts' u).initialized ∧ (uarts' u).txBuffer.count = 0 ∧ r.2.2 = .errorBusy ∧
      r.2.1.any (·.txBuffer.count = 4)) (by decide +kernel)
  obtain ⟨hinit, hcount, hbusy, h4⟩ := of_decide_eq_true h
  refine ⟨h', uarts', u, e, hinit, fun hatomic => ?_⟩
  obtain ⟨uart', e₂, h4⟩ := (Option.any_eq_true _ _).1 h4
  obtain ⟨hcb, -⟩ := hatomic _ uart' (Prod.ext rfl (Prod.ext e₂ hbusy))
  rw [hcb, hcount] at h4
  cases h4

end Rtos.Drivers
