import Rtos.Ipc.Locks
import Rtos.Ipc.MessageQueue
import Rtos.Services.Discipline

/-!
# The services as the code runs them

A `Store` is what the functions work on: the heap with its bytes, the
application's `memory_pool_t` variables and `uart_instances`. `Store.call` runs
one function on it; `none` is a call that does not return.

`svcSys` are the runs of these functions in any order, from a heap just
initialised, as far as the application keeps to its discipline.
-/
namespace Rtos.Services

open Rtos.Core Rtos.Heap Rtos.Ipc
open Rtos.Drivers (UartConfig UartHandle UartInstances MAX_UART_INSTANCES)

structure Store where
  heap : HeapState
  pools : Nat → MemoryPool
  uarts : UartInstances

/-- Other bytes in the heap. -/
def Store.setMem (s : Store) (m : Mem) : Store := { s with heap := { s.heap with mem := m } }

section

variable (t : Target) (callbacks : Nat → Nat → Mem × UartHandle → Mem × UartHandle) (task : UInt32) (s : Store)

/-- A function that writes to an entry of `uart_instances` only. -/
def Store.onUart (u : Fin MAX_UART_INSTANCES) (r : Option UartHandle × α) (ret : α → Ret) : Option (Store × Ret) :=
  some ({ s with uarts := Function.update s.uarts u (r.1.getD (s.uarts u)) }, ret r.2)

/-- One call of the task with id `task`. -/
def Store.call : Call → Option (Store × Ret)
  | .malloc size => (rtosMalloc t s.heap size).map fun r => ({ s with heap := r.1 }, .ptr r.2)
  | .calloc num size => (rtosCalloc t s.heap num size).map fun r => ({ s with heap := r.1 }, .ptr r.2)
  | .realloc ptr newSize => (rtosRealloc t s.heap ptr newSize).map fun r => ({ s with heap := r.1 }, .ptr r.2)
  | .free ptr => (rtosFree t s.heap ptr).map fun h => ({ s with heap := h }, .unit)
  | .store ptr i v => some (s.setMem (Function.update s.heap.mem (ptr + i) v), .unit)
  | .load ptr i => some (s, .byte (s.heap.mem (ptr + i)))
  | .mqCreate msgSize maxMsgs => (mqCreate t s.heap msgSize maxMsgs).map fun r => ({ s with heap := r.1 }, .ptr r.2)
  | .mqSend mq msg => (mqSend t s.heap.mem mq msg).map fun r => (s.setMem r.1, .status r.2)
  | .mqReceive mq msg => (mqReceive t s.heap.mem mq msg).map fun r => (s.setMem r.1, .message r.2.1 r.2.2)
  | .mqDestroy mq => (mqDestroy t s.heap mq).map fun h => ({ s with heap := h }, .unit)
  | .semCreate initialCount maxCount =>
    (semCreate t s.heap initialCount.toNat maxCount.toNat).map fun r => ({ s with heap := r.1 }, .ptr r.2)
  | .semTake sem timeout => some (s.setMem (semTake s.heap.mem sem timeout).1, .status (semTake s.heap.mem sem timeout).2)
  | .semGive sem => some (s.setMem (semGive s.heap.mem sem).1, .status (semGive s.heap.mem sem).2)
  | .semDestroy sem => (semDestroy t s.heap sem).map fun h => ({ s with heap := h }, .unit)
  | .mutexCreate => (mutexCreate t s.heap).map fun r => ({ s with heap := r.1 }, .ptr r.2)
  | .mutexLock mutex timeout =>
    some (s.setMem (mutexLock s.heap.mem mutex timeout task).1, .status (mutexLock s.heap.mem mutex timeout task).2)
  | .mutexUnlock mutex =>
    some (s.setMem (mutexUnlock s.heap.mem mutex task).1, .status (mutexUnlock s.heap.mem mutex task).2)
  | .mutexDestroy mutex => (mutexDestroy t s.heap mutex).map fun h => ({ s with heap := h }, .unit)
  | .poolCreate pool blockSize numBlocks =>
    (memoryPoolCreate t s.heap (some (s.pools pool)) blockSize numBlocks).map fun r =>
      ({ s with heap := r.1, pools := Function.update s.pools pool (r.2.1.getD (s.pools pool)) }, .status r.2.2)
  | .poolAlloc pool =>
    let r := memoryPoolAlloc t s.heap.mem (some (s.pools pool))
    some ({ s.setMem r.1 with pools := Function.update s.pools pool (r.2.1.getD (s.pools pool)) }, .ptr r.2.2)
  | .poolFree pool ptr => (memoryPoolFree t s.heap.mem (some (s.pools pool)) ptr).map fun r =>
      ({ s.setMem r.1 with pools := Function.update s.pools pool (r.2.1.getD (s.pools pool)) }, .status r.2.2)
  | .poolDestroy pool => (memoryPoolDestroy t s.heap (some (s.pools pool))).map fun r =>
      ({ s with heap := r.1, pools := Function.update s.pools pool (r.2.getD (s.pools pool)) }, .unit)
  | .blockStore _ ptr i v => some (s.setMem (Function.update s.heap.mem (ptr + i) v), .unit)
  | .blockLoad _ ptr i => some (s, .byte (s.heap.mem (ptr + i)))
  | .uartInit id config => (Drivers.uartInit t s.heap s.uarts id config).map fun r =>
      ({ s with heap := r.1, uarts := r.2.1 }, .uart r.2.2)
  | .uartWrite u data len =>
    let r := Drivers.uartWrite t callbacks s.heap.mem (some (s.uarts u)) data len
    (s.setMem r.1).onUart u r.2 .status
  | .uartWriteDma u data len => s.onUart u (Drivers.uartWriteDma (some (s.uarts u)) data len) .status
  | .uartRead u buffer len bytesRead =>
    s.onUart u (Drivers.uartRead t s.heap.mem (some (s.uarts u)) buffer len bytesRead) fun r => .read r.1 r.2.1 r.2.2
  | .uartAvailable u => some (s, .count (Drivers.uartAvailable (some (s.uarts u))))
  | .uartFlush u => s.onUart u (Drivers.uartFlush (some (s.uarts u))) .status
  | .uartSetCallback u callback userData =>
    s.onUart u (Drivers.uartSetCallback (some (s.uarts u)) callback userData) .status
  | .uartDeinit u => (Drivers.uartDeinit t s.heap s.uarts (some u)).map fun r =>
      ({ s with heap := r.1, uarts := r.2.1 }, .status r.2.2)

end

structure Sys where
  store : Store
  live : Live

section

variable (t : Target) (callbacks : Nat → Nat → Mem × UartHandle → Mem × UartHandle)

/-- The heap just initialised, no UART initialised, anything in the
application's variables. -/
def Booted (s : Sys) : Prop :=
  s.store.heap = (HeapSys.boot t).heap ∧ (∀ u, (s.store.uarts u).initialized = false) ∧ s.live = fun _ => none

def svcSys : LTS Sys Event where
  init := Booted t
  step s e s' := Legal t s.live e.call ∧ s.store.call t callbacks e.task e.call = some (s'.store, e.ret) ∧
    s'.live = s.live.after e.call e.ret

/-- The specification as a system: from no objects. -/
def spec : LTS World Event where
  init W := W = fun _ => none
  step W e W' := step e.task W e.ret W' e.call

end

end Rtos.Services
