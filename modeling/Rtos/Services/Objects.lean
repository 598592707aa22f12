import Rtos.Core.LTS
import Rtos.Drivers.Uart
import Rtos.Heap.Pool

/-!
# The services without memory: independent objects

What the heap, the IPC functions, the pools and the UARTs are for: a `World`
of objects, each under the handle that its creation returned, and calls that
act on one object and leave the others alone. No addresses of bytes, no
headers, no wrapping: a queue is its messages, a semaphore two numbers, a mutex
the id of its owner, memory a list of bytes.

`step` is the whole specification. It leaves open which handle a creation
returns, whether it fails, and what memory holds that nobody has written.
-/
namespace Rtos.Services

open Rtos.Sched (RtosStatus)
open Rtos.Drivers (UartConfig MAX_UART_INSTANCES)

/-- A pointer that a creation returned, one of the application's
`memory_pool_t` variables, or an entry of `uart_instances`. -/
inductive Handle
  | ptr (p : Nat)
  | pool (i : Nat)
  | uart (u : Fin MAX_UART_INSTANCES)
  deriving DecidableEq

/-- The blocks of a pool are `stride` bytes apart, and `none` while they are
free. `sent` are the bytes in the TX buffer of a UART. -/
inductive Object
  | bytes (data : List UInt8)
  | queue (msgSize maxMsgs : Nat) (msgs : List (List UInt8))
  | sem (count maxCount : Nat)
  | mutex (owner : Option UInt32)
  | pool (start stride blockSize numBlocks : Nat) (blocks : Nat → Option (List UInt8))
  | uart (config : UartConfig) (sent : List UInt8)

abbrev World := Handle → Option Object

/-- The functions an application calls. What a pointer argument points at is
given as an `Option`, `none` for NULL; `store` and `load` are accesses to
memory that was allocated, `blockStore` and `blockLoad` to a block of a pool. -/
inductive Call
  | malloc (size : Nat)
  | calloc (num size : Nat)
  | realloc (ptr newSize : Nat)
  | free (ptr : Nat)
  | store (ptr i : Nat) (v : UInt8)
  | load (ptr i : Nat)
  | mqCreate (msgSize maxMsgs : Nat)
  | mqSend (mq : Nat) (msg : Option (Nat → UInt8))
  | mqReceive (mq : Nat) (msg : Bool)
  | mqDestroy (mq : Nat)
  | semCreate (initialCount maxCount : UInt32)
  | semTake (sem : Nat) (timeout : UInt32)
  | semGive (sem : Nat)
  | semDestroy (sem : Nat)
  | mutexCreate
  | mutexLock (mutex : Nat) (timeout : UInt32)
  | mutexUnlock (mutex : Nat)
  | mutexDestroy (mutex : Nat)
  | poolCreate (pool blockSize numBlocks : Nat)
  | poolAlloc (pool : Nat)
  | poolFree (pool ptr : Nat)
  | poolDestroy (pool : Nat)
  | blockStore (pool ptr i : Nat) (v : UInt8)
  | blockLoad (pool ptr i : Nat)
  | uartInit (uartId : UInt8) (config : Option UartConfig)
  | uartWrite (uart : Fin MAX_UART_INSTANCES) (data : Option (Nat → UInt8)) (len : Nat)
  | uartWriteDma (uart : Fin MAX_UART_INSTANCES) (data : Option (Nat → UInt8)) (len : Nat)
  | uartRead (uart : Fin MAX_UART_INSTANCES) (buffer : Option (Nat → UInt8)) (len : Nat) (bytesRead : Option Nat)
  | uartAvailable (uart : Fin MAX_UART_INSTANCES)
  | uartFlush (uart : Fin MAX_UART_INSTANCES)
  | uartSetCallback (uart : Fin MAX_UART_INSTANCES) (callback userData : Nat)
  | uartDeinit (uart : Fin MAX_UART_INSTANCES)

/-- What a call returns, with what it leaves behind its pointer arguments. -/
inductive Ret
  | unit
  | ptr (p : Nat)
  | status (st : RtosStatus)
  | byte (v : UInt8)
  | message (msg : List UInt8) (st : RtosStatus)
  | uart (u : Option (Fin MAX_UART_INSTANCES))
  | read (buffer : Option (Nat → UInt8)) (bytesRead : Option Nat) (st : RtosStatus)
  | count (n : Nat)

/-- A call of the task with id `task` and its result. -/
structure Event where
  task : UInt32
  call : Call
  ret : Ret

/-! ## What a call does to one object -/

/-- `none`: an object of another kind, or an access outside. -/
abbrev Act := Object → Option (Object × Ret)

namespace Act

def store (i : Nat) (v : UInt8) : Act
  | .bytes data => if i < data.length then some (.bytes (data.set i v), .unit) else none
  | _ => none

def load (i : Nat) : Act
  | .bytes data => data[i]?.map fun v => (.bytes data, .byte v)
  | _ => none

/-- A message is `msgSize` bytes of what the pointer points at. -/
def send (msg : Option (Nat → UInt8)) : Act
  | .queue msgSize maxMsgs msgs => match msg with
    | none => some (.queue msgSize maxMsgs msgs, .status .errorInvalidParam)
    | some msg =>
      if maxMsgs ≤ msgs.length then some (.queue msgSize maxMsgs msgs, .status .errorBusy)
      else some (.queue msgSize maxMsgs (msgs ++ [(List.range msgSize).map msg]), .status .ok)
  | _ => none

def receive (msg : Bool) : Act
  | .queue msgSize maxMsgs msgs =>
    if !msg then some (.queue msgSize maxMsgs msgs, .message [] .errorInvalidParam)
    else match msgs with
      | [] => some (.queue msgSize maxMsgs [], .message [] .errorTimeout)
      | x :: xs => some (.queue msgSize maxMsgs xs, .message x .ok)
  | _ => none

def take : Act
  | .sem count maxCount =>
    if count = 0 then some (.sem count maxCount, .status .errorTimeout)
    else some (.sem (count - 1) maxCount, .status .ok)
  | _ => none

def give : Act
  | .sem count maxCount =>
    if maxCount ≤ count then some (.sem count maxCount, .status .error)
    else some (.sem (count + 1) maxCount, .status .ok)
  | _ => none

def lock (task : UInt32) : Act
  | .mutex none => some (.mutex (some task), .status .ok)
  | .mutex (some owner) => some (.mutex (some owner), .status .errorTimeout)
  | _ => none

def unlock (task : UInt32) : Act
  | .mutex none => some (.mutex none, .status .error)
  | .mutex (some owner) =>
    if owner = task then some (.mutex none, .status .ok) else some (.mutex (some owner), .status .error)
  | _ => none

/-- The block that a pointer is the start of. -/
def blockAt (start stride numBlocks ptr : Nat) : Option Nat :=
  (List.range numBlocks).find? fun j => ptr = start + j * stride

def blockFree (ptr : Nat) : Act
  | .pool start stride blockSize numBlocks blocks => match blockAt start stride numBlocks ptr with
    | none => some (.pool start stride blockSize numBlocks blocks, .status .errorInvalidParam)
    | some j =>
      if (blocks j).isNone then some (.pool start stride blockSize numBlocks blocks, .status .error)
      else some (.pool start stride blockSize numBlocks (Function.update blocks j none), .status .ok)
  | _ => none

def blockStore (ptr i : Nat) (v : UInt8) : Act
  | .pool start stride blockSize numBlocks blocks =>
    (blockAt start stride numBlocks ptr).bind fun j => (blocks j).bind fun data =>
      if i < data.length then
        some (.pool start stride blockSize numBlocks (Function.update blocks j (some (data.set i v))), .unit)
      else none
  | _ => none

def blockLoad (ptr i : Nat) : Act
  | .pool start stride blockSize numBlocks blocks =>
    (blockAt start stride numBlocks ptr).bind fun j => (blocks j).bind fun data =>
      data[i]?.map fun v => (.pool start stride blockSize numBlocks blocks, .byte v)
  | _ => none

/-- What does not fit the TX buffer is cut off. -/
def write (data : Option (Nat → UInt8)) (len : Nat) : Act
  | .uart config sent => match data with
    | none => some (.uart config sent, .status .errorInvalidParam)
    | some data =>
      if len = 0 then some (.uart config sent, .status .errorInvalidParam)
      else if sent.length + len ≤ config.txBufferSize.toNat then
        some (.uart config (sent ++ (List.range len).map data), .status .ok)
      else
        some (.uart config (sent ++ (List.range (config.txBufferSize.toNat - sent.length)).map data),
          .status .errorBusy)
  | _ => none

def writeDma (data : Option (Nat → UInt8)) (len : Nat) : Act
  | .uart config sent =>
    if data.isNone ∨ len = 0 then some (.uart config sent, .status .errorInvalidParam)
    else if !config.enableDma then some (.uart config sent, .status .errorNotReady)
    else some (.uart config sent, .status .ok)
  | _ => none

/-- Nothing is ever received. -/
def read (buffer : Option (Nat → UInt8)) (bytesRead : Option Nat) : Act
  | .uart config sent =>
    if buffer.isNone ∨ bytesRead.isNone then some (.uart config sent, .read buffer bytesRead .errorInvalidParam)
    else some (.uart config sent, .read buffer (some 0) .ok)
  | _ => none

def available : Act
  | .uart config sent => some (.uart config sent, .count 0)
  | _ => none

def flush : Act
  | .uart config _ => some (.uart config [], .status .ok)
  | _ => none

def setCallback : Act
  | .uart config sent => some (.uart config sent, .status .ok)
  | _ => none

end Act

/-! ## What a call does to the world -/

section

variable (W : World) (r : Ret) (W' : World)

/-- Another object under a handle that was free, or NULL and nothing. -/
def Creates (P : Object → Prop) : Prop :=
  ∃ p, r = .ptr p ∧ ((p = 0 ∧ W' = W) ∨
    (p ≠ 0 ∧ W (.ptr p) = none ∧ ∃ o, P o ∧ W' = Function.update W (.ptr p) (some o)))

def Acts (h : Handle) (act : Act) : Prop :=
  ∃ o o', W h = some o ∧ act o = some (o', r) ∧ W' = Function.update W h (some o')

/-- On NULL a function returns `null`. -/
def ActsPtr (p : Nat) (null : Ret) (act : Act) : Prop :=
  (p = 0 ∧ r = null ∧ W' = W) ∨ (p ≠ 0 ∧ Acts W r W' (.ptr p) act)

def Destroys (p : Nat) : Prop :=
  r = .unit ∧ ((p = 0 ∧ W' = W) ∨ (p ≠ 0 ∧ W' = Function.update W (.ptr p) none))

/-- On a UART that is not initialised a function returns `idle`. -/
def ActsUart (u : Fin MAX_UART_INSTANCES) (idle : Ret) (act : Act) : Prop :=
  (W (.uart u) = none ∧ r = idle ∧ W' = W) ∨ Acts W r W' (.uart u) act

/-- Memory of `n` bytes that nobody has written. -/
def Fresh (n : Nat) (o : Object) : Prop := n ≠ 0 ∧ ∃ data : List UInt8, data.length = n ∧ o = .bytes data

/-- The bytes in front stay; the memory may move, and stays where it is when
there is no room. -/
def Resizes (p n : Nat) : Prop :=
  ∃ q data, r = .ptr q ∧ W (.ptr p) = some (.bytes data) ∧ ((q = 0 ∧ W' = W) ∨
    (q ≠ 0 ∧ (q = p ∨ W (.ptr q) = none) ∧ ∃ data' : List UInt8, data'.length = n ∧
      data'.take data.length = data.take n ∧
      W' = Function.update (Function.update W (.ptr p) none) (.ptr q) (some (.bytes data'))))

/-- The lowest free block, its contents as they happen to be. -/
def Grabs (i : Nat) : Prop :=
  ∃ start stride blockSize numBlocks blocks, W (.pool i) = some (.pool start stride blockSize numBlocks blocks) ∧
    match (List.range numBlocks).find? fun j => (blocks j).isNone with
    | none => r = .ptr 0 ∧ W' = W
    | some j => r = .ptr (start + j * stride) ∧ ∃ data : List UInt8, data.length = blockSize ∧
        W' = Function.update W (.pool i)
          (some (.pool start stride blockSize numBlocks (Function.update blocks j (some data))))

/-- All blocks free, or an error and nothing. -/
def MakesPool (i blockSize numBlocks : Nat) : Prop :=
  (∃ st, st ≠ .ok ∧ r = .status st ∧ W' = W) ∨
  (r = .status .ok ∧ ∃ start stride, 0 < start ∧ 0 < blockSize ∧ blockSize ≤ stride ∧ 0 < numBlocks ∧
    W' = Function.update W (.pool i) (some (.pool start stride blockSize numBlocks fun _ => none)))

/-- A UART already initialised is left as it is. -/
def Opens (id : UInt8) (config : Option UartConfig) : Prop :=
  (r = .uart none ∧ W' = W ∧ ∀ u : Fin MAX_UART_INSTANCES, u.val = id.toNat → config.isSome → W (.uart u) = none) ∨
  ∃ u : Fin MAX_UART_INSTANCES, u.val = id.toNat ∧ r = .uart (some u) ∧ ∃ c, config = some c ∧
    (((∃ c' sent, W (.uart u) = some (.uart c' sent)) ∧ W' = W) ∨
      (W (.uart u) = none ∧ W' = Function.update W (.uart u) (some (.uart c []))))

def Closes (u : Fin MAX_UART_INSTANCES) : Prop :=
  (W (.uart u) = none ∧ r = .status .errorInvalidParam ∧ W' = W) ∨
  (W (.uart u) ≠ none ∧ r = .status .ok ∧ W' = Function.update W (.uart u) none)

end

/-- The call `c` of the task `task` may take `W` to `W'` and return `r`. -/
def step (task : UInt32) (W : World) (r : Ret) (W' : World) : Call → Prop
  | .malloc size => Creates W r W' (Fresh size)
  | .calloc num size => Creates W r W' fun o => num * size ≠ 0 ∧ o = .bytes (List.replicate (num * size) 0)
  | .realloc ptr newSize =>
    if ptr = 0 then Creates W r W' (Fresh newSize)
    else if newSize = 0 then r = .ptr 0 ∧ W' = Function.update W (.ptr ptr) none
    else Resizes W r W' ptr newSize
  | .free ptr => Destroys W r W' ptr
  | .store ptr i v => Acts W r W' (.ptr ptr) (.store i v)
  | .load ptr i => Acts W r W' (.ptr ptr) (.load i)
  | .mqCreate msgSize maxMsgs => Creates W r W' fun o => msgSize * maxMsgs ≠ 0 ∧ o = .queue msgSize maxMsgs []
  | .mqSend mq msg => ActsPtr W r W' mq (.status .errorInvalidParam) (.send msg)
  | .mqReceive mq msg => ActsPtr W r W' mq (.message [] .errorInvalidParam) (.receive msg)
  | .mqDestroy mq => Destroys W r W' mq
  | .semCreate initialCount maxCount => Creates W r W' (· = .sem initialCount.toNat maxCount.toNat)
  | .semTake sem _ => ActsPtr W r W' sem (.status .errorInvalidParam) .take
  | .semGive sem => ActsPtr W r W' sem (.status .errorInvalidParam) .give
  | .semDestroy sem => Destroys W r W' sem
  | .mutexCreate => Creates W r W' (· = .mutex none)
  | .mutexLock mutex _ => ActsPtr W r W' mutex (.status .errorInvalidParam) (.lock task)
  | .mutexUnlock mutex => ActsPtr W r W' mutex (.status .errorInvalidParam) (.unlock task)
  | .mutexDestroy mutex => Destroys W r W' mutex
  | .poolCreate pool blockSize numBlocks => MakesPool W r W' pool blockSize numBlocks
  | .poolAlloc pool => Grabs W r W' pool
  | .poolFree pool ptr => Acts W r W' (.pool pool) (.blockFree ptr)
  | .poolDestroy pool => r = .unit ∧ W' = Function.update W (.pool pool) none
  | .blockStore pool ptr i v => Acts W r W' (.pool pool) (.blockStore ptr i v)
  | .blockLoad pool ptr i => Acts W r W' (.pool pool) (.blockLoad ptr i)
  | .uartInit id config => Opens W r W' id config
  | .uartWrite u data len => ActsUart W r W' u (.status .errorInvalidParam) (.write data len)
  | .uartWriteDma u data len => ActsUart W r W' u (.status .errorInvalidParam) (.writeDma data len)
  | .uartRead u buffer _ bytesRead =>
    ActsUart W r W' u (.read buffer bytesRead .errorInvalidParam) (.read buffer bytesRead)
  | .uartAvailable u => ActsUart W r W' u (.count 0) .available
  | .uartFlush u => ActsUart W r W' u (.status .errorInvalidParam) .flush
  | .uartSetCallback u _ _ => ActsUart W r W' u (.status .errorInvalidParam) .setCallback
  | .uartDeinit u => Closes W r W' u

end Rtos.Services
