import Rtos.Sched.Scheduler

/-!
# src/kernel/task.c, and the calls an application makes

`call` and `apiCall` run one function of include/kernel/task.h or
include/kernel/scheduler.h: `none` when it does not return, otherwise the new
state and what it returns.
-/
namespace Rtos.Sched

/-- mirrors src/kernel/task.c:13-19 -/
def taskInit (k : Kernel) : Kernel :=
  { k with taskPool := fun _ => Tcb.zero, nextTaskId := 1, currentTask := none }

/-- The words of the initial stack frame, in the order they are pushed:
xPSR, PC, LR, R12, R3-R0, then R11-R4.
mirrors src/kernel/task.c:36-53 -/
def stackFrame (function params : UInt32) : List UInt32 :=
  [0x01000000, function, 0xFFFFFFFD, 0x12121212, 0x03030303, 0x02020202, 0x01010101, params,
   0x11111111, 0x10101010, 0x09090909, 0x08080808, 0x07070707, 0x06060606, 0x05050505, 0x04040404]

/-- mirrors src/kernel/task.c:22-56 -/
def taskInitStack (tcb : Tcb) (function params : UInt32) : Tcb :=
  let (top, stack) := (stackFrame function params).foldl
    (fun (top, stack) w => (top - 1, Function.update stack (top - 1) w))
    (TASK_STACK_SIZE - 1, tcb.stack)
  { tcb with stackPtr := some top, stack := stack }

/-- The first slot that is deleted or was never used.
mirrors src/kernel/task.c:73-80 -/
def findFreeTcb (k : Kernel) : Option TaskPtr :=
  (List.finRange MAX_TASKS).find? fun i => k.state i = .deleted ∨ k.taskId i = 0

/-- The TCB a successful `task_create` fills in.
mirrors src/kernel/task.c:88-96 -/
def newTcb (k : Kernel) (function : UInt32) (name : Option (List Char)) (priority : UInt8)
    (params : UInt32) : Tcb :=
  taskInitStack
    { Tcb.zero with taskId := k.nextTaskId, priority := priority, state := .ready,
                    name := (name.getD "unnamed".toList).take 15 }
    function params

/-- `function` is `none` for NULL, else the word the pointer is cast to;
`wantId` says that the `task_id` pointer is not NULL, and the last component
is what is stored through it.
mirrors src/kernel/task.c:59-111 -/
def taskCreate (k : Kernel) (function : Option UInt32) (name : Option (List Char)) (priority : UInt8)
    (params : UInt32) (wantId : Bool) : Option (Kernel × RtosStatus × Option UInt32) :=
  match function with
  | none => some (k, .errorInvalidParam, none)
  | some f =>
    if priority.toNat ≥ NUM_PRIORITY_LEVELS then some (k, .errorInvalidParam, none)
    else
      match findFreeTcb k with
      | none => some (k, .errorNoMemory, none)
      | some t =>
        let k := { k.setTcb t (newTcb k f name priority params) with nextTaskId := k.nextTaskId + 1 }
        (schedulerAddTask k (some t)).map fun k =>
          (k, .ok, if wantId then some (k.taskId t) else none)

/-- mirrors src/kernel/task.c:212-220 -/
def taskGetTcb (k : Kernel) (taskId : UInt32) : Option TaskPtr :=
  (List.finRange MAX_TASKS).find? fun i => k.taskId i = taskId ∧ k.state i ≠ .deleted

theorem tcb_spec {k : Kernel} {id : UInt32} {t : TaskPtr} (h : taskGetTcb k id = some t) :
    k.taskId t = id ∧ k.state t ≠ .deleted := by
  simpa using List.find?_some h

/-- mirrors src/kernel/task.c:197-199 -/
def taskYield (k : Kernel) : Option Kernel := schedulerYield k

/-- If `tcb` is the current task, trigger scheduling.
mirrors src/kernel/task.c:132-137 and :157-161 -/
def yieldIfCurrent (k : Kernel) (tcb : TaskPtr) : Option (Kernel × RtosStatus) :=
  if k.currentTask = some tcb then (taskYield k).map fun k => (k, .ok) else some (k, .ok)

/-- mirrors src/kernel/task.c:114-138 -/
def taskDelete (k : Kernel) (taskId : UInt32) : Option (Kernel × RtosStatus) :=
  match taskGetTcb k taskId with
  | none => some (k, .errorInvalidParam)
  | some tcb =>
    (schedulerRemoveTask k (some tcb)).bind fun k => yieldIfCurrent (k.setState tcb .deleted) tcb

/-- mirrors src/kernel/task.c:141-162 -/
def taskSuspend (k : Kernel) (taskId : UInt32) : Option (Kernel × RtosStatus) :=
  match taskGetTcb k taskId with
  | none => some (k, .errorInvalidParam)
  | some tcb =>
    if k.state tcb = .deleted then some (k, .errorInvalidParam)
    else (schedulerRemoveTask (k.setState tcb .suspended) (some tcb)).bind (yieldIfCurrent · tcb)

/-- mirrors src/kernel/task.c:165-182 -/
def taskResume (k : Kernel) (taskId : UInt32) : Option (Kernel × RtosStatus) :=
  match taskGetTcb k taskId with
  | none => some (k, .errorInvalidParam)
  | some tcb =>
    if k.state tcb ≠ .suspended then some (k, .errorInvalidParam)
    else (schedulerAddTask (k.setState tcb .ready) (some tcb)).map fun k => (k, .ok)

/-- Stamp the current task's wake time and block it.
mirrors src/kernel/task.c:188-190 -/
def blockCurrent (k : Kernel) (c : TaskPtr) (ticks : UInt32) : Option Kernel :=
  let k := k.setWakeTime c (schedulerGetTickCount k + ticks)
  schedulerRemoveTask (k.setState c .blocked) (some c)

/-- mirrors src/kernel/task.c:185-194 -/
def taskDelay (k : Kernel) (ticks : UInt32) : Option Kernel :=
  match k.currentTask with
  | none => some k
  | some c => if ticks > 0 then (blockCurrent k c ticks).bind taskYield else some k

/-- mirrors src/kernel/task.c:202-204 -/
def taskGetCurrentId (k : Kernel) : UInt32 :=
  match k.currentTask with
  | some c => k.taskId c
  | none => 0

/-- mirrors src/kernel/task.c:207-209 -/
def taskGetCurrentTcb (k : Kernel) : Option TaskPtr := k.currentTask

/-! ## Calls -/

/-- What an application calls once the kernel is initialised. -/
inductive Call where
  | taskCreate (function : Option UInt32) (name : Option (List Char)) (priority : UInt8)
      (params : UInt32) (wantId : Bool)
  | taskDelete (taskId : UInt32)
  | taskSuspend (taskId : UInt32)
  | taskResume (taskId : UInt32)
  | taskDelay (ticks : UInt32)
  | taskYield
  | schedulerYield
  | schedulerTick
  | schedulerStart
  deriving DecidableEq, Repr

/-- All functions the two headers declare for use from outside. -/
inductive ApiCall where
  | app (c : Call)
  | taskInit
  | schedulerInit
  | schedulerAddTask (tcb : Option TaskPtr)
  | schedulerRemoveTask (tcb : Option TaskPtr)
  deriving DecidableEq, Repr

/-- The returned status (`none` for a `void` function) and the id stored
through `task_create`'s `task_id`. -/
structure Ret where
  status : Option RtosStatus
  taskId : Option UInt32
  deriving DecidableEq, Repr

def Ret.void : Ret := ⟨none, none⟩

def call (k : Kernel) : Call → Option (Kernel × Ret)
  | .taskCreate function name priority params wantId =>
    (taskCreate k function name priority params wantId).map fun (k, st, id) => (k, ⟨some st, id⟩)
  | .taskDelete id => (taskDelete k id).map fun (k, st) => (k, ⟨some st, none⟩)
  | .taskSuspend id => (taskSuspend k id).map fun (k, st) => (k, ⟨some st, none⟩)
  | .taskResume id => (taskResume k id).map fun (k, st) => (k, ⟨some st, none⟩)
  | .taskDelay ticks => (taskDelay k ticks).map (·, .void)
  | .taskYield => (taskYield k).map (·, .void)
  | .schedulerYield => (schedulerYield k).map (·, .void)
  | .schedulerTick => (schedulerTick k).map (·, .void)
  | .schedulerStart => (schedulerStart k).map (·, .void)

def apiCall (k : Kernel) : ApiCall → Option (Kernel × Ret)
  | .app c => call k c
  | .taskInit => some (taskInit k, .void)
  | .schedulerInit => some (schedulerInit k, .void)
  | .schedulerAddTask tcb => (schedulerAddTask k tcb).map (·, .void)
  | .schedulerRemoveTask tcb => (schedulerRemoveTask k tcb).map (·, .void)

/-- The static variables before any call. -/
def Kernel.static : Kernel := ⟨fun _ => Tcb.zero, 1, none, fun _ => none, 0, false, none, none⟩

/-- After `task_init` and `scheduler_init`. -/
def Kernel.boot : Kernel := schedulerInit (taskInit Kernel.static)

end Rtos.Sched
