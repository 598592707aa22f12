import Mathlib.Algebra.Group.Nat.Defs
import Mathlib.Logic.Function.Basic
import Rtos.Core.Chain

/-!
# The state of the kernel: task control blocks and the scheduler's variables

The static variables of src/kernel/task.c and src/kernel/scheduler.c in one
record. A `tcb_t *` is a slot of `task_pool` or NULL (`Option TaskPtr`): the
pool is the only array of TCBs. `printf` output and the simulated
`context_switch`, which only prints, are left out.
-/
namespace Rtos.Sched

/-- mirrors include/rtos_types.h:16-24 -/
inductive RtosStatus where
  | ok | error | errorTimeout | errorNoMemory | errorInvalidParam | errorBusy | errorNotReady
  deriving DecidableEq, Repr

/-- mirrors include/rtos_types.h:27-33 -/
inductive TaskState where
  | ready | running | blocked | suspended | deleted
  deriving DecidableEq, Repr

/-- mirrors include/rtos_types.h:41-45 -/
abbrev NUM_PRIORITY_LEVELS : Nat := 32
abbrev MAX_TASKS : Nat := 16
abbrev TASK_STACK_SIZE : Nat := 1024

/-- A non-NULL `tcb_t *`: a slot of `task_pool`. -/
abbrev TaskPtr := Fin MAX_TASKS

/-- `stackPtr` is the index in `stack` of the word `stack_ptr` points at;
`name` holds the characters before the terminator.
mirrors include/kernel/task.h:7-16 -/
structure Tcb where
  stackPtr : Option Nat
  stack : Nat → UInt32
  state : TaskState
  priority : UInt8
  taskId : UInt32
  name : List Char
  wakeTime : UInt32
  next : Option TaskPtr

/-- `memset(tcb, 0, sizeof(tcb_t))`: `TASK_STATE_READY` is 0. -/
def Tcb.zero : Tcb := ⟨none, fun _ => 0, .ready, 0, 0, [], 0, none⟩

/-- mirrors src/kernel/task.c:8-10 and src/kernel/scheduler.c:11-17 -/
structure Kernel where
  taskPool : TaskPtr → Tcb
  nextTaskId : UInt32
  currentTask : Option TaskPtr
  readyLists : Nat → Option TaskPtr
  systemTickCount : UInt32
  schedulerRunning : Bool
  currentTcb : Option TaskPtr
  delayedList : Option TaskPtr

namespace Kernel

variable (k : Kernel)

def state (t : TaskPtr) : TaskState := (k.taskPool t).state
def priority (t : TaskPtr) : UInt8 := (k.taskPool t).priority
def taskId (t : TaskPtr) : UInt32 := (k.taskPool t).taskId
def wakeTime (t : TaskPtr) : UInt32 := (k.taskPool t).wakeTime
def next (t : TaskPtr) : Option TaskPtr := (k.taskPool t).next

def setTcb (t : TaskPtr) (x : Tcb) : Kernel := { k with taskPool := Function.update k.taskPool t x }

/-- `t->state = s` -/
def setState (t : TaskPtr) (s : TaskState) : Kernel := k.setTcb t { k.taskPool t with state := s }

/-- `t->next = u` -/
def setNext (t : TaskPtr) (u : Option TaskPtr) : Kernel := k.setTcb t { k.taskPool t with next := u }

/-- `t->wake_time = w` -/
def setWakeTime (t : TaskPtr) (w : UInt32) : Kernel := k.setTcb t { k.taskPool t with wakeTime := w }

/-- `ready_lists[p] = u` -/
def setReadyList (p : Nat) (u : Option TaskPtr) : Kernel :=
  { k with readyLists := Function.update k.readyLists p u }

/-! What the setters do to each field of the pool. -/

section Fields

variable (t : TaskPtr) (x : Tcb) (s : TaskState) (u : Option TaskPtr) (w : UInt32)

@[simp] theorem setTcb_state : (k.setTcb t x).state = Function.update k.state t x.state := by
  funext v; simp only [state, setTcb, Function.update_apply]; split <;> rfl

@[simp] theorem setTcb_priority : (k.setTcb t x).priority = Function.update k.priority t x.priority := by
  funext v; simp only [priority, setTcb, Function.update_apply]; split <;> rfl

@[simp] theorem setTcb_taskId : (k.setTcb t x).taskId = Function.update k.taskId t x.taskId := by
  funext v; simp only [taskId, setTcb, Function.update_apply]; split <;> rfl

@[simp] theorem setTcb_wakeTime : (k.setTcb t x).wakeTime = Function.update k.wakeTime t x.wakeTime := by
  funext v; simp only [wakeTime, setTcb, Function.update_apply]; split <;> rfl

@[simp] theorem setTcb_next : (k.setTcb t x).next = Function.update k.next t x.next := by
  funext v; simp only [next, setTcb, Function.update_apply]; split <;> rfl

@[simp] theorem setState_state : (k.setState t s).state = Function.update k.state t s :=
  setTcb_state k t _

@[simp] theorem setState_priority : (k.setState t s).priority = k.priority :=
  (setTcb_priority k t _).trans (Function.update_eq_self t k.priority)

@[simp] theorem setState_taskId : (k.setState t s).taskId = k.taskId :=
  (setTcb_taskId k t _).trans (Function.update_eq_self t k.taskId)

@[simp] theorem setState_wakeTime : (k.setState t s).wakeTime = k.wakeTime :=
  (setTcb_wakeTime k t _).trans (Function.update_eq_self t k.wakeTime)

@[simp] theorem setState_next : (k.setState t s).next = k.next :=
  (setTcb_next k t _).trans (Function.update_eq_self t k.next)

@[simp] theorem setNext_state : (k.setNext t u).state = k.state :=
  (setTcb_state k t _).trans (Function.update_eq_self t k.state)

@[simp] theorem setNext_priority : (k.setNext t u).priority = k.priority :=
  (setTcb_priority k t _).trans (Function.update_eq_self t k.priority)

@[simp] theorem setNext_taskId : (k.setNext t u).taskId = k.taskId :=
  (setTcb_taskId k t _).trans (Function.update_eq_self t k.taskId)

@[simp] theorem setNext_wakeTime : (k.setNext t u).wakeTime = k.wakeTime :=
  (setTcb_wakeTime k t _).trans (Function.update_eq_self t k.wakeTime)

@[simp] theorem setNext_next : (k.setNext t u).next = Function.update k.next t u :=
  setTcb_next k t _

@[simp] theorem setWakeTime_state : (k.setWakeTime t w).state = k.state :=
  (setTcb_state k t _).trans (Function.update_eq_self t k.state)

@[simp] theorem setWakeTime_priority : (k.setWakeTime t w).priority = k.priority :=
  (setTcb_priority k t _).trans (Function.update_eq_self t k.priority)

@[simp] theorem setWakeTime_taskId : (k.setWakeTime t w).taskId = k.taskId :=
  (setTcb_taskId k t _).trans (Function.update_eq_self t k.taskId)

@[simp] theorem setWakeTime_wakeTime : (k.setWakeTime t w).wakeTime = Function.update k.wakeTime t w :=
  setTcb_wakeTime k t _

@[simp] theorem setWakeTime_next : (k.setWakeTime t w).next = k.next :=
  (setTcb_next k t _).trans (Function.update_eq_self t k.next)

end Fields

end Kernel

/-- mirrors src/kernel/task.c:222-224 -/
def taskSetCurrent (k : Kernel) (tcb : Option TaskPtr) : Kernel := { k with currentTask := tcb }

end Rtos.Sched
