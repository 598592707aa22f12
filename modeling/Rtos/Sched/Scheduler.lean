import Rtos.Sched.Types

/-!
# src/kernel/scheduler.c

The list loops carry a bound of `MAX_TASKS` rounds, which a NULL-terminated
list of distinct pool slots never uses up; `none` is a loop that goes on past
it, a call that does not return. The calls have no other effect than on
`Kernel`.
-/
namespace Rtos.Sched

open Rtos.Core

/-- mirrors src/kernel/scheduler.c:20-28 -/
def schedulerInit (k : Kernel) : Kernel :=
  { k with readyLists := fun _ => none, systemTickCount := 0, schedulerRunning := false,
           currentTcb := none, delayedList := none }

/-- mirrors src/kernel/scheduler.c:31-52 -/
def schedulerAddTask (k : Kernel) : Option TaskPtr → Option Kernel
  | none => some k
  | some t =>
    let p := (k.priority t).toNat
    if p ≥ NUM_PRIORITY_LEVELS then some k
    else
      let k := (k.setState t .ready).setNext t none
      match k.readyLists p with
      | none => some (k.setReadyList p (some t))
      | some head => (lastNode k.next MAX_TASKS head).map fun tail => k.setNext tail (some t)

/-- mirrors src/kernel/scheduler.c:55-78 -/
def schedulerRemoveTask (k : Kernel) : Option TaskPtr → Option Kernel
  | none => some k
  | some t =>
    let p := (k.priority t).toNat
    if p ≥ NUM_PRIORITY_LEVELS then some k
    else
      match findPred k.next t MAX_TASKS none (k.readyLists p) with
      | none => none
      | some .absent => some k
      | some .first => some ((k.setReadyList p (k.next t)).setNext t none)
      | some (.after prev) => some ((k.setNext prev (k.next t)).setNext t none)

/-- mirrors src/kernel/scheduler.c:82-89 -/
def getHighestPriorityTask (k : Kernel) : Option TaskPtr :=
  (List.range NUM_PRIORITY_LEVELS).findSome? k.readyLists

/-- Rotate the current task to the end of its priority queue if still ready.
mirrors src/kernel/scheduler.c:104-108 -/
def rotateCurrent (k : Kernel) : Option Kernel :=
  match k.currentTcb with
  | none => some k
  | some c =>
    if k.state c = .ready then (schedulerRemoveTask k (some c)).bind (schedulerAddTask · (some c))
    else some k

/-- Remove the next task from its ready list and make it the running one.
mirrors src/kernel/scheduler.c:110-114 -/
def dispatch (k : Kernel) (next : TaskPtr) : Option Kernel :=
  (schedulerRemoveTask k (some next)).map fun k =>
    taskSetCurrent { k.setState next .running with currentTcb := some next } (some next)

/-- mirrors src/kernel/scheduler.c:92-125 -/
def schedule (k : Kernel) : Option Kernel :=
  match getHighestPriorityTask k with
  | none => some k
  | some next =>
    if some next ≠ k.currentTcb then (rotateCurrent k).bind (dispatch · next) else some k

/-- Mark the current task as ready, and queue it, if it was running.
mirrors src/kernel/scheduler.c:135-139 -/
def requeueCurrent (k : Kernel) : Option Kernel :=
  match k.currentTcb with
  | none => some k
  | some c =>
    if k.state c = .running then schedulerAddTask (k.setState c .ready) (some c) else some k

/-- mirrors src/kernel/scheduler.c:128-144 -/
def schedulerYield (k : Kernel) : Option Kernel :=
  if !k.schedulerRunning then some k else (requeueCurrent k).bind schedule

/-- mirrors src/kernel/scheduler.c:147-166, which nothing calls. -/
def addToDelayedList (k : Kernel) (task : TaskPtr) : Option Kernel :=
  let k := k.setNext task none
  match k.delayedList with
  | none => some { k with delayedList := some task }
  | some head =>
    if k.wakeTime task < k.wakeTime head then
      some { k.setNext task (some head) with delayedList := some task }
    else
      (lastWhile k.next (fun t => k.wakeTime t ≤ k.wakeTime task) MAX_TASKS head).map fun curr =>
        (k.setNext task (k.next curr)).setNext curr (some task)

/-- mirrors src/kernel/scheduler.c:170-181 -/
def processDelayedLoop : Nat → Kernel → Option Kernel
  | n, k => match k.delayedList with
    | none => some k
    | some task =>
      if k.wakeTime task ≤ k.systemTickCount then
        match n with
        | 0 => none
        | n + 1 =>
          let k := { k with delayedList := k.next task }
          (schedulerAddTask ((k.setState task .ready).setNext task none) (some task)).bind
            (processDelayedLoop n)
      else some k

/-- mirrors src/kernel/scheduler.c:169-182 -/
def processDelayedTasks (k : Kernel) : Option Kernel := processDelayedLoop MAX_TASKS k

/-- A higher priority task is ready.
mirrors src/kernel/scheduler.c:192-195 -/
def preempts (k : Kernel) : Bool :=
  k.schedulerRunning &&
  match getHighestPriorityTask k, k.currentTcb with
  | some highest, some c => k.priority highest < k.priority c
  | _, _ => false

/-- mirrors src/kernel/scheduler.c:185-201 -/
def schedulerTick (k : Kernel) : Option Kernel :=
  (processDelayedTasks { k with systemTickCount := k.systemTickCount + 1 }).bind fun k =>
    if preempts k then schedulerYield k else some k

/-- mirrors src/kernel/scheduler.c:204-206 -/
def schedulerGetTickCount (k : Kernel) : UInt32 := k.systemTickCount

/-- mirrors src/kernel/scheduler.c:209-213 -/
def schedulerStart (k : Kernel) : Option Kernel := schedule { k with schedulerRunning := true }

end Rtos.Sched
