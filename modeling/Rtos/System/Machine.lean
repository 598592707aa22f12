import Rtos.Sched.Ready
import Rtos.Services.Guarantees

/-!
# The machine: the kernel and the services

Tasks call the services while the kernel switches between them: `machine` runs
the two side by side, and a call of a service is one of the task whose id
`task_get_current_id` returns. The tick, a yield or any other call of the
kernel may come between any two of them.

`machine_refines`: what the machine shows, the results of all calls included,
is what `absMachine` shows, which has queues of tasks for the lists of TCBs and
objects for the bytes of the heap.
-/
namespace Rtos.System

open Rtos.Sched (Abs RegularInv Regular taskGetCurrentId)
open Rtos.Services
open Rtos.Core (Mem)
open Rtos.Heap (Target)
open Rtos.Drivers (UartHandle)

/-- The kernel, each call with what it returns. -/
def kernelSys : LTS Sched.Sys (Sched.Call × Sched.Ret) where
  init := (· = Sched.Sys.boot)
  step s l s' := Regular s l.1 ∧ Sched.call s.k l.1 = some (s'.k, l.2) ∧ s'.h = s.h.after s.k l.2 (.app l.1)

/-- The queues of tasks. -/
def absSys : LTS Abs (Sched.Call × Sched.Ret) where
  init := (· = Abs.boot)
  step a l a' := a' = a.call l.1 ∧ l.2 = a.ret l.1

/-- The id of the task that has the CPU. -/
def currentId (a : Abs) : UInt32 :=
  match a.current with
  | some c => a.taskId c
  | none => 0

abbrev Label := Sched.Call × Sched.Ret ⊕ Event

def machine (t : Target) (callbacks : Nat → Nat → Mem × UartHandle → Mem × UartHandle) :
    LTS (Sched.Sys × Sys) Label :=
  kernelSys.both (svcSys t callbacks) fun s e => e.task = taskGetCurrentId s.k

def absMachine : LTS (Abs × World) Label := absSys.both spec fun a e => e.task = currentId a

variable {t : Target} {callbacks : Nat → Nat → Mem × UartHandle → Mem × UartHandle} {s s' : Sched.Sys} {a : Abs}
  {l : Sched.Call × Sched.Ret} {x x' : Sched.Sys × Sys} {ls : List Label} {mutex : Nat} {task id : UInt32}

theorem kernel_step (h : RegularInv s a) (hs : kernelSys.step s l s') :
    absSys.step a l (a.call l.1) ∧ RegularInv s' (a.call l.1) := by
  obtain ⟨hc, e, hh⟩ := hs
  have hp := h.proper hc
  obtain ⟨k', e', -⟩ := Sched.call_refines h.refines h.wf.waits (Sched.proper_refines h.refines hp) (h.wf.spares l.1)
  have hret : a.ret l.1 = l.2 := by
    rw [e'] at e
    exact congrArg Prod.snd (Option.some.inj e)
  have hs' : Sched.appSys.step s l.1 s' := Sched.appSys_step.2 ⟨s'.k, l.2, e, by rw [← hh]⟩
  exact ⟨⟨rfl, hret.symm⟩, Sched.regular_step h hc hs'⟩

theorem kernel_simulates : Simulates kernelSys absSys RegularInv where
  init s h0 := ⟨Abs.boot, rfl, by rw [h0]; exact Sched.regular_boot⟩
  step s l s' a h hs := ⟨a.call l.1, kernel_step h hs⟩

theorem current_refines (h : RegularInv s a) : taskGetCurrentId s.k = currentId a := by
  unfold taskGetCurrentId currentId
  rw [h.refines.currentTask]
  cases a.current with
  | none => rfl
  | some c => exact congrFun h.refines.taskId c

/-- What the services specify, whether the discipline is part of it or not. -/
theorem services_spec (t : Target) (callbacks : Nat → Nat → Mem × UartHandle → Mem × UartHandle) :
    Simulates (svcSys t callbacks) spec (Related t) where
  init := (services_simulate t callbacks).init
  step s e s' W hR hs := by
    obtain ⟨W', hs', hR'⟩ := (services_simulate t callbacks).step s e s' W hR hs
    exact ⟨W', hs'.2, hR'⟩

theorem machine_simulates (t : Target) (callbacks : Nat → Nat → Mem × UartHandle → Mem × UartHandle) :
    Simulates (machine t callbacks) absMachine fun x y => RegularInv x.1 y.1 ∧ Related t x.2 y.2 :=
  kernel_simulates.both (services_spec t callbacks) fun _ _ _ h he => he.trans (current_refines h)

/-! ## Runs given by their labels -/

/-- One step, if it is allowed and returns what the label says. -/
def Machine.event (t : Target) (callbacks : Nat → Nat → Mem × UartHandle → Mem × UartHandle)
    (x : Sched.Sys × Sys) : Label → Option (Sched.Sys × Sys)
  | .inl l =>
    if Regular x.1 l.1 then
      (Sched.call x.1.k l.1).bind fun r =>
        if r.2 = l.2 then some (⟨r.1, x.1.h.after x.1.k l.2 (.app l.1)⟩, x.2) else none
    else none
  | .inr e => if e.task = taskGetCurrentId x.1.k then (x.2.event t callbacks e).map fun s => (x.1, s) else none

theorem Machine.step_of_event (x : Sched.Sys × Sys) (l : Label) (x' : Sched.Sys × Sys)
    (h : Machine.event t callbacks x l = some x') : (machine t callbacks).step x l x' := by
  cases l with
  | inl l =>
    obtain ⟨hc, h⟩ := Option.ite_none_right_eq_some.1 h
    obtain ⟨⟨k, r⟩, e, h⟩ := Option.bind_eq_some_iff.1 h
    obtain ⟨hr, h⟩ := Option.ite_none_right_eq_some.1 h
    cases h
    cases hr
    exact ⟨⟨hc, e, rfl⟩, rfl⟩
  | inr e =>
    obtain ⟨htask, h⟩ := Option.ite_none_right_eq_some.1 h
    obtain ⟨s, hs, rfl⟩ := Option.map_eq_some_iff.1 h
    exact ⟨htask, rfl, Services.step_of_event _ _ _ hs⟩

/-- The board after `task_init`, `scheduler_init` and `memory_init`. -/
def Machine.started : Sched.Sys × Sys := (Sched.Sys.boot, Services.started)

theorem Machine.started_init : (machine Heap.board callbacks).init Machine.started := ⟨rfl, started_booted⟩

theorem Machine.trace_of_labels
    (h : (LTS.exec (Machine.event Heap.board callbacks) Machine.started ls).isSome = true) :
    (machine Heap.board callbacks).Trace ls := by
  obtain ⟨x, h⟩ := Option.isSome_iff_exists.1 h
  exact ⟨_, x, Machine.started_init, LTS.run_of_exec Machine.step_of_event h⟩

/-! ## Refinement -/

/-- Every trace of the machine is one of queues of tasks and of objects. -/
theorem machine_refines (t : Target) (callbacks : Nat → Nat → Mem × UartHandle → Mem × UartHandle)
    (h : (machine t callbacks).Trace ls) : absMachine.Trace ls := (machine_simulates t callbacks).trace h

/-- The second task waits for the semaphore by yielding. -/
theorem machine_refines_two : absMachine.Trace
    [.inl (.taskCreate (some 1) none 3 0 true, ⟨some .ok, some 1⟩),
      .inl (.taskCreate (some 1) none 3 0 true, ⟨some .ok, some 2⟩), .inl (.schedulerStart, .void),
      .inr ⟨1, .semCreate 0 1, .ptr 536870928⟩, .inl (.taskYield, .void),
      .inr ⟨2, .semTake 536870928 0, .status .errorTimeout⟩, .inl (.schedulerYield, .void),
      .inr ⟨1, .semGive 536870928, .status .ok⟩, .inl (.taskDelete 1, ⟨some .ok, none⟩),
      .inr ⟨2, .semTake 536870928 0, .status .ok⟩] :=
  machine_refines Heap.board (fun _ _ x => x) (Machine.trace_of_labels (by decide +kernel))

/-- In every state that a run reaches, every regular call of the kernel returns,
and so does every legal call of a service. -/
theorem machine_returns (t : Target) (callbacks : Nat → Nat → Mem × UartHandle → Mem × UartHandle)
    (h : (machine t callbacks).Reachable x) :
    (∀ c, Regular x.1 c → ∃ r x', (machine t callbacks).step x (.inl (c, r)) x') ∧
    ∀ c, Services.Legal t x.2.live c →
      ∃ r x', (machine t callbacks).step x (.inr ⟨taskGetCurrentId x.1.k, c, r⟩) x' := by
  obtain ⟨x₀, ls, h0, hr⟩ := h
  obtain ⟨-, y, -, -, hk, hR⟩ := (machine_simulates t callbacks).start h0 hr
  constructor
  · intro c hc
    obtain ⟨k', e, -⟩ := Sched.call_refines hk.refines hk.wf.waits (Sched.proper_refines hk.refines (hk.proper hc))
      (hk.wf.spares c)
    exact ⟨_, (⟨k', _⟩, x.2), ⟨hc, e, rfl⟩, rfl⟩
  · intro c hl
    obtain ⟨s', r, hs⟩ := hR.returns callbacks (taskGetCurrentId x.1.k) hl
    exact ⟨r, (x.1, s'), rfl, rfl, hs⟩

/-- The second task runs and holds the mutex: it may yield, and it may unlock. -/
theorem machine_returns_two : ∃ x : Sched.Sys × Sys, taskGetCurrentId x.1.k = 2 ∧
    (∃ r x', (machine Heap.board fun _ _ x => x).step x (.inl (.taskYield, r)) x') ∧
    ∃ r x', (machine Heap.board fun _ _ x => x).step x (.inr ⟨2, .mutexUnlock 536870928, r⟩) x' := by
  obtain ⟨x, -, h, hid, hk, hs⟩ := LTS.reachable_of_exec (M := machine Heap.board fun _ _ x => x)
    Machine.step_of_event Machine.started_init
    (fun x => taskGetCurrentId x.1.k = 2 ∧ Regular x.1 .taskYield ∧
      Services.Legal Heap.board x.2.live (.mutexUnlock 536870928))
    [.inl (.taskCreate (some 1) none 3 0 true, ⟨some .ok, some 1⟩),
      .inl (.taskCreate (some 1) none 3 0 true, ⟨some .ok, some 2⟩), .inl (.schedulerStart, .void),
      .inr ⟨1, .mutexCreate, .ptr 536870928⟩, .inl (.taskYield, .void),
      .inr ⟨2, .mutexLock 536870928 0, .status .ok⟩] (by decide +kernel)
  obtain ⟨hkernel, hservice⟩ := machine_returns Heap.board _ h
  obtain ⟨r, x', hstep⟩ := hservice _ hs
  rw [hid] at hstep
  exact ⟨x, hid, hkernel _ hk, r, x', hstep⟩

end Rtos.System
