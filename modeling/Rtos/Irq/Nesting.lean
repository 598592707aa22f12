import Rtos.Irq.Dispatcher

/-!
# Nested interrupts

What a handler does is a tree: it registers and unregisters handlers, it is
interrupted, and it returns a status. What it does may depend on everything
these calls return, and the handlers of an interrupt are trees again. `Isr.run`
runs a tree on the dispatcher and logs what happens.

`Dispatched` and `Handled` are the words such a log consists of: every
`irq_dispatch` calls the handler found in the table when it started, or none,
returns what this handler returned, and leaves the flag as it found it, and
the flag is set wherever a handler looks at it. `interrupt_dispatched`: every
log is such a word.
-/
namespace Rtos.Irq

open Rtos.Sched (RtosStatus)

/-- What a handler does. In a `dispatch`, `callee irqNum handler context` is
what the handler called does. -/
inductive Isr where
  | ret (status : RtosStatus)
  | register (irqNum : UInt8) (handler context : Nat) (next : RtosStatus → Isr)
  | unregister (irqNum : UInt8) (next : RtosStatus → Isr)
  | dispatch (irqNum : UInt8) (callee : UInt8 → Nat → Nat → Isr) (next : RtosStatus → Isr)

inductive Event where
  /-- A point inside a handler, and what `irq_is_in_isr` says there. -/
  | point (inIsr : Bool)
  /-- `irq_dispatch` starts, with this entry in the table and this flag. -/
  | start (irqNum : UInt8) (entry : IrqEntry) (inIsr : Bool)
  /-- A handler is called, and returns. -/
  | enter (irqNum : UInt8) (handler context : Nat)
  | leave (status : RtosStatus)
  /-- `irq_dispatch` returns. -/
  | stop (status : RtosStatus) (inIsr : Bool)
  deriving DecidableEq, Repr

/-- The dispatcher and the log. -/
abbrev World := IrqState × List Event

/-- One `irq_dispatch`, whose handlers are run by `body`. -/
def interrupt (body : UInt8 → Nat → Nat → World → World × RtosStatus) (w : World) (irqNum : UInt8) :
    World × RtosStatus :=
  let call := fun irqNum handler context (w : World) =>
    let r := body irqNum handler context (w.1, w.2 ++ [.enter irqNum handler context])
    ((r.1.1, r.1.2 ++ [.leave r.2]), r.2)
  let r := irqDispatch call (w.1, w.2 ++ [.start irqNum (w.1.irqHandlers (line irqNum)) (irqIsInIsr w.1)]) irqNum
  ((r.1.1, r.1.2 ++ [.stop r.2 (irqIsInIsr r.1.1)]), r.2)

def Isr.run : Isr → World → World × RtosStatus
  | .ret status, w => ((w.1, w.2 ++ [.point (irqIsInIsr w.1)]), status)
  | .register irqNum handler context next, w =>
    let r := irqRegister w.1 irqNum handler context
    (next r.2).run (r.1, w.2 ++ [.point (irqIsInIsr w.1)])
  | .unregister irqNum next, w =>
    let r := irqUnregister w.1 irqNum
    (next r.2).run (r.1, w.2 ++ [.point (irqIsInIsr w.1)])
  | .dispatch irqNum callee next, w =>
    let r := interrupt (fun irqNum handler context w => (callee irqNum handler context).run w)
      (w.1, w.2 ++ [.point (irqIsInIsr w.1)]) irqNum
    (next r.2).run r.1

mutual

/-- `Dispatched irqNum entry inIsr status log`: the log of one `irq_dispatch`
that started with this entry and flag and returned this status. -/
inductive Dispatched : UInt8 → IrqEntry → Bool → RtosStatus → List Event → Prop
  | unused {irqNum : UInt8} {entry : IrqEntry} {inIsr : Bool} : entry.registered = false →
      Dispatched irqNum entry inIsr .error [.start irqNum entry inIsr, .stop .error inIsr]
  | called {irqNum : UInt8} {entry : IrqEntry} {inIsr : Bool} {status : RtosStatus} {log : List Event} :
      entry.registered = true → Handled status log →
      Dispatched irqNum entry inIsr status
        ([.start irqNum entry inIsr, .enter irqNum entry.handler entry.context] ++ log ++
          [.leave status, .stop status inIsr])

/-- `Handled status log`: the log inside a handler that returned this status. -/
inductive Handled : RtosStatus → List Event → Prop
  | ret {status : RtosStatus} : Handled status [.point true]
  | change {status : RtosStatus} {log : List Event} : Handled status log → Handled status (.point true :: log)
  | dispatch {irqNum : UInt8} {entry : IrqEntry} {status status' : RtosStatus} {log log' : List Event} :
      Dispatched irqNum entry true status' log' → Handled status log →
      Handled status (.point true :: (log' ++ log))

end

/-- What `body` does is a word of the grammar and leaves the flag set. -/
def Handles (body : World → World × RtosStatus) : Prop :=
  ∀ (s : IrqState) (l : List Event), s.inIsrContext = true →
    ∃ s' log status, body (s, l) = ((s', l ++ log), status) ∧ s'.inIsrContext = true ∧ Handled status log

/-- One dispatch, whatever the handlers do that it may call. -/
theorem interrupt_handles {body : UInt8 → Nat → Nat → World → World × RtosStatus}
    (hbody : ∀ irqNum handler context, Handles (body irqNum handler context)) (s : IrqState) (l : List Event)
    (irqNum : UInt8) : ∃ s' log status, interrupt body (s, l) irqNum = ((s', l ++ log), status) ∧
      s'.inIsrContext = s.inIsrContext ∧
      Dispatched irqNum (s.irqHandlers (line irqNum)) s.inIsrContext status log := by
  unfold interrupt irqIsInIsr
  dsimp only
  by_cases h : line irqNum ∈ s.lines
  · obtain ⟨s', log, status, e, -, hlog⟩ := hbody irqNum (s.irqHandlers (line irqNum)).handler
      (s.irqHandlers (line irqNum)).context { s with inIsrContext := true } _ rfl
    rw [irqDispatch_eq _ h _ (congrArg (fun r => ((r.1.1, r.1.2 ++ [Event.leave r.2]), r.2)) e)]
    refine ⟨{ s' with inIsrContext := s.inIsrContext }, _, status, ?_, rfl, .called (IrqState.mem_lines.1 h) hlog⟩
    simp
  · rw [irqDispatch_unused _ h]
    refine ⟨s, _, .error, ?_, rfl, .unused (eq_false_of_ne_true fun hr => h (IrqState.mem_lines.2 hr))⟩
    simp

theorem Isr.run_handles (isr : Isr) : Handles isr.run := by
  induction isr with
  | ret status =>
    intro s l hs
    exact ⟨s, [.point true], status, by rw [Isr.run, irqIsInIsr, hs], hs, .ret⟩
  | register irqNum handler context next ih =>
    intro s l hs
    obtain ⟨s', log, status, e, hs', hlog⟩ := ih _ (irqRegister s irqNum handler context).1
      (l ++ [.point true]) (by rw [irqRegister_inIsr, hs])
    refine ⟨s', .point true :: log, status, ?_, hs', .change hlog⟩
    rw [Isr.run, irqIsInIsr, hs, e, List.append_assoc, List.singleton_append]
  | unregister irqNum next ih =>
    intro s l hs
    obtain ⟨s', log, status, e, hs', hlog⟩ := ih _ (irqUnregister s irqNum).1
      (l ++ [.point true]) (by rw [irqUnregister_inIsr, hs])
    refine ⟨s', .point true :: log, status, ?_, hs', .change hlog⟩
    rw [Isr.run, irqIsInIsr, hs, e, List.append_assoc, List.singleton_append]
  | dispatch irqNum callee next ihcallee ih =>
    intro s l hs
    obtain ⟨s₁, log₁, status₁, e₁, hs₁, hlog₁⟩ := interrupt_handles ihcallee s (l ++ [.point true]) irqNum
    rw [hs] at hs₁ hlog₁
    obtain ⟨s', log, status, e, hs', hlog⟩ := ih status₁ s₁ (l ++ [.point true] ++ log₁) hs₁
    refine ⟨s', .point true :: (log₁ ++ log), status, ?_, hs', .dispatch hlog₁ hlog⟩
    rw [Isr.run, irqIsInIsr, hs, e₁]
    dsimp only
    rw [e]
    simp

/-- **Interrupts nest**: whatever the handlers do, the log of an `irq_dispatch`
is a word of the grammar, with the entry of the line and the flag at its start
and the status it returned. The flag is as before. -/
theorem interrupt_dispatched (callee : UInt8 → Nat → Nat → Isr) (s : IrqState) (irqNum : UInt8) :
    ∃ s' log status, interrupt (fun irqNum handler context w => (callee irqNum handler context).run w) (s, []) irqNum =
      ((s', log), status) ∧
      irqIsInIsr s' = irqIsInIsr s ∧
      Dispatched irqNum (s.irqHandlers (line irqNum)) (irqIsInIsr s) status log :=
  interrupt_handles (fun irqNum handler context => (callee irqNum handler context).run_handles) s [] irqNum

/-- A handler that unregisters its own line, where the next interrupt finds none. -/
example : (interrupt (fun _ _ _ => (Isr.unregister 3 fun _ => .dispatch 3 (fun _ _ _ => .ret .ok) .ret).run)
    ((irqRegister irqDispatcherInit 3 100 7).1, []) 3).1.2 =
    [.start 3 ⟨100, 7, true⟩ false, .enter 3 100 7, .point true, .point true, .start 3 ⟨0, 0, false⟩ true,
      .stop .error true, .point true, .leave .error, .stop .error false] := by decide

end Rtos.Irq
