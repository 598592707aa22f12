import Rtos.Core.Simulation
import Rtos.Irq.Nesting

/-!
# Which handler an interrupt reaches

Handlers register and unregister handlers while interrupts nest, so the table
an `irq_dispatch` looks into is the work of many handlers. Seen from outside it
is a map from lines to the handler and the context registered last
(`IrqState.installed`), and the log of a tree of interrupts determines it:
`interrupts_history` says that every `irq_dispatch` reaches the latest
registration of its line, that every call returns what this map says, and what
becomes of the counter.
-/
namespace Rtos.Irq

open Rtos.Sched (RtosStatus)

/-- The handlers of the lines, with their contexts. -/
abbrev Installed := UInt8 → Option (Nat × Nat)

def IrqState.installed (s : IrqState) : Installed := fun irqNum =>
  let entry := s.irqHandlers (line irqNum)
  if entry.registered then some (entry.handler, entry.context) else none

/-- What a tree of interrupts shows: the calls with their results, which
handler an `irq_dispatch` calls, and that it calls none. -/
inductive Access where
  | registered (irqNum : UInt8) (handler context : Nat) (status : RtosStatus)
  | unregistered (irqNum : UInt8) (status : RtosStatus)
  | entered (irqNum : UInt8) (handler context : Nat)
  | missed (irqNum : UInt8)
  deriving DecidableEq, Repr

/-- One `irq_dispatch`, whose handlers are run by `body`; one that was called
has left its mark in the log. -/
def access (body : UInt8 → Nat → Nat → IrqState × List Access → (IrqState × List Access) × RtosStatus)
    (w : IrqState × List Access) (irqNum : UInt8) : (IrqState × List Access) × RtosStatus :=
  let r := irqDispatch (fun irqNum handler context w =>
    body irqNum handler context (w.1, w.2 ++ [.entered irqNum handler context])) w irqNum
  ((r.1.1, if r.1.2 = w.2 then w.2 ++ [.missed irqNum] else r.1.2), r.2)

/-- The tree run on the dispatcher. -/
def Isr.accesses : Isr → IrqState × List Access → (IrqState × List Access) × RtosStatus
  | .ret status, w => (w, status)
  | .register irqNum handler context next, w =>
    let r := irqRegister w.1 irqNum handler context
    (next r.2).accesses (r.1, w.2 ++ [.registered irqNum handler context r.2])
  | .unregister irqNum next, w =>
    let r := irqUnregister w.1 irqNum
    (next r.2).accesses (r.1, w.2 ++ [.unregistered irqNum r.2])
  | .dispatch irqNum callee next, w =>
    let r := access (fun irqNum handler context w => (callee irqNum handler context).accesses w) w irqNum
    (next r.2).accesses r.1

/-- What an event says about the map. -/
def Access.Right (T : Installed) : Access → Prop
  | .registered _ handler _ status => status = if handler = 0 then .errorInvalidParam else .ok
  | .unregistered irqNum status => status = if (T irqNum).isSome then .ok else .error
  | .entered irqNum handler context => T irqNum = some (handler, context)
  | .missed irqNum => T irqNum = none

/-- How it changes the map. -/
def Access.next (T : Installed) : Access → Installed
  | .registered irqNum handler context _ =>
    if handler = 0 then T else Function.update T irqNum (some (handler, context))
  | .unregistered irqNum _ => Function.update T irqNum none
  | _ => T

/-- The latest registration of each line. -/
def latest (log : List Access) : Installed := log.foldl Access.next fun _ => none

/-- How many registrations were taken back. -/
def removals (log : List Access) : Nat := log.countP fun
  | .unregistered _ .ok => true
  | _ => false

variable {s s' : IrqState} {irqNum : UInt8} {handler context : Nat} {l log : List Access}

theorem mem_lines_iff : line irqNum ∈ s.lines ↔ (s.installed irqNum).isSome := by
  rw [IrqState.mem_lines, IrqState.installed]
  split
  · exact iff_of_true ‹_› rfl
  · exact iff_of_false ‹_› (by simp)

theorem line_inj {m n : UInt8} : line m = line n ↔ m = n :=
  ⟨fun h => UInt8.toNat_inj.1 (Fin.mk.inj h), congrArg line⟩

theorem installed_update (s : IrqState) (irqNum : UInt8) (entry : IrqEntry) (count : UInt32) :
    IrqState.installed { s with irqHandlers := Function.update s.irqHandlers (line irqNum) entry, handlerCount := count } =
      Function.update s.installed irqNum
        (if entry.registered then some (entry.handler, entry.context) else none) := by
  funext n
  by_cases hn : n = irqNum
  · subst hn
    simp [IrqState.installed]
  · have hl : line n ≠ line irqNum := fun h => hn (line_inj.1 h)
    simp [IrqState.installed, hn, hl]

/-! ## What is kept all along a log -/

/-- From the state `s` to `s'` the dispatcher shows this log. -/
structure Follows (s s' : IrqState) (log : List Access) : Prop where
  flag : s'.inIsrContext = s.inIsrContext
  installed : s'.installed = log.foldl Access.next s.installed
  answered : Answered Access.next Access.Right s.installed log
  count : s'.handlerCount + UInt32.ofNat (removals log) = s.handlerCount

theorem Follows.refl (s : IrqState) : Follows s s [] := ⟨rfl, rfl, trivial, UInt32.add_zero _⟩

theorem Follows.trans {s₁ : IrqState} {log' : List Access} (h : Follows s s₁ log) (h' : Follows s₁ s' log') :
    Follows s s' (log ++ log') where
  flag := h'.flag.trans h.flag
  installed := by rw [h'.installed, h.installed, List.foldl_append]
  answered := answered_append.2 ⟨h.answered, h.installed ▸ h'.answered⟩
  count := by
    rw [removals, List.countP_append, Nat.add_comm, UInt32.ofNat_add, ← UInt32.add_assoc]
    exact (congrArg (· + UInt32.ofNat (removals log)) h'.count).trans h.count

theorem follows_register (s : IrqState) (irqNum : UInt8) (handler context : Nat) :
    Follows s (irqRegister s irqNum handler context).1
      [.registered irqNum handler context (irqRegister s irqNum handler context).2] := by
  by_cases hh : handler = 0
  · rw [hh, irqRegister_null]
    exact ⟨rfl, rfl, ⟨rfl, trivial⟩, UInt32.add_zero _⟩
  · rw [irqRegister_eq hh]
    refine ⟨rfl, ?_, ⟨(if_neg hh).symm, trivial⟩, UInt32.add_zero _⟩
    exact (installed_update s irqNum _ _).trans (if_neg hh).symm

theorem follows_unregister (s : IrqState) (irqNum : UInt8) :
    Follows s (irqUnregister s irqNum).1 [.unregistered irqNum (irqUnregister s irqNum).2] := by
  by_cases h : line irqNum ∈ s.lines
  · rw [irqUnregister_eq h]
    refine ⟨rfl, installed_update s irqNum _ _, ⟨(if_pos (mem_lines_iff.1 h)).symm, trivial⟩, ?_⟩
    exact UInt32.sub_add_cancel _ _
  · have hn : s.installed irqNum = none := by simpa using mt mem_lines_iff.2 h
    rw [irqUnregister_unused h]
    refine ⟨rfl, ?_, ⟨by simp [Access.Right, hn], trivial⟩, UInt32.add_zero _⟩
    exact (Function.update_eq_self_iff.2 hn.symm).symm

/-- The log of `run` is added to the one before. -/
def Logs (run : IrqState × List Access → (IrqState × List Access) × RtosStatus) : Prop :=
  ∀ s l, ∃ s' log status, run (s, l) = ((s', l ++ log), status) ∧ Follows s s' log

theorem installed_eq (h : line irqNum ∈ s.lines) : s.installed irqNum =
    some ((s.irqHandlers (line irqNum)).handler, (s.irqHandlers (line irqNum)).context) :=
  if_pos (IrqState.mem_lines.1 h)

/-- One dispatch, whatever the handlers do that it may call. -/
theorem access_logs
    {body : UInt8 → Nat → Nat → IrqState × List Access → (IrqState × List Access) × RtosStatus}
    (hbody : ∀ irqNum handler context, Logs (body irqNum handler context)) (irqNum : UInt8) :
    Logs (access body · irqNum) := by
  intro s l
  by_cases h : line irqNum ∈ s.lines
  · obtain ⟨s', log, status, e, hf⟩ := hbody irqNum (s.irqHandlers (line irqNum)).handler
      (s.irqHandlers (line irqNum)).context { s with inIsrContext := true }
      (l ++ [.entered irqNum (s.irqHandlers (line irqNum)).handler (s.irqHandlers (line irqNum)).context])
    have hd := irqDispatch_eq (fun irqNum handler context (w : IrqState × List Access) =>
      body irqNum handler context (w.1, w.2 ++ [.entered irqNum handler context])) h l e
    refine ⟨{ s' with inIsrContext := s.inIsrContext },
      .entered irqNum (s.irqHandlers (line irqNum)).handler (s.irqHandlers (line irqNum)).context :: log, status, ?_, ?_⟩
    · simp only [access, hd, List.append_assoc, List.singleton_append, List.append_right_eq_self,
        reduceCtorEq, if_false]
    · exact ⟨rfl, hf.installed, ⟨installed_eq h, hf.answered⟩, hf.count⟩
  · have hn : s.installed irqNum = none := by simpa using mt mem_lines_iff.2 h
    refine ⟨s, [.missed irqNum], .error, ?_, rfl, rfl, ⟨hn, trivial⟩, UInt32.add_zero _⟩
    simp only [access, irqDispatch_unused _ h, if_true]

theorem Isr.accesses_logs (isr : Isr) : Logs isr.accesses := by
  induction isr with
  | ret status => exact fun s l => ⟨s, [], status, by rw [Isr.accesses, List.append_nil], .refl s⟩
  | register irqNum handler context next ih =>
    intro s l
    obtain ⟨s', log, status, e, hf⟩ := ih _ (irqRegister s irqNum handler context).1 _
    refine ⟨s', _, status, ?_, (follows_register s irqNum handler context).trans hf⟩
    rw [Isr.accesses, e, List.append_assoc]
  | unregister irqNum next ih =>
    intro s l
    obtain ⟨s', log, status, e, hf⟩ := ih _ (irqUnregister s irqNum).1 _
    refine ⟨s', _, status, ?_, (follows_unregister s irqNum).trans hf⟩
    rw [Isr.accesses, e, List.append_assoc]
  | dispatch irqNum callee next ihcallee ih =>
    intro s l
    obtain ⟨s₁, log₁, status₁, e₁, hf₁⟩ := access_logs ihcallee irqNum s l
    obtain ⟨s', log, status, e, hf⟩ := ih status₁ s₁ (l ++ log₁)
    refine ⟨s', log₁ ++ log, status, ?_, hf₁.trans hf⟩
    rw [Isr.accesses, show access _ (s, l) irqNum = _ from e₁]
    dsimp only
    rw [e, List.append_assoc]

/-- **An interrupt reaches the latest registration.** From
`irq_dispatcher_init` on, whatever is registered, unregistered and interrupted
at whatever depth, each `irq_dispatch` calls the handler whose registration is
the latest for the line and not taken back, or none if there is no such;
`irq_register` fails for NULL only and `irq_unregister` for a line without a
handler only. At the end no handler is running, the table holds the latest
registrations, and the counter is minus the number of those taken back. -/
theorem interrupts_history (isr : Isr) :
    ∃ s log status, isr.accesses (irqDispatcherInit, []) = ((s, log), status) ∧
      (∀ pre e post, log = pre ++ e :: post → e.Right (latest pre)) ∧
      s.installed = latest log ∧ irqIsInIsr s = false ∧
      irqGetHandlerCount s = 0 - UInt32.ofNat (removals log) := by
  obtain ⟨s, log, status, e, hf⟩ := isr.accesses_logs irqDispatcherInit []
  refine ⟨s, log, status, e, ?_, hf.installed, hf.flag, ?_⟩
  · rintro pre a post rfl
    exact hf.answered.at
  · rw [← show s.handlerCount + UInt32.ofNat (removals log) = 0 from hf.count]
    exact (UInt32.add_sub_cancel _ _).symm

/-- The handler of line 3 moves the line to another handler, which an interrupt
inside it reaches; then the line is given up. -/
example : ((Isr.register 3 100 7 fun _ => .dispatch 3 (fun _ handler _ =>
      if handler = 100 then .register 3 200 8 fun _ => .dispatch 3 (fun _ _ _ => .ret .ok) .ret else .ret .ok)
        fun _ => .unregister 3 fun _ => .dispatch 3 (fun _ _ _ => .ret .ok) .ret).accesses (irqDispatcherInit, [])).1.2 =
    [.registered 3 100 7 .ok, .entered 3 100 7, .registered 3 200 8 .ok, .entered 3 200 8, .unregistered 3 .ok,
      .missed 3] := by decide

end Rtos.Irq
