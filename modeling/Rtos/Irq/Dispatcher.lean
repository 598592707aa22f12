import Mathlib.Data.Fintype.Card
import Rtos.Core.LTS
import Rtos.Sched.Types

/-!
# src/hal/interrupt_dispatcher.c: the handler table, its counter and dispatch

A handler is a function pointer and a context a data pointer, 0 for NULL.
`printf` output is left out. What the table is for: the set of lines that have
a handler (`IrqState.lines`), which registration adds to and unregistration
takes from (`irqRegister_lines`, `irqUnregister_lines`).
-/
namespace Rtos.Irq

open Rtos.Sched (RtosStatus)

/-- mirrors src/hal/interrupt_dispatcher.c:17 -/
abbrev MAX_IRQ_HANDLERS : Nat := 256

/-- mirrors src/hal/interrupt_dispatcher.c:26-30 -/
structure IrqEntry where
  handler : Nat
  context : Nat
  registered : Bool
  deriving DecidableEq, Repr

/-- mirrors src/hal/interrupt_dispatcher.c:22-33 -/
structure IrqState where
  irqHandlers : Fin MAX_IRQ_HANDLERS → IrqEntry
  handlerCount : UInt32
  inIsrContext : Bool

/-- The state it leaves, from any other.
mirrors src/hal/interrupt_dispatcher.c:37-46 -/
def irqDispatcherInit : IrqState := ⟨fun _ => ⟨0, 0, false⟩, 0, false⟩

/-- mirrors src/hal/interrupt_dispatcher.c:50-78 -/
def irqRegister (s : IrqState) (irqNum : UInt8) (handler context : Nat) : IrqState × RtosStatus :=
  if hn : irqNum.toNat ≥ MAX_IRQ_HANDLERS then (s, .errorInvalidParam)
  else if handler = 0 then (s, .errorInvalidParam)
  else
    let irq : Fin MAX_IRQ_HANDLERS := ⟨irqNum.toNat, Nat.lt_of_not_le hn⟩
    let s := { s with irqHandlers := Function.update s.irqHandlers irq ⟨handler, context, true⟩ }
    -- the flag has just been set
    if !(s.irqHandlers irq).registered then ({ s with handlerCount := s.handlerCount + 1 }, .ok)
    else (s, .ok)

/-- mirrors src/hal/interrupt_dispatcher.c:80-98 -/
def irqUnregister (s : IrqState) (irqNum : UInt8) : IrqState × RtosStatus :=
  if hn : irqNum.toNat ≥ MAX_IRQ_HANDLERS then (s, .errorInvalidParam)
  else
    let irq : Fin MAX_IRQ_HANDLERS := ⟨irqNum.toNat, Nat.lt_of_not_le hn⟩
    if !(s.irqHandlers irq).registered then (s, .error)
    else
      ({ s with
        irqHandlers := Function.update s.irqHandlers irq ⟨0, 0, false⟩
        handlerCount := s.handlerCount - 1 }, .ok)

/-- A handler is run by `call` and may change the dispatcher and whatever else
there is, `L`.
mirrors src/hal/interrupt_dispatcher.c:102-130 -/
def irqDispatch {L : Type} (call : UInt8 → Nat → Nat → IrqState × L → (IrqState × L) × RtosStatus)
    (w : IrqState × L) (irqNum : UInt8) : (IrqState × L) × RtosStatus :=
  if hn : irqNum.toNat ≥ MAX_IRQ_HANDLERS then (w, .errorInvalidParam)
  else
    let irq : Fin MAX_IRQ_HANDLERS := ⟨irqNum.toNat, Nat.lt_of_not_le hn⟩
    let wasInIsr := w.1.inIsrContext
    let s := { w.1 with inIsrContext := true }
    if !(s.irqHandlers irq).registered then (({ s with inIsrContext := wasInIsr }, w.2), .error)
    else
      let r := call irqNum (s.irqHandlers irq).handler (s.irqHandlers irq).context (s, w.2)
      (({ r.1.1 with inIsrContext := wasInIsr }, r.1.2), r.2)

/-- mirrors src/hal/interrupt_dispatcher.c:179-181 -/
def irqIsInIsr (s : IrqState) : Bool := s.inIsrContext

/-- mirrors src/hal/interrupt_dispatcher.c:185-187 -/
def irqGetHandlerCount (s : IrqState) : UInt32 := s.handlerCount

/-- The calls that change the table. -/
inductive IrqCall where
  | register (irqNum : UInt8) (handler context : Nat)
  | unregister (irqNum : UInt8)
  deriving DecidableEq, Repr

def irqCall (s : IrqState) : IrqCall → IrqState
  | .register irqNum handler context => (irqRegister s irqNum handler context).1
  | .unregister irqNum => (irqUnregister s irqNum).1

/-- The dispatcher from `irq_dispatcher_init` on. -/
def irqSys : LTS IrqState IrqCall where
  init s := s = irqDispatcherInit
  step s c s' := irqCall s c = s'

/-! ## The lines that have a handler -/

/-- The index of a line in the table. -/
def line (irqNum : UInt8) : Fin MAX_IRQ_HANDLERS := ⟨irqNum.toNat, irqNum.toNat_lt⟩

def IrqState.lines (s : IrqState) : Finset (Fin MAX_IRQ_HANDLERS) :=
  Finset.univ.filter fun irq => (s.irqHandlers irq).registered = true

@[simp] theorem IrqState.mem_lines {s : IrqState} {irq : Fin MAX_IRQ_HANDLERS} :
    irq ∈ s.lines ↔ (s.irqHandlers irq).registered = true := by
  simp [IrqState.lines]

theorem IrqState.lines_card_le (s : IrqState) : s.lines.card ≤ MAX_IRQ_HANDLERS := by
  have h := s.lines.card_le_univ
  rwa [Fintype.card_fin] at h

@[simp] theorem irqDispatcherInit_lines : irqDispatcherInit.lines = ∅ := by
  ext irq
  simp [irqDispatcherInit]

variable {s : IrqState} {irqNum : UInt8} {handler : Nat}

theorem irqRegister_null (context : Nat) : irqRegister s irqNum 0 context = (s, .errorInvalidParam) := by
  rw [irqRegister, dif_neg (Nat.not_le.2 irqNum.toNat_lt), if_pos rfl]

/-- The counter is never touched: the flag is tested after it was set. -/
theorem irqRegister_eq (hh : handler ≠ 0) (context : Nat) :
    irqRegister s irqNum handler context =
      ({ s with irqHandlers := Function.update s.irqHandlers (line irqNum) ⟨handler, context, true⟩ }, .ok) := by
  rw [irqRegister, dif_neg (Nat.not_le.2 irqNum.toNat_lt), if_neg hh]
  exact if_neg (by simp)

theorem irqUnregister_unused (h : line irqNum ∉ s.lines) : irqUnregister s irqNum = (s, .error) := by
  rw [IrqState.mem_lines] at h
  rw [irqUnregister, dif_neg (Nat.not_le.2 irqNum.toNat_lt)]
  apply if_pos
  show (!(s.irqHandlers (line irqNum)).registered) = true
  rw [eq_false_of_ne_true h]
  rfl

theorem irqUnregister_eq (h : line irqNum ∈ s.lines) :
    irqUnregister s irqNum = ({ s with
      irqHandlers := Function.update s.irqHandlers (line irqNum) ⟨0, 0, false⟩
      handlerCount := s.handlerCount - 1 }, .ok) := by
  rw [IrqState.mem_lines] at h
  rw [irqUnregister, dif_neg (Nat.not_le.2 irqNum.toNat_lt)]
  apply if_neg
  show ¬ (!(s.irqHandlers (line irqNum)).registered) = true
  rw [h]
  decide

/-- Neither call touches the flag. -/
theorem irqRegister_inIsr (s : IrqState) (irqNum : UInt8) (handler context : Nat) :
    (irqRegister s irqNum handler context).1.inIsrContext = s.inIsrContext := by
  by_cases hh : handler = 0
  · rw [hh, irqRegister_null]
  · rw [irqRegister_eq hh]

theorem irqUnregister_inIsr (s : IrqState) (irqNum : UInt8) :
    (irqUnregister s irqNum).1.inIsrContext = s.inIsrContext := by
  by_cases h : line irqNum ∈ s.lines
  · rw [irqUnregister_eq h]
  · rw [irqUnregister_unused h]

section Dispatch

variable {L : Type} (call : UInt8 → Nat → Nat → IrqState × L → (IrqState × L) × RtosStatus)

theorem irqDispatch_unused (h : line irqNum ∉ s.lines) (l : L) :
    irqDispatch call (s, l) irqNum = ((s, l), .error) := by
  rw [IrqState.mem_lines] at h
  rw [irqDispatch, dif_neg (Nat.not_le.2 irqNum.toNat_lt)]
  apply if_pos
  show (!(s.irqHandlers (line irqNum)).registered) = true
  rw [eq_false_of_ne_true h]
  rfl

/-- The handler runs with the flag set, and the flag is put back. -/
theorem irqDispatch_eq (h : line irqNum ∈ s.lines) (l : L) {s' : IrqState} {l' : L} {status : RtosStatus}
    (hcall : call irqNum (s.irqHandlers (line irqNum)).handler (s.irqHandlers (line irqNum)).context
      ({ s with inIsrContext := true }, l) = ((s', l'), status)) :
    irqDispatch call (s, l) irqNum = (({ s' with inIsrContext := s.inIsrContext }, l'), status) := by
  rw [IrqState.mem_lines] at h
  rw [irqDispatch, dif_neg (Nat.not_le.2 irqNum.toNat_lt)]
  refine (if_neg ?_).trans ?_
  · show ¬ (!(s.irqHandlers (line irqNum)).registered) = true
    rw [h]
    decide
  · unfold line at hcall
    dsimp only
    rw [hcall]

end Dispatch

/-- Registering a handler adds its line. -/
theorem irqRegister_lines (hh : handler ≠ 0) (context : Nat) :
    (irqRegister s irqNum handler context).1.lines = insert (line irqNum) s.lines := by
  rw [irqRegister_eq hh]
  ext irq
  by_cases he : irq = line irqNum
  · subst he
    simp
  · simp [he]

/-- Unregistering takes the line away. -/
theorem irqUnregister_lines (s : IrqState) (irqNum : UInt8) :
    (irqUnregister s irqNum).1.lines = s.lines.erase (line irqNum) := by
  by_cases h : line irqNum ∈ s.lines
  · rw [irqUnregister_eq h]
    ext irq
    by_cases he : irq = line irqNum
    · subst he
      simp
    · simp [he]
  · rw [irqUnregister_unused h, Finset.erase_eq_of_notMem h]

end Rtos.Irq
