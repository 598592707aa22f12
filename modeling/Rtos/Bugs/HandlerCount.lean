import Rtos.Irq.Dispatcher

/-!
# The handler counter is never counted up

`irq_register` sets the flag of the entry and then counts the handler if the
flag is not set, which it always is. `irq_unregister` counts down. So the
counter stays at 0 while handlers are registered, and wraps below zero with
the first one that is unregistered.

`handler_count_iff`: after `irq_dispatcher_init` and any calls the counter is
the number of registered entries exactly when the number of times a line
without a handler got one is a multiple of 2^32; and it is right in every
state of a run exactly when no handler is registered in it at all.
-/
namespace Rtos.Irq

/-- `irq_get_handler_count` is the number of entries whose flag is set. -/
def CountExact (s : IrqState) : Prop := (irqGetHandlerCount s).toNat = s.lines.card

instance (s : IrqState) : Decidable (CountExact s) := inferInstanceAs (Decidable (_ = _))

/-- The call passes a handler. -/
def Registers : IrqCall → Prop
  | .register _ handler _ => handler ≠ 0
  | .unregister _ => False

/-- How often a line gets a handler while it has none, when the lines of `ls`
have one at the start. -/
def freshRegistrations : Finset (Fin MAX_IRQ_HANDLERS) → List IrqCall → Nat
  | _, [] => 0
  | ls, .register irqNum handler _ :: cs =>
    if handler = 0 then freshRegistrations ls cs
    else if line irqNum ∈ ls then freshRegistrations ls cs
    else freshRegistrations (insert (line irqNum) ls) cs + 1
  | ls, .unregister irqNum :: cs => freshRegistrations (ls.erase (line irqNum)) cs

variable {s s' : IrqState} {c : IrqCall} {cs : List IrqCall}

/-- Up to wrapping, what the counter lacks grows with the fresh registrations. -/
theorem count_step (s : IrqState) (c : IrqCall) (cs : List IrqCall) :
    (s.handlerCount.toNat + freshRegistrations (irqCall s c).lines cs + (irqCall s c).lines.card) % 2 ^ 32 =
      ((irqCall s c).handlerCount.toNat + freshRegistrations s.lines (c :: cs) + s.lines.card) % 2 ^ 32 := by
  cases c with
  | register irqNum handler context =>
    rw [irqCall, freshRegistrations]
    by_cases hh : handler = 0
    · subst hh
      rw [irqRegister_null, if_pos rfl]
    rw [irqRegister_lines hh, irqRegister_eq hh, if_neg hh]
    dsimp only
    by_cases hl : line irqNum ∈ s.lines
    · rw [if_pos hl, Finset.insert_eq_of_mem hl]
    · rw [if_neg hl, Finset.card_insert_of_notMem hl]
      omega
  | unregister irqNum =>
    rw [irqCall, freshRegistrations, irqUnregister_lines]
    by_cases hl : line irqNum ∈ s.lines
    · have hpos := Finset.card_pos.2 ⟨_, hl⟩
      rw [irqUnregister_eq hl, Finset.card_erase_of_mem hl]
      dsimp only
      rw [UInt32.toNat_sub, UInt32.toNat_one]
      omega
    · rw [irqUnregister_unused hl, Finset.erase_eq_of_notMem hl]

/-- The same over a whole run. -/
theorem count_run (hr : irqSys.Run s cs s') :
    (s.handlerCount.toNat + s'.lines.card) % 2 ^ 32 =
      (s'.handlerCount.toNat + freshRegistrations s.lines cs + s.lines.card) % 2 ^ 32 := by
  induction hr with
  | nil s => rw [freshRegistrations, Nat.add_zero]
  | @cons s s₁ s' c cs hs _ ih =>
    have h := count_step s c cs
    have e : irqCall s c = s₁ := hs
    rw [e] at h
    omega

/-- While no handler is registered nothing changes. -/
theorem call_idle (hl : s.lines = ∅) (hc : ¬ Registers c) : irqCall s c = s := by
  cases c with
  | register irqNum handler context =>
    rw [irqCall, of_not_not hc, irqRegister_null]
  | unregister irqNum =>
    rw [irqCall, irqUnregister_unused (by rw [hl]; exact Finset.notMem_empty _)]

/-- The first handler makes the counter wrong. -/
theorem call_miscounts (h0 : s.handlerCount = 0) (hc : Registers c) : ¬ CountExact (irqCall s c) := by
  cases c with
  | register irqNum handler context =>
    intro h
    rw [CountExact, irqGetHandlerCount, irqCall, irqRegister_lines hc, irqRegister_eq hc] at h
    have hpos : 0 < (insert (line irqNum) s.lines).card := Finset.card_pos.2 ⟨_, Finset.mem_insert_self _ _⟩
    dsimp only at h
    rw [h0, UInt32.toNat_zero] at h
    omega
  | unregister irqNum => exact hc.elim

/-- **When the handler count is exact**: after any calls, exactly if the
number of registrations on lines without a handler is a multiple of 2^32; all
along a run, exactly if no call of it registers a handler. -/
theorem handler_count_iff (cs : List IrqCall) :
    (∀ s, irqSys.Run irqDispatcherInit cs s → (CountExact s ↔ 2 ^ 32 ∣ freshRegistrations ∅ cs)) ∧
    (irqSys.Always CountExact irqDispatcherInit cs ↔
      irqSys.Steps (fun _ c => ¬ Registers c) irqDispatcherInit cs) := by
  constructor
  · intro s hr
    have h := count_run hr
    have hcard : s.lines.card ≤ 256 := s.lines_card_le
    have hlt := s.handlerCount.toNat_lt
    rw [irqDispatcherInit_lines, Finset.card_empty] at h
    have h0 : irqDispatcherInit.handlerCount.toNat = 0 := rfl
    rw [CountExact, irqGetHandlerCount, Nat.dvd_iff_mod_eq_zero]
    omega
  · apply LTS.always_iff_steps (I := fun s => s.handlerCount = 0 ∧ s.lines = ∅)
    · intro s h
      rw [CountExact, irqGetHandlerCount, h.1, h.2]
      rfl
    · intro s c s' h hc hs
      rw [← show irqCall s c = s' from hs, call_idle h.2 hc]
      exact h
    · intro s c s' h hc hs
      rw [← show irqCall s c = s' from hs]
      exact call_miscounts h.1 (of_not_not hc)
    · exact ⟨rfl, irqDispatcherInit_lines⟩

/-- One handler is registered and the count is 0; unregistered again, it is
2^32 - 1. -/
theorem handler_not_counted :
    ¬ CountExact (irqCall irqDispatcherInit (.register 5 1 0)) ∧
    (irqGetHandlerCount (irqCall (irqCall irqDispatcherInit (.register 5 1 0)) (.unregister 5))).toNat = 2 ^ 32 - 1 := by
  decide +kernel

end Rtos.Irq
