import Rtos.Services.Refine

/-!
# One object of a run

A run of the services, seen from one queue, semaphore or mutex, is a run of
that object alone: the calls on it act on it, the calls on others do not change
it (`created_run`). So what holds of an object by itself holds in any
interleaving with the calls of other tasks on other objects.
-/
namespace Rtos.Services

open Rtos.Core Rtos.Heap
open Rtos.Drivers (UartHandle)

/-- The object that a call acts on. -/
def Call.on (task : UInt32) : Call → Option (Handle × Act)
  | .store ptr i v => some (.ptr ptr, .store i v)
  | .load ptr i => some (.ptr ptr, .load i)
  | .mqSend mq msg => some (.ptr mq, .send msg)
  | .mqReceive mq msg => some (.ptr mq, .receive msg)
  | .semTake sem _ => some (.ptr sem, .take)
  | .semGive sem => some (.ptr sem, .give)
  | .mutexLock mutex _ => some (.ptr mutex, .lock task)
  | .mutexUnlock mutex => some (.ptr mutex, .unlock task)
  | _ => none

/-- A call that removes an object at `p`, or moves it. -/
def Call.ends (p : Nat) : Call → Prop
  | .free p' | .realloc p' _ | .mqDestroy p' | .semDestroy p' | .mutexDestroy p' => p' = p
  | _ => False

/-- The call that destroys an object of this kind. -/
def Kind.destroys (p : Nat) : Kind → Call → Prop
  | .queue, c => c = .mqDestroy p
  | .sem, c => c = .semDestroy p
  | .mutex, c => c = .mutexDestroy p
  | _, c => c.ends p

/-- What an event does to the object at `p`. -/
def Local (p : Nat) (o : Object) (e : Event) (o' : Object) : Prop :=
  match e.call.on e.task with
  | some (h, act) => if h = .ptr p then act o = some (o', e.ret) else o' = o
  | none => o' = o

/-- The object at `p`, created as one of `P`, under all the calls of a run. -/
def objectSys (p : Nat) (P : Object → Prop) : LTS Object Event where
  init := P
  step := Local p

variable {t : Target} {callbacks : Nat → Nat → Mem × UartHandle → Mem × UartHandle} {task : UInt32} {W W' : World}
  {p : Nat} {c : Call} {r : Ret} {o o' : Object} {act : Act} {e : Event} {es es₁ es₂ : List Event} {k : Kind}
  {P : Object → Prop}

theorem on_keeps {h : Handle} (hc : c.on task = some (h, act)) : act.Keeps := by
  cases c with
  | store ptr i v => cases hc; exact Act.store_keeps i v
  | load ptr i => cases hc; exact Act.load_keeps i
  | mqSend mq msg => cases hc; exact Act.send_keeps msg
  | mqReceive mq msg => cases hc; exact Act.receive_keeps msg
  | semTake sem timeout => cases hc; exact Act.take_keeps
  | semGive sem => cases hc; exact Act.give_keeps
  | mutexLock mutex timeout => cases hc; exact Act.lock_keeps task
  | mutexUnlock mutex => cases hc; exact Act.unlock_keeps task
  | _ => cases hc

theorem Local.kind (hl : Local p o e o') : o'.kind = o.kind := by
  unfold Local at hl
  split at hl
  · rename_i h act hc
    split at hl
    · exact on_keeps hc _ _ _ hl
    · rw [hl]
  · rw [hl]

/-- A disciplined application ends an object with the call for its kind. -/
theorem destroys_of_legal (hl : Legal t W.kinds c) (hW : W (.ptr p) = some o) (hp : p ≠ 0) (he : c.ends p) :
    o.kind.destroys p c := by
  have hk : W.kinds (.ptr p) = some o.kind := kinds_eq hW
  cases c with
  | free ptr =>
    cases he
    have h1 : W.kinds.isBytes p = true := hl.resolve_left hp
    rw [Live.isBytes, hk] at h1
    cases o <;> first | rfl | cases h1
  | realloc ptr newSize =>
    cases he
    have h1 : W.kinds.isBytes p = true := hl.1.resolve_left hp
    rw [Live.isBytes, hk] at h1
    cases o <;> first | rfl | cases h1
  | mqDestroy mq =>
    cases he
    have h1 : W.kinds.isQueue p = true := hl.resolve_left hp
    rw [Live.isQueue, hk] at h1
    cases o <;> first | rfl | cases h1
  | semDestroy sem =>
    cases he
    have h1 : W.kinds.isSem p = true := hl.resolve_left hp
    rw [Live.isSem, hk] at h1
    cases o <;> first | rfl | cases h1
  | mutexDestroy mutex =>
    cases he
    have h1 : W.kinds.isMutex p = true := hl.resolve_left hp
    rw [Live.isMutex, hk] at h1
    cases o <;> first | rfl | cases h1
  | _ => exact he.elim

/-! ## One step -/

theorem update_other {h : Handle} {x : Option Object} (hW : W (.ptr p) = some o) (hh : h ≠ .ptr p) :
    Function.update W h x (.ptr p) = some o := by
  rw [Function.update_of_ne fun e => hh e.symm, hW]

theorem Creates.keeps {Q : Object → Prop} (hc : Creates W r W' Q) (hW : W (.ptr p) = some o) :
    W' (.ptr p) = some o := by
  obtain ⟨q, -, ⟨-, rfl⟩ | ⟨-, hq, o', -, rfl⟩⟩ := hc
  · exact hW
  · exact update_other hW (by rintro ⟨⟩; rw [hW] at hq; cases hq)

theorem Destroys.keeps {q : Nat} (hd : Destroys W r W' q) (hW : W (.ptr p) = some o) (hq : q ≠ p) :
    W' (.ptr p) = some o := by
  obtain ⟨-, ⟨-, rfl⟩ | ⟨-, rfl⟩⟩ := hd
  · exact hW
  · exact update_other hW (by rintro ⟨⟩; exact hq rfl)

theorem Acts.keeps {h : Handle} (ha : Acts W r W' h act) (hW : W (.ptr p) = some o) (hh : h ≠ .ptr p) :
    W' (.ptr p) = some o := by
  obtain ⟨o₁, o', -, -, rfl⟩ := ha
  exact update_other hW hh

theorem ActsUart.keeps {u : Fin Drivers.MAX_UART_INSTANCES} {idle : Ret} (ha : ActsUart W r W' u idle act)
    (hW : W (.ptr p) = some o) : W' (.ptr p) = some o := by
  rcases ha with ⟨-, -, rfl⟩ | ha
  · exact hW
  · exact ha.keeps hW (by rintro ⟨⟩)

/-- A call on an object at a pointer, seen from the object at `p`. -/
theorem Acts.on_ptr {q : Nat} (ha : Acts W r W' (.ptr q) act) (hW : W (.ptr p) = some o)
    (hc : c.on task = some (.ptr q, act)) : ∃ o', W' (.ptr p) = some o' ∧ Local p o ⟨task, c, r⟩ o' := by
  unfold Local
  simp only [hc]
  by_cases hq : q = p
  · obtain ⟨o₁, o', hW₁, e, rfl⟩ := ha
    rw [hq, hW] at hW₁
    cases hW₁
    exact ⟨o', by rw [hq, Function.update_self], by rw [if_pos (by rw [hq])]; exact e⟩
  · exact ⟨o, ha.keeps hW (by rintro ⟨⟩; exact hq rfl), by rw [if_neg (by rintro ⟨⟩; exact hq rfl)]⟩

theorem ActsPtr.on_ptr {q : Nat} {null : Ret} (ha : ActsPtr W r W' q null act) (hW : W (.ptr p) = some o)
    (hp : p ≠ 0) (hc : c.on task = some (.ptr q, act)) :
    ∃ o', W' (.ptr p) = some o' ∧ Local p o ⟨task, c, r⟩ o' := by
  rcases ha with ⟨rfl, -, rfl⟩ | ⟨-, ha⟩
  · refine ⟨o, hW, ?_⟩
    unfold Local
    simp only [hc]
    rw [if_neg (by rintro ⟨⟩; exact hp rfl)]
    trivial
  · exact ha.on_ptr hW hc

theorem local_step (hs : step task W r W' c) (hW : W (.ptr p) = some o) (hp : p ≠ 0) (he : ¬ c.ends p) :
    ∃ o', W' (.ptr p) = some o' ∧ Local p o ⟨task, c, r⟩ o' := by
  cases c with
  | malloc size => exact ⟨o, hs.keeps hW, rfl⟩
  | calloc num size => exact ⟨o, hs.keeps hW, rfl⟩
  | realloc ptr newSize =>
    refine ⟨o, ?_, rfl⟩
    simp only [step] at hs
    split at hs
    · exact hs.keeps hW
    · split at hs
      · obtain ⟨-, rfl⟩ := hs
        exact update_other hW (by rintro ⟨⟩; exact he rfl)
      · obtain ⟨q, data, -, -, ⟨-, rfl⟩ | ⟨-, hq, data', -, -, rfl⟩⟩ := hs
        · exact hW
        · refine update_other (update_other hW (by rintro ⟨⟩; exact he rfl)) ?_
          rintro ⟨⟩
          rcases hq with rfl | hq
          · exact he rfl
          · rw [hW] at hq
            cases hq
  | free ptr => exact ⟨o, hs.keeps hW he, rfl⟩
  | store ptr i v => exact hs.on_ptr hW rfl
  | load ptr i => exact hs.on_ptr hW rfl
  | mqCreate msgSize maxMsgs => exact ⟨o, hs.keeps hW, rfl⟩
  | mqSend mq msg => exact hs.on_ptr hW hp rfl
  | mqReceive mq msg => exact hs.on_ptr hW hp rfl
  | mqDestroy mq => exact ⟨o, hs.keeps hW he, rfl⟩
  | semCreate initialCount maxCount => exact ⟨o, hs.keeps hW, rfl⟩
  | semTake sem timeout => exact hs.on_ptr hW hp rfl
  | semGive sem => exact hs.on_ptr hW hp rfl
  | semDestroy sem => exact ⟨o, hs.keeps hW he, rfl⟩
  | mutexCreate => exact ⟨o, hs.keeps hW, rfl⟩
  | mutexLock mutex timeout => exact hs.on_ptr hW hp rfl
  | mutexUnlock mutex => exact hs.on_ptr hW hp rfl
  | mutexDestroy mutex => exact ⟨o, hs.keeps hW he, rfl⟩
  | poolCreate pool blockSize numBlocks =>
    obtain ⟨st, -, -, rfl⟩ | ⟨-, start, stride, -, -, -, -, rfl⟩ := hs
    · exact ⟨o, hW, rfl⟩
    · exact ⟨o, update_other hW (by rintro ⟨⟩), rfl⟩
  | poolAlloc pool =>
    obtain ⟨start, stride, blockSize, n, blocks, -, hg⟩ := hs
    split at hg
    · obtain ⟨-, rfl⟩ := hg
      exact ⟨o, hW, rfl⟩
    · obtain ⟨-, data, -, rfl⟩ := hg
      exact ⟨o, update_other hW (by rintro ⟨⟩), rfl⟩
  | poolFree pool ptr => exact ⟨o, hs.keeps hW (by rintro ⟨⟩), rfl⟩
  | poolDestroy pool => obtain ⟨-, rfl⟩ := hs; exact ⟨o, update_other hW (by rintro ⟨⟩), rfl⟩
  | blockStore pool ptr i v => exact ⟨o, hs.keeps hW (by rintro ⟨⟩), rfl⟩
  | blockLoad pool ptr i => exact ⟨o, hs.keeps hW (by rintro ⟨⟩), rfl⟩
  | uartInit id config =>
    obtain ⟨-, rfl, -⟩ | ⟨u, -, -, c, -, ⟨-, rfl⟩ | ⟨-, rfl⟩⟩ := hs
    · exact ⟨o, hW, rfl⟩
    · exact ⟨o, hW, rfl⟩
    · exact ⟨o, update_other hW (by rintro ⟨⟩), rfl⟩
  | uartWrite u data len => exact ⟨o, hs.keeps hW, rfl⟩
  | uartWriteDma u data len => exact ⟨o, hs.keeps hW, rfl⟩
  | uartRead u buffer len bytesRead => exact ⟨o, hs.keeps hW, rfl⟩
  | uartAvailable u => exact ⟨o, hs.keeps hW, rfl⟩
  | uartFlush u => exact ⟨o, hs.keeps hW, rfl⟩
  | uartSetCallback u callback userData => exact ⟨o, hs.keeps hW, rfl⟩
  | uartDeinit u =>
    obtain ⟨-, -, rfl⟩ | ⟨-, -, rfl⟩ := hs
    · exact ⟨o, hW, rfl⟩
    · exact ⟨o, update_other hW (by rintro ⟨⟩), rfl⟩

/-! ## A run -/

theorem local_run (hr : (legalSpec t).Run W es W') (hW : W (.ptr p) = some o) (hp : p ≠ 0)
    (hlive : ∀ e ∈ es, ¬ o.kind.destroys p e.call) :
    ∃ o', W' (.ptr p) = some o' ∧ (objectSys p P).Run o es o' := by
  induction hr generalizing o with
  | nil W => exact ⟨o, hW, .nil o⟩
  | @cons W W₁ W' e es hs _ ih =>
    obtain ⟨hl, hs⟩ := hs
    have he : ¬ e.call.ends p := fun he => hlive e List.mem_cons_self (destroys_of_legal hl hW hp he)
    obtain ⟨o₁, hW₁, h1⟩ := local_step hs hW hp he
    obtain ⟨o', hW', h2⟩ := ih hW₁ fun e he => by
      rw [h1.kind]
      exact hlive e (List.mem_cons_of_mem _ he)
    exact ⟨o', hW', .cons h1 h2⟩

/-- What follows the creation of an object, up to its end, is a run of it. -/
theorem created_run (h : (svcSys t callbacks).Trace (es₁ ++ ⟨task, c, .ptr p⟩ :: es₂)) (hp : p ≠ 0)
    (hc : ∀ W W', step task W (.ptr p) W' c → Creates W (.ptr p) W' P) (hk : ∀ o, P o → o.kind = k)
    (hlive : ∀ e ∈ es₂, ¬ k.destroys p e.call) : (objectSys p P).Trace es₂ := by
  obtain ⟨W₀, W, -, hr⟩ := (services_simulate t callbacks).trace h
  obtain ⟨W₁, -, hr₁⟩ := LTS.run_split hr
  cases hr₁ with
  | cons hs hr₂ =>
    obtain ⟨q, hq, ⟨rfl, -⟩ | ⟨-, -, o, ho, rfl⟩⟩ := hc _ _ hs.2
    · cases hq
      exact absurd rfl hp
    · cases hq
      rw [← hk o ho] at hlive
      obtain ⟨o', -, hr'⟩ := local_run (P := P) hr₂ (Function.update_self _ _ _) hp hlive
      exact ⟨o, o', ho, hr'⟩

end Rtos.Services
