import Rtos.Heap.Usage
import Rtos.Sched.Types

/-!
# src/ipc/semaphore.c and src/ipc/mutex.c

A `struct semaphore` is two `uint32_t`, a `struct mutex` a `bool` with padding
and a `uint32_t`. Both are one payload of the heap, made and freed the same way.
-/
namespace Rtos.Ipc

open Rtos.Core Rtos.Heap
open Rtos.Sched (RtosStatus)

section

variable (t : Target)

/-- Allocate a structure of `size` bytes and store its fields. -/
def structCreate (h : HeapState) (size : Nat) (fill : Mem → Nat → Mem) : Option (HeapState × Nat) :=
  (rtosMalloc t h size).map fun (h, p) => if p = 0 then (h, 0) else ({ h with mem := fill h.mem p }, p)

def structDestroy (h : HeapState) (p : Nat) : Option HeapState := if p ≠ 0 then rtosFree t h p else some h

/-- mirrors src/ipc/semaphore.c:10-19 -/
def semCreate (h : HeapState) (initialCount maxCount : Nat) : Option (HeapState × Nat) :=
  structCreate t h 8 fun m sem => (m.write sem 4 initialCount).write (sem + 4) 4 maxCount

/-- mirrors src/ipc/semaphore.c:40-45 -/
def semDestroy (h : HeapState) (sem : Nat) : Option HeapState := structDestroy t h sem

/-- mirrors src/ipc/mutex.c:11-20 -/
def mutexCreate (h : HeapState) : Option (HeapState × Nat) :=
  structCreate t h 8 fun m mutex => Mem.write (Function.update m mutex 0) (mutex + 4) 4 0

/-- mirrors src/ipc/mutex.c:56-61 -/
def mutexDestroy (h : HeapState) (mutex : Nat) : Option HeapState := structDestroy t h mutex

end

/-- The fields of the `struct semaphore` at `sem`.
mirrors src/ipc/semaphore.c:5-8 -/
def semCount (m : Mem) (sem : Nat) : Nat := m.read sem 4
def semMaxCount (m : Mem) (sem : Nat) : Nat := m.read (sem + 4) 4

/-- mirrors src/ipc/semaphore.c:21-29 -/
def semTake (m : Mem) (sem : Nat) (_timeout : UInt32) : Mem × RtosStatus :=
  if sem = 0 then (m, .errorInvalidParam)
  else if semCount m sem = 0 then (m, .errorTimeout)
  else (m.write sem 4 (semCount m sem - 1), .ok)

/-- mirrors src/ipc/semaphore.c:31-38 -/
def semGive (m : Mem) (sem : Nat) : Mem × RtosStatus :=
  if sem = 0 then (m, .errorInvalidParam)
  else if semCount m sem ≥ semMaxCount m sem then (m, .error)
  else (m.write sem 4 (semCount m sem + 1), .ok)

/-- The fields of the `struct mutex` at `mutex`.
mirrors src/ipc/mutex.c:6-9 -/
def mutexLocked (m : Mem) (mutex : Nat) : Bool := m mutex != 0
def mutexOwnerTaskId (m : Mem) (mutex : Nat) : Nat := m.read (mutex + 4) 4

/-- `mutex->locked = locked; mutex->owner_task_id = owner` -/
def setMutex (m : Mem) (mutex : Nat) (locked : Bool) (owner : UInt32) : Mem :=
  Mem.write (Function.update m mutex (if locked then 1 else 0)) (mutex + 4) 4 owner.toNat

/-- `current` is what `task_get_current_id` returns.
mirrors src/ipc/mutex.c:22-36 -/
def mutexLock (m : Mem) (mutex : Nat) (_timeout : UInt32) (current : UInt32) : Mem × RtosStatus :=
  if mutex = 0 then (m, .errorInvalidParam)
  else if mutexLocked m mutex then (m, .errorTimeout)
  else (setMutex m mutex true current, .ok)

/-- mirrors src/ipc/mutex.c:38-54 -/
def mutexUnlock (m : Mem) (mutex : Nat) (current : UInt32) : Mem × RtosStatus :=
  if mutex = 0 then (m, .errorInvalidParam)
  else if !mutexLocked m mutex then (m, .error)
  else if mutexOwnerTaskId m mutex ≠ current.toNat then (m, .error)
  else (setMutex m mutex false 0, .ok)

variable {t : Target} {h : HeapState} {G : Multiset (Nat × Nat)} {p g size : Nat} {fill : Mem → Nat → Mem}

/-- A structure is created with one more grant, or not at all. -/
theorem structCreate_outstanding (ho : Outstanding t h G) (hsize : size + 3 < t.sizeMod)
    (hfill : ∀ m p x, (x < p ∨ p + size ≤ x) → fill m p x = m x) :
    structCreate t h size fill = some (h, 0) ∨
    ∃ h' p g, structCreate t h size fill = some (h', p) ∧ p ≠ 0 ∧ size ≤ g ∧
      Outstanding t h' ((p, g) ::ₘ G) ∧ Kept G h.mem h'.mem := by
  unfold structCreate
  rcases malloc_outstanding ho size with e | ⟨h₁, p, g, e, hp, hg, ho₁, hk₁, -⟩
  · left
    rw [e]
    rfl
  · right
    have hg' := (le_alignSize hsize).trans hg
    obtain ⟨ho₂, hk₂⟩ := write_outstanding ho₁ (fill h₁.mem p) fun x hx => hfill _ _ _ (by omega)
    refine ⟨_, p, g, ?_, hp, hg', ho₂, hk₁.trans hk₂⟩
    rw [e, Option.map_some]
    dsimp only
    rw [if_neg hp]

theorem sem_fill (a b : Nat) (m : Mem) (p x : Nat) (hx : x < p ∨ p + 8 ≤ x) :
    (m.write p 4 a).write (p + 4) 4 b x = m x := by
  rw [Mem.write_outside (by omega), Mem.write_outside (by omega)]

theorem semCreate_fields {h' : HeapState} {initialCount maxCount : UInt32} {sem : Nat}
    (e : semCreate t h initialCount.toNat maxCount.toNat = some (h', sem)) (hsem : sem ≠ 0) :
    semCount h'.mem sem = initialCount.toNat ∧ semMaxCount h'.mem sem = maxCount.toNat := by
  obtain ⟨⟨h₁, p⟩, -, e⟩ := Option.map_eq_some_iff.1 e
  dsimp only at e
  split at e
  · cases e
    exact absurd rfl hsem
  · cases e
    constructor
    · exact (Mem.read_write_apart (by omega)).trans (Mem.read_write_self initialCount.toNat_lt)
    · exact Mem.read_write_self maxCount.toNat_lt

theorem mutex_fill (m : Mem) (p x : Nat) (hx : x < p ∨ p + 8 ≤ x) :
    Mem.write (Function.update m p 0) (p + 4) 4 0 x = m x := by
  rw [Mem.write_outside (by omega), Function.update_of_ne (by omega)]

theorem structDestroy_outstanding (ho : Outstanding t h ((p, g) ::ₘ G)) :
    ∃ h', structDestroy t h p = some h' ∧ Outstanding t h' G ∧ Kept G h.mem h'.mem := by
  obtain ⟨h', e, ho', hk, -⟩ := free_outstanding ho
  refine ⟨h', ?_, ho', hk.mono (Multiset.subset_cons _ _)⟩
  rw [structDestroy, if_pos (ho.ne_zero (Multiset.mem_cons_self _ _)), e]

/-! ## The fields of a mutex -/

section

variable (m : Mem) (mutex : Nat) (locked : Bool) (owner : UInt32)

theorem setMutex_outside {x : Nat} (hx : x < mutex ∨ mutex + 8 ≤ x) : setMutex m mutex locked owner x = m x := by
  rw [setMutex, Mem.write_outside (by omega), Function.update_of_ne (by omega)]

theorem setMutex_locked : mutexLocked (setMutex m mutex locked owner) mutex = locked := by
  rw [mutexLocked, setMutex, Mem.write_outside (by omega), Function.update_self]
  cases locked <;> rfl

theorem setMutex_owner : mutexOwnerTaskId (setMutex m mutex locked owner) mutex = owner.toNat :=
  Mem.read_write_self owner.toNat_lt

end

end Rtos.Ipc
