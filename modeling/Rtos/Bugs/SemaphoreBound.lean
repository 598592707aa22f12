import Rtos.Core.LTS
import Rtos.Ipc.Locks

/-!
# A semaphore that starts above its bound

`sem_give` turns down a call when the count has reached `max_count`, and
`sem_take` never lets it grow. But `sem_create` stores whatever initial count
it is given, so a semaphore created with `initial_count > max_count` starts
with more than `max_count` takes to hand out.

`semaphore_bounded_iff`: the semaphore keeps count and bound in every run
exactly when it is created with `initial_count <= max_count`.
-/
namespace Rtos.Ipc

open Rtos.Core Rtos.Heap
open Rtos.Sched (RtosStatus)

/-- The semaphore and the calls that succeeded. -/
structure SemSys where
  mem : Mem
  sem : Nat
  takes : Nat
  gives : Nat

inductive SemCall
  | take (timeout : UInt32)
  | give

def SemSys.call (s : SemSys) : SemCall → SemSys
  | .take timeout =>
    let r := semTake s.mem s.sem timeout
    { s with
      mem := r.1
      takes := if r.2 = .ok then s.takes + 1 else s.takes }
  | .give =>
    let r := semGive s.mem s.sem
    { s with
      mem := r.1
      gives := if r.2 = .ok then s.gives + 1 else s.gives }

/-- From a state on, with no call yet. -/
def semSys (m : Mem) (sem : Nat) : LTS SemSys SemCall :=
  LTS.ofFn (fun s => s = ⟨m, sem, 0, 0⟩) fun s c => some (s.call c)

/-- The semaphore conserves `initialCount` and is bounded by `maxCount`. -/
structure SemBounded (initialCount maxCount : Nat) (s : SemSys) : Prop where
  conserved : semCount s.mem s.sem + s.takes = initialCount + s.gives
  bound : semCount s.mem s.sem ≤ maxCount
  takeFails : ∀ timeout, (semTake s.mem s.sem timeout).2 ≠ .ok ↔ semCount s.mem s.sem = 0
  giveFails : (semGive s.mem s.sem).2 ≠ .ok ↔ maxCount ≤ semCount s.mem s.sem
  takeUnchanged : ∀ timeout, (semTake s.mem s.sem timeout).2 ≠ .ok → (semTake s.mem s.sem timeout).1 = s.mem
  giveUnchanged : (semGive s.mem s.sem).2 ≠ .ok → (semGive s.mem s.sem).1 = s.mem
  outstanding : s.takes ≤ maxCount + s.gives

variable {s : SemSys} {m : Mem} {sem initialCount maxCount : Nat}

/-! ## One call -/

theorem semTake_cases (hsem : sem ≠ 0) (timeout : UInt32) :
    (semCount m sem = 0 ∧ semTake m sem timeout = (m, .errorTimeout)) ∨
    ∃ m', semCount m sem ≠ 0 ∧ semTake m sem timeout = (m', .ok) ∧ semCount m' sem = semCount m sem - 1 ∧
      semMaxCount m' sem = semMaxCount m sem := by
  by_cases hc : semCount m sem = 0
  · left
    refine ⟨hc, ?_⟩
    rw [semTake, if_neg hsem, if_pos hc]
  · right
    have hlt : semCount m sem < 256 ^ 4 := Mem.read_lt m sem 4
    refine ⟨m.write sem 4 (semCount m sem - 1), hc, ?_, Mem.read_write_self (by omega),
      Mem.read_write_apart (by omega)⟩
    rw [semTake, if_neg hsem, if_neg hc]

theorem semGive_cases (hsem : sem ≠ 0) :
    (semMaxCount m sem ≤ semCount m sem ∧ semGive m sem = (m, .error)) ∨
    ∃ m', semCount m sem < semMaxCount m sem ∧ semGive m sem = (m', .ok) ∧
      semCount m' sem = semCount m sem + 1 ∧ semMaxCount m' sem = semMaxCount m sem := by
  by_cases hc : semMaxCount m sem ≤ semCount m sem
  · left
    refine ⟨hc, ?_⟩
    rw [semGive, if_neg hsem, if_pos hc]
  · right
    -- below a `uint32_t` the count does not wrap
    have hlt : semMaxCount m sem < 256 ^ 4 := Mem.read_lt m (sem + 4) 4
    refine ⟨m.write sem 4 (semCount m sem + 1), by omega, ?_, Mem.read_write_self (by omega),
      Mem.read_write_apart (by omega)⟩
    rw [semGive, if_neg hsem, if_neg hc]

/-! ## Runs -/

/-- What every call keeps when the count starts at most at its bound. -/
structure SemKept (initialCount maxCount : Nat) (s : SemSys) : Prop where
  ne_zero : s.sem ≠ 0
  conserved : semCount s.mem s.sem + s.takes = initialCount + s.gives
  bound : semCount s.mem s.sem ≤ maxCount
  max_eq : semMaxCount s.mem s.sem = maxCount

theorem call_semKept (c : SemCall) (h : SemKept initialCount maxCount s) :
    SemKept initialCount maxCount (s.call c) := by
  obtain ⟨hsem, hcons, hbound, hmax⟩ := h
  cases c with
  | take timeout =>
    dsimp only [SemSys.call]
    rcases semTake_cases hsem timeout with ⟨hc, e⟩ | ⟨m', hc, e, hc', hm'⟩
    · rw [e]
      exact ⟨hsem, hcons, hbound, hmax⟩
    · rw [e]
      exact ⟨hsem, by dsimp only; rw [if_pos rfl]; omega, by dsimp only; omega, hm'.trans hmax⟩
  | give =>
    dsimp only [SemSys.call]
    rcases semGive_cases hsem with ⟨hc, e⟩ | ⟨m', hc, e, hc', hm'⟩
    · rw [e]
      exact ⟨hsem, hcons, hbound, hmax⟩
    · rw [e]
      exact ⟨hsem, by dsimp only; rw [if_pos rfl]; omega, by dsimp only; omega, hm'.trans hmax⟩

theorem SemKept.bounded (hle : initialCount ≤ maxCount) (h : SemKept initialCount maxCount s) :
    SemBounded initialCount maxCount s := by
  obtain ⟨hsem, hcons, hbound, hmax⟩ := h
  refine ⟨hcons, hbound, fun timeout => ?_, ?_, fun timeout => ?_, ?_, by omega⟩
  · rcases semTake_cases hsem timeout with ⟨hc, e⟩ | ⟨m', hc, e, -⟩
    · rw [e]
      exact iff_of_true RtosStatus.noConfusion hc
    · rw [e]
      exact iff_of_false (not_not.2 rfl) hc
  · rcases semGive_cases hsem with ⟨hc, e⟩ | ⟨m', hc, e, -⟩
    · rw [e]
      exact iff_of_true RtosStatus.noConfusion (by omega)
    · rw [e]
      exact iff_of_false (not_not.2 rfl) (by omega)
  · rcases semTake_cases hsem timeout with ⟨hc, e⟩ | ⟨m', hc, e, -⟩
    · rw [e]
      exact fun _ => rfl
    · rw [e]
      exact fun h => absurd rfl h
  · rcases semGive_cases hsem with ⟨hc, e⟩ | ⟨m', hc, e, -⟩
    · rw [e]
      exact fun _ => rfl
    · rw [e]
      exact fun h => absurd rfl h

/-- **When a semaphore keeps its bound**: in every run from its creation, if
and only if the initial count is not above it. -/
theorem semaphore_bounded_iff (t : Target) (h h' : HeapState) (initialCount maxCount : UInt32) (sem : Nat)
    (e : semCreate t h initialCount.toNat maxCount.toNat = some (h', sem)) (hsem : sem ≠ 0) :
    (∀ s, (semSys h'.mem sem).Reachable s → SemBounded initialCount.toNat maxCount.toNat s) ↔
      initialCount ≤ maxCount := by
  obtain ⟨hc, hm⟩ := semCreate_fields e hsem
  constructor
  · intro hall
    have hb := (hall ⟨h'.mem, sem, 0, 0⟩ ⟨_, [], rfl, .nil _⟩).bound
    dsimp only at hb
    rw [hc] at hb
    exact UInt32.le_iff_toNat_le.2 hb
  · intro hle s hs
    have hle' := UInt32.le_iff_toNat_le.1 hle
    have hkept : (semSys h'.mem sem).Inductive (SemKept initialCount.toNat maxCount.toNat) := by
      refine ⟨?_, ?_⟩
      · rintro s rfl
        exact ⟨hsem, by dsimp only; omega, by dsimp only; omega, hm⟩
      · intro s c s' hk hs
        cases hs
        exact call_semKept c hk
    exact (hkept.reachable s hs).bounded hle'

theorem boardSem_create (initialCount maxCount : UInt32) (P : HeapState → Nat → Bool)
    (h : (semCreate board (HeapSys.boot board).heap initialCount.toNat maxCount.toNat).any (fun r =>
      P r.1 r.2) = true) :
    ∃ h' sem, semCreate board (HeapSys.boot board).heap initialCount.toNat maxCount.toNat = some (h', sem) ∧
      P h' sem = true := by
  obtain ⟨⟨h', sem⟩, e, h⟩ := (Option.any_eq_true _ _).1 h
  exact ⟨h', sem, e, h⟩

/-- A semaphore of one that starts free. -/
theorem semaphore_bounded_iff_board : ∃ h' sem,
    semCreate board (HeapSys.boot board).heap (1 : UInt32).toNat (1 : UInt32).toNat = some (h', sem) ∧
    ((∀ s, (semSys h'.mem sem).Reachable s → SemBounded (1 : UInt32).toNat (1 : UInt32).toNat s) ↔
      (1 : UInt32) ≤ 1) := by
  obtain ⟨h', sem, e, h⟩ := boardSem_create 1 1 (fun _ sem => sem ≠ 0) (by decide +kernel)
  exact ⟨h', sem, e, semaphore_bounded_iff board _ h' 1 1 sem e (of_decide_eq_true h)⟩

/-- Two takes succeed on a semaphore of one. -/
theorem semaphore_exceeded : ∃ h' sem s,
    semCreate board (HeapSys.boot board).heap 2 1 = some (h', sem) ∧ sem ≠ 0 ∧
    (semSys h'.mem sem).Run ⟨h'.mem, sem, 0, 0⟩ [.take 0, .take 0] s ∧ s.takes = 2 ∧ s.gives = 0 ∧
    ¬ SemBounded 2 1 s ∧ ¬ SemBounded 2 1 ⟨h'.mem, sem, 0, 0⟩ := by
  obtain ⟨h', sem, e, h⟩ := boardSem_create 2 1 (fun h' sem =>
    let s := ((⟨h'.mem, sem, 0, 0⟩ : SemSys).call (.take 0)).call (.take 0)
    sem ≠ 0 ∧ s.takes = 2 ∧ s.gives = 0 ∧ semCount h'.mem sem = 2) (by decide +kernel)
  obtain ⟨hsem, htakes, hgives, hc⟩ := of_decide_eq_true h
  refine ⟨h', sem, _, e, hsem, .cons rfl (.cons rfl (.nil _)), htakes, hgives, fun hb => ?_, fun hb => ?_⟩
  · have := hb.outstanding
    omega
  · have := hb.bound
    dsimp only at this
    omega

end Rtos.Ipc
