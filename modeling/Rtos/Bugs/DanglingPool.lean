import Rtos.Heap.Exact
import Rtos.Heap.Pool

/-!
# A pool that was not created frees a block of someone else

`memory_pool_create` stores the address of its blocks in the structure before
it allocates the bitmap. When there is no room for the bitmap, the blocks go
back to the heap, but `pool_start` still points at them. Once the heap has
granted that place again, `memory_pool_destroy` on the structure frees the
block of its new owner.

`failed_pool_harmless`: after a creation that failed, destroying the structure
changes no block whatever other code does, if and only if the creation failed
before it had its blocks.
-/
namespace Rtos.Heap

open Rtos.Core
open Rtos.Sched (RtosStatus)

section

variable (t : Target)

/-- What other code does with the heap from a state on. -/
def heapFrom (s₀ : HeapSys) : LTS HeapSys AllocCall :=
  (LTS.ofFn (· = s₀) (HeapSys.alloc t)).restrict (AllocLegal t)

/-- Destroying the pool leaves the block list as it is. -/
def Harmless (pool : Option MemoryPool) (s : HeapSys) : Prop :=
  ∃ h' pool', memoryPoolDestroy t s.heap pool = some (h', pool') ∧ heapBlocks t h' = heapBlocks t s.heap

/-- `memory_pool_create` gets its blocks. -/
def BlocksFit (h : HeapState) (pool : Option MemoryPool) (bs n : Nat) : Prop :=
  pool.isSome ∧ bs ≠ 0 ∧ n ≠ 0 ∧ t.mul (alignSize t bs) n ≠ 0 ∧ Fits t h (t.mul (alignSize t bs) n)

end

variable {t : Target} {s : HeapSys} {h h' : HeapState} {G : Multiset (Nat × Nat)} {pool : MemoryPool} {p n bs : Nat}

/-- A structure without pointers owns nothing. -/
theorem harmless_of_null (h1 : pool.poolStart = 0) (h2 : pool.freeList = 0) : Harmless t (some pool) s := by
  refine ⟨s.heap, some .zero, ?_, rfl⟩
  rw [memoryPoolDestroy, h1, h2]
  rfl

/-- Destroying a structure that points at a block of someone else frees it. -/
theorem not_harmless (ho : Outstanding t s.heap ((p, n) ::ₘ G)) (h1 : pool.poolStart = p) (h2 : pool.freeList = 0) :
    ¬ Harmless t (some pool) s := by
  intro hh
  obtain ⟨h', pool', e, hb⟩ := hh
  obtain ⟨h₁, e₁, ho₁, -⟩ := free_outstanding ho
  rw [memoryPoolDestroy, h1, h2, if_pos (ho.ne_zero (Multiset.mem_cons_self _ _)), e₁] at e
  obtain rfl : h₁ = h' := by simpa using congrArg (Option.map (·.1)) e
  have hG := congrArg Multiset.card (grants_unique ho₁ ho hb)
  rw [Multiset.card_cons] at hG
  omega

/-- A heap with the same grants grants the same block again. -/
theorem granted_again {h₁ : HeapState} (ho : Outstanding t h G) (ho' : Outstanding t h' G)
    (e : rtosMalloc t h n = some (h₁, p)) (hp : p ≠ 0) (hn : n < t.sizeMod) (live : List Nat) :
    ∃ s g, (heapFrom t ⟨h', live⟩).step ⟨h', live⟩ (.malloc n) s ∧ Outstanding t s.heap ((p, g) ::ₘ G) := by
  have hptr := malloc_unique ho' ho n
  rw [e] at hptr
  rcases malloc_outstanding ho' n with e₂ | ⟨h₂, p₂, g, e₂, -, -, ho₂, -⟩
  · rw [e₂] at hptr
    exact absurd (Option.some.inj hptr).symm hp
  · rw [e₂] at hptr
    obtain rfl : p₂ = p := Option.some.inj hptr
    refine ⟨⟨h₂, p₂ :: live⟩, g, ⟨hn, ?_⟩, ho₂⟩
    show HeapSys.alloc t _ _ = _
    unfold HeapSys.alloc
    dsimp only
    rw [e₂, Option.map_some, if_neg hp]

/-- **When a failed creation owns nothing**: if it failed before it had its
blocks. -/
theorem failed_pool_harmless (t : Target) (hs : HeapSys) (hr : (allocSys t).Reachable hs)
    (pool pool' : Option MemoryPool) (hz : ∀ q ∈ pool, q = .zero) (bs n : Nat) (h' : HeapState) (st : RtosStatus)
    (e : memoryPoolCreate t hs.heap pool bs n = some (h', pool', st)) (hst : st ≠ .ok) :
    (∀ s, (heapFrom t ⟨h', hs.live⟩).Reachable s → Harmless t pool' s) ↔ ¬ BlocksFit t hs.heap pool bs n := by
  have hi := (accounted_inductive t).reachable hs hr
  obtain ⟨G, ho, hl⟩ := hi.grants
  have hmod := t.sizeMod_ge
  cases pool with
  | none =>
    refine iff_of_true (fun s _ => ?_) fun hf => Bool.noConfusion hf.1
    obtain ⟨-, rfl, -⟩ : hs.heap = h' ∧ none = pool' ∧ RtosStatus.errorInvalidParam = st := by
      simpa [memoryPoolCreate] using e
    exact ⟨s.heap, none, rfl, rfl⟩
  | some q =>
    obtain rfl := hz q rfl
    rcases poolCreate_cases ho .zero bs n with ⟨h0, e'⟩ | ⟨hbs, hn, em, e'⟩ |
      ⟨h₁, p, g, h₂, hbs, hn, em, hp, -, ho₁, ho₂, -, e'⟩ | ⟨_, p, g, q, k, e', -⟩
    · rw [e'] at e
      cases e
      refine iff_of_true (fun s _ => harmless_of_null rfl rfl) fun hf => ?_
      exact h0.elim hf.2.1 hf.2.2.1
    · rw [e'] at e
      cases e
      refine iff_of_true (fun s _ => harmless_of_null rfl rfl) fun hf => ?_
      exact ((malloc_null_iff ho).1 ⟨_, em⟩).elim hf.2.2.2.1 fun hno => hno hf.2.2.2.2
    · -- the blocks were granted, and are granted again
      rw [e'] at e
      cases e
      have hfits : t.mul (alignSize t bs) n ≠ 0 ∧ Fits t hs.heap (t.mul (alignSize t bs) n) := by
        refine ⟨malloc_ne_zero em hp, ?_⟩
        by_contra hno
        obtain ⟨h'', em'⟩ := (malloc_null_iff ho).2 (.inr hno)
        rw [em] at em'
        exact hp (Prod.mk.inj (Option.some.inj em')).2
      refine iff_of_false (fun hall => ?_) (not_not.2 ⟨rfl, hbs, hn, hfits.1, hfits.2⟩)
      obtain ⟨s, g₂, hstep, ho₃⟩ := granted_again ho ho₂ em hp (Nat.mod_lt _ (by omega)) hs.live
      exact not_harmless ho₃ rfl rfl (hall s ⟨_, _, rfl, .cons hstep (.nil _)⟩)
    · rw [e'] at e
      cases e
      exact absurd rfl hst

/-- One block that takes the whole heap of a board leaves no room for the
bitmap. Then 100 bytes are granted at its place, and freed by the pool. -/
theorem dangling_pool : ∃ hs, (allocSys board).Reachable hs ∧ ∃ h' pool,
    memoryPoolCreate board hs.heap (some .zero) 65520 1 = some (h', some pool, .errorNoMemory) ∧
    ∃ s, (heapFrom board ⟨h', hs.live⟩).Reachable s ∧ ¬ Harmless board (some pool) s := by
  have hrun : (memoryPoolCreate board (HeapSys.boot board).heap (some .zero) 65520 1).bind (fun r =>
      (LTS.guarded (HeapSys.alloc board) (AllocLegal board) ⟨r.1, []⟩ (.malloc 100)).map fun s =>
        (r.2, (heapBlocks board s.heap).map (·.length),
          (memoryPoolDestroy board s.heap r.2.1).map fun r => (heapBlocks board r.1).map (·.length))) =
      some ((some ⟨0x20000010, 0, 0, 0, 0⟩, .errorNoMemory), some 2, some (some 1)) := by decide +kernel
  obtain ⟨⟨h', pool, st⟩, e, hr⟩ := Option.bind_eq_some_iff.1 hrun
  obtain ⟨s, es, hr⟩ := Option.map_eq_some_iff.1 hr
  simp only [Prod.mk.injEq] at hr
  obtain ⟨⟨rfl, rfl⟩, hb, hd⟩ := hr
  refine ⟨HeapSys.boot board, ⟨_, [], rfl, .nil _⟩, h', _, e, s,
    ⟨_, _, rfl, .cons (LTS.step_of_guarded _ _ _ es) (.nil _)⟩, fun hh => ?_⟩
  obtain ⟨h₂, pool', e₂, hsame⟩ := hh
  rw [e₂, Option.map_some, hsame, hb] at hd
  cases hd

/-- Two blocks of 2^31 bytes are 0 bytes, which are not granted. -/
theorem failed_pool_harmless_board : ∃ hs, (allocSys board).Reachable hs ∧ ∃ h' pool,
    memoryPoolCreate board hs.heap (some .zero) 0x80000000 2 = some (h', pool, .errorNoMemory) ∧
    ∀ s, (heapFrom board ⟨h', hs.live⟩).Reachable s → Harmless board pool s := by
  have hreach : (allocSys board).Reachable (HeapSys.boot board) := ⟨_, [], rfl, .nil _⟩
  have hrun : (memoryPoolCreate board (HeapSys.boot board).heap (some .zero) 0x80000000 2).map (·.2.2) =
      some .errorNoMemory := by decide +kernel
  obtain ⟨⟨h', pool, st⟩, e, rfl⟩ := Option.map_eq_some_iff.1 hrun
  have hz : ∀ q ∈ some MemoryPool.zero, q = .zero := fun q hq => (Option.some.inj hq).symm
  exact ⟨_, hreach, h', pool, e, (failed_pool_harmless board _ hreach (some .zero) pool hz 0x80000000 2 h' _ e
    (by decide)).2 fun hf => hf.2.2.2.1 (by decide)⟩

end Rtos.Heap
