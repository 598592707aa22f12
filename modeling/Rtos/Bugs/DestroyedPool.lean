import Rtos.Heap.Pool

/-!
# Freeing into a destroyed pool divides by zero

`memory_pool_destroy` clears the structure, `block_size` included, and
`memory_pool_free` divides by `block_size` without looking at it. A creation
that succeeds never leaves 0 there, because `rtos_malloc` grants nothing for 0
bytes.

`pool_divides_iff`: along every run from a creation that succeeded, every
`memory_pool_free` returns if and only if the pool is not destroyed in it.
-/
namespace Rtos.Heap

open Rtos.Core
open Rtos.Sched (RtosStatus)

/-- The heap, the pool, and whether it was destroyed. -/
structure PoolLife where
  heap : HeapState
  pool : MemoryPool
  destroyed : Bool

inductive LifeCall
  | alloc
  | free (ptr : Nat)
  | destroy
  deriving DecidableEq

section

variable (t : Target)

def PoolLife.call (s : PoolLife) : LifeCall → Option PoolLife
  | .alloc =>
    let r := memoryPoolAlloc t s.heap.mem (some s.pool)
    some { s with heap := { s.heap with mem := r.1 }, pool := r.2.1.getD s.pool }
  | .free ptr => (memoryPoolFree t s.heap.mem (some s.pool) ptr).map fun r =>
      { s with heap := { s.heap with mem := r.1 }, pool := r.2.1.getD s.pool }
  | .destroy => (memoryPoolDestroy t s.heap (some s.pool)).map fun r => ⟨r.1, r.2.getD s.pool, true⟩

/-- What `memory_pool_create` made of any sizes on a heap in use. -/
def LifeCreated (s : PoolLife) : Prop :=
  ∃ (hs : HeapSys) (pool : MemoryPool) (blockSize numBlocks : Nat), (allocSys t).Reachable hs ∧
    numBlocks < t.sizeMod ∧
    memoryPoolCreate t hs.heap (some pool) blockSize numBlocks = some (s.heap, some s.pool, .ok) ∧
    s.destroyed = false

def lifeSys : LTS PoolLife LifeCall := LTS.ofFn (LifeCreated t) (PoolLife.call t)

/-- Freeing any pointer returns, with an error if the pool was destroyed. -/
def Divides (s : PoolLife) : Prop :=
  ∀ ptr, ptr ≠ 0 → ∃ m pool st, memoryPoolFree t s.heap.mem (some s.pool) ptr = some (m, pool, st) ∧
    (s.destroyed = true → st ≠ .ok)

/-- The pool in use: its bitmap and its blocks are granted, and blocks are not empty. -/
structure InUse (s : PoolLife) : Prop where
  heap : ∃ G g k, Outstanding t s.heap ((s.pool.freeList, k) ::ₘ (s.pool.poolStart, g) ::ₘ G) ∧
    (s.pool.numBlocks + 7) / 8 ≤ k
  size : s.pool.blockSize ≠ 0
  alive : s.destroyed = false

end

variable {t : Target} {s s' : PoolLife} {c : LifeCall} {m : Mem} {pool : MemoryPool} {ptr : Nat}

/-- The two calls write into the bitmap and to `free_blocks` at most. -/
structure BitmapCall (m m' : Mem) (pool pool' : MemoryPool) : Prop where
  counted : ∃ k, pool' = { pool with freeBlocks := k }
  stored : ∀ x, (x < pool.freeList ∨ pool.freeList + (pool.numBlocks + 7) / 8 ≤ x) → m' x = m x

theorem BitmapCall.refl (m : Mem) (pool : MemoryPool) : BitmapCall m m pool pool := ⟨⟨_, rfl⟩, fun _ _ => rfl⟩

theorem poolAlloc_bitmap (t : Target) (m : Mem) (pool : MemoryPool) :
    ∃ m' pool' p, memoryPoolAlloc t m (some pool) = (m', some pool', p) ∧ BitmapCall m m' pool pool' := by
  unfold memoryPoolAlloc
  dsimp only
  split
  · exact ⟨_, _, _, rfl, .refl m pool⟩
  · cases hb : m.firstBit pool.freeList pool.numBlocks 0 with
    | none => exact ⟨_, _, _, rfl, .refl m pool⟩
    | some i =>
      have hi := (Mem.firstBit_some hb).2.1
      exact ⟨_, _, _, rfl, ⟨_, rfl⟩, fun x hx => Function.update_of_ne (by omega) _ _⟩

theorem poolFree_bitmap (t : Target) (m : Mem) (hsize : pool.blockSize ≠ 0) (ptr : Nat) :
    ∃ m' pool' st, memoryPoolFree t m (some pool) ptr = some (m', some pool', st) ∧ BitmapCall m m' pool pool' := by
  unfold memoryPoolFree
  dsimp only
  rw [if_neg hsize]
  split
  · exact ⟨_, _, _, rfl, .refl m pool⟩
  split
  · exact ⟨_, _, _, rfl, .refl m pool⟩
  split
  · exact ⟨_, _, _, rfl, .refl m pool⟩
  generalize t.sub ptr pool.poolStart / pool.blockSize = i at *
  split
  · exact ⟨_, _, _, rfl, .refl m pool⟩
  · exact ⟨_, _, _, rfl, ⟨_, rfl⟩, fun x hx => Function.update_of_ne (by omega) _ _⟩

/-- A pool in use stays in use. -/
theorem InUse.bitmap {m' : Mem} {pool' : MemoryPool} (hi : InUse t s) (hb : BitmapCall s.heap.mem m' s.pool pool') :
    InUse t { s with heap := { s.heap with mem := m' }, pool := pool' } := by
  obtain ⟨G, g, k, ho, hk⟩ := hi.heap
  obtain ⟨j, rfl⟩ := hb.counted
  have ho' := (write_outstanding ho m' fun x hx => hb.stored x (by omega)).1
  exact ⟨⟨G, g, k, ho', hk⟩, hi.size, hi.alive⟩

theorem InUse.divides (hi : InUse t s) : Divides t s := by
  intro ptr _
  obtain ⟨m', pool', st, e, -⟩ := poolFree_bitmap t s.heap.mem hi.size ptr
  exact ⟨m', _, st, e, fun h => by rw [hi.alive] at h; cases h⟩

theorem InUse.call (hi : InUse t s) (hc : c ≠ .destroy) : ∃ s', s.call t c = some s' ∧ InUse t s' := by
  unfold PoolLife.call
  cases c with
  | alloc =>
    obtain ⟨m', pool', p, e, hb⟩ := poolAlloc_bitmap t s.heap.mem s.pool
    dsimp only
    rw [e]
    exact ⟨_, rfl, hi.bitmap hb⟩
  | free ptr =>
    obtain ⟨m', pool', st, e, hb⟩ := poolFree_bitmap t s.heap.mem hi.size ptr
    dsimp only
    rw [e]
    exact ⟨_, rfl, hi.bitmap hb⟩
  | destroy => exact absurd rfl hc

/-- Destroying the pool returns and leaves a `block_size` of 0. -/
theorem InUse.destroy (hi : InUse t s) : ∃ s', s.call t .destroy = some s' ∧ s'.pool = .zero := by
  obtain ⟨G, g, k, ho, -⟩ := hi.heap
  obtain ⟨h', e, -⟩ := poolDestroy_outstanding ho
  refine ⟨⟨h', .zero, true⟩, ?_, rfl⟩
  unfold PoolLife.call
  dsimp only
  rw [e]
  rfl

theorem not_divides (hp : s.pool = .zero) : ¬ Divides t s := by
  intro hd
  obtain ⟨m, pool, st, e, -⟩ := hd 1 (by decide)
  rw [hp] at e
  cases e

theorem created_inUse (h : LifeCreated t s) : InUse t s := by
  obtain ⟨hs, pool₀, bs, n, hr, hn, e, hd⟩ := h
  obtain ⟨G, ho, -⟩ := ((accounted_inductive t).reachable hs hr).grants
  rcases poolCreate_outstanding ho (some pool₀) bs n with ⟨_, _, st, e', hst, -⟩ |
    ⟨h₂, p, g, q, k, e', -, -, htotal, -, hk0, hk, ho', -⟩
  · rw [e'] at e
    cases e
    exact absurd rfl hst
  rw [e'] at e
  obtain ⟨h1, h2⟩ : h₂ = s.heap ∧ (⟨p, alignSize t bs, n, n, q⟩ : MemoryPool) = s.pool := by simpa using e
  rw [bitmap_bytes hn hk0] at hk
  refine ⟨⟨G, g, k, ?_, ?_⟩, ?_, hd⟩
  · rw [← h1, ← h2]
    exact ho'
  · rw [← h2]
    exact hk
  · -- a block size of 0 asks for 0 bytes
    rw [← h2]
    intro h0
    apply htotal
    rw [show alignSize t bs = 0 from h0, Target.mul, Nat.zero_mul, Nat.zero_mod]

/-- **When `memory_pool_free` divides**: in every run in which the pool is not
destroyed. -/
theorem pool_divides_iff (t : Target) (s : PoolLife) (h : (lifeSys t).init s) (calls : List LifeCall) :
    (lifeSys t).Always (Divides t) s calls ↔ LifeCall.destroy ∉ calls := by
  have hi : InUse t s := created_inUse h
  have hkeep : ∀ s c s', InUse t s → c ≠ LifeCall.destroy → (lifeSys t).step s c s' → InUse t s' := by
    intro s c s' hi hc hs
    obtain ⟨s₁, e, h1⟩ := hi.call hc
    obtain rfl : s₁ = s' := Option.some.inj (e.symm.trans hs)
    exact h1
  have hstep : ∀ s c, InUse t s → ∃ s', (lifeSys t).step s c s' := by
    intro s c hi
    by_cases hc : c = .destroy
    · obtain ⟨s', e, -⟩ := hi.destroy
      exact ⟨s', hc ▸ e⟩
    · obtain ⟨s', e, -⟩ := hi.call hc
      exact ⟨s', e⟩
  have hbreak : ∀ s c s', InUse t s → ¬ c ≠ LifeCall.destroy → (lifeSys t).step s c s' → ¬ Divides t s' := by
    intro s c s' hi hc hs
    obtain rfl := not_not.1 hc
    obtain ⟨s₁, e, hz⟩ := hi.destroy
    obtain rfl : s₁ = s' := Option.some.inj (e.symm.trans hs)
    exact not_divides hz
  rw [LTS.always_iff_steps (fun s hi => hi.divides) hkeep hbreak calls s hi, LTS.steps_iff_forall hstep hkeep calls s hi]
  constructor
  · exact fun hall hmem => hall _ hmem rfl
  · exact fun hno c hc he => hno (he ▸ hc)

/-- A pool made on the heap of a board just booted. -/
theorem boardPool_life : ∃ s, (lifeSys board).init s := by
  obtain ⟨h', e⟩ := boardPool_create
  exact ⟨⟨h', _, false⟩, HeapSys.boot board, .zero, 10, 3, ⟨_, [], rfl, .nil _⟩, by decide, e, rfl⟩

/-- The pool destroyed, and then any pointer freed. -/
theorem destroyed_traps : ∃ s, (lifeSys board).Reachable s ∧ ¬ Divides board s := by
  obtain ⟨s, hinit⟩ := boardPool_life
  obtain ⟨s', e, hz⟩ := (created_inUse hinit).destroy
  exact ⟨s', ⟨s, _, hinit, .cons e (.nil _)⟩, not_divides hz⟩

/-- Two blocks allocated and a pointer freed that is not one of them. -/
theorem pool_divides_board : ∃ s, (lifeSys board).init s ∧
    (lifeSys board).Always (Divides board) s [.alloc, .alloc, .free 0x20000011] := by
  obtain ⟨s, hinit⟩ := boardPool_life
  exact ⟨s, hinit, (pool_divides_iff board s hinit _).2 (by decide)⟩

end Rtos.Heap
