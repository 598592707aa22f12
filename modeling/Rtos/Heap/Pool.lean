import Rtos.Core.Bitmap
import Rtos.Heap.Usage
import Rtos.Sched.Types

/-!
# src/kernel/memory.c: memory pools

A `memory_pool_t` is a variable of the application; its blocks and its bitmap
are payloads of the heap. A bit of the bitmap is set while its block is free.
-/
namespace Rtos.Heap

open Rtos.Core
open Rtos.Sched (RtosStatus)

/-- mirrors include/kernel/memory.h:15-21 -/
structure MemoryPool where
  poolStart : Nat
  blockSize : Nat
  numBlocks : Nat
  freeBlocks : Nat
  freeList : Nat
  deriving DecidableEq, Repr

/-- `memset(pool, 0, sizeof(memory_pool_t))` -/
def MemoryPool.zero : MemoryPool := ⟨0, 0, 0, 0, 0⟩

section

variable (t : Target)

/-- `pool` is what the pointer points at, `none` for NULL.
mirrors src/kernel/memory.c:230-267 -/
def memoryPoolCreate (h : HeapState) (pool : Option MemoryPool) (blockSize numBlocks : Nat) :
    Option (HeapState × Option MemoryPool × RtosStatus) :=
  match pool with
  | none => some (h, none, .errorInvalidParam)
  | some pool =>
    if blockSize = 0 ∨ numBlocks = 0 then some (h, some pool, .errorInvalidParam)
    else
      let blockSize := alignSize t blockSize
      let totalSize := t.mul blockSize numBlocks
      (rtosMalloc t h totalSize).bind fun (h, poolStart) =>
        let pool := { pool with poolStart := poolStart }
        if poolStart = 0 then some (h, some pool, .errorNoMemory)
        else
          let bitmapSize := t.add numBlocks 7 / 8
          (rtosMalloc t h bitmapSize).bind fun (h, freeList) =>
            let pool := { pool with freeList := freeList }
            if freeList = 0 then (rtosFree t h poolStart).map fun h => (h, some pool, .errorNoMemory)
            else
              let pool := { pool with
                blockSize := blockSize
                numBlocks := numBlocks
                freeBlocks := numBlocks }
              some ({ h with mem := h.mem.put freeList (fun _ => 0xFF) bitmapSize }, some pool, .ok)

/-- mirrors src/kernel/memory.c:270-300 -/
def memoryPoolAlloc (m : Mem) (pool : Option MemoryPool) : Mem × Option MemoryPool × Nat :=
  match pool with
  | none => (m, none, 0)
  | some pool =>
    if pool.freeBlocks = 0 then (m, some pool, 0)
    else
      match m.firstBit pool.freeList pool.numBlocks 0 with
      | none => (m, some pool, 0)
      | some i =>
        (m.clearBit pool.freeList i, some { pool with freeBlocks := t.sub pool.freeBlocks 1 },
          t.add pool.poolStart (t.mul i pool.blockSize))

/-- `none` is the division by a `block_size` of 0.
mirrors src/kernel/memory.c:303-341 -/
def memoryPoolFree (m : Mem) (pool : Option MemoryPool) (ptr : Nat) :
    Option (Mem × Option MemoryPool × RtosStatus) :=
  match pool with
  | none => some (m, none, .errorInvalidParam)
  | some pool =>
    if ptr = 0 then some (m, some pool, .errorInvalidParam)
    else if pool.blockSize = 0 then none
    else
      let offset := t.sub ptr pool.poolStart
      if offset % pool.blockSize ≠ 0 then some (m, some pool, .errorInvalidParam)
      else
        let blockIdx := offset / pool.blockSize
        if blockIdx ≥ pool.numBlocks then some (m, some pool, .errorInvalidParam)
        else if m.getBit pool.freeList blockIdx then some (m, some pool, .error)
        else
          some (m.setBit pool.freeList blockIdx,
            some { pool with freeBlocks := t.add pool.freeBlocks 1 }, .ok)

/-- mirrors src/kernel/memory.c:344-355 -/
def memoryPoolDestroy (h : HeapState) (pool : Option MemoryPool) : Option (HeapState × Option MemoryPool) :=
  match pool with
  | none => some (h, none)
  | some pool =>
    (if pool.poolStart ≠ 0 then rtosFree t h pool.poolStart else some h).bind fun h =>
      (if pool.freeList ≠ 0 then rtosFree t h pool.freeList else some h).map fun h =>
        (h, some MemoryPool.zero)

end

variable {t : Target} {h h' : HeapState} {G : Multiset (Nat × Nat)} {pool pool' : MemoryPool}
  {p q g k n bs : Nat}

/-! ## Creation and destruction -/

/-- A pool is created with two more grants, the second one a bitmap of ones.
Otherwise the parameters are refused, or the heap has no room for the blocks,
or it has none for the bitmap and the blocks go back. -/
theorem poolCreate_cases (ho : Outstanding t h G) (pool : MemoryPool) (bs n : Nat) :
    ((bs = 0 ∨ n = 0) ∧ memoryPoolCreate t h (some pool) bs n = some (h, some pool, .errorInvalidParam)) ∨
    (bs ≠ 0 ∧ n ≠ 0 ∧ rtosMalloc t h (t.mul (alignSize t bs) n) = some (h, 0) ∧
      memoryPoolCreate t h (some pool) bs n = some (h, some { pool with poolStart := 0 }, .errorNoMemory)) ∨
    (∃ h₁ p g h₂, bs ≠ 0 ∧ n ≠ 0 ∧ rtosMalloc t h (t.mul (alignSize t bs) n) = some (h₁, p) ∧ p ≠ 0 ∧
      rtosMalloc t h₁ (t.add n 7 / 8) = some (h₁, 0) ∧ Outstanding t h₁ ((p, g) ::ₘ G) ∧
      Outstanding t h₂ G ∧ Kept G h.mem h₂.mem ∧ memoryPoolCreate t h (some pool) bs n =
        some (h₂, some { pool with poolStart := p, freeList := 0 }, .errorNoMemory)) ∨
    ∃ h' p g q k, memoryPoolCreate t h (some pool) bs n =
        some (h', some ⟨p, alignSize t bs, n, n, q⟩, .ok) ∧ bs ≠ 0 ∧ n ≠ 0 ∧
      t.mul (alignSize t bs) n ≠ 0 ∧ alignSize t (t.mul (alignSize t bs) n) ≤ g ∧ t.add n 7 / 8 ≠ 0 ∧
      t.add n 7 / 8 ≤ k ∧ Outstanding t h' ((q, k) ::ₘ (p, g) ::ₘ G) ∧
      (∀ i, i < t.add n 7 / 8 → h'.mem (q + i) = 0xFF) ∧ Kept G h.mem h'.mem := by
  have hmod := t.sizeMod_ge
  unfold memoryPoolCreate
  dsimp only
  by_cases h0 : bs = 0 ∨ n = 0
  · exact .inl ⟨h0, if_pos h0⟩
  right
  rw [if_neg h0]
  obtain ⟨hbs, hn⟩ := not_or.1 h0
  rcases malloc_outstanding ho (t.mul (alignSize t bs) n) with e | ⟨h₁, p, g, e, hp, hg, ho₁, hk₁, -⟩
  · exact .inl ⟨hbs, hn, e, by rw [e, Option.bind_some, if_pos rfl]⟩
  right
  rw [e, Option.bind_some, if_neg hp]
  dsimp only
  have hsub : G ⊆ (p, g) ::ₘ G := Multiset.subset_cons _ _
  rcases malloc_outstanding ho₁ (t.add n 7 / 8) with e₂ | ⟨h₂, q, k, e₂, hq, hk, ho₂, hk₂, -⟩
  · -- the blocks go back when the bitmap does not fit
    left
    obtain ⟨h₂, e₃, ho₂, hk₂, -⟩ := free_outstanding ho₁
    refine ⟨h₁, p, g, h₂, hbs, hn, rfl, hp, e₂, ho₁, ho₂, hk₁.trans (hk₂.mono hsub), ?_⟩
    rw [e₂, Option.bind_some, if_pos rfl, e₃]
    rfl
  · right
    have hbytes : t.add n 7 / 8 ≤ k := by
      have hlt : t.add n 7 < t.sizeMod := Nat.mod_lt _ (by omega)
      exact (le_alignSize (by omega)).trans hk
    obtain ⟨ho₃, hk₃⟩ := write_outstanding ho₂
      (h₂.mem.put q (fun _ => 0xFF) (t.add n 7 / 8)) fun x hx => Mem.put_outside (by omega)
    rw [e₂, Option.bind_some, if_neg hq]
    refine ⟨_, p, g, q, k, rfl, hbs, hn, malloc_ne_zero e hp, hg, malloc_ne_zero e₂ hq, hbytes, ho₃,
      fun i hi => ?_, (hk₁.trans (hk₂.mono hsub)).trans (hk₃.mono hsub)⟩
    exact Mem.put_inside (f := fun _ => 0xFF) hi

/-- So it is created with two more grants or not at all. -/
theorem poolCreate_outstanding (ho : Outstanding t h G) (pool : Option MemoryPool) (bs n : Nat) :
    (∃ h' pool' st, memoryPoolCreate t h pool bs n = some (h', pool', st) ∧ st ≠ .ok ∧
      Outstanding t h' G ∧ Kept G h.mem h'.mem) ∨
    ∃ h' p g q k, memoryPoolCreate t h pool bs n =
        some (h', some ⟨p, alignSize t bs, n, n, q⟩, .ok) ∧ bs ≠ 0 ∧ n ≠ 0 ∧
      t.mul (alignSize t bs) n ≠ 0 ∧ alignSize t (t.mul (alignSize t bs) n) ≤ g ∧ t.add n 7 / 8 ≠ 0 ∧
      t.add n 7 / 8 ≤ k ∧ Outstanding t h' ((q, k) ::ₘ (p, g) ::ₘ G) ∧
      (∀ i, i < t.add n 7 / 8 → h'.mem (q + i) = 0xFF) ∧ Kept G h.mem h'.mem := by
  cases pool with
  | none => exact .inl ⟨h, none, _, rfl, by decide, ho, .refl G _⟩
  | some pool =>
    rcases poolCreate_cases ho pool bs n with ⟨-, e⟩ | ⟨-, -, -, e⟩ | ⟨h₁, p, g, h₂, -, -, -, -, -, -, ho₂, hk, e⟩ | hok
    · exact .inl ⟨h, _, _, e, by decide, ho, .refl G _⟩
    · exact .inl ⟨h, _, _, e, by decide, ho, .refl G _⟩
    · exact .inl ⟨h₂, _, _, e, by decide, ho₂, hk⟩
    · exact .inr hok

/-- A bitmap that was granted has a bit for every block. -/
theorem bitmap_bytes (hn : n < t.sizeMod) (h0 : t.add n 7 / 8 ≠ 0) : t.add n 7 = n + 7 := by
  have hmod := t.sizeMod_ge
  apply Target.add_of_lt
  by_contra hw
  apply h0
  rw [Target.add, Nat.mod_eq_sub_mod (by omega), Nat.mod_eq_of_lt (by omega)]
  omega

/-- Destroying a pool takes both grants back. -/
theorem poolDestroy_outstanding (ho : Outstanding t h ((pool.freeList, k) ::ₘ (pool.poolStart, g) ::ₘ G)) :
    ∃ h', memoryPoolDestroy t h (some pool) = some (h', some .zero) ∧ Outstanding t h' G ∧
      Kept G h.mem h'.mem := by
  have hq := ho.ne_zero (Multiset.mem_cons_self _ _)
  have hp := ho.ne_zero (Multiset.mem_cons_of_mem (Multiset.mem_cons_self _ _))
  rw [Multiset.cons_swap] at ho
  obtain ⟨h₁, h₂, e₁, e₂, ho₂, hk⟩ := free_free_outstanding ho
  refine ⟨h₂, ?_, ho₂, hk⟩
  rw [memoryPoolDestroy, if_pos hp, e₁, Option.bind_some, if_pos hq, e₂]
  rfl

/-- Three blocks of 10 bytes on the heap of a board just booted. -/
theorem boardPool_create : ∃ h', memoryPoolCreate board (HeapSys.boot board).heap (some .zero) 10 3 =
    some (h', some ⟨0x20000010, 12, 3, 3, 0x20000044⟩, .ok) := by
  have hrun : (memoryPoolCreate board (HeapSys.boot board).heap (some .zero) 10 3).map (·.2) =
      some (some ⟨0x20000010, 12, 3, 3, 0x20000044⟩, .ok) := by decide +kernel
  obtain ⟨⟨h', r⟩, e, rfl⟩ := Option.map_eq_some_iff.1 hrun
  exact ⟨h', e⟩

end Rtos.Heap
