import Rtos.Heap.Pool

/-!
# Runs of a memory pool

`poolSys` are the runs of one pool from a creation that succeeded: blocks are
allocated and any pointers freed, and the application writes inside the blocks
it holds. `Pooled`: the blocks held are those with a clear bit, and
`free_blocks` counts the set ones. `pool_correct`: an allocation hands out the
lowest block not held, and fails when all are; a pointer is freed if and only
if it is the start of a block held.
-/
namespace Rtos.Heap

open Rtos.Core
open Rtos.Sched (RtosStatus)

/-- The pool, and the blocks that the application holds. -/
structure PoolSys where
  mem : Mem
  pool : MemoryPool
  out : List Nat

inductive PoolCall
  | alloc
  | free (ptr : Nat)
  | store (x : Nat) (v : UInt8)

section

variable (t : Target)

/-- Any non-NULL pointer may be freed. -/
def PoolLegal (s : PoolSys) : PoolCall → Prop
  | .alloc => True
  | .free ptr => 0 < ptr ∧ ptr < t.sizeMod
  | .store x _ => ∃ p ∈ s.out, p ≤ x ∧ x < p + s.pool.blockSize

instance (s : PoolSys) (c : PoolCall) : Decidable (PoolLegal t s c) := by
  cases c <;> unfold PoolLegal <;> infer_instance

def PoolSys.call (s : PoolSys) : PoolCall → Option PoolSys
  | .alloc =>
    let r := memoryPoolAlloc t s.mem (some s.pool)
    some ⟨r.1, r.2.1.getD s.pool, if r.2.2 = 0 then s.out else r.2.2 :: s.out⟩
  | .free ptr => (memoryPoolFree t s.mem (some s.pool) ptr).map fun r =>
      ⟨r.1, r.2.1.getD s.pool, if r.2.2 = .ok then s.out.erase ptr else s.out⟩
  | .store x v => some ⟨Function.update s.mem x v, s.pool, s.out⟩

/-- What `memory_pool_create` made on a heap in use, its total size not wrapped. -/
def Created (s : PoolSys) : Prop :=
  ∃ (hs : HeapSys) (pool : MemoryPool) (blockSize numBlocks : Nat) (h' : HeapState),
    (allocSys t).Reachable hs ∧ numBlocks < t.sizeMod ∧ alignSize t blockSize * numBlocks < t.sizeMod ∧
    memoryPoolCreate t hs.heap (some pool) blockSize numBlocks = some (h', some s.pool, .ok) ∧
    s.mem = h'.mem ∧ s.out = []

def poolSys : LTS PoolSys PoolCall := (LTS.ofFn (Created t) (PoolSys.call t)).restrict (PoolLegal t)

end

/-- The address of the block `i`. -/
def MemoryPool.addr (pool : MemoryPool) (i : Nat) : Nat := pool.poolStart + i * pool.blockSize

variable {t : Target} {s s' : PoolSys} {c : PoolCall} {pool : MemoryPool} {i j p : Nat}

/-- The layout of a pool: its blocks fit the address space, apart from its bitmap. -/
structure MemoryPool.Placed (t : Target) (pool : MemoryPool) : Prop where
  start : 0 < pool.poolStart
  size : 0 < pool.blockSize
  fits : pool.poolStart + pool.blockSize * pool.numBlocks < t.sizeMod
  apart : pool.freeList + (pool.numBlocks + 7) / 8 ≤ pool.poolStart ∨
    pool.poolStart + pool.blockSize * pool.numBlocks ≤ pool.freeList

/-- The blocks held are those whose bit is clear. -/
structure Pooled (t : Target) (s : PoolSys) : Prop where
  placed : s.pool.Placed t
  count : s.pool.freeBlocks = s.mem.setBits s.pool.freeList s.pool.numBlocks
  nodup : s.out.Nodup
  out : ∀ p, p ∈ s.out ↔
    ∃ i, i < s.pool.numBlocks ∧ p = s.pool.addr i ∧ s.mem.getBit s.pool.freeList i = false

/-! ## Addresses of blocks -/

namespace MemoryPool.Placed

theorem block_le (hi : i < pool.numBlocks) :
    i * pool.blockSize + pool.blockSize ≤ pool.blockSize * pool.numBlocks := by
  calc i * pool.blockSize + pool.blockSize
      = (i + 1) * pool.blockSize := (Nat.succ_mul _ _).symm
    _ ≤ pool.numBlocks * pool.blockSize := Nat.mul_le_mul_right _ hi
    _ = pool.blockSize * pool.numBlocks := Nat.mul_comm _ _

theorem addr_inj (hl : pool.Placed t) (h : pool.addr i = pool.addr j) : i = j :=
  Nat.eq_of_mul_eq_mul_right hl.size (Nat.add_left_cancel h)

theorem addr_eq (hl : pool.Placed t) (hi : i < pool.numBlocks) :
    t.add pool.poolStart (t.mul i pool.blockSize) = pool.addr i := by
  have hb := block_le hi
  have hf := hl.fits
  rw [Target.mul, Nat.mod_eq_of_lt (a := i * pool.blockSize) (by omega), Target.add_of_lt (by omega)]
  rfl

theorem addr_ne_zero (hl : pool.Placed t) : pool.addr i ≠ 0 := by
  have := hl.start
  unfold addr
  omega

/-- The offset of a block. -/
theorem sub_addr (hl : pool.Placed t) (hi : i < pool.numBlocks) :
    t.sub (pool.addr i) pool.poolStart = i * pool.blockSize := by
  have hb := block_le hi
  have hf := hl.fits
  rw [addr, Target.sub_of_le (by omega) (by omega)]
  omega

/-- An offset that is a multiple of the block size below the pool's size comes
from a block, also for pointers below the pool, where it wraps. -/
theorem addr_of_sub (hl : pool.Placed t) (hp : p < t.sizeMod)
    (h0 : t.sub p pool.poolStart % pool.blockSize = 0)
    (hi : t.sub p pool.poolStart / pool.blockSize < pool.numBlocks) :
    p = pool.addr (t.sub p pool.poolStart / pool.blockSize) := by
  have hb := block_le hi
  have hf := hl.fits
  have e : t.sub p pool.poolStart / pool.blockSize * pool.blockSize = t.sub p pool.poolStart :=
    Nat.div_mul_cancel (Nat.dvd_of_mod_eq_zero h0)
  rw [addr, e]
  rw [e] at hb
  have hsize := hl.size
  by_cases h : pool.poolStart ≤ p
  · rw [Target.sub_of_le h hp]
    omega
  · rw [Target.sub_of_lt (by omega) (by omega)] at hb
    omega

end MemoryPool.Placed

/-! ## The three calls -/

/-- Every block is free or held. -/
theorem Pooled.length_add (hi : Pooled t s) : s.out.length + s.pool.freeBlocks = s.pool.numBlocks := by
  have hperm : s.out.Perm (((List.range s.pool.numBlocks).filter
      fun i => !s.mem.getBit s.pool.freeList i).map s.pool.addr) := by
    refine (List.perm_ext_iff_of_nodup hi.nodup ?_).2 fun p => ?_
    · exact (List.nodup_range.filter _).map_on fun i _ j _ h => hi.placed.addr_inj h
    · rw [hi.out p, List.mem_map]
      constructor
      · intro h
        obtain ⟨i, h1, h2, h3⟩ := h
        exact ⟨i, List.mem_filter.2 ⟨List.mem_range.2 h1, by simp [h3]⟩, h2.symm⟩
      · intro h
        obtain ⟨i, h1, h2⟩ := h
        obtain ⟨h3, h4⟩ := List.mem_filter.1 h1
        exact ⟨i, List.mem_range.1 h3, h2.symm, by simpa using h4⟩
  rw [hperm.length_eq, List.length_map, hi.count, Mem.setBits, Nat.add_comm,
    ← List.length_eq_length_filter_add, List.length_range]

/-- An allocation fails with all blocks held, or takes the lowest free one. -/
theorem Pooled.alloc (hi : Pooled t s) :
    (s.out.length = s.pool.numBlocks ∧
      memoryPoolAlloc t s.mem (some s.pool) = (s.mem, some s.pool, 0)) ∨
    ∃ i, i < s.pool.numBlocks ∧ s.mem.getBit s.pool.freeList i = true ∧
      (∀ j, j < i → s.mem.getBit s.pool.freeList j = false) ∧
      memoryPoolAlloc t s.mem (some s.pool) = (s.mem.clearBit s.pool.freeList i,
        some { s.pool with freeBlocks := t.sub s.pool.freeBlocks 1 }, s.pool.addr i) := by
  have hlen := hi.length_add
  rw [memoryPoolAlloc]
  by_cases h0 : s.pool.freeBlocks = 0
  · exact .inl ⟨by omega, if_pos h0⟩
  · right
    rw [if_neg h0]
    cases hb : s.mem.firstBit s.pool.freeList s.pool.numBlocks 0 with
    | none =>
      refine absurd ?_ h0
      rw [hi.count, Mem.setBits, List.length_eq_zero_iff, List.filter_eq_nil_iff]
      intro j hj
      rw [Mem.firstBit_none hb j (by omega) (by have := List.mem_range.1 hj; omega)]
      decide
    | some i =>
      obtain ⟨-, h1, h2, h3⟩ := Mem.firstBit_some hb
      have hin : i < s.pool.numBlocks := by omega
      refine ⟨i, hin, h2, fun j hj => h3 j (by omega) hj, ?_⟩
      dsimp only
      rw [hi.placed.addr_eq hin]

/-- A pointer is freed if it is a block held, and turned down otherwise. -/
theorem Pooled.free (hi : Pooled t s) (h0 : 0 < p) (hp : p < t.sizeMod) :
    (∃ i, i < s.pool.numBlocks ∧ p = s.pool.addr i ∧ s.mem.getBit s.pool.freeList i = false ∧
      memoryPoolFree t s.mem (some s.pool) p = some (s.mem.setBit s.pool.freeList i,
        some { s.pool with freeBlocks := t.add s.pool.freeBlocks 1 }, .ok)) ∨
    (p ∉ s.out ∧ ∃ st, st ≠ .ok ∧ memoryPoolFree t s.mem (some s.pool) p = some (s.mem, some s.pool, st)) := by
  have hsize := hi.placed.size
  -- the offset of a block held
  have hout : p ∈ s.out → ∃ i, i < s.pool.numBlocks ∧ t.sub p s.pool.poolStart = i * s.pool.blockSize ∧
      s.mem.getBit s.pool.freeList i = false := by
    intro h
    obtain ⟨i, h1, rfl, h2⟩ := (hi.out p).1 h
    exact ⟨i, h1, hi.placed.sub_addr h1, h2⟩
  rw [memoryPoolFree, if_neg (by omega), if_neg (by omega)]
  dsimp only
  by_cases hm : t.sub p s.pool.poolStart % s.pool.blockSize = 0
  · rw [if_neg (not_not.2 hm)]
    by_cases hn : t.sub p s.pool.poolStart / s.pool.blockSize < s.pool.numBlocks
    · rw [if_neg (by omega)]
      cases hb : s.mem.getBit s.pool.freeList (t.sub p s.pool.poolStart / s.pool.blockSize) with
      | true =>
        refine .inr ⟨fun h => ?_, _, by decide, if_pos rfl⟩
        obtain ⟨i, -, h2, h3⟩ := hout h
        rw [h2, Nat.mul_div_cancel _ hsize, h3] at hb
        cases hb
      | false =>
        refine .inl ⟨_, hn, hi.placed.addr_of_sub hp hm hn, hb, ?_⟩
        rw [if_neg (by decide)]
    · refine .inr ⟨fun h => ?_, _, by decide, if_pos (by omega)⟩
      obtain ⟨i, h1, h2, -⟩ := hout h
      rw [h2, Nat.mul_div_cancel _ hsize] at hn
      exact hn h1
  · refine .inr ⟨fun h => ?_, _, by decide, if_pos hm⟩
    obtain ⟨i, -, h2, -⟩ := hout h
    rw [h2, Nat.mul_mod_left] at hm
    exact hm rfl

theorem alloc_pooled (hi : Pooled t s) : ∃ s', s.call t .alloc = some s' ∧ Pooled t s' := by
  unfold PoolSys.call
  rcases hi.alloc with ⟨-, e⟩ | ⟨i, hin, hb, -, e⟩
  · rw [e]
    exact ⟨s, rfl, hi⟩
  · rw [e]
    dsimp only
    rw [if_neg hi.placed.addr_ne_zero]
    have hcount := Mem.setBits_clearBit hin hb
    have hlen := hi.length_add
    have hc := hi.count
    have hf := hi.placed.fits
    have hle : s.pool.numBlocks ≤ s.pool.blockSize * s.pool.numBlocks := Nat.le_mul_of_pos_left _ hi.placed.size
    have hnot : s.pool.addr i ∉ s.out := by
      intro h
      obtain ⟨j, -, h2, h3⟩ := (hi.out _).1 h
      rw [← hi.placed.addr_inj h2, hb] at h3
      cases h3
    refine ⟨_, rfl, ⟨hi.placed.start, hi.placed.size, hf, hi.placed.apart⟩, ?_,
      List.nodup_cons.2 ⟨hnot, hi.nodup⟩, fun p => ?_⟩
    · dsimp only [Option.getD_some]
      rw [Target.sub_of_le (by omega) (by omega)]
      omega
    · dsimp only [Option.getD_some]
      rw [List.mem_cons, hi.out p]
      constructor
      · intro h
        rcases h with h | ⟨j, h1, h2, h3⟩
        · exact ⟨i, hin, h, by simp [Mem.getBit_clearBit]⟩
        · exact ⟨j, h1, h2, by simp [Mem.getBit_clearBit, h3]⟩
      · intro h
        obtain ⟨j, h1, h2, h3⟩ := h
        by_cases hji : j = i
        · exact .inl (hji ▸ h2)
        · exact .inr ⟨j, h1, h2, by simpa [Mem.getBit_clearBit, hji] using h3⟩

theorem free_pooled (hi : Pooled t s) (h0 : 0 < p) (hp : p < t.sizeMod) :
    ∃ s', s.call t (.free p) = some s' ∧ Pooled t s' := by
  rw [PoolSys.call]
  rcases hi.free h0 hp with ⟨i, hin, rfl, hb, e⟩ | ⟨-, st, hst, e⟩
  · rw [e, Option.map_some, if_pos rfl]
    have hcount := Mem.setBits_setBit hin hb
    have hlen := hi.length_add
    have hc := hi.count
    have hf := hi.placed.fits
    have hle : s.pool.numBlocks ≤ s.pool.blockSize * s.pool.numBlocks := Nat.le_mul_of_pos_left _ hi.placed.size
    have hpos : 0 < s.out.length := List.length_pos_of_mem ((hi.out _).2 ⟨i, hin, rfl, hb⟩)
    refine ⟨_, rfl, ⟨hi.placed.start, hi.placed.size, hf, hi.placed.apart⟩, ?_, hi.nodup.erase _, fun p => ?_⟩
    · dsimp only [Option.getD_some]
      rw [Target.add_of_lt (by have := hi.placed.start; omega)]
      omega
    · dsimp only [Option.getD_some]
      rw [hi.nodup.mem_erase_iff, hi.out p]
      constructor
      · intro h
        obtain ⟨hne, j, h1, h2, h3⟩ := h
        have hji : j ≠ i := fun h => hne (h ▸ h2)
        exact ⟨j, h1, h2, by simp [Mem.getBit_setBit, h3, hji]⟩
      · intro h
        obtain ⟨j, h1, h2, h3⟩ := h
        have h4 : j ≠ i ∧ s.mem.getBit s.pool.freeList j = false := by simpa [Mem.getBit_setBit] using h3
        exact ⟨fun h => h4.1 (hi.placed.addr_inj (h2.symm.trans h)), j, h1, h2, h4.2⟩
  · rw [e, Option.map_some, if_neg hst]
    exact ⟨s, rfl, hi⟩

theorem store_pooled (hi : Pooled t s) {x : Nat} (v : UInt8) (hx : PoolLegal t s (.store x v)) :
    ∃ s', s.call t (.store x v) = some s' ∧ Pooled t s' := by
  obtain ⟨p, hp, h1, h2⟩ := hx
  obtain ⟨i, hin, rfl, -⟩ := (hi.out p).1 hp
  have hb := MemoryPool.Placed.block_le hin
  unfold MemoryPool.addr at h1 h2
  have hbit : ∀ j, j < s.pool.numBlocks →
      Mem.getBit (Function.update s.mem x v) s.pool.freeList j = s.mem.getBit s.pool.freeList j := by
    intro j hj
    refine Mem.getBit_congr (Function.update_of_ne ?_ _ _)
    rcases hi.placed.apart with h | h <;> omega
  refine ⟨_, rfl, hi.placed, ?_, hi.nodup, fun p => ?_⟩
  · rw [hi.count]
    exact (Mem.setBits_congr hbit).symm
  · rw [hi.out p]
    exact exists_congr fun j => and_congr_right fun hj => by dsimp only; rw [hbit j hj]

/-- A multiple of 4 below `SIZE_MAX + 1` is rounded to itself. -/
theorem total_le_alignSize {bs n : Nat} (hmul : alignSize t bs * n < t.sizeMod) :
    alignSize t bs * n ≤ alignSize t (alignSize t bs * n) := by
  have h4 : 4 ∣ alignSize t bs * n := Dvd.dvd.mul_right (dvd_alignSize t bs) n
  have h4' : 4 ∣ t.sizeMod := by
    unfold Target.sizeMod
    exact Dvd.dvd.pow (by decide) (by have := t.word_ge; omega) |>.trans (dvd_refl _)
  exact le_alignSize (by omega)

/-- A pool of two grants, its bitmap all ones, has all its blocks free. -/
theorem fresh_pooled {h : HeapState} {G : Multiset (Nat × Nat)} {bs n p g q k : Nat} (hn : n < t.sizeMod)
    (hmul : alignSize t bs * n < t.sizeMod) (htotal : t.mul (alignSize t bs) n ≠ 0)
    (hg : alignSize t (t.mul (alignSize t bs) n) ≤ g) (hk : t.add n 7 / 8 ≤ k)
    (ho : Outstanding t h ((q, k) ::ₘ (p, g) ::ₘ G)) (hones : ∀ i, i < t.add n 7 / 8 → h.mem (q + i) = 0xFF) :
    Pooled t ⟨h.mem, ⟨p, alignSize t bs, n, n, q⟩, []⟩ ∧ (n + 7) / 8 ≤ k ∧ alignSize t bs * n ≤ g := by
  rw [Target.mul, Nat.mod_eq_of_lt hmul] at htotal hg
  have hB : 0 < alignSize t bs := Nat.pos_of_ne_zero fun h => htotal (by rw [h, Nat.zero_mul])
  have hle : n ≤ alignSize t bs * n := Nat.le_mul_of_pos_left _ hB
  have hg' : alignSize t bs * n ≤ g := (total_le_alignSize hmul).trans hg
  have hlt := t.heap_lt
  have hmod := t.sizeMod_ge
  have hp : (p, g) ∈ (q, k) ::ₘ (p, g) ::ₘ G := Multiset.mem_cons_of_mem (Multiset.mem_cons_self _ _)
  have hbp := ho.bounds hp
  have hbq := ho.bounds (Multiset.mem_cons_self (q, k) _)
  have hheap : HEAP_SIZE = 65536 := rfl
  have hadd : t.add n 7 = n + 7 := Target.add_of_lt (by omega)
  rw [hadd] at hk hones
  have hbits : ∀ i, i < n → h.mem.getBit q i = true := fun i hi => Mem.getBit_ones (hones _ (by omega))
  refine ⟨⟨⟨Nat.pos_of_ne_zero (ho.ne_zero hp), hB, by dsimp only; omega, ?_⟩, (Mem.setBits_ones hbits).symm, .nil,
    fun x => ⟨fun h => absurd h List.not_mem_nil, fun h => ?_⟩⟩, hk, hg'⟩
  · dsimp only
    rcases ho.head_apart (Multiset.mem_cons_self _ _) with h | h
    · exact .inl (by omega)
    · exact .inr (by omega)
  · obtain ⟨i, h1, -, h2⟩ := h
    rw [hbits i h1] at h2
    cases h2

/-- A pool just created has all its blocks free, and lies in the heap. -/
theorem created_pooled (h : Created t s) : Pooled t s := by
  obtain ⟨hs, pool, bs, n, h', hr, hn, hmul, e, hm, hout⟩ := h
  obtain ⟨G, ho, -⟩ := ((accounted_inductive t).reachable hs hr).grants
  rcases poolCreate_outstanding ho (some pool) bs n with ⟨_, _, st, e', hst, -⟩ |
    ⟨h₂, p, g, q, k, e', -, -, htotal, hg, -, hk, ho', hones, -⟩
  · rw [e'] at e
    cases e
    exact absurd rfl hst
  rw [e'] at e
  obtain ⟨rfl, hpool⟩ : h₂ = h' ∧ (⟨p, alignSize t bs, n, n, q⟩ : MemoryPool) = s.pool := by
    simpa using e
  have hp := (fresh_pooled hn hmul htotal hg hk ho' hones).1
  rwa [hpool, ← hm, ← hout] at hp

/-! ## Whole runs -/

theorem call_pooled (hi : Pooled t s) (hc : PoolLegal t s c) : ∃ s', s.call t c = some s' ∧ Pooled t s' := by
  cases c with
  | alloc => exact alloc_pooled hi
  | free p => exact free_pooled hi hc.1 hc.2
  | store x v => exact store_pooled hi v hc

theorem pooled_inductive (t : Target) : (poolSys t).Inductive (Pooled t) where
  init s h := created_pooled h
  step s c s' hi hs := by
    obtain ⟨s₁, e, h1⟩ := call_pooled hi hs.1
    obtain rfl : s₁ = s' := Option.some.inj (e.symm.trans hs.2)
    exact h1

/-- In every reachable state `free_blocks` is the number of set bits,
`memory_pool_alloc` returns NULL if and only if all blocks are held and else
the lowest block not held, and `memory_pool_free` returns RTOS_OK exactly for
the blocks held, and an error without effect for every other pointer. -/
theorem pool_correct (t : Target) (s : PoolSys) (h : (poolSys t).Reachable s) :
    s.pool.freeBlocks = s.mem.setBits s.pool.freeList s.pool.numBlocks ∧
    (∃ m pool ptr, memoryPoolAlloc t s.mem (some s.pool) = (m, pool, ptr) ∧
      (ptr = 0 ↔ s.out.length = s.pool.numBlocks) ∧
      (ptr ≠ 0 → ∃ i, i < s.pool.numBlocks ∧ ptr = s.pool.addr i ∧ s.pool.addr i ∉ s.out ∧
        ∀ j, j < i → s.pool.addr j ∈ s.out)) ∧
    ∀ ptr, 0 < ptr → ptr < t.sizeMod →
      ∃ m pool st, memoryPoolFree t s.mem (some s.pool) ptr = some (m, pool, st) ∧
        (st = .ok ↔ ptr ∈ s.out) ∧ (ptr ∉ s.out → m = s.mem ∧ pool = some s.pool) := by
  have hi := (pooled_inductive t).reachable s h
  refine ⟨hi.count, ?_, fun ptr h0 hp => ?_⟩
  · rcases hi.alloc with ⟨hfull, e⟩ | ⟨i, hin, hb, hlow, e⟩
    · exact ⟨_, _, _, e, ⟨fun _ => hfull, fun _ => rfl⟩, fun h => absurd rfl h⟩
    · have hlt := Mem.setBits_clearBit hin hb
      have hlen := hi.length_add
      have hc := hi.count
      refine ⟨_, _, _, e, ⟨fun h => absurd h hi.placed.addr_ne_zero, fun h => by omega⟩,
        fun _ => ⟨i, hin, rfl, fun h => ?_, fun j hj => (hi.out _).2 ⟨j, by omega, rfl, hlow j hj⟩⟩⟩
      obtain ⟨j, -, h2, h3⟩ := (hi.out _).1 h
      rw [← hi.placed.addr_inj h2, hb] at h3
      cases h3
  · rcases hi.free h0 hp with ⟨i, hin, rfl, hb, e⟩ | ⟨hnot, st, hst, e⟩
    · have hout : s.pool.addr i ∈ s.out := (hi.out _).2 ⟨i, hin, rfl, hb⟩
      exact ⟨_, _, _, e, ⟨fun _ => hout, fun _ => rfl⟩, fun h => absurd hout h⟩
    · exact ⟨_, _, _, e, ⟨fun h => absurd h hst, fun h => absurd h hnot⟩, fun _ => ⟨rfl, rfl⟩⟩

/-- Three blocks of 10 bytes on a fresh heap. -/
def boardPool : Option PoolSys :=
  (memoryPoolCreate board (HeapSys.boot board).heap (some .zero) 10 3).map fun r =>
    ⟨r.1.mem, r.2.1.getD .zero, []⟩

theorem boardPool_created {s : PoolSys} (h : boardPool = some s) : Created board s := by
  obtain ⟨r, e, rfl⟩ := Option.map_eq_some_iff.1 h
  obtain ⟨h', e'⟩ := boardPool_create
  rw [e'] at e
  cases e
  exact ⟨HeapSys.boot board, .zero, 10, 3, h', ⟨_, [], rfl, .nil _⟩, by decide, by decide, e', rfl, rfl⟩

/-- All blocks held, the middle one freed, a pointer below the pool and a
misaligned one turned down. -/
theorem pool_correct_board : ∃ s, (poolSys board).Reachable s ∧ s.out = [0x20000028, 0x20000010] ∧
    s.pool.freeBlocks = 1 ∧ ∃ m pool ptr, memoryPoolAlloc board s.mem (some s.pool) = (m, pool, ptr) ∧
      (ptr = 0 ↔ s.out.length = s.pool.numBlocks) := by
  have hrun : (boardPool.bind fun s => LTS.exec (LTS.guarded (PoolSys.call board) (PoolLegal board)) s
      [.alloc, .alloc, .alloc, .store 0x20000020 7, .free 0x2000001c, .free 0x20000004, .free 0x2000001d]).any
      (fun s => s.out = [0x20000028, 0x20000010] ∧ s.pool.freeBlocks = 1) = true := by decide +kernel
  cases hb : boardPool with
  | none => rw [hb] at hrun; cases hrun
  | some s₀ =>
    rw [hb, Option.bind_some] at hrun
    obtain ⟨s, -, h, ho, hf⟩ := LTS.reachable_of_exec (M := poolSys board) LTS.step_of_guarded
      (boardPool_created hb)
      (fun s => s.out = [0x20000028, 0x20000010] ∧ s.pool.freeBlocks = 1) _ hrun
    obtain ⟨-, ⟨m, pool, ptr, e, hn, -⟩, -⟩ := pool_correct board s h
    exact ⟨s, h, ho, hf, m, pool, ptr, e, hn⟩

end Rtos.Heap
