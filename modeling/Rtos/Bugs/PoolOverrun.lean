import Rtos.Heap.PoolRuns

/-!
# Pools whose total size wraps

`memory_pool_create` multiplies the block size by the number of blocks
without a check. A product past `SIZE_MAX` is reduced, the pool gets a block
of the heap of the reduced size, and `memory_pool_alloc` hands out blocks that
end outside it, the first one already if a single block is larger than what
was granted.

`pool_contained`: the blocks handed out lie in what was granted for the pool,
in all its runs, if and only if the product does not wrap.
-/
namespace Rtos.Heap

open Rtos.Core
open Rtos.Sched (RtosStatus)

section

variable (t : Target)

/-- The runs of the pool from a state on. -/
def poolFrom (s₀ : PoolSys) : LTS PoolSys PoolCall :=
  (LTS.ofFn (· = s₀) (PoolSys.call t)).restrict (PoolLegal t)

/-- The block that `memory_pool_alloc` hands out next lies in the `g` bytes
granted for the pool, and no two blocks of the pool overlap. -/
structure Contained (g : Nat) (s : PoolSys) : Prop where
  inside : ∀ m pool ptr, memoryPoolAlloc t s.mem (some s.pool) = (m, pool, ptr) → ptr ≠ 0 →
    s.pool.poolStart ≤ ptr ∧ ptr + s.pool.blockSize ≤ s.pool.poolStart + g
  apart : ∀ i j, i < j → j < s.pool.numBlocks →
    t.add s.pool.poolStart (t.mul i s.pool.blockSize) + s.pool.blockSize ≤
      t.add s.pool.poolStart (t.mul j s.pool.blockSize) ∨
    t.add s.pool.poolStart (t.mul j s.pool.blockSize) + s.pool.blockSize ≤
      t.add s.pool.poolStart (t.mul i s.pool.blockSize)

/-- The `k` lowest blocks of the pool are held. -/
structure Filled (start size n list k : Nat) (s : PoolSys) : Prop where
  pool : s.pool = ⟨start, size, n, n - k, list⟩
  bits : ∀ j, j < n → s.mem.getBit list j = decide (k ≤ j)

end

variable {t : Target} {s s' s₀ : PoolSys} {c : PoolCall} {start size n list k g : Nat}

/-- The calls leave the layout of the pool as it is. -/
theorem call_layout (h : s.call t c = some s') : s'.pool.poolStart = s.pool.poolStart ∧
    s'.pool.blockSize = s.pool.blockSize ∧ s'.pool.numBlocks = s.pool.numBlocks := by
  cases c with
  | alloc =>
    unfold PoolSys.call memoryPoolAlloc at h
    dsimp only at h
    cases h
    split
    · exact ⟨rfl, rfl, rfl⟩
    · split <;> exact ⟨rfl, rfl, rfl⟩
  | free p =>
    obtain ⟨r, e, rfl⟩ := Option.map_eq_some_iff.1 h
    unfold memoryPoolFree at e
    dsimp only at e
    split at e
    · cases e; exact ⟨rfl, rfl, rfl⟩
    split at e
    · cases e
    split at e
    · cases e; exact ⟨rfl, rfl, rfl⟩
    split at e
    · cases e; exact ⟨rfl, rfl, rfl⟩
    split at e <;> cases e <;> exact ⟨rfl, rfl, rfl⟩
  | store x v =>
    cases h
    exact ⟨rfl, rfl, rfl⟩

/-- The next block of a filled pool. -/
theorem Filled.alloc (hf : Filled start size n list k s) (hk : k < n) (hn : n < t.sizeMod) :
    memoryPoolAlloc t s.mem (some s.pool) = (s.mem.clearBit list k,
      some ⟨start, size, n, n - (k + 1), list⟩, t.add start (t.mul k size)) := by
  rw [memoryPoolAlloc, hf.pool]
  dsimp only
  rw [if_neg (by omega)]
  cases hb : s.mem.firstBit list n 0 with
  | none =>
    have := Mem.firstBit_none hb k (by omega) (by omega)
    rw [hf.bits k hk, decide_eq_true (Nat.le_refl k)] at this
    cases this
  | some i =>
    obtain ⟨-, h1, h2, h3⟩ := Mem.firstBit_some hb
    have hik : i = k := by
      rw [hf.bits i (by omega)] at h2
      have hle : k ≤ i := of_decide_eq_true h2
      by_contra hne
      have := h3 k (by omega) (by omega)
      rw [hf.bits k hk, decide_eq_true (Nat.le_refl k)] at this
      cases this
    dsimp only
    rw [hik, Target.sub_of_le (by omega) (by omega), Nat.sub_sub]

/-- Blocks may be allocated one after the other. -/
theorem filled_run (hn : n < t.sizeMod) (h0 : Filled start size n list 0 s₀) (hk : k ≤ n) :
    ∃ s, (poolFrom t s₀).Run s₀ (List.replicate k .alloc) s ∧ Filled start size n list k s := by
  induction k with
  | zero => exact ⟨s₀, .nil s₀, h0⟩
  | succ k ih =>
    obtain ⟨s, hrun, hf⟩ := ih (by omega)
    have e := hf.alloc (t := t) (by omega) hn
    have hcall : s.call t .alloc = some ⟨s.mem.clearBit list k, ⟨start, size, n, n - (k + 1), list⟩,
        if t.add start (t.mul k size) = 0 then s.out else t.add start (t.mul k size) :: s.out⟩ := by
      unfold PoolSys.call
      dsimp only
      rw [e]
      rfl
    have hstep : (poolFrom t s₀).step s .alloc _ := ⟨trivial, hcall⟩
    have hrun' := LTS.run_snoc hrun hstep
    rw [← List.replicate_succ'] at hrun'
    refine ⟨_, hrun', ⟨rfl, fun j hj => ?_⟩⟩
    dsimp only
    rw [Mem.getBit_clearBit, hf.bits j hj]
    by_cases hjk : j = k
    · simp [hjk]
    · by_cases hle : k ≤ j
      · simp [hjk, hle, show k + 1 ≤ j by omega]
      · simp [hle, show ¬ k + 1 ≤ j by omega]

/-- The next block of a filled pool lies past the end when those allocated leave no room for it. -/
theorem Filled.not_contained (hf : Filled start size n list k s) (hk : k < n) (hn : n < t.sizeMod) (hstart : start ≠ 0)
    (hend : start + k * size < t.sizeMod) (hover : g < k * size + size) : ¬ Contained t g s := by
  intro hc
  have halloc := hf.alloc hk hn
  have haddr : t.add start (t.mul k size) = start + k * size := by
    rw [Target.mul, Nat.mod_eq_of_lt (by omega), Target.add_of_lt (by omega)]
  rw [haddr] at halloc
  have hin := (hc.inside _ _ _ halloc (by omega)).2
  rw [hf.pool] at hin
  dsimp only at hin
  omega

/-- All blocks of a pool lie in the bytes granted, when these are enough for it. -/
theorem Pooled.contained (hi : Pooled t s) (hg : s.pool.blockSize * s.pool.numBlocks ≤ g) : Contained t g s := by
  constructor
  · intro m pool' ptr halloc hptr
    rcases hi.alloc with ⟨-, e⟩ | ⟨i, hin, -, -, e⟩
    · rw [e] at halloc
      obtain ⟨-, h⟩ := Prod.mk.inj halloc
      exact absurd (Prod.mk.inj h).2.symm hptr
    · rw [e] at halloc
      obtain ⟨-, h⟩ := Prod.mk.inj halloc
      obtain ⟨-, rfl⟩ := Prod.mk.inj h
      have := MemoryPool.Placed.block_le hin
      unfold MemoryPool.addr
      omega
  · intro i j hij hj
    left
    rw [hi.placed.addr_eq (by omega), hi.placed.addr_eq hj]
    unfold MemoryPool.addr
    have := Nat.mul_le_mul_right s.pool.blockSize (Nat.succ_le_of_lt hij)
    rw [Nat.succ_mul] at this
    omega

/-- What `memory_pool_create` made of its arguments, the bytes granted for the
blocks and the bitmap included. -/
theorem create_filled {hs : HeapSys} (hr : (allocSys t).Reachable hs) {pool₀ pool : MemoryPool} {h' : HeapState}
    {bs : Nat} (hn : n < t.sizeMod) (e : memoryPoolCreate t hs.heap (some pool₀) bs n = some (h', some pool, .ok)) :
    pool.blockSize = alignSize t bs ∧ pool.numBlocks = n ∧ n ≠ 0 ∧ t.mul (alignSize t bs) n ≠ 0 ∧
      pool.poolStart ≠ 0 ∧
      alignSize t (t.mul (alignSize t bs) n) ≤ blockSize t h'.mem (pool.poolStart - t.blockHeader) ∧
      pool.poolStart + blockSize t h'.mem (pool.poolStart - t.blockHeader) ≤ t.heapMemory + HEAP_SIZE ∧
      Filled pool.poolStart (alignSize t bs) n pool.freeList 0 ⟨h'.mem, pool, []⟩ := by
  obtain ⟨G, ho, -⟩ := ((accounted_inductive t).reachable hs hr).grants
  rcases poolCreate_outstanding ho (some pool₀) bs n with ⟨_, _, st, e', hst, -⟩ |
    ⟨h₂, p, g, q, k, e', -, hn0, htotal, hg, hk0, hk, ho', hones, -⟩
  · rw [e'] at e
    cases e
    exact absurd rfl hst
  rw [e'] at e
  obtain ⟨rfl, rfl⟩ : h₂ = h' ∧ (⟨p, alignSize t bs, n, n, q⟩ : MemoryPool) = pool := by simpa using e
  have hp : (p, g) ∈ (q, k) ::ₘ (p, g) ::ₘ G := Multiset.mem_cons_of_mem (Multiset.mem_cons_self _ _)
  have hadd := bitmap_bytes hn hk0
  rw [hadd] at hones
  have hsize := (ho'.header hp).1
  dsimp only
  rw [hsize]
  refine ⟨rfl, rfl, hn0, htotal, ho'.ne_zero hp, hg, (ho'.bounds hp).2, rfl, fun j hj => ?_⟩
  dsimp only
  rw [Mem.getBit_ones (hones _ (by omega))]
  simp

/-- **When the blocks of a pool lie in what was granted for it**: if the number
of bytes asked for, with the block size rounded up, does not wrap. -/
theorem pool_contained (t : Target) (hs : HeapSys) (hr : (allocSys t).Reachable hs) (pool₀ pool : MemoryPool)
    (bs n : Nat) (hn : n < t.sizeMod) (h' : HeapState)
    (e : memoryPoolCreate t hs.heap (some pool₀) bs n = some (h', some pool, .ok)) :
    (∀ s, (poolFrom t ⟨h'.mem, pool, []⟩).Reachable s →
      Contained t (blockSize t h'.mem (pool.poolStart - t.blockHeader)) s) ↔
    alignSize t bs * n < t.sizeMod := by
  obtain ⟨hsize, hnum, hn0, htotal, hstart, hg, hend, hfilled⟩ := create_filled hr hn e
  have hlt := t.heap_lt
  have hmod := t.sizeMod_ge
  have hplaced := t.placed
  have hheap : HEAP_SIZE = 65536 := rfl
  generalize hgdef : blockSize t h'.mem (pool.poolStart - t.blockHeader) = g at *
  have hB : 0 < alignSize t bs := by
    apply Nat.pos_of_ne_zero
    intro h0
    apply htotal
    rw [h0, Target.mul, Nat.zero_mul, Nat.zero_mod]
  constructor
  · intro hall
    by_contra hw
    -- after the blocks that fit, the next one does not
    have hdiv := Nat.div_mul_le_self g (alignSize t bs)
    have hk : g / alignSize t bs < n := Nat.div_lt_of_lt_mul (by omega)
    obtain ⟨s, hrun, hf⟩ := filled_run hn hfilled (Nat.le_of_lt hk)
    exact hf.not_contained hk hn hstart (by omega) (Nat.lt_div_mul_add hB) (hall s ⟨_, _, rfl, hrun⟩)
  · intro hw s hreach
    -- the invariant of the pool's runs
    have hcreated : Created t ⟨h'.mem, pool, []⟩ :=
      ⟨hs, pool₀, bs, n, h', hr, hn, by rwa [Nat.mul_comm] at hw ⊢, e, rfl, rfl⟩
    have hinv : (poolFrom t ⟨h'.mem, pool, []⟩).Inductive fun s => Pooled t s ∧
        s.pool.poolStart = pool.poolStart ∧ s.pool.blockSize = pool.blockSize ∧
        s.pool.numBlocks = pool.numBlocks := by
      refine ⟨fun s h => ?_, fun s c s' hi hstep => ?_⟩
      · rw [h]
        exact ⟨created_pooled hcreated, rfl, rfl, rfl⟩
      · obtain ⟨h1, h2, h3⟩ := call_layout hstep.2
        exact ⟨(pooled_inductive t).step s c s' hi.1 hstep, h1.trans hi.2.1, h2.trans hi.2.2.1, h3.trans hi.2.2.2⟩
    obtain ⟨hi, h1, h2, h3⟩ := hinv.reachable s hreach
    rw [Target.mul, Nat.mod_eq_of_lt hw] at hg
    have hg' : s.pool.blockSize * s.pool.numBlocks ≤ g := by
      rw [h2, h3, hsize, hnum]
      exact (total_le_alignSize hw).trans hg
    exact hi.contained hg'

/-- Two blocks of 2^31 + 4 bytes get 8 bytes of the heap of a board. -/
theorem pool_overrun : ∃ hs, (allocSys board).Reachable hs ∧ ∃ h' pool,
    memoryPoolCreate board hs.heap (some .zero) 0x80000004 2 = some (h', some pool, .ok) ∧
    ∃ s, (poolFrom board ⟨h'.mem, pool, []⟩).Reachable s ∧
      ¬ Contained board (blockSize board h'.mem (pool.poolStart - board.blockHeader)) s := by
  have hrun : (memoryPoolCreate board (HeapSys.boot board).heap (some .zero) 0x80000004 2).map
      (fun r => (r.2.1, r.2.2, blockSize board r.1.mem 0x20000000, (memoryPoolAlloc board r.1.mem r.2.1).2.2)) =
      some (some ⟨0x20000010, 0x80000004, 2, 2, 0x20000028⟩, .ok, 8, 0x20000010) := by decide +kernel
  obtain ⟨⟨h', pool, st⟩, e, hr⟩ := Option.map_eq_some_iff.1 hrun
  simp only [Prod.mk.injEq] at hr
  obtain ⟨rfl, rfl, hsize, hptr⟩ := hr
  refine ⟨HeapSys.boot board, ⟨_, [], rfl, .nil _⟩, h', _, e, _, ⟨_, [], rfl, .nil _⟩, fun hc => ?_⟩
  rcases halloc : memoryPoolAlloc board h'.mem (some ⟨0x20000010, 0x80000004, 2, 2, 0x20000028⟩) with ⟨m, pool', ptr⟩
  rw [halloc] at hptr
  dsimp only at hptr
  have hin := (hc.inside m pool' ptr halloc (by rw [hptr]; decide)).2
  rw [hptr, show 0x20000010 - board.blockHeader = 0x20000000 from rfl, hsize] at hin
  dsimp only at hin
  omega

/-- Three blocks of 10 bytes, rounded to 12. -/
theorem pool_contained_board : ∃ hs, (allocSys board).Reachable hs ∧ ∃ h' pool,
    memoryPoolCreate board hs.heap (some .zero) 10 3 = some (h', some pool, .ok) ∧
    ∀ s, (poolFrom board ⟨h'.mem, pool, []⟩).Reachable s →
      Contained board (blockSize board h'.mem (pool.poolStart - board.blockHeader)) s := by
  have hreach : (allocSys board).Reachable (HeapSys.boot board) := ⟨_, [], rfl, .nil _⟩
  obtain ⟨h', e⟩ := boardPool_create
  exact ⟨_, hreach, h', _, e, (pool_contained board _ hreach .zero _ 10 3 (by decide) h' e).2 (by decide)⟩

end Rtos.Heap
