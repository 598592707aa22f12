import Rtos.Heap.Exact

/-!
# Sizes that wrap on their way to the heap

`align_size` adds 3 before it clears the two low bits, so a size of
`SIZE_MAX - 2` or more is rounded to 0, and `rtos_malloc` grants the smallest
free block for it. `rtos_calloc` multiplies its arguments first, and a product
past `SIZE_MAX` is reduced to a small size. Both return a block that is too
small instead of NULL.

`malloc_size`: `rtos_malloc` grants what it was asked for if the size is at
most `SIZE_MAX - 3`, or if no block is free. `calloc_clears`: `rtos_calloc`
grants and clears its array if the product is at most `SIZE_MAX - 3`, or if
the reduced product is 0 or fits no free block.
-/
namespace Rtos.Heap

open Rtos.Core Rtos.Core.Blocks

variable {t : Target} {h h' : HeapState} {G : Multiset (Nat × Nat)} {p g n : Nat}

/-- Sizes that wrap are rounded to 0. -/
theorem alignSize_wrap (hn : n < t.sizeMod) (hw : t.sizeMod ≤ n + 3) : alignSize t n = 0 := by
  have hmod := t.sizeMod_ge
  have hadd : t.add n 3 = n + 3 - t.sizeMod := by
    rw [Target.add, Nat.mod_eq_sub_mod hw, Nat.mod_eq_of_lt (by omega)]
  rw [alignSize, hadd]
  omega

/-- A grant is smaller than the heap. -/
theorem Outstanding.size_lt (ho : Outstanding t h ((p, g) ::ₘ G)) : g < HEAP_SIZE := by
  have := ho.bounds (Multiset.mem_cons_self _ _)
  have := t.header_ge
  omega

/-- A NULL or a block of the rounded size, whose header says so. -/
theorem malloc_returns (ho : Outstanding t h G) (n : Nat) :
    (rtosMalloc t h n = some (h, 0) ∧ (n = 0 ∨ ¬ Fits t h n)) ∨
    ∃ h' p g, rtosMalloc t h n = some (h', p) ∧ n ≠ 0 ∧ Fits t h n ∧ p ≠ 0 ∧ alignSize t n ≤ g ∧
      blockSize t h'.mem (p - t.blockHeader) = g ∧ Outstanding t h' ((p, g) ::ₘ G) := by
  rcases malloc_outstanding ho n with e | ⟨h', p, g, e, hp, hg, ho', -⟩
  · exact .inl ⟨e, (malloc_null_iff ho).1 ⟨h, e⟩⟩
  · right
    have hnot : ¬ (n = 0 ∨ ¬ Fits t h n) := by
      intro hnull
      obtain ⟨h'', e'⟩ := (malloc_null_iff ho).2 hnull
      rw [e] at e'
      exact hp (Prod.mk.inj (Option.some.inj e')).2
    obtain ⟨hn, hf⟩ := not_or.1 hnot
    exact ⟨h', p, g, e, hn, not_not.1 hf, hp, hg, (ho'.header (Multiset.mem_cons_self _ _)).1, ho'⟩

/-! ## `rtos_malloc` -/

/-- **When `rtos_malloc` grants what it was asked for**: if the size is at most
`SIZE_MAX - 3`, or if no block of the heap is free, so that it returns NULL. -/
theorem malloc_size (t : Target) (s : HeapSys) (h : (allocSys t).Reachable s) (n : Nat) (hn : n < t.sizeMod) :
    (∀ h' p, rtosMalloc t s.heap n = some (h', p) → p ≠ 0 → n ≤ blockSize t h'.mem (p - t.blockHeader)) ↔
    (n ≤ t.sizeMod - 1 - 3 ∨ ∃ bs, heapBlocks t s.heap = some bs ∧ ∀ y ∈ bs, y.2.free = false) := by
  obtain ⟨G, ho, -⟩ := ((accounted_inductive t).reachable s h).grants
  obtain ⟨T, hr, -⟩ := ho.tiling
  have hmod := t.sizeMod_ge
  have hheap : HEAP_SIZE = 65536 := rfl
  have hfree : n + 3 < t.sizeMod ∨ (Fits t s.heap n ↔ ∃ y ∈ spots t.blockHeader t.heapMemory T.blocks,
      y.2.free = true) := by
    by_cases hw : n + 3 < t.sizeMod
    · exact .inl hw
    · right
      unfold Fits
      rw [hr.blocks, alignSize_wrap hn (by omega)]
      simp
  rcases malloc_returns ho n with ⟨e, hnull⟩ | ⟨h', p, g, e, h0, hf, hp, hg, hsize, ho'⟩
  · refine iff_of_true (fun h' p e' hp => ?_) ?_
    · rw [e] at e'
      exact absurd (Prod.mk.inj (Option.some.inj e')).2.symm hp
    · by_cases hw : n + 3 < t.sizeMod
      · exact .inl (by omega)
      · refine .inr ⟨_, hr.blocks, fun y hy => ?_⟩
        by_contra hy'
        exact (hnull.resolve_left (by omega)) ((hfree.resolve_left hw).2 ⟨y, hy, by simpa using hy'⟩)
  · constructor
    · intro hall
      left
      have h1 := hall h' p e hp
      have h2 := ho'.size_lt
      omega
    · intro hc h'' p' e' _
      rw [e] at e'
      obtain ⟨rfl, rfl⟩ := Prod.mk.inj (Option.some.inj e')
      rw [hsize]
      rcases hc with hc | ⟨bs, hbs, hused⟩
      · exact (le_alignSize (by omega)).trans hg
      · rw [hr.blocks] at hbs
        cases hbs
        by_cases hw : n + 3 < t.sizeMod
        · exact (le_alignSize hw).trans hg
        · obtain ⟨y, hy, hyf⟩ := (hfree.resolve_left hw).1 hf
          rw [hused y hy] at hyf
          cases hyf

/-- The boot heap of a board grants a block of 0 bytes for `SIZE_MAX`. -/
theorem malloc_undersized : ∃ s, (allocSys board).Reachable s ∧
    ¬ ∀ n, n < board.sizeMod → ∀ h' p, rtosMalloc board s.heap n = some (h', p) → p ≠ 0 →
      n ≤ blockSize board h'.mem (p - board.blockHeader) := by
  refine ⟨HeapSys.boot board, ⟨_, [], rfl, .nil _⟩, fun hall => ?_⟩
  have hrun : (rtosMalloc board (HeapSys.boot board).heap 0xFFFFFFFF).map
      (fun r => (r.2, blockSize board r.1.mem 0x20000000)) = some (0x20000010, 0) := by decide +kernel
  obtain ⟨⟨h', p⟩, e, hr⟩ := Option.map_eq_some_iff.1 hrun
  obtain ⟨rfl, hsize⟩ := Prod.mk.inj hr
  have hle := hall 0xFFFFFFFF (by decide) h' _ e (by decide)
  rw [show 0x20000010 - board.blockHeader = 0x20000000 from rfl] at hle
  dsimp only at hsize
  omega

/-- 100 bytes on the same heap. -/
theorem malloc_size_board : ∃ s, (allocSys board).Reachable s ∧ ∀ h' p,
    rtosMalloc board s.heap 100 = some (h', p) → p ≠ 0 → 100 ≤ blockSize board h'.mem (p - board.blockHeader) :=
  ⟨HeapSys.boot board, ⟨_, [], rfl, .nil _⟩,
    (malloc_size board _ ⟨_, [], rfl, .nil _⟩ 100 (by decide)).2 (.inl (by decide))⟩

/-! ## `rtos_calloc` -/

/-- The array that `rtos_calloc` returned: its block holds `num * size` bytes,
they are 0, and the clearing wrote nothing else. -/
def Cleared (t : Target) (h h' : HeapState) (num size p : Nat) : Prop :=
  num * size ≤ blockSize t h'.mem (p - t.blockHeader) ∧ (∀ i, i < num * size → h'.mem (p + i) = 0) ∧
  ∃ h₁, rtosMalloc t h (t.mul num size) = some (h₁, p) ∧
    ∀ x, (x < p ∨ p + blockSize t h₁.mem (p - t.blockHeader) ≤ x) → h'.mem x = h₁.mem x

theorem calloc_returns (ho : Outstanding t h G) (num size : Nat) :
    (rtosCalloc t h num size = some (h, 0) ∧ (t.mul num size = 0 ∨ ¬ Fits t h (t.mul num size))) ∨
    ∃ h₁ p g, rtosMalloc t h (t.mul num size) = some (h₁, p) ∧ p ≠ 0 ∧ t.mul num size ≠ 0 ∧
      Fits t h (t.mul num size) ∧ alignSize t (t.mul num size) ≤ g ∧ Outstanding t h₁ ((p, g) ::ₘ G) ∧
      rtosCalloc t h num size =
        some ({ h₁ with mem := h₁.mem.put p (fun _ => 0) (t.mul num size) }, p) := by
  unfold rtosCalloc
  dsimp only
  rcases malloc_returns ho (t.mul num size) with ⟨e, hnull⟩ | ⟨h₁, p, g, e, h0, hf, hp, hg, -, ho₁⟩
  · exact .inl ⟨by rw [e, Option.map_some]; rfl, hnull⟩
  · right
    refine ⟨h₁, p, g, e, hp, h0, hf, hg, ho₁, ?_⟩
    rw [e, Option.map_some]
    dsimp only
    rw [if_pos hp]

/-- **When `rtos_calloc` grants and clears its array**: if the product is at
most `SIZE_MAX - 3`, or if `rtos_malloc` fails because the product modulo
`SIZE_MAX + 1` is 0 or fits no free block. -/
theorem calloc_clears (t : Target) (s : HeapSys) (h : (allocSys t).Reachable s) (num size : Nat) :
    (∀ h' p, rtosCalloc t s.heap num size = some (h', p) → p ≠ 0 → Cleared t s.heap h' num size p) ↔
    (num * size ≤ t.sizeMod - 1 - 3 ∨ num * size % t.sizeMod = 0 ∨
      ¬ Fits t s.heap (num * size % t.sizeMod)) := by
  obtain ⟨G, ho, -⟩ := ((accounted_inductive t).reachable s h).grants
  have hmod := t.sizeMod_ge
  have hheap : HEAP_SIZE = 65536 := rfl
  show _ ↔ (_ ∨ t.mul num size = 0 ∨ ¬ Fits t s.heap (t.mul num size))
  rcases calloc_returns ho num size with ⟨e, hnull⟩ | ⟨h₁, p, g, e₁, hp, h0, hf, hg, ho₁, e⟩
  · refine iff_of_true (fun h' p e' hp => ?_) (.inr hnull)
    rw [e] at e'
    exact absurd (Prod.mk.inj (Option.some.inj e')).2.symm hp
  · have hhdr := (ho₁.header (Multiset.mem_cons_self _ _)).1
    have hb := ho₁.bounds (Multiset.mem_cons_self _ _)
    -- the header in front of the payload is not cleared
    have hhdr' : ∀ k, blockSize t (h₁.mem.put p (fun _ => 0) k) (p - t.blockHeader) = g := by
      intro k
      rw [← hhdr]
      apply Mem.read_congr
      intro x h1 h2
      have hw : t.word ≤ t.blockHeader := by unfold Target.blockHeader; omega
      exact Mem.put_outside (by omega)
    constructor
    · intro hall
      left
      have h1 := (hall _ p e hp).1
      have h2 := ho₁.size_lt
      dsimp only at h1
      rw [hhdr'] at h1
      omega
    · intro hc h' p' e' _
      rw [e] at e'
      obtain ⟨rfl, rfl⟩ := Prod.mk.inj (Option.some.inj e')
      have hle := hc.resolve_right fun h => h.elim h0 fun h => h hf
      have hmul : t.mul num size = num * size := Nat.mod_eq_of_lt (by omega)
      rw [hmul] at hg
      have hg' : num * size ≤ g := (le_alignSize (by omega)).trans hg
      refine ⟨?_, fun i hi => ?_, h₁, e₁, fun x hx => ?_⟩
      · dsimp only
        rw [hhdr']
        exact hg'
      · dsimp only
        rw [hmul]
        exact Mem.put_inside (f := fun _ => 0) hi
      · rw [hhdr] at hx
        dsimp only
        rw [hmul]
        exact Mem.put_outside (by omega)

/-- 2^28 + 1 elements of 16 bytes are 16 bytes modulo 2^32. -/
theorem calloc_undersized : ∃ s, (allocSys board).Reachable s ∧
    ¬ ∀ num size, num < board.sizeMod → size < board.sizeMod → ∀ h' p,
      rtosCalloc board s.heap num size = some (h', p) → p ≠ 0 → Cleared board s.heap h' num size p := by
  refine ⟨HeapSys.boot board, ⟨_, [], rfl, .nil _⟩, fun hall => ?_⟩
  have hrun : (rtosCalloc board (HeapSys.boot board).heap 0x10000001 16).map
      (fun r => (r.2, blockSize board r.1.mem 0x20000000)) = some (0x20000010, 16) := by decide +kernel
  obtain ⟨⟨h', p⟩, e, hr⟩ := Option.map_eq_some_iff.1 hrun
  obtain ⟨rfl, hsize⟩ := Prod.mk.inj hr
  have hle := (hall 0x10000001 16 (by decide) (by decide) h' _ e (by decide)).1
  rw [show 0x20000010 - board.blockHeader = 0x20000000 from rfl] at hle
  dsimp only at hsize
  omega

/-- 10 elements of 12 bytes. -/
theorem calloc_clears_board : ∃ s, (allocSys board).Reachable s ∧ ∀ h' p,
    rtosCalloc board s.heap 10 12 = some (h', p) → p ≠ 0 → Cleared board s.heap h' 10 12 p :=
  ⟨HeapSys.boot board, ⟨_, [], rfl, .nil _⟩,
    (calloc_clears board _ ⟨_, [], rfl, .nil _⟩ 10 12).2 (.inl (by decide))⟩

end Rtos.Heap
