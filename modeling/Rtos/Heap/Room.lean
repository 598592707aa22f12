import Rtos.Heap.Exact

/-!
# Room for several allocations

What the largest free block is good for: each allocation costs it at most the
rounded size, a header and the 32 bytes below which a rest is not cut off
(`room_malloc`), whichever free block it comes from. So allocations succeed as
long as their costs sum up to no more than the largest free block at the start.
-/
namespace Rtos.Heap

open Rtos.Core Rtos.Core.Blocks

variable {t : Target} {h : HeapState} {G : Multiset (Nat × Nat)} {bs pre post : List Blk} {b : Blk} {n r r' : Nat}

/-- A free block of `r` bytes, or none if that is 0. -/
def HasFree (bs : List Blk) (r : Nat) : Prop := r = 0 ∨ ∃ c ∈ bs, c.free = true ∧ r ≤ c.size

theorem hasFree_iff : HasFree bs r ↔ r ≤ (freeSizes bs).foldl max 0 := by
  rw [HasFree, ← not_lt (a := (freeSizes bs).foldl max 0), foldl_max_lt, freeSizes_lt]
  by_cases h0 : r = 0
  · simp [h0]
  · simp [h0, Nat.pos_of_ne_zero h0]

/-- The largest free block has `r` bytes. -/
def Room (t : Target) (h : HeapState) (r : Nat) : Prop := ∃ T, Represents t h T ∧ HasFree T.blocks r

/-- What an allocation costs. -/
def cost (t : Target) (n : Nat) : Nat := alignSize t n + t.blockHeader + 32

theorem Room.mono (hm : Room t h r) (hle : r' ≤ r) : Room t h r' := by
  obtain ⟨T, hr, hc⟩ := hm
  refine ⟨T, hr, ?_⟩
  rw [hasFree_iff] at hc ⊢
  omega

/-- The room there is, as `memory_get_stats` reports it. -/
theorem room_of_stats (ho : Outstanding t h G) {stats st : MemoryStats}
    (hs : memoryGetStats t h (some stats) = some (some st)) (hle : r ≤ st.largestFreeBlock) : Room t h r := by
  obtain ⟨T, hr, -⟩ := ho.tiling
  rw [getStats_represents hr] at hs
  cases hs
  exact ⟨T, hr, hasFree_iff.2 hle⟩

/-- Taking `n` bytes from the best fit leaves a free block of `r` if there was
one of `n`, a header, the slack and `r`. -/
theorem HasFree.split {hdr slack : Nat} (hf : HasFree (pre ++ b :: post) (n + hdr + slack + r))
    (hb : b.free = true) : HasFree (pre ++ split hdr slack b n ++ post) r := by
  rcases hf with h0 | ⟨c, hc, hfree, hle⟩
  · exact .inl (by omega)
  right
  rcases List.mem_append.1 hc with hc | hc
  · exact ⟨c, by simp [hc], hfree, by omega⟩
  rcases List.mem_cons.1 hc with rfl | hc
  · -- the block itself was the large one, and its rest is cut off
    refine ⟨⟨c.size - n - hdr, true⟩, ?_, rfl, by dsimp only; omega⟩
    rw [Blocks.split, if_pos (by omega)]
    simp
  · exact ⟨c, by simp [hc], hfree, by omega⟩

theorem room_malloc (ho : Outstanding t h G) (hn : n ≠ 0) (hm : Room t h (cost t n + r)) :
    ∃ h' p g, rtosMalloc t h n = some (h', p) ∧ p ≠ 0 ∧ Outstanding t h' ((p, g) ::ₘ G) ∧
      Kept G h.mem h'.mem ∧ Room t h' r := by
  obtain ⟨T, hr, hfree⟩ := hm
  rw [cost] at hfree
  rcases malloc_represents hr n with ⟨-, hno⟩ | ⟨pre, post, b, he, hb, h', e, hr', -⟩
  · rcases hfree with h0 | ⟨c, hc, hcfree, hle⟩
    · omega
    · have hlt := hno.resolve_left hn c hc hcfree
      omega
  · have hplaced := t.placed
    rcases malloc_outstanding ho n with e' | ⟨h'', p, g, e', hp, -, ho', hk, -⟩
    · rw [e] at e'
      have := (Prod.mk.inj (Option.some.inj e')).2
      omega
    · rw [e] at e'
      cases e'
      rw [he] at hfree
      exact ⟨h', _, g, e, hp, ho', hk, _, hr', hfree.split hb.free⟩

end Rtos.Heap
