import Rtos.Heap.Usage

/-!
# What `rtos_malloc` and `rtos_realloc` do, exactly

`malloc_exact`: an allocation fails if and only if the rounded size exceeds
the largest free block that `memory_get_stats` reports. Else it takes the
lowest of the smallest free blocks that fit, and the block list changes there
only (`Takes`). `realloc_keeps`: a reallocation keeps the bytes of its block
and all other payloads, and fails without effect.
-/
namespace Rtos.Heap

open Rtos.Core Rtos.Core.Blocks

/-- A free block of the list has room for `n` bytes as `rtos_malloc` rounds them. -/
def Fits (t : Target) (h : HeapState) (n : Nat) : Prop :=
  ∃ bs, heapBlocks t h = some bs ∧ ∃ y ∈ bs, y.2.free = true ∧ alignSize t n ≤ y.2.size

/-- The block list `bs` becomes `bs'` when `a` bytes are granted at `p`: the
lowest of the smallest free blocks that fit is marked as used, and its rest is
cut off if it has room for a header and 32 bytes. -/
def Takes (t : Target) (bs bs' : List (Nat × Blk)) (a p : Nat) : Prop :=
  ∃ pre y post s rest, bs = pre ++ y :: post ∧ bs' = pre ++ (y.1, ⟨s, false⟩) :: rest ++ post ∧
    p = y.1 + t.blockHeader ∧ y.2.free = true ∧ a ≤ y.2.size ∧
    (∀ z ∈ bs, z.2.free = true → a ≤ z.2.size →
      y.2.size ≤ z.2.size ∧ (z.2.size = y.2.size → y.1 ≤ z.1)) ∧
    a ≤ s ∧ s < a + t.blockHeader + 32 ∧
    (a + t.blockHeader + 32 ≤ y.2.size → s = a ∧
      rest = [(y.1 + t.blockHeader + a, ⟨y.2.size - a - t.blockHeader, true⟩)]) ∧
    (y.2.size < a + t.blockHeader + 32 → s = y.2.size ∧ rest = [])

variable {t : Target} {h h' : HeapState} {G : Multiset (Nat × Nat)} {T : Tiling t.blockHeader}
  {pre post : List Blk} {b : Blk} {s : HeapSys} {p n a : Nat}

/-! ## Allocation -/

theorem fits_iff (hr : Represents t h T) :
    Fits t h n ↔ ∃ c ∈ T.blocks, c.free = true ∧ alignSize t n ≤ c.size := by
  unfold Fits
  rw [hr.blocks]
  constructor
  · intro hf
    obtain ⟨bs, e, y, hy, h1, h2⟩ := hf
    cases e
    exact ⟨y.2, spots_map t.blockHeader t.heapMemory T.blocks ▸ List.mem_map_of_mem hy, h1, h2⟩
  · intro hf
    obtain ⟨c, hc, h1, h2⟩ := hf
    rw [← spots_map t.blockHeader t.heapMemory T.blocks] at hc
    obtain ⟨y, hy, rfl⟩ := List.mem_map.1 hc
    exact ⟨_, rfl, y, hy, h1, h2⟩

/-- `rtos_malloc` returns NULL when nothing fits, and only then. -/
theorem malloc_null_iff (ho : Outstanding t h G) :
    (∃ h', rtosMalloc t h n = some (h', 0)) ↔ n = 0 ∨ ¬ Fits t h n := by
  obtain ⟨T, hr, -⟩ := ho.tiling
  rw [fits_iff hr]
  rcases malloc_represents hr n with ⟨e, hno⟩ | ⟨pre, post, b, he, hb, h', e, -⟩
  · refine ⟨fun _ => hno.imp_right fun hno hf => ?_, fun _ => ⟨h, e⟩⟩
    obtain ⟨c, hc, h1, h2⟩ := hf
    have := hno c hc h1
    omega
  · have hplaced := t.placed
    constructor
    · intro hz
      obtain ⟨h'', e'⟩ := hz
      rw [e] at e'
      have := (Prod.mk.inj (Option.some.inj e')).2
      omega
    · intro hno
      rcases hno with hz | hno
      · exact absurd hz (malloc_ne_zero e (by omega))
      · exact absurd ⟨b, by rw [he]; simp, hb.free, hb.fits⟩ hno

/-- The list of a row with one block taken from it. -/
theorem takes_spots (hb : BestFit a pre b post) (m : Nat) :
    Takes t (spots t.blockHeader m (pre ++ b :: post))
      (spots t.blockHeader m (pre ++ split t.blockHeader 32 b a ++ post)) a
      (m + span t.blockHeader pre + t.blockHeader) := by
  have hfits := hb.fits
  refine ⟨spots t.blockHeader m pre, (m + span t.blockHeader pre, b),
    spots t.blockHeader (m + span t.blockHeader pre + t.blockHeader + b.size) post,
    granted t.blockHeader 32 b a,
    if a + t.blockHeader + 32 ≤ b.size then [(m + span t.blockHeader pre + t.blockHeader + a,
      ⟨b.size - a - t.blockHeader, true⟩)] else [], ?_, ?_, rfl, hb.free, hb.fits, ?_, granted_ge 32 hb.fits, ?_, ?_, ?_⟩
  · rw [spots_append, spots]
  · have hend : m + span t.blockHeader (pre ++ split t.blockHeader 32 b a) =
        m + span t.blockHeader pre + t.blockHeader + b.size := by
      rw [span_append, span_split]; omega
    have hmid : spots t.blockHeader (m + span t.blockHeader pre) (split t.blockHeader 32 b a) =
        (m + span t.blockHeader pre, ⟨granted t.blockHeader 32 b a, false⟩) ::
          if a + t.blockHeader + 32 ≤ b.size then [(m + span t.blockHeader pre + t.blockHeader + a,
            ⟨b.size - a - t.blockHeader, true⟩)] else [] := by
      unfold split granted
      split <;> rfl
    rw [spots_append, hend, spots_append, hmid]
  · -- the blocks in front that fit are larger, those behind not smaller
    intro z hz h1 h2
    rw [spots_append] at hz
    rcases List.mem_append.1 hz with hz | hz
    · have := hb.before z.2 (spots_map t.blockHeader m pre ▸ List.mem_map_of_mem hz) h1 h2
      dsimp only
      omega
    · have hge := (spots_bounds hz).1
      rcases List.mem_cons.1 hz with rfl | hz
      · exact ⟨Nat.le_refl _, fun _ => Nat.le_refl _⟩
      · have := hb.after z.2 (spots_map t.blockHeader _ post ▸ List.mem_map_of_mem hz) h1 h2
        exact ⟨this, fun _ => hge⟩
  · have := t.header_ge
    unfold granted
    split <;> omega
  · intro hle
    exact ⟨if_pos hle, if_pos hle⟩
  · intro hlt
    exact ⟨if_neg (by dsimp only at hlt; omega), if_neg (by dsimp only at hlt; omega)⟩

/-- The largest free size is below a bound when all free sizes are. -/
theorem foldl_max_lt {l : List Nat} {k x : Nat} : l.foldl max k < x ↔ k < x ∧ ∀ y ∈ l, y < x := by
  induction l generalizing k with
  | nil => simp
  | cons y l ih => rw [List.foldl_cons, ih, Nat.max_lt, List.forall_mem_cons, and_assoc]

theorem freeSizes_lt (bs : List Blk) (x : Nat) :
    (∀ y ∈ freeSizes bs, y < x) ↔ ∀ c ∈ bs, c.free = true → c.size < x := by
  simp only [freeSizes, List.forall_mem_map, List.mem_filter, and_imp]

/-- The size that `align_size` returns, if it does not wrap. -/
theorem alignSize_eq (hn : n + 3 < t.sizeMod) : alignSize t n = (n + 3) / 4 * 4 := by
  rw [alignSize, Target.add_of_lt hn]
  omega

/-- In every reachable state an allocation of `n` bytes, rounded up to `a`,
fails without effect if and only if `a` exceeds the largest free block that
`memory_get_stats` reports, and otherwise takes the lowest best fit. -/
theorem malloc_exact (t : Target) (s : HeapSys) (h : (allocSys t).Reachable s) (n : Nat) (h1 : 1 ≤ n)
    (hn : n ≤ t.sizeMod - 1 - 3) (stats : MemoryStats) :
    ∃ st bs h' p, memoryGetStats t s.heap (some stats) = some (some st) ∧
      heapBlocks t s.heap = some bs ∧ rtosMalloc t s.heap n = some (h', p) ∧
      (p = 0 ↔ st.largestFreeBlock < (n + 3) / 4 * 4) ∧ (p = 0 → h' = s.heap) ∧
      (p ≠ 0 → ∃ bs', heapBlocks t h' = some bs' ∧ Takes t bs bs' ((n + 3) / 4 * 4) p) := by
  obtain ⟨G, ho, -⟩ := ((accounted_inductive t).reachable s h).grants
  obtain ⟨T, hr, -⟩ := ho.tiling
  have hmod := t.sizeMod_ge
  have ha := alignSize_eq (t := t) (n := n) (by omega)
  have hlargest : (freeSizes T.blocks).foldl max 0 < (n + 3) / 4 * 4 ↔
      ∀ c ∈ T.blocks, c.free = true → c.size < alignSize t n := by
    rw [foldl_max_lt, freeSizes_lt, ha]
    exact and_iff_right (by omega)
  rcases malloc_represents hr n with ⟨e, hno⟩ | ⟨pre, post, b, he, hb, h', e, hr', -⟩
  · refine ⟨_, _, s.heap, 0, getStats_represents hr stats, hr.blocks, e, ?_, fun _ => rfl, fun hz => absurd rfl hz⟩
    exact ⟨fun _ => hlargest.2 (hno.resolve_left (by omega)), fun _ => rfl⟩
  · have hplaced := t.placed
    refine ⟨_, _, h', _, getStats_represents hr stats, hr.blocks, e, ⟨fun hz => by omega, fun hlt => ?_⟩,
      fun hz => by omega, fun _ => ⟨_, hr'.blocks, ?_⟩⟩
    · have := hlargest.1 hlt b (by rw [he]; simp) hb.free
      have := hb.fits
      omega
    · rw [← ha, he]
      exact takes_spots hb _

/-- 20 bytes from a heap with two blocks that fit, and 65536 bytes. -/
theorem malloc_exact_board : ∃ s, (allocSys board).Reachable s ∧
    (∃ st bs h' p, memoryGetStats board s.heap (some s.heap.globalStats) = some (some st) ∧
      heapBlocks board s.heap = some bs ∧ rtosMalloc board s.heap 18 = some (h', p) ∧
      (p = 0 ↔ st.largestFreeBlock < 20) ∧ (p = 0 → h' = s.heap) ∧
      (p ≠ 0 → ∃ bs', heapBlocks board h' = some bs' ∧ Takes board bs bs' 20 p)) ∧
    (rtosMalloc board s.heap 18).map (·.2) = some 0x20000010 := by
  obtain ⟨s, -, h, hp⟩ := LTS.reachable_of_exec (M := allocSys board) LTS.step_of_guarded rfl
    (fun s => (rtosMalloc board s.heap 18).map (·.2) = some 0x20000010)
    [.malloc 40, .malloc 8, .free 0x20000010] (by decide +kernel)
  exact ⟨s, h, malloc_exact board s h 18 (by decide) (by decide) s.heap.globalStats, hp⟩

/-! ## Reallocation -/

/-- What the application holds are the allocated blocks of a tiling. -/
theorem inv_of_outstanding (ho : Outstanding t s.heap G) (hl : G.map Prod.fst = (s.live : Multiset Nat)) :
    Inv t s := by
  obtain ⟨T, hr, hG⟩ := ho.tiling
  refine ⟨T, hr, ?_⟩
  rw [← Multiset.coe_eq_coe, ← hl, ← hG, Multiset.map_coe, Blocks.grants, List.map_map]
  rfl

/-- The bytes of two ranges agree one by one. -/
theorem eq_of_bytes {m m' : Mem} {q k i : Nat} (he : m'.bytes q k = m.bytes p k) (hi : i < k) :
    m' (q + i) = m (p + i) := by
  unfold Mem.bytes at he
  exact List.map_inj_left.1 he i (List.mem_range.2 hi)

/-- In every reachable state a reallocation of a live pointer to `n` bytes
returns a block of at least `n` bytes that starts with those of the old one,
which is live afterwards only if it is the block returned, or fails without
effect. Either way the heap is tiled and every other payload is as it was. -/
theorem realloc_keeps (t : Target) (s : HeapSys) (h : (allocSys t).Reachable s) (p n : Nat) (hp : p ∈ s.live)
    (h1 : 1 ≤ n) (hn : n ≤ t.sizeMod - 1 - 3) :
    ∃ s' q, s.alloc t (.realloc p n) = some s' ∧ rtosRealloc t s.heap p n = some (s'.heap, q) ∧ Inv t s' ∧
      (q ≠ 0 → q ∈ s'.live ∧ n ≤ blockSize t s'.heap.mem (q - t.blockHeader) ∧
        (∀ i, i < min (blockSize t s.heap.mem (p - t.blockHeader)) n → s'.heap.mem (q + i) = s.heap.mem (p + i)) ∧
        (p ∈ s'.live → q = p)) ∧
      (q = 0 → s' = s) ∧
      ∀ r ∈ s.live, r ≠ p → r ∈ s'.live ∧
        blockSize t s'.heap.mem (r - t.blockHeader) = blockSize t s.heap.mem (r - t.blockHeader) ∧
        ∀ x, r ≤ x → x < r + blockSize t s.heap.mem (r - t.blockHeader) → s'.heap.mem x = s.heap.mem x := by
  have hi := (accounted_inductive t).reachable s h
  have hmod := t.sizeMod_ge
  obtain ⟨G₀, ho₀, hl₀⟩ := hi.grants
  have hinv : Inv t s := inv_of_outstanding ho₀ hl₀
  have hnodup : s.live.Nodup := by
    have := ho₀.nodup
    rwa [hl₀, Multiset.coe_nodup] at this
  have hp0 := hi.ne_zero hp
  have hn0 : n ≠ 0 := by omega
  obtain ⟨g, G, ho, hl⟩ := hi.grant hp
  have hg := (ho.header (Multiset.mem_cons_self _ _)).1
  -- the other live pointers are the grants `G`
  have hothers : ∀ r ∈ s.live, r ≠ p → ∃ k, (r, k) ∈ G :=
    fun r hr hne => grant_of_live hl ((List.mem_erase_of_ne hne).2 hr)
  rw [HeapSys.alloc]
  rcases realloc_outstanding ho hn0 (n := n) (by omega) with ⟨hle, e⟩ | ⟨-, e⟩ |
    ⟨h', q, k, hlt, e, hq, hnk, ho', hbytes, hkept, -⟩
  · -- the block is large enough
    have hmem : ∀ r, r ∈ p :: s.live.erase p ↔ r ∈ s.live := fun r => (List.perm_cons_erase hp).mem_iff.symm
    obtain ⟨T, hr, hperm⟩ := hinv
    refine ⟨⟨s.heap, p :: s.live.erase p⟩, p, by rw [e]; simp [hp0], e,
      ⟨T, hr, (List.perm_cons_erase hp).symm.trans hperm⟩, fun _ => ?_, fun hz => absurd hz hp0, fun r hr hne => ?_⟩
    · exact ⟨List.mem_cons_self, by rw [hg]; exact hle, fun _ _ => rfl, fun _ => rfl⟩
    · exact ⟨(hmem r).2 hr, rfl, fun _ _ _ => rfl⟩
  · -- nothing fits
    refine ⟨s, 0, by rw [e]; simp [hn0], e, hinv, fun hz => absurd rfl hz, fun _ => rfl, fun r hr _ => ?_⟩
    exact ⟨hr, rfl, fun _ _ _ => rfl⟩
  · -- the block moves
    refine ⟨⟨h', q :: s.live.erase p⟩, q, by rw [e]; simp [hq], e, ?_, fun _ => ⟨List.mem_cons_self, ?_, ?_, ?_⟩,
      fun hz => absurd hz hq, fun r hr hne => ?_⟩
    · exact inv_of_outstanding ho' (by rw [Multiset.map_cons, hl, Multiset.cons_coe])
    · rw [(ho'.header (Multiset.mem_cons_self _ _)).1]
      exact hnk
    · intro i hi
      rw [hg] at hi
      exact eq_of_bytes hbytes (by omega)
    · intro hpl
      rcases List.mem_cons.1 hpl with hpq | hpl
      · exact hpq.symm
      · exact absurd hpl hnodup.not_mem_erase
    · obtain ⟨k', hk'⟩ := hothers r hr hne
      have hsz := (ho.header (Multiset.mem_cons_of_mem hk')).1
      refine ⟨List.mem_cons_of_mem _ ((List.mem_erase_of_ne hne).2 hr), ?_, fun x h2 h3 => ?_⟩
      · rw [hsz]
        exact (ho'.header (Multiset.mem_cons_of_mem hk')).1
      · rw [hsz] at h3
        exact hkept (r, k') hk' x h2 h3

/-- A block of 20 bytes moved to make room for 80. -/
theorem realloc_keeps_board : ∃ s, (allocSys board).Reachable s ∧ s.live = [0x20000034, 0x20000010] ∧ ∃ s',
    s.alloc board (.realloc 0x20000010 80) = some s' ∧ Inv board s' ∧ 0x20000074 ∈ s'.live ∧
    0x20000010 ∉ s'.live ∧ s'.heap.mem 0x20000075 = s.heap.mem 0x20000011 := by
  obtain ⟨s, -, h, hl, hq, hb⟩ := LTS.reachable_of_exec (M := allocSys board) LTS.step_of_guarded rfl
    (fun s => s.live = [0x20000034, 0x20000010] ∧
      (rtosRealloc board s.heap 0x20000010 80).map (·.2) = some 0x20000074 ∧
      blockSize board s.heap.mem 0x20000000 = 20)
    [.malloc 20, .malloc 48, .store 0x20000011 7] (by decide +kernel)
  obtain ⟨s', q, e, e', hinv, hne, -, -⟩ := realloc_keeps board s h 0x20000010 80 (by rw [hl]; decide) (by decide)
    (by decide)
  rw [e'] at hq
  obtain rfl : q = 0x20000074 := Option.some.inj hq
  obtain ⟨hlive, -, hbytes, hold⟩ := hne (by decide)
  refine ⟨s, h, hl, s', e, hinv, hlive, fun hp => absurd (hold hp) (by decide), hbytes 1 ?_⟩
  rw [show 0x20000010 - board.blockHeader = 0x20000000 from rfl, hb]
  decide

end Rtos.Heap
