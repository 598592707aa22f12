import Rtos.Heap.Usage

/-!
# `free_heap_size` is not the free memory

`memory_init` leaves the header of its one block out of `free_heap_size`, but
`rtos_malloc` subtracts a header and `rtos_free` adds one, whether or not a
header appears or goes away with the call. So the counter is the sum of the
free payloads plus a header for every free block but one, and when no free
block is left it wraps to `SIZE_MAX + 1 - sizeof(memory_block_t)`.

`reported_free_iff`: `memory_get_stats` reports the real free memory in the
states with exactly one free block, and all along a run exactly when every
allocation that succeeds splits the free block and every block freed has it on
one side.
-/
namespace Rtos.Heap

open Rtos.Core Rtos.Core.Blocks

section

variable (t : Target)

/-- `memory_get_stats` reports the sum of the free payloads, and no counter
has wrapped around. -/
def FreeReported (h : HeapState) : Prop :=
  ∃ bs, heapBlocks t h = some bs ∧ ∀ stats, ∃ r, memoryGetStats t h (some stats) = some (some r) ∧
    r.freeHeapSize = ((bs.filter (·.2.free)).map (·.2.size)).sum ∧
    r.largestFreeBlock ≤ r.freeHeapSize ∧ r.freeHeapSize ≤ r.totalHeapSize ∧
    r.usedHeapSize ≤ r.totalHeapSize

def OneFree (h : HeapState) : Prop := ∃ bs, heapBlocks t h = some bs ∧ frees (bs.map (·.2)) = 1

/-- Runs of `rtos_malloc` and `rtos_free`. -/
def callSys : LTS HeapSys AllocCall := (allocSys t).restrict fun _ c => ∀ p n, c ≠ .realloc p n

/-- No free block that holds the size asked for is too small to be split, and
the block freed has a free block on one side only. -/
def OneFreeCall (s : HeapSys) : AllocCall → Prop
  | .malloc n => n ≠ 0 → ∀ bs, heapBlocks t s.heap = some bs → ∀ b ∈ bs, b.2.free = true →
      b.2.size < alignSize t n ∨ alignSize t n + t.blockHeader + 32 ≤ b.2.size
  | .free p => ∀ pre b post, heapBlocks t s.heap = some (pre ++ b :: post) →
      b.1 + t.blockHeader = p → b.2.free = false →
      lastFree (pre.map (·.2)) ≠ headFree (post.map (·.2))
  | .realloc .. | .store .. => True

end

variable {t : Target} {s s' : HeapSys} {c : AllocCall} {h h' : HeapState} {G : Multiset (Nat × Nat)}
  {T : Tiling t.blockHeader} {pre post : List Blk} {b : Blk} {n p g : Nat}

theorem oneFree_iff (hr : Represents t h T) : OneFree t h ↔ frees T.blocks = 1 := by
  rw [OneFree, hr.blocks]
  constructor
  · intro hf
    obtain ⟨bs, e, hf⟩ := hf
    cases e
    rwa [spots_map] at hf
  · intro hf
    exact ⟨_, rfl, by rwa [spots_map]⟩

/-! ## One state -/

theorem foldl_max_le (l : List Nat) (k : Nat) : l.foldl max k ≤ k + l.sum := by
  induction l generalizing k with
  | nil => exact Nat.le_refl k
  | cons x l ih =>
    have := ih (max k x)
    rw [List.foldl_cons, List.sum_cons]
    omega

theorem free_spots (a : Nat) (bs : List Blk) :
    (((spots t.blockHeader a bs).filter (·.2.free)).map (·.2.size)).sum = (freeSizes bs).sum := by
  conv_rhs => rw [freeSizes, ← spots_map t.blockHeader a bs, List.filter_map, List.map_map]
  rfl

/-- The counter is exact with one free block, and with no other number of them. -/
theorem freeReported_iff (ho : Outstanding t h G) : FreeReported t h ↔ OneFree t h := by
  obtain ⟨T, hr, hG⟩ := ho.tiling
  have hmod := t.sizeMod_ge
  have hhdr := t.header_le
  have hhdr' := t.header_ge
  have hheap : HEAP_SIZE = 65536 := rfl
  -- the heap is the blocks held, the free payloads and a header for each of these
  have hsum := held_add_spare t.blockHeader T.blocks
  have hspare : spare t.blockHeader T.blocks =
      (freeSizes T.blocks).sum + frees T.blocks * t.blockHeader := spare_eq T.blocks
  rw [T.total, hspare] at hsum
  have hu := ho.used
  rw [charge_eq T hG] at hu
  have hf := ho.free
  rw [oneFree_iff hr]
  constructor
  · intro hrep
    obtain ⟨bs, e, hrep⟩ := hrep
    obtain ⟨r, e', hfree, -⟩ := hrep h.globalStats
    rw [hr.blocks] at e
    rw [getStats_represents hr] at e'
    cases e
    cases e'
    rw [free_spots] at hfree
    dsimp only at hfree
    rw [hfree, hu] at hf
    by_contra hne
    by_cases h0 : frees T.blocks = 0
    · have hs0 : (freeSizes T.blocks).sum = 0 := by
        rw [freeSizes, List.length_eq_zero_iff.1 h0]; rfl
      rw [h0, Nat.zero_mul] at hsum
      rw [Target.sub_of_lt (by omega) (by omega)] at hf
      omega
    · obtain ⟨k, hk⟩ : ∃ k, frees T.blocks = k + 2 := ⟨frees T.blocks - 2, by omega⟩
      rw [hk, Nat.add_mul] at hsum
      rw [Target.sub_of_le (by omega) (by omega)] at hf
      omega
  · intro hone
    rw [hone, Nat.one_mul] at hsum
    rw [hu, Target.sub_of_le (by omega) (by omega)] at hf
    have hmax := foldl_max_le (freeSizes T.blocks) 0
    refine ⟨_, hr.blocks, fun stats => ⟨_, getStats_represents hr stats, ?_, ?_, ?_, ?_⟩⟩
    · rw [free_spots]; dsimp only; omega
    · dsimp only; omega
    · dsimp only; rw [ho.total]; omega
    · dsimp only; rw [ho.total]; omega

/-! ## One call -/

theorem malloc_oneFree (hr : Represents t h T) (h1 : frees T.blocks = 1)
    (e : rtosMalloc t h n = some (h', p)) :
    OneFree t h' ↔ (n ≠ 0 → ∀ bs, heapBlocks t h = some bs → ∀ b ∈ bs, b.2.free = true →
      b.2.size < alignSize t n ∨ alignSize t n + t.blockHeader + 32 ≤ b.2.size) := by
  rw [hr.blocks]
  have hmem : ∀ b ∈ spots t.blockHeader t.heapMemory T.blocks, b.2 ∈ T.blocks := by
    intro b hb
    have := List.mem_map_of_mem (f := fun y : Nat × Blk => y.2) hb
    rwa [spots_map] at this
  rcases malloc_represents hr n with ⟨e', hno⟩ | ⟨pre, post, b, he, hb, h'', e', hr', -⟩
  · rw [e'] at e
    cases e
    refine iff_of_true ((oneFree_iff hr).2 h1) fun hn bs hbs b hb hf => .inl ?_
    cases hbs
    exact hno.resolve_left hn b.2 (hmem b hb) hf
  · have hplaced := t.placed
    have hn := malloc_ne_zero e' (by omega)
    rw [e'] at e
    cases e
    have hb' : b ∈ T.blocks := by rw [he]; simp
    have hcount := h1
    rw [he, frees_append, frees_cons, hb.free, Bool.toNat_true] at hcount
    have hfits := hb.fits
    have hgrant : frees (T.grant he hb.free t.dvd_header (dvd_alignSize t n)).blocks = 1 ↔
        alignSize t n + t.blockHeader + 32 ≤ b.size := by
      show frees (pre ++ split t.blockHeader 32 b (alignSize t n) ++ post) = 1 ↔ _
      rw [frees_append, frees_append, frees_split]
      split <;> omega
    rw [oneFree_iff hr', hgrant]
    constructor
    · intro h2 _ bs hbs c hc hf
      cases hbs
      right
      rwa [free_unique h1 (hmem c hc) hb' hf hb.free]
    · intro h2
      have hspot : (t.heapMemory + span t.blockHeader pre, b) ∈ spots t.blockHeader t.heapMemory T.blocks := by
        rw [he, spots_append]
        exact List.mem_append_right _ List.mem_cons_self
      rcases h2 hn _ rfl _ hspot hb.free with h3 | h3
      · dsimp only at h3; omega
      · exact h3

/-- A block freed leaves one free block if it has one on one side. -/
theorem release_oneFree (hr : Represents t h T) (he : T.blocks = pre ++ b :: post) (hb : b.free = false)
    (h1 : frees T.blocks = 1)
    (e : rtosFree t h (t.heapMemory + span t.blockHeader pre + t.blockHeader) = some h') :
    OneFree t h' ↔ lastFree pre ≠ headFree post := by
  obtain ⟨h'', e', hr', -⟩ := free_represents hr he hb
  rw [e'] at e
  cases e
  have hco := List.isChain_append.1 (he ▸ T.coalesced)
  have hcount := frees_coalesce t.blockHeader b.size hco.1 (List.isChain_cons.1 hco.2.1).2
  rw [he, frees_append, frees_cons, hb, Bool.toNat_false] at h1
  rw [oneFree_iff hr']
  show frees (coalesce t.blockHeader (pre ++ ⟨b.size, true⟩ :: post)) = 1 ↔ _
  generalize lastFree pre = l at hcount ⊢
  generalize headFree post = r at hcount ⊢
  cases l <;> cases r <;> simp at hcount ⊢ <;> omega

theorem free_oneFree (ho : Outstanding t h G) (h1 : OneFree t h) (hp : (∃ g, (p, g) ∈ G) ∨ TurnedDown t h p)
    (e : rtosFree t h p = some h') :
    OneFree t h' ↔ ∀ pre b post, heapBlocks t h = some (pre ++ b :: post) → b.1 + t.blockHeader = p →
      b.2.free = false → lastFree (pre.map (·.2)) ≠ headFree (post.map (·.2)) := by
  obtain ⟨T, hr, hG⟩ := ho.tiling
  have h1' := (oneFree_iff hr).1 h1
  rw [hr.blocks]
  constructor
  · intro h2 ps y qs hps hy hf
    obtain ⟨he, hy1⟩ := spots_eq_append (Option.some.inj hps)
    rw [hy1] at hy
    subst hy
    exact (release_oneFree hr he hf h1' e).1 h2
  · intro hc
    rcases hp with ⟨g, hg⟩ | hp
    · obtain ⟨pre, b, post, he, hf, -, rfl, -⟩ := grant_spot hr (hG ▸ hg : (p, g) ∈ (_ : Multiset _))
      apply (release_oneFree hr he hf h1' e).2
      have := hc (spots t.blockHeader t.heapMemory pre) (t.heapMemory + span t.blockHeader pre, b)
        (spots t.blockHeader (t.heapMemory + span t.blockHeader pre + t.blockHeader + b.size) post)
        (by rw [he, spots_append]; rfl) rfl hf
      rwa [spots_map, spots_map] at this
    · rw [free_turnedDown hp] at e
      cases e
      exact h1

/-- From a state with one free block a call leads to one again exactly on the
condition. -/
theorem call_oneFree (hi : Accounted t s) (h1 : OneFree t s.heap) (hs : (callSys t).step s c s') :
    OneFree t s'.heap ↔ OneFreeCall t s c := by
  obtain ⟨hne, hl, hs⟩ := hs
  obtain ⟨G, ho, hG⟩ := hi.grants
  obtain ⟨T, hr, -⟩ := ho.tiling
  cases c with
  | malloc n =>
    obtain ⟨r, e, rfl⟩ := Option.map_eq_some_iff.1 hs
    exact malloc_oneFree hr ((oneFree_iff hr).1 h1) e
  | free p =>
    obtain ⟨h', e, rfl⟩ := Option.map_eq_some_iff.1 hs
    exact free_oneFree ho h1 (hl.imp_left fun hp => grant_of_live hG hp) e
  | realloc p n => exact absurd rfl (hne p n)
  | store x v =>
    refine iff_of_true ?_ trivial
    obtain ⟨p, hp, h1', h2⟩ := hl
    obtain ⟨g, H, ho', -⟩ := hi.grant hp
    have hg := Multiset.mem_cons_self (p, g) H
    rw [(ho'.header hg).1] at h2
    obtain ⟨ho'', -⟩ := write_outstanding ho' (Function.update s.heap.mem x v)
      fun y hy => Function.update_of_ne (by omega) _ _
    cases hs
    obtain ⟨bs, hbs, hf⟩ := h1
    exact ⟨bs, (outstanding_unique ho'' ho').1.trans hbs, hf⟩

/-- **When the reported free memory is the real one**: in the states with
exactly one free block, and all along a run exactly if every call meets
`OneFreeCall`. -/
theorem reported_free_iff (t : Target) :
    (∀ s, (allocSys t).Reachable s → (FreeReported t s.heap ↔ OneFree t s.heap)) ∧
    ∀ calls, (callSys t).Always (fun s => FreeReported t s.heap) (HeapSys.boot t) calls ↔
      (callSys t).Steps (OneFreeCall t) (HeapSys.boot t) calls := by
  have hone : ∀ {s}, Accounted t s → (FreeReported t s.heap ↔ OneFree t s.heap) := by
    intro s hi
    obtain ⟨G, ho, -⟩ := hi.grants
    exact freeReported_iff ho
  have hkeep : ∀ {s c s'}, Accounted t s → (callSys t).step s c s' → Accounted t s' :=
    fun hi hs => (accounted_inductive t).step _ _ _ hi hs.2
  refine ⟨fun s h => hone ((accounted_inductive t).reachable s h), fun calls => ?_⟩
  refine LTS.always_iff_steps (I := fun s => Accounted t s ∧ OneFree t s.heap) (fun s h => (hone h.1).2 h.2)
    (fun s c s' h hc hs => ⟨hkeep h.1 hs, (call_oneFree h.1 h.2 hs).2 hc⟩)
    (fun s c s' h hc hs hf => hc ((call_oneFree h.1 h.2 hs).1 ((hone (hkeep h.1 hs)).1 hf)))
    calls _ ⟨boot_accounted, (oneFree_iff (init_represents rfl)).2 rfl⟩

/-- A heap allocated to the last byte reports 2^32 - 16 free bytes. -/
theorem full_heap_reported : ∃ s, (allocSys board).Reachable s ∧ s.live = [0x20000010] ∧
    s.heap.globalStats.freeHeapSize = 2 ^ 32 - 16 ∧ ¬ FreeReported board s.heap := by
  obtain ⟨s, -, h, hl, hf, ht⟩ := LTS.reachable_of_exec (M := allocSys board) LTS.step_of_guarded rfl
    (fun s => s.live = [0x20000010] ∧ s.heap.globalStats.freeHeapSize = 2 ^ 32 - 16 ∧
      s.heap.globalStats.totalHeapSize = 65536)
    [.malloc 65520] (by decide +kernel)
  refine ⟨s, h, hl, hf, fun hr => ?_⟩
  obtain ⟨bs, hbs, hr⟩ := hr
  obtain ⟨G, ho, -⟩ := ((accounted_inductive board).reachable s h).grants
  obtain ⟨T, hT, -⟩ := ho.tiling
  obtain ⟨r, e, -, -, hle, -⟩ := hr s.heap.globalStats
  rw [getStats_represents hT] at e
  cases e
  rw [hf, ht] at hle
  exact absurd hle (by decide)

end Rtos.Heap
