import Rtos.Heap.Walk

/-!
# The heap refines a tiling

A `Tiling` is a block list that fills the heap, with sizes divisible by 4 and
no two free neighbours. `Represents`: the memory holds such a list from
`heap_memory` on. `memory_init` starts with one free block, `rtos_malloc` does
what `grant` does to the list (`malloc_represents`) and `rtos_free` what
`release` does (`free_represents`), both returning and changing headers only.
-/
namespace Rtos.Heap

open Rtos.Core Rtos.Core.Blocks

/-- A coalesced block list that fills the heap. -/
structure Tiling (hdr : Nat) where
  blocks : List Blk
  total : span hdr blocks = HEAP_SIZE
  aligned : ∀ b ∈ blocks, 4 ∣ b.size
  coalesced : Coalesced blocks

namespace Tiling

variable {hdr n : Nat} {pre post : List Blk} {b : Blk}

/-- One free block. -/
def fresh (h4 : 4 ∣ hdr) (hle : hdr ≤ HEAP_SIZE) : Tiling hdr where
  blocks := [⟨HEAP_SIZE - hdr, true⟩]
  total := by simp only [span_cons, span_nil]; omega
  aligned := by
    intro b hb
    rw [List.mem_singleton.1 hb]
    exact Nat.dvd_sub (by decide) h4
  coalesced := .singleton _

/-- The free block `b` split and granted for `n` bytes. -/
def grant (T : Tiling hdr) (he : T.blocks = pre ++ b :: post) (hb : b.free = true) (hd : 4 ∣ hdr)
    (h4 : 4 ∣ n) : Tiling hdr where
  blocks := pre ++ split hdr 32 b n ++ post
  total := by
    have := T.total
    rw [he] at this
    simpa only [span_append, span_cons, span_split, Nat.add_assoc] using this
  aligned := by
    have ha := T.aligned
    rw [he] at ha
    have hb4 := ha b (by simp)
    intro c hc
    rcases List.mem_append.1 hc with hc | hc
    · rcases List.mem_append.1 hc with hc | hc
      · exact ha c (by simp [hc])
      · unfold split at hc
        split at hc
        · rcases List.mem_cons.1 hc with rfl | hc
          · exact h4
          · rw [List.mem_singleton.1 hc]
            exact Nat.dvd_sub (Nat.dvd_sub hb4 h4) hd
        · rw [List.mem_singleton.1 hc]; exact hb4
    · exact ha c (by simp [hc])
  coalesced := coalesced_split 32 n (he ▸ T.coalesced) hb

/-- The allocated block `b` freed, and free neighbours merged. -/
def release (T : Tiling hdr) (he : T.blocks = pre ++ b :: post) (hd : 4 ∣ hdr) : Tiling hdr where
  blocks := coalesce hdr (pre ++ ⟨b.size, true⟩ :: post)
  total := by
    have := T.total
    rw [he] at this
    rw [span_coalesce]
    simpa only [span_append, span_cons] using this
  aligned := by
    have ha := T.aligned
    rw [he] at ha
    refine dvd_coalesce hd _ fun c hc => ?_
    rcases List.mem_append.1 hc with hc | hc
    · exact ha c (by simp [hc])
    · rcases List.mem_cons.1 hc with rfl | hc
      · exact ha b (by simp)
      · exact ha c (by simp [hc])
  coalesced := coalesced_coalesce _

end Tiling

/-- The memory holds the tiling's blocks from `heap_memory` on. -/
structure Represents (t : Target) (h : HeapState) (T : Tiling t.blockHeader) : Prop where
  init : h.memoryInitialized = true
  head : h.heapHead = t.heapMemory
  tiled : Tiled t h.mem 0 t.heapMemory T.blocks

variable {t : Target} {h : HeapState} {T : Tiling t.blockHeader} {pre post : List Blk} {b : Blk} {n : Nat}

/-- A block with its header fits the heap. -/
theorem Tiling.bounds (T : Tiling t.blockHeader) (he : T.blocks = pre ++ b :: post) :
    span t.blockHeader pre + (t.blockHeader + b.size) + span t.blockHeader post = HEAP_SIZE := by
  have := T.total
  rw [he, span_append, span_cons] at this
  omega

theorem Tiling.blocks_ne_nil (T : Tiling t.blockHeader) : T.blocks ≠ [] := by
  intro h
  have := T.total
  rw [h] at this
  cases this

theorem Target.header_le_heap (t : Target) : t.blockHeader ≤ HEAP_SIZE :=
  t.header_le.trans (by decide)

/-- `memory_init` makes one free block of the heap. -/
theorem init_represents (h0 : h.memoryInitialized = false) :
    Represents t (memoryInit t h) (.fresh t.dvd_header t.header_le_heap) := by
  have hlt := t.heap_lt
  rw [memoryInit, if_neg (by rw [h0]; decide)]
  exact ⟨rfl, rfl, holds_fresh h.mem t.heapMemory (by omega) (by omega), trivial⟩

/-- The search is a function of the blocks. -/
theorem findBestFit_pick (hr : Represents t h T) (size : Nat) :
    findBestFit t h size = some (pick t.blockHeader size t.heapMemory T.blocks (t.sizeMod - 1, 0)).2 := by
  have hlen := T.total ▸ length_le_span (t := t) T.blocks
  obtain ⟨c, cs, hcs⟩ := List.exists_cons_of_ne_nil T.blocks_ne_nil
  have hhead : h.heapHead = link t.heapMemory 0 T.blocks := by rw [hr.head, hcs]; rfl
  rw [findBestFit, hhead]
  exact findBestFitLoop_tiled size (t.sizeMod - 1, 0) hr.tiled hlen t.placed (by rw [T.total]; exact t.heap_lt)

/-- It finds the first best fit, or 0 if nothing fits. -/
theorem findBestFit_represents (hr : Represents t h T) (size : Nat) :
    (findBestFit t h size = some 0 ∧ ∀ c ∈ T.blocks, c.free = true → c.size < size) ∨
    ∃ pre b post, T.blocks = pre ++ b :: post ∧ BestFit size pre b post ∧
      findBestFit t h size = some (t.heapMemory + span t.blockHeader pre) := by
  have hlt := t.heap_lt
  have hplaced := t.placed
  have hf := findBestFit_pick hr size
  rcases pick_spec t.blockHeader t.heapMemory size T.blocks (t.sizeMod - 1, 0) with ⟨e, hmin⟩ | ⟨pre, b, post, he, hb, -, e⟩
  · left
    refine ⟨by rw [hf, e], fun c hc h1 => ?_⟩
    by_contra hge
    have := hmin c hc h1 (by omega)
    obtain ⟨l, r, hlr⟩ := List.append_of_mem hc
    have := T.bounds hlr
    dsimp only at *
    omega
  · exact .inr ⟨pre, b, post, he, hb, by rw [hf, e]⟩

/-- Changes to the headers of a part of the row are changes to headers. -/
theorem Untouched.within {m m' : Mem} {a : Nat} {l bs r : List Blk}
    (h : Untouched t m m' (a + span t.blockHeader l) bs) : Untouched t m m' a (l ++ bs ++ r) := by
  refine fun x hx => h x fun y hy => hx y ?_
  rw [List.append_assoc, spots_append, spots_append]
  exact List.mem_append_right _ (List.mem_append_left _ hy)

/-- A block of the row replaced by blocks of the same span. -/
theorem Tiled.replace {m m' : Mem} {a e : Nat} {mid : List Blk} (ht : Tiled t m e a (pre ++ b :: post))
    (hspan : span t.blockHeader mid = t.blockHeader + b.size) (hne : mid ≠ [])
    (hm : Tiled t m' (link (a + span t.blockHeader pre + t.blockHeader + b.size) e post)
      (a + span t.blockHeader pre) mid)
    (hu : Untouched t m m' (a + span t.blockHeader pre) mid) : Tiled t m' e a (pre ++ mid ++ post) := by
  obtain ⟨hpre, -, hpost⟩ := tiled_append.1 ht
  obtain ⟨c, cs, rfl⟩ := List.exists_cons_of_ne_nil hne
  have hend : a + span t.blockHeader (pre ++ c :: cs) = a + span t.blockHeader pre + t.blockHeader + b.size := by
    rw [span_append, hspan]; omega
  refine tiled_append.2 ⟨tiled_append.2 ⟨?_, ?_⟩, ?_⟩
  · exact hpre.apart hu (.inl (Nat.le_refl _))
  · rw [hend]; exact hm
  · rw [hend]; exact hpost.apart hu (.inr (by rw [hspan]; omega))

/-- `rtos_malloc` fails without effect when nothing fits, else grants the
first best fit. -/
theorem malloc_represents (hr : Represents t h T) (n : Nat) :
    (rtosMalloc t h n = some (h, 0) ∧ (n = 0 ∨ ∀ c ∈ T.blocks, c.free = true → c.size < alignSize t n)) ∨
    ∃ (pre post : List Blk) (b : Blk) (he : T.blocks = pre ++ b :: post)
      (hb : BestFit (alignSize t n) pre b post) (h' : HeapState),
      rtosMalloc t h n = some (h', t.heapMemory + span t.blockHeader pre + t.blockHeader) ∧
      Represents t h' (T.grant he hb.free t.dvd_header (dvd_alignSize t n)) ∧
      Untouched t h.mem h'.mem t.heapMemory (pre ++ split t.blockHeader 32 b (alignSize t n) ++ post) := by
  by_cases hn : n = 0
  · left
    exact ⟨by rw [rtosMalloc, if_pos (.inr hn)], .inl hn⟩
  have hcond : ¬ ((!h.memoryInitialized) = true ∨ n = 0) := by simp [hr.init, hn]
  unfold rtosMalloc
  rw [if_neg hcond]
  dsimp only
  rcases findBestFit_represents hr (alignSize t n) with ⟨e, hno⟩ | ⟨pre, b, post, he, hb, e⟩
  · exact .inl ⟨by rw [e]; rfl, .inr hno⟩
  · right
    have hplaced := t.placed
    have hlt := t.heap_lt
    have hbounds := T.bounds he
    have ht := hr.tiled
    rw [he] at ht
    have hblk := (tiled_append.1 ht).2.1
    have hq : link (t.heapMemory + span t.blockHeader pre + t.blockHeader + b.size) 0 post < t.sizeMod := by
      cases post <;> simp only [link] <;> omega
    obtain ⟨hmid, hu⟩ := splitBlock_tiled hblk hb.fits hq (by omega) (by omega)
    rw [e, Option.map_some, if_neg (by omega)]
    exact ⟨pre, post, b, he, hb, _, rfl,
      ⟨hr.init, hr.head, ht.replace (span_split 32 b _) (split_ne_nil 32 b _) hmid hu⟩, hu.within⟩

/-- The merge leaves the row coalesced. -/
theorem mergeFreeBlocks_tiled {bs : List Blk} (hh : h.heapHead = t.heapMemory)
    (ht : Tiled t h.mem 0 t.heapMemory bs) (hspan : span t.blockHeader bs = HEAP_SIZE) :
    ∃ m', mergeFreeBlocks t h = some { h with mem := m' } ∧
      Tiled t m' 0 t.heapMemory (coalesce t.blockHeader bs) ∧ Untouched t h.mem m' t.heapMemory bs := by
  have hlt := t.heap_lt
  have hlen := length_le_span (t := t) bs
  cases bs with
  | nil => cases hspan
  | cons c cs =>
    rw [List.length_cons] at hlen
    obtain ⟨m', e, ht', hu⟩ := mergeLoop_tiled ht (n := HEAP_SIZE) (by omega) t.placed (by omega)
    exact ⟨m', by rw [mergeFreeBlocks, hh, e, Option.map_some], ht', hu⟩

/-- `rtos_free` of an allocated block marks it as free and walks the list. -/
theorem free_walk (hr : Represents t h T) (he : T.blocks = pre ++ b :: post) (hb : b.free = false) :
    ∃ stats, rtosFree t h (t.heapMemory + span t.blockHeader pre + t.blockHeader) =
        mergeFreeBlocks t { h with
          mem := setIsFree t h.mem (t.heapMemory + span t.blockHeader pre) true
          globalStats := stats } ∧
      Tiled t (setIsFree t h.mem (t.heapMemory + span t.blockHeader pre) true) 0 t.heapMemory
        (pre ++ ⟨b.size, true⟩ :: post) ∧
      Untouched t h.mem (setIsFree t h.mem (t.heapMemory + span t.blockHeader pre) true) t.heapMemory
        (pre ++ ⟨b.size, true⟩ :: post) := by
  have hplaced := t.placed
  have ht := hr.tiled
  rw [he] at ht
  have hblk := (tiled_append.1 ht).2.1
  have hfree : blockIsFree t h.mem (t.heapMemory + span t.blockHeader pre) = false := by rw [hblk.free, hb]
  have hu1 : Untouched t h.mem (setIsFree t h.mem (t.heapMemory + span t.blockHeader pre) true)
      (t.heapMemory + span t.blockHeader pre) [⟨b.size, true⟩] :=
    fun x hx => setIsFree_outside (hx _ List.mem_cons_self)
  have ht1 : Tiled t _ 0 t.heapMemory (pre ++ [⟨b.size, true⟩] ++ post) :=
    ht.replace (by simp) (by simp) ⟨hblk.setIsFree true, trivial⟩ hu1
  have hu1' := hu1.within (r := post)
  rw [List.append_assoc, List.singleton_append] at ht1 hu1'
  unfold rtosFree
  rw [if_neg (by rw [hr.init]; simp; omega), Nat.add_sub_cancel]
  dsimp only
  rw [if_neg (not_not.2 hblk.magic), if_neg (by rw [hfree]; decide)]
  exact ⟨_, rfl, ht1, hu1'⟩

/-- The row of a heap whose allocated block was marked as free fills the heap. -/
theorem span_marked (T : Tiling t.blockHeader) (he : T.blocks = pre ++ b :: post) :
    span t.blockHeader (pre ++ ⟨b.size, true⟩ :: post) = HEAP_SIZE := by
  have hbounds := T.bounds he
  simp only [span_append, span_cons]
  omega

/-- `rtos_free` of an allocated block frees it and merges. -/
theorem free_represents (hr : Represents t h T) (he : T.blocks = pre ++ b :: post) (hb : b.free = false) :
    ∃ h', rtosFree t h (t.heapMemory + span t.blockHeader pre + t.blockHeader) = some h' ∧
      Represents t h' (T.release he t.dvd_header) ∧ Untouched t h.mem h'.mem t.heapMemory T.blocks := by
  obtain ⟨stats, ew, ht1, hu1⟩ := free_walk hr he hb
  -- the walk over the whole list
  obtain ⟨m', e, ht2, hu2⟩ := mergeFreeBlocks_tiled (h := { h with
      mem := setIsFree t h.mem (t.heapMemory + span t.blockHeader pre) true
      globalStats := stats }) hr.head ht1 (span_marked T he)
  refine ⟨_, ew.trans e, ⟨hr.init, hr.head, ht2⟩, fun x hx => ?_⟩
  have hx' : ∀ y ∈ spots t.blockHeader t.heapMemory (pre ++ ⟨b.size, true⟩ :: post),
      x < y.1 ∨ y.1 + t.blockHeader ≤ x := by
    intro y hy
    obtain ⟨z, hz, e⟩ := spots_flag hy b.free
    exact e ▸ hx z (he ▸ hz)
  exact (hu2 x hx').trans (hu1 x hx')

/-- `memory_get_stats` reports the counters, and the largest free block as it
finds it. -/
theorem getStats_represents (hr : Represents t h T) (stats : MemoryStats) :
    memoryGetStats t h (some stats) = some (some { h.globalStats with
      largestFreeBlock := (freeSizes T.blocks).foldl max 0
      fragmentationPercent :=
        fragmentationPercent ((freeSizes T.blocks).foldl max 0) (freeSizes T.blocks).sum }) := by
  have hlt := t.heap_lt
  obtain ⟨c, cs, hcs⟩ := List.exists_cons_of_ne_nil T.blocks_ne_nil
  have hhead : h.heapHead = link t.heapMemory 0 T.blocks := by rw [hr.head, hcs]; rfl
  have hloop : fragmentationLoop t h.mem HEAP_SIZE h.heapHead 0 0 =
      some ((freeSizes T.blocks).foldl max 0, 0 + (freeSizes T.blocks).sum) := by
    rw [hhead]
    exact fragmentationLoop_tiled hr.tiled (T.total ▸ length_le_span T.blocks) t.placed
      (by rw [T.total]; omega)
  rw [memoryGetStats, if_neg (by simp [hr.init]), calculateFragmentation, hloop, Nat.zero_add]
  rfl

end Rtos.Heap
