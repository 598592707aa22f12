import Mathlib.Algebra.BigOperators.Group.Multiset.Basic
import Rtos.Heap.Tiling

/-!
# The heap as its outstanding grants

What a client of the heap sees: `Outstanding t h G`, the heap `h` has granted
the payloads `G`, each with its address and size, and not taken them back.
`rtos_malloc` adds one payload or fails without effect (`malloc_outstanding`),
`rtos_free` of one takes it away (`free_outstanding`), and a write inside one
changes nothing else (`write_outstanding`). The grants determine the block
list and the two byte counters (`outstanding_unique`).
-/
namespace Rtos.Heap

open Rtos.Core Rtos.Core.Blocks

/-- The memory holds a tiling with these grants, and the byte counters agree. -/
structure Outstanding (t : Target) (h : HeapState) (G : Multiset (Nat × Nat)) : Prop where
  tiling : ∃ T : Tiling t.blockHeader, Represents t h T ∧
    (grants t.blockHeader t.heapMemory T.blocks : Multiset (Nat × Nat)) = G
  total : h.globalStats.totalHeapSize = HEAP_SIZE
  used : h.globalStats.usedHeapSize = t.blockHeader + (G.map (·.2 + t.blockHeader)).sum
  free : h.globalStats.freeHeapSize = t.sub HEAP_SIZE h.globalStats.usedHeapSize

/-- The bytes of these payloads are the same. -/
def Kept (G : Multiset (Nat × Nat)) (m m' : Mem) : Prop :=
  ∀ q ∈ G, ∀ x, q.1 ≤ x → x < q.1 + q.2 → m' x = m x

variable {t : Target} {h h' : HeapState} {G : Multiset (Nat × Nat)} {T : Tiling t.blockHeader}
  {m m' m'' : Mem} {p q g k n : Nat}

theorem Kept.refl (G : Multiset (Nat × Nat)) (m : Mem) : Kept G m m := fun _ _ _ _ _ => rfl

theorem Kept.trans (h : Kept G m m') (h' : Kept G m' m'') : Kept G m m'' :=
  fun q hq x h1 h2 => (h' q hq x h1 h2).trans (h q hq x h1 h2)

theorem Kept.mono {H : Multiset (Nat × Nat)} (h : Kept G m m') (hs : H ⊆ G) : Kept H m m' :=
  fun q hq => h q (hs hq)

/-! ## Arithmetic of the counters -/

theorem Target.sub_of_lt (h : p < q) (hq : q ≤ t.sizeMod) : t.sub p q = p + t.sizeMod - q :=
  Nat.mod_eq_of_lt (by omega)

theorem Target.sub_sub (hp : p < t.sizeMod) (h : q + k ≤ t.sizeMod) :
    t.sub (t.sub p q) k = t.sub p (q + k) := by
  by_cases h1 : q ≤ p
  · rw [Target.sub_of_le h1 hp]
    by_cases h2 : q + k ≤ p
    · rw [Target.sub_of_le (by omega) (by omega), Target.sub_of_le h2 hp]; omega
    · rw [Target.sub_of_lt (by omega) (by omega), Target.sub_of_lt (by omega) h]; omega
  · rw [Target.sub_of_lt (p := p) (q := q) (by omega) (by omega), Target.sub_of_le (by omega) (by omega),
      Target.sub_of_lt (by omega) h]
    omega

theorem Target.sub_add (hp : p < t.sizeMod) (h : q + k ≤ t.sizeMod) :
    t.add (t.sub p (q + k)) k = t.sub p q := by
  by_cases h1 : q + k ≤ p
  · rw [Target.sub_of_le h1 hp, Target.add_of_lt (by omega), Target.sub_of_le (by omega) hp]; omega
  · rw [Target.sub_of_lt (by omega) h]
    by_cases h2 : q ≤ p
    · rw [Target.sub_of_le h2 hp, Target.add, show p + t.sizeMod - (q + k) + k = p - q + t.sizeMod by omega,
        Nat.add_mod_right, Nat.mod_eq_of_lt (by omega)]
    · rw [Target.sub_of_lt (by omega) (by omega), Target.add_of_lt (by omega)]; omega

/-! ## What the two calls did -/

/-- An allocation that did not fail. -/
theorem malloc_some (e : rtosMalloc t h n = some (h', p)) (hp : p ≠ 0) :
    n ≠ 0 ∧ findBestFit t h (alignSize t n) = some (p - t.blockHeader) ∧
    h'.mem = setIsFree t (splitBlock t h.mem (p - t.blockHeader) (alignSize t n)) (p - t.blockHeader) false ∧
    h'.globalStats = { h.globalStats with
      numAllocations := (h.globalStats.numAllocations + 1) % 2 ^ 32
      usedHeapSize := t.add h.globalStats.usedHeapSize
        (t.add (blockSize t h'.mem (p - t.blockHeader)) t.blockHeader)
      freeHeapSize := t.sub h.globalStats.freeHeapSize
        (t.add (blockSize t h'.mem (p - t.blockHeader)) t.blockHeader) } := by
  unfold rtosMalloc at e
  split at e
  · cases e; exact absurd rfl hp
  · rename_i hcond
    obtain ⟨b, hb, e⟩ := Option.map_eq_some_iff.1 e
    split at e
    · cases e; exact absurd rfl hp
    · cases e
      rw [Nat.add_sub_cancel]
      exact ⟨fun hn => hcond (.inr hn), hb, rfl, rfl⟩

/-- Nothing is granted for 0 bytes. -/
theorem malloc_ne_zero (e : rtosMalloc t h n = some (h', p)) (hp : p ≠ 0) : n ≠ 0 := (malloc_some e hp).1

theorem free_stats (e : rtosFree t h p = some h') (hi : h.memoryInitialized = true) (hp : p ≠ 0)
    (hm : blockMagic t h.mem (p - t.blockHeader) = MEMORY_MAGIC)
    (hf : blockIsFree t h.mem (p - t.blockHeader) = false) :
    h'.globalStats = { h.globalStats with
      numFrees := (h.globalStats.numFrees + 1) % 2 ^ 32
      usedHeapSize := t.sub h.globalStats.usedHeapSize
        (t.add (blockSize t (setIsFree t h.mem (p - t.blockHeader) true) (p - t.blockHeader)) t.blockHeader)
      freeHeapSize := t.add h.globalStats.freeHeapSize
        (t.add (blockSize t (setIsFree t h.mem (p - t.blockHeader) true) (p - t.blockHeader))
          t.blockHeader) } := by
  unfold rtosFree at e
  rw [if_neg (by rw [hi]; simp [hp])] at e
  dsimp only at e
  rw [if_neg (not_not.2 hm), if_neg (by rw [hf]; decide), mergeFreeBlocks] at e
  obtain ⟨m, -, e⟩ := Option.map_eq_some_iff.1 e
  rw [← e]

/-! ## What the grants are -/

theorem Represents.blocks (hr : Represents t h T) :
    heapBlocks t h = some (spots t.blockHeader t.heapMemory T.blocks) := by
  obtain ⟨c, cs, hcs⟩ := List.exists_cons_of_ne_nil T.blocks_ne_nil
  have hhead : h.heapHead = link t.heapMemory 0 T.blocks := by rw [hr.head, hcs]; rfl
  rw [heapBlocks, hhead]
  exact blockList_tiled hr.tiled (T.total ▸ length_le_span T.blocks) t.placed

theorem charge_eq (T : Tiling t.blockHeader)
    (hG : (grants t.blockHeader t.heapMemory T.blocks : Multiset (Nat × Nat)) = G) :
    (G.map (·.2 + t.blockHeader)).sum = held t.blockHeader T.blocks := by
  rw [← hG, Multiset.map_coe, Multiset.sum_coe, held_grants]

/-- What is charged for the grants fits the heap. -/
theorem Outstanding.charge_le (ho : Outstanding t h G) : (G.map (·.2 + t.blockHeader)).sum ≤ HEAP_SIZE := by
  obtain ⟨T, -, hG⟩ := ho.tiling
  have := held_add_spare t.blockHeader T.blocks
  rw [T.total] at this
  rw [charge_eq T hG]
  omega

/-- A grant is a block of the tiling, with its header in place. -/
theorem grant_spot (hr : Represents t h T)
    (hg : (p, g) ∈ grants t.blockHeader t.heapMemory T.blocks) :
    ∃ pre b post, T.blocks = pre ++ b :: post ∧ b.free = false ∧ b.size = g ∧
      p = t.heapMemory + span t.blockHeader pre + t.blockHeader ∧
      (t.heapMemory + span t.blockHeader pre, b) ∈ spots t.blockHeader t.heapMemory T.blocks ∧
      ∃ q, Holds t h.mem (p - t.blockHeader) b q := by
  obtain ⟨y, hy, hf, rfl, rfl⟩ := mem_grants.1 hg
  obtain ⟨pre, post, he, hpre⟩ := spots_split hy
  obtain ⟨q, hq⟩ := hr.tiled.holds hy
  refine ⟨pre, y.2, post, he, hf, rfl, by rw [hpre], by rw [← hpre]; exact hy, q, ?_⟩
  rwa [Nat.add_sub_cancel]

/-- Two grants are the same or apart, with a header's room between them. -/
theorem Outstanding.apart (ho : Outstanding t h G) (hp : (p, g) ∈ G) (hq : (q, k) ∈ G) :
    (p, g) = (q, k) ∨ p + g + t.blockHeader ≤ q ∨ q + k + t.blockHeader ≤ p := by
  obtain ⟨T, -, rfl⟩ := ho.tiling
  obtain ⟨y, hy, -, rfl, rfl⟩ := mem_grants.1 (Multiset.mem_coe.1 hp)
  obtain ⟨z, hz, -, rfl, rfl⟩ := mem_grants.1 (Multiset.mem_coe.1 hq)
  rcases spots_eq_or_apart hy hz with h | h | h
  · exact .inl (by rw [h])
  · exact .inr (.inl (by omega))
  · exact .inr (.inr (by omega))

/-- Every grant lies inside `heap_memory`, behind a header. -/
theorem Outstanding.bounds (ho : Outstanding t h G) (hp : (p, g) ∈ G) :
    t.heapMemory + t.blockHeader ≤ p ∧ p + g ≤ t.heapMemory + HEAP_SIZE := by
  obtain ⟨T, -, rfl⟩ := ho.tiling
  obtain ⟨y, hy, -, rfl, rfl⟩ := mem_grants.1 (Multiset.mem_coe.1 hp)
  have := spots_bounds hy
  rw [T.total] at this
  omega

theorem Outstanding.ne_zero (ho : Outstanding t h G) (hp : (p, g) ∈ G) : p ≠ 0 := by
  have := ho.bounds hp
  have := t.placed
  omega

/-- The header in front of a grant. -/
theorem Outstanding.header (ho : Outstanding t h G) (hg : (p, g) ∈ G) :
    blockSize t h.mem (p - t.blockHeader) = g ∧ blockIsFree t h.mem (p - t.blockHeader) = false ∧
      blockMagic t h.mem (p - t.blockHeader) = MEMORY_MAGIC := by
  obtain ⟨T, hr, rfl⟩ := ho.tiling
  obtain ⟨-, b, -, -, hf, hs, -, -, q, hq⟩ := grant_spot hr (Multiset.mem_coe.1 hg)
  exact ⟨by rw [hq.size, hs], by rw [hq.free, hf], hq.magic⟩

theorem Outstanding.init (ho : Outstanding t h G) : h.memoryInitialized = true := by
  obtain ⟨T, hr, -⟩ := ho.tiling
  exact hr.init

/-- No address is granted twice. -/
theorem Outstanding.nodup (ho : Outstanding t h G) : (G.map Prod.fst).Nodup := by
  obtain ⟨T, -, rfl⟩ := ho.tiling
  have hh := t.header_ge
  rw [Multiset.map_coe, Multiset.coe_nodup, grants, List.map_map]
  exact payloads_nodup (by omega) t.heapMemory T.blocks

theorem Outstanding.head_apart (ho : Outstanding t h ((p, g) ::ₘ G)) (hq : (q, k) ∈ G) :
    p + g + t.blockHeader ≤ q ∨ q + k + t.blockHeader ≤ p := by
  have hn := ho.nodup
  rw [Multiset.map_cons, Multiset.nodup_cons] at hn
  rcases ho.apart (Multiset.mem_cons_self _ _) (Multiset.mem_cons_of_mem hq) with h | h
  · exact absurd (Multiset.mem_map.2 ⟨_, hq, (congrArg Prod.fst h).symm⟩) hn.1
  · exact h

/-- Writes to headers reach no payload. -/
theorem Untouched.kept {bs : List Blk} {a : Nat} (hu : Untouched t m m' a bs) :
    Kept (grants t.blockHeader a bs) m m' := by
  intro q hq x h1 h2
  obtain ⟨y, hy, -, e1, e2⟩ := mem_grants.1 (Multiset.mem_coe.1 hq : (q.1, q.2) ∈ _)
  refine hu x fun z hz => ?_
  rcases spots_eq_or_apart hy hz with rfl | h | h <;> omega

/-! ## The operations -/

/-- After `memory_init` nothing is granted. -/
theorem init_outstanding (h0 : h.memoryInitialized = false) : Outstanding t (memoryInit t h) 0 := by
  have hlt := t.heap_lt
  have hsize : blockSize t (memoryInit t h).mem t.heapMemory = HEAP_SIZE - t.blockHeader :=
    (init_represents (t := t) h0).tiled.1.size
  rw [memoryInit, if_neg (by rw [h0]; decide)] at hsize
  dsimp only at hsize
  refine ⟨⟨_, init_represents h0, rfl⟩, ?_, ?_, ?_⟩
  · rw [memoryInit, if_neg (by rw [h0]; decide)]
  · rw [memoryInit, if_neg (by rw [h0]; decide), Multiset.map_zero, Multiset.sum_zero]
    rfl
  · rw [memoryInit, if_neg (by rw [h0]; decide)]
    dsimp only
    rw [hsize, Target.sub_of_le t.header_le_heap (by omega)]

/-- `rtos_malloc` fails without effect or grants one more payload. -/
theorem malloc_outstanding (ho : Outstanding t h G) (n : Nat) :
    rtosMalloc t h n = some (h, 0) ∨
    ∃ h' p g, rtosMalloc t h n = some (h', p) ∧ p ≠ 0 ∧ alignSize t n ≤ g ∧
      Outstanding t h' ((p, g) ::ₘ G) ∧ Kept G h.mem h'.mem ∧
      h'.globalStats = { h.globalStats with
        numAllocations := (h.globalStats.numAllocations + 1) % 2 ^ 32
        usedHeapSize := h'.globalStats.usedHeapSize
        freeHeapSize := h'.globalStats.freeHeapSize } := by
  obtain ⟨T, hr, hG⟩ := ho.tiling
  rcases malloc_represents hr n with ⟨e, -⟩ | ⟨pre, post, b, he, hb, h', e, hr', hu⟩
  · exact .inl e
  right
  have hplaced := t.placed
  have hp : t.heapMemory + span t.blockHeader pre + t.blockHeader ≠ 0 := by omega
  -- the new grant
  have hG' : (grants t.blockHeader t.heapMemory (pre ++ split t.blockHeader 32 b (alignSize t n) ++ post) :
      Multiset (Nat × Nat)) = (t.heapMemory + span t.blockHeader pre + t.blockHeader,
        granted t.blockHeader 32 b (alignSize t n)) ::ₘ G := by
    rw [← hG, he, Multiset.cons_coe]
    exact Multiset.coe_eq_coe.2 (grants_split 32 _ hb.free)
  -- its header holds its size
  obtain ⟨-, b', -, -, -, hsz, -, -, q, hq⟩ := grant_spot hr' (p := t.heapMemory + span t.blockHeader pre +
    t.blockHeader) (g := granted t.blockHeader 32 b (alignSize t n)) (by
      rw [← Multiset.mem_coe]
      exact hG' ▸ Multiset.mem_cons_self _ _)
  obtain ⟨-, -, -, hstats⟩ := malloc_some e hp
  rw [hq.size, hsz] at hstats
  -- and fits the counters
  have ho' : (((t.heapMemory + span t.blockHeader pre + t.blockHeader,
      granted t.blockHeader 32 b (alignSize t n)) ::ₘ G).map (·.2 + t.blockHeader)).sum ≤ HEAP_SIZE := by
    rw [charge_eq (T.grant he hb.free t.dvd_header (dvd_alignSize t n)) hG',
      ← (T.grant he hb.free t.dvd_header (dvd_alignSize t n)).total, ← held_add_spare]
    exact Nat.le_add_right _ _
  rw [Multiset.map_cons, Multiset.sum_cons] at ho'
  have hmod := t.sizeMod_ge
  have hhdr := t.header_le
  have hheap : HEAP_SIZE = 65536 := rfl
  have hadd : t.add (granted t.blockHeader 32 b (alignSize t n)) t.blockHeader =
      granted t.blockHeader 32 b (alignSize t n) + t.blockHeader := Target.add_of_lt (by omega)
  rw [hadd] at hstats
  have hused' : h'.globalStats.usedHeapSize = h.globalStats.usedHeapSize +
      (granted t.blockHeader 32 b (alignSize t n) + t.blockHeader) := by
    rw [hstats, ho.used]
    exact Target.add_of_lt (by omega)
  refine ⟨h', _, granted t.blockHeader 32 b (alignSize t n), e, hp, granted_ge 32 hb.fits,
    ⟨⟨_, hr', hG'⟩, by rw [hstats]; exact ho.total, ?_, ?_⟩, ?_, by rw [hstats]⟩
  · rw [hused', ho.used, Multiset.map_cons, Multiset.sum_cons]
    omega
  · have hfree : h'.globalStats.freeHeapSize = t.sub h.globalStats.freeHeapSize
        (granted t.blockHeader 32 b (alignSize t n) + t.blockHeader) := by rw [hstats]
    have hu := ho.used
    rw [hfree, ho.free, hused', Target.sub_sub (by omega) (by omega)]
  · refine (hu.kept).mono fun q hq => ?_
    rw [hG']
    exact Multiset.mem_cons_of_mem hq

/-- `rtos_free` takes a grant back. -/
theorem free_outstanding (ho : Outstanding t h ((p, g) ::ₘ G)) :
    ∃ h', rtosFree t h p = some h' ∧ Outstanding t h' G ∧ Kept ((p, g) ::ₘ G) h.mem h'.mem ∧
      h'.globalStats = { h.globalStats with
        numFrees := (h.globalStats.numFrees + 1) % 2 ^ 32
        usedHeapSize := h'.globalStats.usedHeapSize
        freeHeapSize := h'.globalStats.freeHeapSize } := by
  obtain ⟨T, hr, hG⟩ := ho.tiling
  have hp := ho.ne_zero (Multiset.mem_cons_self _ _)
  obtain ⟨pre, b, post, he, hf, rfl, rfl, -, q, hq⟩ := grant_spot hr (p := p) (g := g) (by
    rw [← Multiset.mem_coe, hG]
    exact Multiset.mem_cons_self _ _)
  obtain ⟨h', e, hr', hu⟩ := free_represents hr he hf
  have hstats := free_stats e hr.init hp hq.magic (by rw [hq.free, hf])
  rw [(hq.setIsFree true).size] at hstats
  have hG' : (grants t.blockHeader t.heapMemory (T.release he t.dvd_header).blocks : Multiset (Nat × Nat)) = G := by
    have h1 : (grants t.blockHeader t.heapMemory T.blocks).Perm _ := he ▸ grants_release hf
    have h2 := Multiset.coe_eq_coe.2 h1
    rw [hG, ← Multiset.cons_coe] at h2
    exact ((Multiset.cons_inj_right _).1 h2).symm
  have hcharge := ho.charge_le
  have hused := ho.used
  rw [Multiset.map_cons, Multiset.sum_cons] at hcharge hused
  have hmod := t.sizeMod_ge
  have hhdr := t.header_le
  have hheap : HEAP_SIZE = 65536 := rfl
  have hadd : t.add b.size t.blockHeader = b.size + t.blockHeader := Target.add_of_lt (by omega)
  rw [hadd] at hstats
  have hused' : h'.globalStats.usedHeapSize = t.blockHeader + (G.map (·.2 + t.blockHeader)).sum := by
    rw [hstats]
    dsimp only
    rw [Target.sub_of_le (by omega) (by omega)]
    omega
  refine ⟨h', e, ⟨⟨_, hr', hG'⟩, by rw [hstats]; exact ho.total, hused', ?_⟩, ?_, by rw [hstats]⟩
  · have hfree : h'.globalStats.freeHeapSize =
        t.add h.globalStats.freeHeapSize (b.size + t.blockHeader) := by rw [hstats]
    have hsum : h.globalStats.usedHeapSize = h'.globalStats.usedHeapSize + (b.size + t.blockHeader) := by omega
    rw [hfree, ho.free, hsum, Target.sub_add (by omega) (by omega)]
  · rw [← hG]
    exact hu.kept

/-- Two grants taken back one after the other. -/
theorem free_free_outstanding (ho : Outstanding t h ((q, k) ::ₘ (p, g) ::ₘ G)) :
    ∃ h₁ h₂, rtosFree t h q = some h₁ ∧ rtosFree t h₁ p = some h₂ ∧ Outstanding t h₂ G ∧ Kept G h.mem h₂.mem := by
  obtain ⟨h₁, e₁, ho₁, hk₁, -⟩ := free_outstanding ho
  obtain ⟨h₂, e₂, ho₂, hk₂, -⟩ := free_outstanding ho₁
  refine ⟨h₁, h₂, e₁, e₂, ho₂, (hk₁.mono fun y hy => ?_).trans (hk₂.mono (Multiset.subset_cons _ _))⟩
  exact Multiset.mem_cons_of_mem (Multiset.mem_cons_of_mem hy)

/-- A write inside a grant changes no header and no other grant. -/
theorem write_outstanding (ho : Outstanding t h ((p, g) ::ₘ G)) (m' : Mem)
    (hm : ∀ x, (x < p ∨ p + g ≤ x) → m' x = h.mem x) :
    Outstanding t { h with mem := m' } ((p, g) ::ₘ G) ∧ Kept G h.mem m' := by
  have hg := Multiset.mem_cons_self (p, g) G
  refine ⟨⟨?_, ho.total, ho.used, ho.free⟩, fun q hq x h1 h2 => hm x ?_⟩
  · obtain ⟨T, hr, hG⟩ := ho.tiling
    obtain ⟨y, hy, -, rfl, rfl⟩ := mem_grants.1 (Multiset.mem_coe.1 (hG ▸ hg))
    refine ⟨T, ⟨hr.init, hr.head, hr.tiled.frame fun z hz x h1 h2 => hm x ?_⟩, hG⟩
    rcases spots_eq_or_apart hy hz with rfl | h | h <;> omega
  · rcases ho.head_apart (q := q.1) (k := q.2) hq with h | h <;> omega

/-- The same for writes inside several grants. -/
theorem writes_outstanding {gs : Multiset (Nat × Nat)} (ho : Outstanding t h (gs + G)) (m' : Mem)
    (hm : ∀ x, (∀ q ∈ gs, x < q.1 ∨ q.1 + q.2 ≤ x) → m' x = h.mem x) :
    Outstanding t { h with mem := m' } (gs + G) ∧ Kept G h.mem m' := by
  refine ⟨⟨?_, ho.total, ho.used, ho.free⟩, fun y hy x h1 h2 => hm x fun q hq => ?_⟩
  · obtain ⟨T, hr, hG⟩ := ho.tiling
    refine ⟨T, ⟨hr.init, hr.head, hr.tiled.frame fun z hz x h1 h2 => hm x fun q hq => ?_⟩, hG⟩
    obtain ⟨y, hy, -, e1, e2⟩ := mem_grants.1 (Multiset.mem_coe.1 (hG ▸ Multiset.mem_add.2 (.inl hq)))
    rcases spots_eq_or_apart hy hz with rfl | h | h <;> omega
  · have hne : q.1 ≠ y.1 := by
      have hn := ho.nodup
      rw [Multiset.map_add, Multiset.nodup_add] at hn
      exact fun e => Multiset.disjoint_left.1 hn.2.2 (Multiset.mem_map_of_mem _ hq)
        (e ▸ Multiset.mem_map_of_mem _ hy)
    rcases ho.apart (Multiset.mem_add.2 (.inl hq)) (Multiset.mem_add.2 (.inr hy)) with h | h | h
    · exact absurd (congrArg Prod.fst h) hne
    · omega
    · omega

theorem le_alignSize (hn : n + 3 < t.sizeMod) : n ≤ alignSize t n := by
  rw [alignSize, Target.add_of_lt hn]
  omega

/-- `rtos_realloc` to a size that fits returns the same pointer. Otherwise it
fails without effect, or grants a larger payload with the same bytes in front
and takes the old one back. -/
theorem realloc_outstanding (ho : Outstanding t h ((p, g) ::ₘ G)) (h0 : n ≠ 0) (hn : n + 3 < t.sizeMod) :
    (n ≤ g ∧ rtosRealloc t h p n = some (h, p)) ∨ (g < n ∧ rtosRealloc t h p n = some (h, 0)) ∨
    ∃ h' q k, g < n ∧ rtosRealloc t h p n = some (h', q) ∧ q ≠ 0 ∧ n ≤ k ∧
      Outstanding t h' ((q, k) ::ₘ G) ∧ h'.mem.bytes q g = h.mem.bytes p g ∧ Kept G h.mem h'.mem ∧
      h'.globalStats = { h.globalStats with
        numAllocations := (h.globalStats.numAllocations + 1) % 2 ^ 32
        numFrees := (h.globalStats.numFrees + 1) % 2 ^ 32
        usedHeapSize := h'.globalStats.usedHeapSize
        freeHeapSize := h'.globalStats.freeHeapSize } := by
  have hp := Multiset.mem_cons_self (p, g) G
  rw [rtosRealloc, if_neg (ho.ne_zero hp), if_neg h0]
  dsimp only
  rw [(ho.header hp).1]
  by_cases hle : n ≤ g
  · exact .inl ⟨hle, if_pos hle⟩
  right
  rw [if_neg hle]
  rcases malloc_outstanding ho n with e | ⟨h₁, q, k, e, hq, hk, ho₁, hkept₁, hs₁⟩
  · exact .inl ⟨by omega, by rw [e]; rfl⟩
  right
  have hnk : n ≤ k := (le_alignSize hn).trans hk
  have hpg : (p, g) ∈ (q, k) ::ₘ (p, g) ::ₘ G := Multiset.mem_cons_of_mem hp
  -- the copy stays inside the new payload
  obtain ⟨ho₂, hkept₂⟩ := write_outstanding ho₁ (h₁.mem.put q (fun i => h₁.mem (p + i)) g) fun x hx => Mem.put_outside (by omega)
  rw [Multiset.cons_swap] at ho₂
  obtain ⟨h₂, e₂, ho₃, hkept₃, hs₂⟩ := free_outstanding ho₂
  refine ⟨h₂, q, k, by omega, ?_, hq, hnk, ho₃, ?_, ?_, ?_⟩
  · rw [e, Option.bind_some]
    dsimp only
    rw [if_neg hq, (ho₁.header hpg).1, e₂]
    rfl
  · calc h₂.mem.bytes q g
        = (h₁.mem.put q (fun i => h₁.mem (p + i)) g).bytes q g :=
          Mem.bytes_congr fun x h1 h2 => hkept₃ (q, k) (Multiset.mem_cons_of_mem (Multiset.mem_cons_self _ _))
            x h1 (by dsimp only; omega)
      _ = h₁.mem.bytes p g := Mem.bytes_put_self _ _ _ _
      _ = h.mem.bytes p g := Mem.bytes_congr fun x h1 h2 => hkept₁ (p, g) hp x h1 h2
  · have hsub := Multiset.subset_cons G (p, g)
    exact ((hkept₁.mono hsub).trans (hkept₂.mono hsub)).trans
      (hkept₃.mono fun y hy => Multiset.mem_cons_of_mem (Multiset.mem_cons_of_mem hy))
  · rw [hs₂]
    dsimp only
    rw [hs₁]

theorem outstanding_blocks (ho : Outstanding t h G) (ho' : Outstanding t h' G) :
    ∃ T T' : Tiling t.blockHeader, Represents t h T ∧ Represents t h' T' ∧ T.blocks = T'.blocks := by
  obtain ⟨T, hr, hG⟩ := ho.tiling
  obtain ⟨T', hr', hG'⟩ := ho'.tiling
  have hpos : 0 < t.blockHeader := by have := t.header_ge; omega
  exact ⟨T, T', hr, hr', eq_of_grants hpos T.coalesced T'.coalesced (T.total.trans T'.total.symm)
    (Multiset.coe_eq_coe.1 (hG.trans hG'.symm))⟩

/-- **The grants determine the block list** and the byte counters. -/
theorem outstanding_unique (ho : Outstanding t h G) (ho' : Outstanding t h' G) :
    heapBlocks t h = heapBlocks t h' ∧ (heapBlocks t h).isSome = true ∧
      h.globalStats.usedHeapSize = h'.globalStats.usedHeapSize ∧
      h.globalStats.freeHeapSize = h'.globalStats.freeHeapSize := by
  obtain ⟨T, T', hr, hr', hb⟩ := outstanding_blocks ho ho'
  have hu : h.globalStats.usedHeapSize = h'.globalStats.usedHeapSize := ho.used.trans ho'.used.symm
  refine ⟨by rw [hr.blocks, hr'.blocks, hb], by rw [hr.blocks]; rfl, hu, ?_⟩
  rw [ho.free, ho'.free, hu]

/-- So is the pointer that an allocation returns. -/
theorem malloc_unique (ho : Outstanding t h G) (ho' : Outstanding t h' G) (n : Nat) :
    (rtosMalloc t h n).map (·.2) = (rtosMalloc t h' n).map (·.2) := by
  obtain ⟨T, T', hr, hr', hb⟩ := outstanding_blocks ho ho'
  have hf : findBestFit t h (alignSize t n) = findBestFit t h' (alignSize t n) := by
    rw [findBestFit_pick hr, findBestFit_pick hr', hb]
  unfold rtosMalloc
  rw [hr.init, hr'.init]
  dsimp only
  rw [hf]
  split
  · rfl
  · rw [Option.map_map, Option.map_map]
    refine Option.map_congr fun b _ => ?_
    dsimp only [Function.comp_apply]
    split <;> rfl

/-- And the block list determines the grants. -/
theorem grants_unique {G' : Multiset (Nat × Nat)} (ho : Outstanding t h G) (ho' : Outstanding t h' G')
    (hb : heapBlocks t h = heapBlocks t h') : G = G' := by
  obtain ⟨T, hr, rfl⟩ := ho.tiling
  obtain ⟨T', hr', rfl⟩ := ho'.tiling
  rw [hr.blocks, hr'.blocks] at hb
  have e := congrArg (List.map (·.2)) (Option.some.inj hb)
  rw [spots_map, spots_map] at e
  rw [e]

/-- So what `memory_get_stats` reports is determined by the grants and the counters. -/
theorem getStats_unique (ho : Outstanding t h G) (ho' : Outstanding t h' G)
    (hs : h.globalStats = h'.globalStats) (stats : Option MemoryStats) :
    memoryGetStats t h stats = memoryGetStats t h' stats := by
  obtain ⟨T, T', hr, hr', hb⟩ := outstanding_blocks ho ho'
  cases stats with
  | none => rw [memoryGetStats, memoryGetStats, if_pos (.inl rfl), if_pos (.inl rfl)]
  | some stats => rw [getStats_represents hr, getStats_represents hr', hb, hs]

end Rtos.Heap
