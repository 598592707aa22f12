import Rtos.Heap.Usage

/-!
# Frees commute

`freeAll` frees a list of pointers one after the other. Freeing live pointers
leaves the grants of the others (`freeAll_outstanding`), whatever the order,
and the grants determine the block list. So two orders end in the same block
list and statistics, and when no pointer is left in those of `memory_init`
(`frees_commute`).
-/
namespace Rtos.Heap

open Rtos.Core Rtos.Core.Blocks

variable {t : Target} {s : HeapSys} {h h' : HeapState} {G : Multiset (Nat × Nat)} {ps qs : List Nat} {p : Nat}

def freeAll (t : Target) (h : HeapState) (ps : List Nat) : Option HeapState := ps.foldlM (rtosFree t) h

theorem freeAll_cons (h : HeapState) (p : Nat) (ps : List Nat) :
    freeAll t h (p :: ps) = (rtosFree t h p).bind fun h => freeAll t h ps := rfl

/-- Freeing granted pointers takes their grants away, and counts each. -/
theorem freeAll_outstanding (ho : Outstanding t h G) (hn : ps.Nodup) (hp : ∀ p ∈ ps, p ∈ G.map Prod.fst) :
    ∃ h', freeAll t h ps = some h' ∧ Outstanding t h' (G.filter (·.1 ∉ ps)) ∧
      h'.globalStats = { h.globalStats with
        numFrees := (fun n => (n + 1) % 2 ^ 32)^[ps.length] h.globalStats.numFrees
        usedHeapSize := h'.globalStats.usedHeapSize
        freeHeapSize := h'.globalStats.freeHeapSize } := by
  induction ps generalizing h G with
  | nil => exact ⟨h, rfl, by simpa using ho, rfl⟩
  | cons p ps ih =>
    obtain ⟨hnp, hnps⟩ := List.nodup_cons.1 hn
    obtain ⟨q, hq, rfl⟩ := Multiset.mem_map.1 (hp p List.mem_cons_self)
    obtain ⟨H, rfl⟩ := Multiset.exists_cons_of_mem hq
    -- the freed address is not granted twice
    have hnot : q.1 ∉ H.map Prod.fst := by
      have := ho.nodup
      rw [Multiset.map_cons, Multiset.nodup_cons] at this
      exact this.1
    obtain ⟨h₁, e, ho₁, -, hs₁⟩ := free_outstanding ho
    have hp₁ : ∀ p ∈ ps, p ∈ H.map Prod.fst := by
      intro p hpp
      have := hp p (List.mem_cons_of_mem _ hpp)
      rw [Multiset.map_cons, Multiset.mem_cons] at this
      exact this.resolve_left fun h => hnp (h ▸ hpp)
    obtain ⟨h₂, e₂, ho₂, hs₂⟩ := ih ho₁ hnps hp₁
    have hfilter : (q ::ₘ H).filter (·.1 ∉ q.1 :: ps) = H.filter (·.1 ∉ ps) := by
      rw [Multiset.filter_cons_of_neg _ (by simp)]
      refine Multiset.filter_congr fun y hy => ?_
      have hne : y.1 ≠ q.1 := fun h => hnot (Multiset.mem_map.2 ⟨y, hy, h⟩)
      simp [hne]
    refine ⟨h₂, by rw [freeAll_cons, e, Option.bind_some, e₂], hfilter ▸ ho₂, ?_⟩
    rw [hs₂, List.length_cons, Function.iterate_succ_apply]
    dsimp only
    rw [hs₁]

/-- The block list of a heap with nothing granted. -/
theorem Outstanding.empty (ho : Outstanding t h 0) :
    heapBlocks t h = some [(t.heapMemory, ⟨HEAP_SIZE - t.blockHeader, true⟩)] ∧
      h.globalStats.usedHeapSize = t.blockHeader ∧
      h.globalStats.freeHeapSize = HEAP_SIZE - t.blockHeader := by
  have hinit := init_outstanding (t := t) (h := HeapState.static) rfl
  obtain ⟨hb, -⟩ := outstanding_unique ho hinit
  have hlt := t.heap_lt
  refine ⟨?_, ho.used, ?_⟩
  · rw [hb, (init_represents rfl).blocks]
    rfl
  · rw [ho.free, ho.used]
    exact Target.sub_of_le t.header_le_heap (by omega)

/-- **Frees commute and restore the heap.** Freeing a set of live pointers in
any two orders ends in the same block list and the same statistics; when it is
all live pointers these are the block list and the byte counters of
`memory_init`. -/
theorem frees_commute (t : Target) (s : HeapSys) (h : (allocSys t).Reachable s) (ps qs : List Nat)
    (hn : ps.Nodup) (hp : ∀ p ∈ ps, p ∈ s.live) (hq : qs.Perm ps) :
    ∃ h₁ h₂, freeAll t s.heap ps = some h₁ ∧ freeAll t s.heap qs = some h₂ ∧
      (∃ bs, heapBlocks t h₁ = some bs ∧ heapBlocks t h₂ = some bs) ∧ h₁.globalStats = h₂.globalStats ∧
      (∀ stats, memoryGetStats t h₁ stats = memoryGetStats t h₂ stats) ∧
      ((∀ p ∈ s.live, p ∈ ps) →
        heapBlocks t h₁ = heapBlocks t (memoryInit t HeapState.static) ∧
        heapBlocks t h₁ = some [(t.heapMemory, ⟨HEAP_SIZE - t.blockHeader, true⟩)] ∧
        h₁.globalStats.usedHeapSize = (memoryInit t HeapState.static).globalStats.usedHeapSize ∧
        h₁.globalStats.freeHeapSize = (memoryInit t HeapState.static).globalStats.freeHeapSize) := by
  obtain ⟨G, ho, hl⟩ := ((accounted_inductive t).reachable s h).grants
  have hmem : ∀ p, p ∈ G.map Prod.fst ↔ p ∈ s.live := fun p => by rw [hl]; exact Multiset.mem_coe
  obtain ⟨h₁, e₁, ho₁, hs₁⟩ := freeAll_outstanding ho hn fun p h => (hmem p).2 (hp p h)
  obtain ⟨h₂, e₂, ho₂, hs₂⟩ := freeAll_outstanding ho (hq.nodup_iff.2 hn)
    fun p h => (hmem p).2 (hp p (hq.mem_iff.1 h))
  -- the same grants are left
  have hG : G.filter (·.1 ∉ qs) = G.filter (·.1 ∉ ps) :=
    Multiset.filter_congr fun x _ => not_congr hq.mem_iff
  rw [hG] at ho₂
  obtain ⟨hb, hsome, hu, hf⟩ := outstanding_unique ho₁ ho₂
  obtain ⟨bs, hbs⟩ := Option.isSome_iff_exists.1 hsome
  have hstats : h₁.globalStats = h₂.globalStats := by
    rw [hs₁, hs₂, hu, hf, hq.length_eq]
  refine ⟨h₁, h₂, e₁, e₂, ⟨bs, hbs, hb ▸ hbs⟩, hstats, getStats_unique ho₁ ho₂ hstats, fun hall => ?_⟩
  have h0 : G.filter (·.1 ∉ ps) = 0 := by
    refine Multiset.filter_eq_nil.2 fun x hx => not_not.2 (hall x.1 ?_)
    exact (hmem x.1).1 (Multiset.mem_map_of_mem _ hx)
  rw [h0] at ho₁
  obtain ⟨hb₁, -, hu₁, hf₁⟩ := outstanding_unique ho₁ (init_outstanding (t := t) (h := HeapState.static) rfl)
  exact ⟨hb₁, ho₁.empty.1, hu₁, hf₁⟩

/-- Two orders of freeing the two blocks on both sides of a free one. -/
theorem frees_commute_board : ∃ s h₁ h₂, (allocSys board).Reachable s ∧
    s.live = [0x20000064, 0x20000010] ∧
    freeAll board s.heap [0x20000064, 0x20000010] = some h₁ ∧
    freeAll board s.heap [0x20000010, 0x20000064] = some h₂ ∧
    (∃ bs, heapBlocks board h₁ = some bs ∧ heapBlocks board h₂ = some bs) ∧
    h₁.globalStats = h₂.globalStats ∧
    heapBlocks board h₁ = some [(board.heapMemory, ⟨HEAP_SIZE - board.blockHeader, true⟩)] := by
  obtain ⟨s, -, h, hl⟩ := LTS.reachable_of_exec (M := allocSys board) LTS.step_of_guarded rfl
    (fun s => s.live = [0x20000064, 0x20000010]) [.malloc 20, .malloc 32, .malloc 8, .free 0x20000034]
    (by decide +kernel)
  obtain ⟨h₁, h₂, e₁, e₂, hb, hs, -, hall⟩ := frees_commute board s h [0x20000064, 0x20000010]
    [0x20000010, 0x20000064] (by decide) (by rw [hl]; simp) (.swap _ _ _)
  exact ⟨s, h₁, h₂, h, hl, e₁, e₂, hb, hs, (hall (by rw [hl]; simp)).2.1⟩

end Rtos.Heap
