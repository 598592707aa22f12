import Rtos.Heap.Runs
import Rtos.Heap.Outstanding

/-!
# Usage accounting

`allocSys` are the runs of an application that allocates any sizes, frees and
reallocates the pointers it holds, passes `rtos_free` pointers that it turns
down, and writes inside the payloads it holds. `Accounted`: the heap has
granted the live pointers, and the counters of the calls differ by their
number. `usage_matches`: the statistics are those of the block list, and a
call that fails or is turned down leaves the heap as it was.
-/
namespace Rtos.Heap

open Rtos.Core Rtos.Core.Blocks

inductive AllocCall
  | malloc (size : Nat)
  | free (ptr : Nat)
  | realloc (ptr newSize : Nat)
  | store (x : Nat) (v : UInt8)

section

variable (t : Target)

/-- The pointers that `rtos_free` turns down: NULL, and those with no header
of an allocated block in front. -/
def TurnedDown (h : HeapState) (ptr : Nat) : Prop :=
  ptr = 0 ∨ t.blockHeader ≤ ptr ∧ (blockMagic t h.mem (ptr - t.blockHeader) ≠ MEMORY_MAGIC ∨
    blockIsFree t h.mem (ptr - t.blockHeader) = true)

/-- A size given to `rtos_realloc` does not wrap in `align_size`. -/
def AllocLegal (s : HeapSys) : AllocCall → Prop
  | .malloc size => size < t.sizeMod
  | .free ptr => ptr ∈ s.live ∨ TurnedDown t s.heap ptr
  | .realloc ptr newSize => newSize + 3 < t.sizeMod ∧
      (ptr ∈ s.live ∨ ptr = 0 ∨ newSize = 0 ∧ TurnedDown t s.heap ptr)
  | .store x _ => ∃ p ∈ s.live, p ≤ x ∧ x < p + blockSize t s.heap.mem (p - t.blockHeader)

instance (h : HeapState) (ptr : Nat) : Decidable (TurnedDown t h ptr) := by
  unfold TurnedDown; infer_instance

instance (s : HeapSys) (c : AllocCall) : Decidable (AllocLegal t s c) := by
  cases c <;> unfold AllocLegal <;> infer_instance

def HeapSys.alloc (s : HeapSys) : AllocCall → Option HeapSys
  | .malloc size => (rtosMalloc t s.heap size).map fun r => ⟨r.1, if r.2 = 0 then s.live else r.2 :: s.live⟩
  | .free ptr => (rtosFree t s.heap ptr).map fun h => ⟨h, s.live.erase ptr⟩
  | .realloc ptr newSize => (rtosRealloc t s.heap ptr newSize).map fun r =>
      ⟨r.1, if r.2 ≠ 0 then r.2 :: s.live.erase ptr else if newSize = 0 then s.live.erase ptr else s.live⟩
  | .store x v => some ⟨{ s.heap with mem := Function.update s.heap.mem x v }, s.live⟩

def allocSys : LTS HeapSys AllocCall :=
  (LTS.ofFn (· = HeapSys.boot t) (HeapSys.alloc t)).restrict (AllocLegal t)

end

variable {t : Target} {s s' : HeapSys} {c : AllocCall} {h h' : HeapState} {p n : Nat}

theorem free_turnedDown (hp : TurnedDown t h p) : rtosFree t h p = some h := by
  unfold rtosFree
  by_cases hz : (!h.memoryInitialized) = true ∨ p = 0
  · exact if_pos hz
  · rw [if_neg hz]
    rcases hp with hp | ⟨-, hp | hp⟩
    · exact absurd (.inr hp) hz
    · exact if_pos hp
    · dsimp only
      rw [if_pos hp]
      exact ite_self _

/-- The heap has granted the live pointers, and as many more allocations than
frees are counted. -/
structure Accounted (t : Target) (s : HeapSys) : Prop where
  grants : ∃ G, Outstanding t s.heap G ∧ G.map Prod.fst = (s.live : Multiset Nat)
  count : s.heap.globalStats.numAllocations =
    (s.heap.globalStats.numFrees + s.live.length) % 2 ^ 32

theorem boot_accounted : Accounted t (HeapSys.boot t) where
  grants := ⟨0, init_outstanding (h := HeapState.static) rfl, rfl⟩
  count := by
    rw [HeapSys.boot, memoryInit, if_neg (by decide)]
    rfl

/-- What is live has its grant. -/
theorem grant_of_live {α β : Type} {G : Multiset (α × β)} {live : List α} {p : α}
    (hl : G.map Prod.fst = (live : Multiset α)) (hp : p ∈ live) : ∃ g, (p, g) ∈ G := by
  obtain ⟨q, hq, rfl⟩ := Multiset.mem_map.1 (hl ▸ Multiset.mem_coe.2 hp)
  exact ⟨q.2, hq⟩

/-- A live pointer is one of the grants. -/
theorem Accounted.grant (hi : Accounted t s) (hp : p ∈ s.live) :
    ∃ g G, Outstanding t s.heap ((p, g) ::ₘ G) ∧ G.map Prod.fst = (s.live.erase p : Multiset Nat) := by
  obtain ⟨G, ho, hl⟩ := hi.grants
  obtain ⟨g, hg⟩ := grant_of_live hl hp
  obtain ⟨H, rfl⟩ := Multiset.exists_cons_of_mem hg
  refine ⟨g, H, ho, ?_⟩
  rw [← Multiset.coe_erase, ← hl, Multiset.map_cons, Multiset.erase_cons_head]

theorem Accounted.ne_zero (hi : Accounted t s) (hp : p ∈ s.live) : p ≠ 0 := by
  obtain ⟨g, G, ho, -⟩ := hi.grant hp
  exact ho.ne_zero (Multiset.mem_cons_self _ _)

theorem Accounted.not_turnedDown (hi : Accounted t s) (hp : p ∈ s.live) : ¬ TurnedDown t s.heap p := by
  obtain ⟨g, G, ho, -⟩ := hi.grant hp
  obtain ⟨-, hf, hm⟩ := ho.header (Multiset.mem_cons_self _ _)
  intro h
  rcases h with h | ⟨-, h | h⟩
  · exact hi.ne_zero hp h
  · exact h hm
  · rw [hf] at h; cases h

/-! ## The calls -/

theorem malloc_accounted (hi : Accounted t s) (n : Nat) :
    ∃ s', s.alloc t (.malloc n) = some s' ∧ Accounted t s' := by
  obtain ⟨G, ho, hl⟩ := hi.grants
  have hc := hi.count
  rw [HeapSys.alloc]
  rcases malloc_outstanding ho n with e | ⟨h', p, g, e, hp, -, ho', -, hs⟩
  · rw [e]
    exact ⟨s, rfl, hi⟩
  · rw [e]
    refine ⟨⟨h', p :: s.live⟩, by simp [hp], ⟨_, ho', ?_⟩, ?_⟩
    · rw [Multiset.map_cons, hl, Multiset.cons_coe]
    · dsimp only
      rw [hs, List.length_cons]
      dsimp only
      omega

theorem free_accounted (hi : Accounted t s) (hp : p ∈ s.live ∨ TurnedDown t s.heap p) :
    ∃ s', s.alloc t (.free p) = some s' ∧ Accounted t s' := by
  have hc := hi.count
  rw [HeapSys.alloc]
  rcases hp with hp | hp
  · obtain ⟨g, G, ho, hl⟩ := hi.grant hp
    obtain ⟨h', e, ho', -, hs⟩ := free_outstanding ho
    rw [e]
    refine ⟨⟨h', s.live.erase p⟩, rfl, ⟨G, ho', hl⟩, ?_⟩
    have hpos := List.length_pos_of_mem hp
    dsimp only
    rw [hs, List.length_erase_of_mem hp]
    dsimp only
    omega
  · rw [free_turnedDown hp, Option.map_some, List.erase_of_not_mem fun h => hi.not_turnedDown h hp]
    exact ⟨s, rfl, hi⟩

theorem realloc_accounted (hi : Accounted t s) (hn : n + 3 < t.sizeMod)
    (hp : p ∈ s.live ∨ p = 0 ∨ n = 0 ∧ TurnedDown t s.heap p) :
    ∃ s', s.alloc t (.realloc p n) = some s' ∧ Accounted t s' := by
  rw [HeapSys.alloc]
  by_cases hp0 : p = 0
  · -- `rtos_realloc(NULL, n)` is `rtos_malloc(n)`
    obtain ⟨s', e, hi'⟩ := malloc_accounted hi n
    have hl : s.live.erase p = s.live := List.erase_of_not_mem fun h => hi.ne_zero h hp0
    refine ⟨s', ?_, hi'⟩
    rw [← e, HeapSys.alloc, rtosRealloc, if_pos hp0, hl]
    simp
  · by_cases hn0 : n = 0
    · -- and `rtos_realloc(p, 0)` is `rtos_free(p)`
      obtain ⟨s', e, hi'⟩ := free_accounted hi (p := p)
        (hp.elim .inl fun h => h.elim (fun h => absurd h hp0) fun h => .inr h.2)
      refine ⟨s', ?_, hi'⟩
      subst hn0
      rw [← e, HeapSys.alloc, rtosRealloc, if_neg hp0]
      simp [Function.comp_def]
    · have hp' : p ∈ s.live := hp.resolve_right fun h => h.elim hp0 fun h => hn0 h.1
      have hc := hi.count
      have hpos := List.length_pos_of_mem hp'
      have hlen := List.length_erase_of_mem hp'
      obtain ⟨g, G, ho, hl⟩ := hi.grant hp'
      rcases realloc_outstanding ho hn0 hn with ⟨-, e⟩ | ⟨-, e⟩ | ⟨h', q, k, -, e, hq, -, ho', -, -, hs⟩
      · refine ⟨⟨s.heap, p :: s.live.erase p⟩, by rw [e]; simp [hp0], ⟨_, ho, ?_⟩, ?_⟩
        · rw [Multiset.map_cons, hl, Multiset.cons_coe]
        · dsimp only
          rw [List.length_cons, hlen, hc]
          omega
      · exact ⟨s, by rw [e]; simp [hn0], hi⟩
      · refine ⟨⟨h', q :: s.live.erase p⟩, by rw [e]; simp [hq], ⟨_, ho', ?_⟩, ?_⟩
        · rw [Multiset.map_cons, hl, Multiset.cons_coe]
        · dsimp only
          rw [hs, List.length_cons, hlen]
          dsimp only
          omega

theorem store_accounted (hi : Accounted t s) {x : Nat} (v : UInt8) (hx : AllocLegal t s (.store x v)) :
    ∃ s', s.alloc t (.store x v) = some s' ∧ Accounted t s' := by
  obtain ⟨p, hp, h1, h2⟩ := hx
  obtain ⟨g, G, ho, hl⟩ := hi.grant hp
  have hg := Multiset.mem_cons_self (p, g) G
  rw [(ho.header hg).1] at h2
  refine ⟨_, rfl, ⟨_, (write_outstanding ho _ fun y hy => ?_).1, ?_⟩, hi.count⟩
  · exact Function.update_of_ne (by omega) _ _
  · rw [Multiset.map_cons, hl, Multiset.cons_coe]
    exact Multiset.coe_eq_coe.2 (List.perm_cons_erase hp).symm

/-- Every legal call returns and keeps the accounts. -/
theorem alloc_accounted (hi : Accounted t s) (hc : AllocLegal t s c) :
    ∃ s', s.alloc t c = some s' ∧ Accounted t s' := by
  cases c with
  | malloc n => exact malloc_accounted hi n
  | free p => exact free_accounted hi hc
  | realloc p n => exact realloc_accounted hi hc.1 hc.2
  | store x v => exact store_accounted hi v hc

theorem accounted_inductive (t : Target) : (allocSys t).Inductive (Accounted t) where
  init s h := h ▸ boot_accounted
  step s c s' hi hs := by
    obtain ⟨s₁, e, h1⟩ := alloc_accounted hi hs.1
    obtain rfl : s₁ = s' := Option.some.inj (e.symm.trans hs.2)
    exact h1

/-! ## The accounts and the block list -/

variable {G : Multiset (Nat × Nat)}

/-- The block list and the charge for its allocated blocks. -/
theorem Outstanding.heapBlocks_eq (ho : Outstanding t h G) :
    ∃ T : Tiling t.blockHeader, Represents t h T ∧
      heapBlocks t h = some (spots t.blockHeader t.heapMemory T.blocks) ∧
      h.globalStats.usedHeapSize = t.blockHeader +
        ((allocated t.blockHeader t.heapMemory T.blocks).map (·.2.size + t.blockHeader)).sum ∧
      G.card = (allocated t.blockHeader t.heapMemory T.blocks).length := by
  obtain ⟨T, hr, hG⟩ := ho.tiling
  refine ⟨T, hr, hr.blocks, ?_, ?_⟩
  · rw [ho.used, ← hG, Multiset.map_coe, Multiset.sum_coe, Blocks.grants, List.map_map]
    rfl
  · rw [← hG, Multiset.coe_card, Blocks.grants, List.length_map]

/-- The two byte counters add up to the heap size. -/
theorem Outstanding.used_add_free (ho : Outstanding t h G) :
    (h.globalStats.usedHeapSize + h.globalStats.freeHeapSize) % t.sizeMod = HEAP_SIZE % t.sizeMod := by
  have hmod := t.sizeMod_ge
  have hhdr := t.header_le
  have hheap : HEAP_SIZE = 65536 := rfl
  have hle := ho.charge_le
  have hu := ho.used
  rw [ho.free]
  by_cases h1 : h.globalStats.usedHeapSize ≤ HEAP_SIZE
  · rw [Target.sub_of_le h1 (by omega), Nat.add_sub_cancel' h1]
  · rw [Target.sub_of_lt (by omega) (by omega), show h.globalStats.usedHeapSize +
      (HEAP_SIZE + t.sizeMod - h.globalStats.usedHeapSize) = HEAP_SIZE + t.sizeMod by omega, Nat.add_mod_right]

/-- In every reachable state `used_heap_size` is the initial header and the
allocated blocks with theirs, `free_heap_size` is the rest of `HEAP_SIZE`
modulo `SIZE_MAX + 1`, and the allocations exceed the frees by the number of
allocated blocks modulo 2^32. Calls that fail and frees turned down leave the
heap as it was, and every legal call returns. -/
theorem usage_matches (t : Target) (s : HeapSys) (h : (allocSys t).Reachable s) :
    (∃ bs, heapBlocks t s.heap = some bs ∧
      s.heap.globalStats.usedHeapSize =
        t.blockHeader + ((bs.filter (!·.2.free)).map (·.2.size + t.blockHeader)).sum ∧
      (s.heap.globalStats.usedHeapSize + s.heap.globalStats.freeHeapSize) % t.sizeMod =
        HEAP_SIZE % t.sizeMod ∧
      s.heap.globalStats.numAllocations =
        (s.heap.globalStats.numFrees + (bs.filter (!·.2.free)).length) % 2 ^ 32) ∧
    (∀ n h', rtosMalloc t s.heap n = some (h', 0) → h' = s.heap) ∧
    (∀ p, TurnedDown t s.heap p → rtosFree t s.heap p = some s.heap) ∧
    (∀ p n h', p = 0 ∨ n ≠ 0 → AllocLegal t s (.realloc p n) →
      rtosRealloc t s.heap p n = some (h', 0) → h' = s.heap) ∧
    ∀ c, AllocLegal t s c → ∃ s', (allocSys t).step s c s' := by
  have hi := (accounted_inductive t).reachable s h
  obtain ⟨G, ho, hl⟩ := hi.grants
  have hmalloc : ∀ n h', rtosMalloc t s.heap n = some (h', 0) → h' = s.heap := by
    intro n h' e
    rcases malloc_outstanding ho n with e' | ⟨h₁, p, g, e', hp, -⟩
    · rw [e'] at e; cases e; rfl
    · rw [e'] at e; cases e; exact absurd rfl hp
  refine ⟨?_, hmalloc, fun p => free_turnedDown, ?_, ?_⟩
  · obtain ⟨T, -, hb, hu, hc⟩ := ho.heapBlocks_eq
    refine ⟨_, hb, hu, ho.used_add_free, ?_⟩
    have hlen : s.live.length = G.card := by rw [← Multiset.coe_card, ← hl, Multiset.card_map]
    rw [hi.count, hlen, hc]
    rfl
  · intro p n h' hz hc e
    by_cases hp0 : p = 0
    · rw [rtosRealloc, if_pos hp0] at e
      exact hmalloc n h' e
    · have hn : n ≠ 0 := hz.resolve_left hp0
      have hp : p ∈ s.live := hc.2.resolve_right fun h => h.elim hp0 fun h => hn h.1
      obtain ⟨g, H, ho', -⟩ := hi.grant hp
      rcases realloc_outstanding ho' hn hc.1 with ⟨-, e'⟩ | ⟨-, e'⟩ | ⟨h₁, q, k, -, e', hq, -⟩
      · rw [e'] at e; cases e; exact absurd rfl hp0
      · rw [e'] at e; cases e; rfl
      · rw [e'] at e; cases e; exact absurd rfl hq
  · intro c hc
    obtain ⟨s', e, -⟩ := alloc_accounted hi hc
    exact ⟨s', hc, e⟩

/-- A block moved by `rtos_realloc`, and a pointer freed twice. -/
theorem usage_matches_board : ∃ s, (allocSys board).Reachable s ∧
    s.live = [0x20000034, 0x20000074] ∧ s.heap.globalStats.usedHeapSize = 176 ∧
    s.heap.globalStats.usedHeapSize = board.blockHeader +
      ((((heapBlocks board s.heap).getD []).filter (!·.2.free)).map (·.2.size + board.blockHeader)).sum := by
  obtain ⟨s, -, h, hl, hu⟩ := LTS.reachable_of_exec (M := allocSys board) LTS.step_of_guarded rfl
    (fun s => s.live = [0x20000034, 0x20000074] ∧ s.heap.globalStats.usedHeapSize = 176)
    [.malloc 20, .malloc 48, .realloc 0x20000010 80, .free 0x20000010, .realloc 0x20000034 40]
    (by decide +kernel)
  obtain ⟨⟨bs, hb, e, -⟩, -⟩ := usage_matches board s h
  exact ⟨s, h, hl, hu, by rw [hb]; exact e⟩

end Rtos.Heap
