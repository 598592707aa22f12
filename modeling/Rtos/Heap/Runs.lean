import Rtos.Core.LTS
import Rtos.Heap.Tiling

/-!
# Runs of the heap

`heapSys` are the runs of an application that starts with `memory_init`,
allocates any sizes, frees what it was given and not freed yet, and writes
inside the payloads it holds. `heap_tiled`: in every state of such a run the
heap is tiled, the live pointers are the payloads of the allocated blocks, no
byte of a payload belongs to a header or to another payload, and every call
returns.
-/
namespace Rtos.Heap

open Rtos.Core Rtos.Core.Blocks

/-- The heap, and the pointers that the application holds. -/
structure HeapSys where
  heap : HeapState
  live : List Nat

inductive HeapCall
  | malloc (size : Nat)
  | free (ptr : Nat)
  | store (x : Nat) (v : UInt8)

section

variable (t : Target)

/-- Any `size_t` may be asked for, only live pointers are freed, and stores
stay inside the payloads granted. -/
def Legal (s : HeapSys) : HeapCall → Prop
  | .malloc size => size < t.sizeMod
  | .free ptr => ptr ∈ s.live
  | .store x _ => ∃ p ∈ s.live, p ≤ x ∧ x < p + blockSize t s.heap.mem (p - t.blockHeader)

instance (s : HeapSys) (c : HeapCall) : Decidable (Legal t s c) := by
  cases c <;> unfold Legal <;> infer_instance

def HeapSys.call (s : HeapSys) : HeapCall → Option HeapSys
  | .malloc size => (rtosMalloc t s.heap size).map fun r => ⟨r.1, if r.2 = 0 then s.live else r.2 :: s.live⟩
  | .free ptr => (rtosFree t s.heap ptr).map fun h => ⟨h, s.live.erase ptr⟩
  | .store x v => some ⟨{ s.heap with mem := Function.update s.heap.mem x v }, s.live⟩

def HeapSys.boot : HeapSys := ⟨memoryInit t HeapState.static, []⟩

def heapSys : LTS HeapSys HeapCall := (LTS.ofFn (· = HeapSys.boot t) (HeapSys.call t)).restrict (Legal t)

end

variable {t : Target} {s s' : HeapSys} {c : HeapCall}

/-- The invariant: the memory holds a tiling whose allocated blocks are the
live ones. -/
def Inv (t : Target) (s : HeapSys) : Prop :=
  ∃ T : Tiling t.blockHeader, Represents t s.heap T ∧
    s.live.Perm (payloads t.blockHeader t.heapMemory T.blocks)

theorem boot_inv : Inv t (HeapSys.boot t) :=
  ⟨.fresh t.dvd_header t.header_le_heap, init_represents (h := HeapState.static) rfl, .nil⟩

theorem malloc_inv (hi : Inv t s) (n : Nat) : ∃ s', s.call t (.malloc n) = some s' ∧ Inv t s' := by
  obtain ⟨T, hr, hl⟩ := hi
  rcases malloc_represents hr n with ⟨e, -⟩ | ⟨pre, post, b, he, hb, h', e, hr', -⟩
  · refine ⟨s, ?_, T, hr, hl⟩
    rw [HeapSys.call, e, Option.map_some, if_pos rfl]
  · have hplaced := t.placed
    refine ⟨⟨h', (t.heapMemory + span t.blockHeader pre + t.blockHeader) :: s.live⟩, ?_, _, hr', ?_⟩
    · rw [HeapSys.call, e, Option.map_some, if_neg (by dsimp only; omega)]
    · exact payloads_granted 32 _ hb.free (he ▸ hl)

theorem free_inv (hi : Inv t s) {p : Nat} (hp : p ∈ s.live) :
    ∃ s', s.call t (.free p) = some s' ∧ Inv t s' := by
  obtain ⟨T, hr, hl⟩ := hi
  obtain ⟨pre, b, post, he, hf, rfl⟩ := payloads_block (hl.subset hp)
  obtain ⟨h', e, hr', -⟩ := free_represents hr he hf
  refine ⟨⟨h', s.live.erase (t.heapMemory + span t.blockHeader pre + t.blockHeader)⟩, ?_, _, hr', ?_⟩
  · rw [HeapSys.call, e, Option.map_some]
  · exact payloads_released hf (he ▸ hl)

/-- The payload bytes of an allocated block belong to nothing else. -/
theorem payload_apart (T : Tiling t.blockHeader) {y z : Nat × Blk} {x : Nat}
    (hy : y ∈ spots t.blockHeader t.heapMemory T.blocks) (hz : z ∈ spots t.blockHeader t.heapMemory T.blocks)
    (h1 : y.1 + t.blockHeader ≤ x) (h2 : x < y.1 + t.blockHeader + y.2.size) :
    z = y ∨ x < z.1 ∨ z.1 + t.blockHeader + z.2.size ≤ x := by
  rcases spots_eq_or_apart hy hz with h | h | h
  · exact .inl h.symm
  · exact .inr (.inl (by omega))
  · exact .inr (.inr (by omega))

/-- A store inside a payload changes no header. -/
theorem store_represents {T : Tiling t.blockHeader} (hr : Represents t s.heap T)
    (hl : s.live.Perm (payloads t.blockHeader t.heapMemory T.blocks)) {x : Nat} (v : UInt8)
    (hx : Legal t s (.store x v)) : Represents t { s.heap with mem := Function.update s.heap.mem x v } T := by
  obtain ⟨p, hp, h1, h2⟩ := hx
  obtain ⟨y, hy, hf, rfl⟩ := mem_payloads.1 (hl.subset hp)
  obtain ⟨q, hq⟩ := hr.tiled.holds hy
  rw [Nat.add_sub_cancel, hq.size] at h2
  refine ⟨hr.init, hr.head, hr.tiled.frame fun z hz x' h3 h4 => ?_⟩
  refine Function.update_of_ne ?_ _ _
  rcases payload_apart T hy hz h1 h2 with rfl | h | h <;> omega

theorem store_inv (hi : Inv t s) {x : Nat} (v : UInt8) (hx : Legal t s (.store x v)) :
    ∃ s', s.call t (.store x v) = some s' ∧ Inv t s' := by
  obtain ⟨T, hr, hl⟩ := hi
  exact ⟨_, rfl, T, store_represents hr hl v hx, hl⟩

/-- Every legal call returns and keeps the invariant. -/
theorem call_inv (hi : Inv t s) (hc : Legal t s c) : ∃ s', s.call t c = some s' ∧ Inv t s' := by
  cases c with
  | malloc n => exact malloc_inv hi n
  | free p => exact free_inv hi hc
  | store x v => exact store_inv hi v hc

theorem inv_inductive (t : Target) : (heapSys t).Inductive (Inv t) where
  init s h := h ▸ boot_inv
  step s c s' hi hs := by
    obtain ⟨s₁, e, h1⟩ := call_inv hi hs.1
    obtain rfl : s₁ = s' := Option.some.inj (e.symm.trans hs.2)
    exact h1

/-- In every reachable state the memory holds a coalesced tiling of the heap,
the live pointers are the payloads of its allocated blocks, no byte of such a
payload lies outside the heap, in a header or in another block, and every
legal call returns. -/
theorem heap_tiled (t : Target) (s : HeapSys) (h : (heapSys t).Reachable s) :
    (∃ T : Tiling t.blockHeader, Represents t s.heap T ∧
      s.live.Perm (payloads t.blockHeader t.heapMemory T.blocks) ∧
      ∀ y ∈ allocated t.blockHeader t.heapMemory T.blocks, ∀ x, y.1 + t.blockHeader ≤ x →
        x < y.1 + t.blockHeader + y.2.size →
        (t.heapMemory ≤ x ∧ x < t.heapMemory + HEAP_SIZE) ∧
        (∀ z ∈ spots t.blockHeader t.heapMemory T.blocks, x < z.1 ∨ z.1 + t.blockHeader ≤ x) ∧
        ∀ z ∈ allocated t.blockHeader t.heapMemory T.blocks, z ≠ y →
          x < z.1 + t.blockHeader ∨ z.1 + t.blockHeader + z.2.size ≤ x) ∧
    ∀ c, Legal t s c → ∃ s', (heapSys t).step s c s' := by
  have hi := (inv_inductive t).reachable s h
  refine ⟨?_, fun c hc => ?_⟩
  · obtain ⟨T, hr, hl⟩ := hi
    refine ⟨T, hr, hl, fun y hy x h1 h2 => ?_⟩
    have hy' := (List.mem_filter.1 hy).1
    have hb := spots_bounds hy'
    rw [T.total] at hb
    refine ⟨⟨by omega, by omega⟩, fun z hz => ?_, fun z hz hne => ?_⟩
    · rcases payload_apart T hy' hz h1 h2 with rfl | h | h <;> omega
    · rcases payload_apart T hy' (List.mem_filter.1 hz).1 h1 h2 with h | h | h
      · exact absurd h hne
      · exact .inl (by omega)
      · exact .inr h
  · obtain ⟨s', e, -⟩ := call_inv hi hc
    exact ⟨s', hc, e⟩

/-- A 32-bit board with its heap at the start of its RAM. -/
def board : Target := ⟨4, 0x20000000, by decide, by decide, by decide⟩

/-- Three allocations, one of a size that wraps to 0, a store, and the middle
one freed. -/
theorem heap_tiled_board : ∃ s, (heapSys board).Reachable s ∧ s.live = [0x200000a0, 0x20000010] ∧
    (∃ T : Tiling board.blockHeader, Represents board s.heap T ∧
      s.live.Perm (payloads board.blockHeader board.heapMemory T.blocks)) := by
  obtain ⟨s, -, h, hl⟩ := LTS.reachable_of_exec (M := heapSys board) LTS.step_of_guarded rfl
    (fun s => s.live = [0x200000a0, 0x20000010])
    [.malloc 100, .malloc 10, .malloc 0xFFFFFFFF, .store 0x20000010 255, .free 0x20000084] (by decide +kernel)
  obtain ⟨⟨T, hr, hp, -⟩, -⟩ := heap_tiled board s h
  exact ⟨s, h, hl, T, hr, hp⟩

end Rtos.Heap
