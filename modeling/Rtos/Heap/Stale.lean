import Rtos.Heap.Usage

/-!
# What the heap writes over old headers

A freed block may be swallowed by its neighbour, and its header then lies in
the payload of a larger free block, where `split_block` may put a header over
a part of it. `malloc_stores` and `free_stores` say which bytes a call
changes: sizes, links, magic numbers and flags of headers that are on the
block list afterwards. `overlaid_of_stores` says how that can make an old
header read as one of an allocated block: a size or a link lies over its flag.
-/
namespace Rtos.Heap

open Rtos.Core Rtos.Core.Blocks

variable {t : Target} {h h' : HeapState} {m m' m₁ : Mem} {T T' : Tiling t.blockHeader}
  {a p q n x : Nat} {b : Blk} {bs pre post : List Blk}

/-- The byte `x` belongs to the size or the link of the header at `p`. -/
def SizeOrNext (t : Target) (p x : Nat) : Prop :=
  p ≤ x ∧ x < p + t.word ∨ p + 2 * t.word ≤ x ∧ x < p + 3 * t.word

/-- The byte `x` of `m` belongs to the header at `p`, its padding apart; a
flag is 0 or 1. -/
def Field (t : Target) (m : Mem) (p x : Nat) : Prop :=
  SizeOrNext t p x ∨ p + 3 * t.word ≤ x ∧ x < p + 3 * t.word + 4 ∨ x = p + t.word ∧ (m x = 0 ∨ m x = 1)

/-- The bytes that changed belong to these headers. -/
def Stores (t : Target) (m m' : Mem) (a : Nat) (bs : List Blk) : Prop :=
  ∀ x, m' x ≠ m x → ∃ y ∈ spots t.blockHeader a bs, Field t m' y.1 x

instance (t : Target) (p x : Nat) : Decidable (SizeOrNext t p x) := by
  unfold SizeOrNext; infer_instance

theorem Stores.within {l r : List Blk} (h : Stores t m m' (a + span t.blockHeader l) bs) :
    Stores t m m' a (l ++ bs ++ r) := by
  intro x hx
  obtain ⟨y, hy, hf⟩ := h x hx
  refine ⟨y, ?_, hf⟩
  rw [List.append_assoc, spots_append, spots_append]
  exact List.mem_append_right _ (List.mem_append_left _ hy)

/-! ## The stores of the two calls -/

/-- A split stores two headers, or a flag. -/
theorem splitBlock_stores (hb : Holds t m p b q) (hn : n ≤ b.size) (hsz : b.size ≤ HEAP_SIZE) :
    Stores t m (setIsFree t (splitBlock t m p n) p false) p (split t.blockHeader 32 b n) := by
  have hw := t.word_ge
  have hmod := t.sizeMod_ge
  have hhdr := t.header_le
  have hge := t.header_ge
  have hheap : HEAP_SIZE = 65536 := rfl
  have hfour : t.blockHeader = 4 * t.word := rfl
  have hadd : t.add (t.add n t.blockHeader) 32 = n + t.blockHeader + 32 := by
    rw [Target.add_of_lt (p := n) (by omega), Target.add_of_lt (by omega)]
  unfold splitBlock split
  rw [hb.size, hadd]
  by_cases hc : n + t.blockHeader + 32 ≤ b.size
  · rw [if_pos hc, if_pos hc]
    dsimp only
    generalize t.sub (t.sub b.size n) t.blockHeader = v
    intro x hx
    by_cases hflag : x = p + t.word
    · refine ⟨(p, ⟨n, false⟩), by simp [spots], .inr (.inr ⟨hflag, .inl ?_⟩)⟩
      rw [hflag]
      exact Function.update_self _ _ _
    by_cases hnew : x = p + t.blockHeader + n + t.word
    · refine ⟨(p + t.blockHeader + n, ⟨b.size - n - t.blockHeader, true⟩), by simp [spots],
        .inr (.inr ⟨hnew, .inr ?_⟩)⟩
      rw [setIsFree, Function.update_of_ne hflag, setNext, Mem.write_outside (by omega), setSize,
        Mem.write_outside (by omega), setMagic, Mem.write_outside (by omega), setNext,
        Mem.write_outside (by omega), setIsFree, hnew]
      exact Function.update_self _ _ _
    · by_contra hno
      have h1 : ¬ Field t _ p x := fun hf => hno ⟨(p, ⟨n, false⟩), by simp [spots], hf⟩
      have h2 : ¬ Field t _ (p + t.blockHeader + n) x := fun hf =>
        hno ⟨(p + t.blockHeader + n, ⟨b.size - n - t.blockHeader, true⟩), by simp [spots], hf⟩
      unfold Field SizeOrNext at h1 h2
      apply hx
      rw [setIsFree, Function.update_of_ne hflag, setNext, Mem.write_outside (by omega), setSize,
        Mem.write_outside (by omega), setMagic, Mem.write_outside (by omega), setNext,
        Mem.write_outside (by omega), setIsFree, Function.update_of_ne hnew, setSize,
        Mem.write_outside (by omega)]
  · rw [if_neg hc, if_neg hc]
    intro x hx
    by_cases hflag : x = p + t.word
    · refine ⟨(p, ⟨b.size, false⟩), by simp [spots], .inr (.inr ⟨hflag, .inl ?_⟩)⟩
      rw [hflag]
      exact Function.update_self _ _ _
    · exact absurd (Function.update_of_ne hflag _ _) hx

/-- An allocation grants a block and stores to headers on the list afterwards. -/
theorem malloc_stores (hr : Represents t h T) (n : Nat) :
    rtosMalloc t h n = some (h, 0) ∨
    ∃ h' pre b post T', rtosMalloc t h n =
        some (h', t.heapMemory + span t.blockHeader pre + t.blockHeader) ∧
      T.blocks = pre ++ b :: post ∧ b.free = true ∧ Represents t h' T' ∧
      T'.blocks = pre ++ split t.blockHeader 32 b (alignSize t n) ++ post ∧
      Stores t h.mem h'.mem t.heapMemory T'.blocks := by
  rcases malloc_represents hr n with ⟨e, -⟩ | ⟨pre, post, b, he, hb, h', e, hr', -⟩
  · exact .inl e
  right
  have hplaced := t.placed
  have hbounds := T.bounds he
  have ht := hr.tiled
  rw [he] at ht
  refine ⟨h', pre, b, post, _, e, he, hb.free, hr', rfl, ?_⟩
  obtain ⟨-, -, hmem, -⟩ := malloc_some e (by omega)
  rw [hmem, Nat.add_sub_cancel]
  exact (splitBlock_stores (tiled_append.1 ht).2.1 hb.fits (by omega)).within

/-- The merge stores sizes and links of blocks that stay on the list. -/
theorem mergeLoop_stores (e : mergeLoop t n m a = some m') (ht : Tiled t m 0 a (b :: bs)) (ha : 0 < a)
    (hs : a + span t.blockHeader (b :: bs) < t.sizeMod) :
    ∀ x, m' x ≠ m x → ∃ y ∈ spots t.blockHeader a (merge t.blockHeader b bs), SizeOrNext t y.1 x := by
  induction n generalizing a b bs m with
  | zero =>
    unfold mergeLoop at e
    split at e
    · cases e
      exact fun x hx => absurd rfl hx
    · cases e
  | succ n ih =>
    cases bs with
    | nil =>
      unfold mergeLoop at e
      rw [if_pos (.inr ht.1.next)] at e
      cases e
      exact fun x hx => absurd rfl hx
    | cons c bs =>
      have hnext : blockNext t m a = a + t.blockHeader + b.size := ht.1.next
      unfold mergeLoop at e
      rw [if_neg (by rw [hnext]; omega)] at e
      dsimp only at e
      rw [hnext, ht.1.free, ht.2.1.free] at e
      unfold merge
      split at e
      · rename_i hc
        rw [if_pos hc]
        obtain ⟨h1, -⟩ := mergeNext_tiled ht hs
        simp only [span_cons] at hs
        intro x hx
        by_cases hx' : m' x = mergeNext t m a x
        · -- the store to the header of the block that grows
          obtain ⟨s, rest, hm⟩ := merge_head t.blockHeader ⟨b.size + (t.blockHeader + c.size), b.free⟩ bs
          refine ⟨(a, ⟨s, b.free⟩), by rw [hm]; exact List.mem_cons_self, ?_⟩
          by_contra hno
          unfold SizeOrNext at hno
          apply hx
          rw [hx', mergeNext, setNext, Mem.write_outside (by omega), setSize, Mem.write_outside (by omega)]
        · exact ih e h1 ha (by rw [span_cons]; dsimp only; omega) x hx'
      · rename_i hc
        rw [if_neg hc]
        rw [span_cons] at hs
        intro x hx
        obtain ⟨y, hy, hf⟩ := ih e ht.2 (by omega) (by omega) x hx
        exact ⟨y, List.mem_cons_of_mem _ hy, hf⟩

/-- Freeing an allocated block sets its flag, and then stores sizes and links
of blocks on the list afterwards. -/
theorem free_stores (hr : Represents t h T) (he : T.blocks = pre ++ b :: post) (hb : b.free = false) :
    ∃ h' T', rtosFree t h (t.heapMemory + span t.blockHeader pre + t.blockHeader) = some h' ∧
      Represents t h' T' ∧ T'.blocks = coalesce t.blockHeader (pre ++ ⟨b.size, true⟩ :: post) ∧
      Stores t (setIsFree t h.mem (t.heapMemory + span t.blockHeader pre) true) h'.mem t.heapMemory T'.blocks := by
  obtain ⟨h', e, hr', -⟩ := free_represents hr he hb
  refine ⟨h', _, e, hr', rfl, ?_⟩
  have hlt := t.heap_lt
  have hspan := span_marked T he
  obtain ⟨stats, ew, ht1, -⟩ := free_walk hr he hb
  -- the call is the walk over the whole list
  rw [ew, mergeFreeBlocks] at e
  obtain ⟨m', e', rfl⟩ := Option.map_eq_some_iff.1 e
  dsimp only at e'
  rw [hr.head] at e'
  obtain ⟨c, cs, hcs⟩ : ∃ c cs, pre ++ (⟨b.size, true⟩ : Blk) :: post = c :: cs :=
    List.exists_cons_of_ne_nil (by simp)
  have hblocks : (T.release he t.dvd_header).blocks = merge t.blockHeader c cs := by
    show coalesce t.blockHeader _ = _
    rw [hcs]; rfl
  rw [hcs] at ht1 hspan
  intro x hx
  obtain ⟨y, hy, hf⟩ := mergeLoop_stores e' ht1 t.placed (by omega) x hx
  exact ⟨y, by rw [hblocks]; exact hy, .inl hf⟩

/-! ## Old headers -/

/-- The header in front of `p` reads as that of an allocated block. -/
def Passes (t : Target) (m : Mem) (p : Nat) : Prop :=
  m (p - t.blockHeader + t.word) = 0 ∧ blockMagic t m (p - t.blockHeader) = MEMORY_MAGIC

instance (t : Target) (m : Mem) (p : Nat) : Decidable (Passes t m p) := by
  unfold Passes; infer_instance

theorem turnedDown_iff (hp : p ≠ 0) (hge : t.blockHeader ≤ p) : TurnedDown t h p ↔ ¬ Passes t h.mem p := by
  unfold TurnedDown Passes blockIsFree
  simp only [hp, hge, true_and, false_or, bne_iff_ne]
  tauto

/-- The low byte of the magic number. -/
theorem magic_byte (hm : m.read p 4 = MEMORY_MAGIC) : (m p).toNat = 0xEF := by
  have h1 : m.read p 4 = (m p).toNat + 256 * m.read (p + 1) 3 := rfl
  have h2 := (m p).toNat_lt
  have h3 : MEMORY_MAGIC = 0xDEADBEEF := rfl
  omega

/-- Headers lie at multiples of 4 in the heap. -/
theorem Tiling.dvd_pre (T : Tiling t.blockHeader) (he : T.blocks = pre ++ b :: post) :
    4 ∣ span t.blockHeader pre :=
  dvd_span t.dvd_header fun c hc => T.aligned c (by rw [he]; simp [hc])

theorem Tiling.dvd_spot (T : Tiling t.blockHeader) {y : Nat × Blk}
    (hy : y ∈ spots t.blockHeader t.heapMemory T.blocks) : ∃ k, y.1 = t.heapMemory + 4 * k := by
  obtain ⟨pre, post, he, hpre⟩ := spots_split hy
  obtain ⟨k, hk⟩ := T.dvd_pre he
  exact ⟨k, by rw [hpre, hk]⟩

/-- A header on the list whose flag is 0 is that of an allocated block. -/
theorem payload_of_flag (hr : Represents t h T) {y : Nat × Blk}
    (hy : y ∈ spots t.blockHeader t.heapMemory T.blocks) (h0 : h.mem (y.1 + t.word) = 0) :
    y.1 + t.blockHeader ∈ payloads t.blockHeader t.heapMemory T.blocks := by
  obtain ⟨q, hq⟩ := hr.tiled.holds hy
  have hf := hq.free
  unfold blockIsFree at hf
  exact mem_payloads.2 ⟨y, hy, by rw [← hf, h0]; rfl, rfl⟩

/-- **How an old header comes to read as one of an allocated block**: a size
or a link of a header on the list lies over its flag. -/
theorem overlaid_of_stores (hr : Represents t h T) (hs : Stores t m₁ h.mem t.heapMemory T.blocks)
    (h4 : ∃ k, p = t.heapMemory + t.blockHeader + 4 * k)
    (hp : p ∉ payloads t.blockHeader t.heapMemory T.blocks) (hold : ¬ Passes t m₁ p) (hnew : Passes t h.mem p) :
    ∃ y ∈ spots t.blockHeader t.heapMemory T.blocks, SizeOrNext t y.1 (p - t.blockHeader + t.word) := by
  obtain ⟨hflag, hmagic⟩ := hnew
  have hw := t.word_eq
  obtain ⟨k, hk⟩ := h4
  by_contra hno
  -- no header on the list lies where the old one does
  have hne : ∀ y ∈ spots t.blockHeader t.heapMemory T.blocks, y.1 ≠ p - t.blockHeader := by
    intro y hy he
    apply hp
    rw [show p = y.1 + t.blockHeader by omega]
    exact payload_of_flag hr hy (by rw [he]; exact hflag)
  -- so the flag is as it was
  have hsame : h.mem (p - t.blockHeader + t.word) = m₁ (p - t.blockHeader + t.word) := by
    by_contra hx
    obtain ⟨y, hy, hfield⟩ := hs _ hx
    obtain ⟨j, hj⟩ := T.dvd_spot hy
    have hy' := hne y hy
    rcases hfield with hsz | hm | ⟨hf, -⟩
    · exact hno ⟨y, hy, hsz⟩
    · obtain ⟨q, hq⟩ := hr.tiled.holds hy
      have hbyte := magic_byte hq.magic
      rw [show y.1 + 3 * t.word = p - t.blockHeader + t.word by omega, hflag] at hbyte
      cases hbyte
    · omega
  -- and the magic number changed
  have hchanged : h.mem.read (p - t.blockHeader + 3 * t.word) 4 ≠ m₁.read (p - t.blockHeader + 3 * t.word) 4 := by
    intro he
    exact hold ⟨by rw [← hsame]; exact hflag, he.symm.trans hmagic⟩
  obtain ⟨x, h1, h2, hx⟩ := Mem.read_ne hchanged
  obtain ⟨y, hy, hfield⟩ := hs x hx
  obtain ⟨j, hj⟩ := T.dvd_spot hy
  have hy' := hne y hy
  obtain ⟨q, hq⟩ := hr.tiled.holds hy
  rcases hfield with (⟨h3, h4⟩ | ⟨h3, h4⟩) | hm | ⟨hf, hval⟩
  · -- a size is too small for a magic number
    have hle := Mem.read_part_le h.mem y.1 (p - t.blockHeader + 3 * t.word - y.1) 4
      (y.1 + t.word - (p - t.blockHeader + 3 * t.word) - 4)
    have hbound := (spots_bounds hy).2
    have hsize := hq.size
    have hheap : HEAP_SIZE = 65536 := rfl
    have hmag : MEMORY_MAGIC = 0xDEADBEEF := rfl
    unfold blockMagic at hmagic
    unfold blockSize at hsize
    rw [T.total] at hbound
    rw [show y.1 + (p - t.blockHeader + 3 * t.word - y.1) = p - t.blockHeader + 3 * t.word by omega, hmagic,
      show p - t.blockHeader + 3 * t.word - y.1 + (4 + (y.1 + t.word - (p - t.blockHeader + 3 * t.word) - 4)) =
        t.word by omega, hsize] at hle
    omega
  · -- a link over it means a size over the flag
    exact hno ⟨y, hy, .inl ⟨by omega, by omega⟩⟩
  · omega
  · -- a flag is not its low byte
    have hbyte := magic_byte hmagic
    rw [show p - t.blockHeader + 3 * t.word = x by omega] at hbyte
    rcases hval with h0 | h0
    · rw [h0] at hbyte; cases hbyte
    · rw [h0] at hbyte; cases hbyte

end Rtos.Heap
