import Rtos.Heap.Usage

/-!
# Headers off the word boundary of a 64-bit host

`align_size` rounds to 4 bytes on every target. On the 64-bit host, where the
tests run, a `memory_block_t` holds words of 8 bytes, and a block that is
split for a size that is an odd multiple of 4 puts the header of its rest, and
every payload behind it, off the word boundary: 100 bytes, as in
`tests/test_main.c`, are enough.

`word_aligned`: all headers and payloads of a run lie on word boundaries if
and only if every size for which a block is split is rounded to a multiple of
the word. With 32-bit words every size is.
-/
namespace Rtos.Heap

open Rtos.Core Rtos.Core.Blocks

/-- The address is a number of words behind the start of the heap. -/
def OnWord (t : Target) (x : Nat) : Prop := ∃ k, x = t.heapMemory + t.word * k

/-- Every header of the block list and every payload handed out is on a word
boundary. -/
def WordAligned (t : Target) (s : HeapSys) : Prop :=
  (∃ bs, heapBlocks t s.heap = some bs ∧ ∀ y ∈ bs, OnWord t y.1) ∧ ∀ p ∈ s.live, OnWord t p

/-- `rtos_malloc` splits the block that it grants for `n` bytes. -/
def Splits (t : Target) (h : HeapState) (n : Nat) : Prop :=
  n ≠ 0 ∧ ∃ block, findBestFit t h (alignSize t n) = some block ∧ block ≠ 0 ∧
    alignSize t n + t.blockHeader + 32 ≤ blockSize t h.mem block

/-- A size for which a block is split is rounded to a multiple of the word. -/
def RoundsToWord (t : Target) (s : HeapSys) : HeapCall → Prop
  | .malloc size => Splits t s.heap size → t.word ∣ alignSize t size
  | _ => True

variable {t : Target} {s s' : HeapSys} {c : HeapCall} {h h' : HeapState} {T : Tiling t.blockHeader}
  {pre post : List Blk} {b : Blk} {p n x : Nat}

theorem dvd_word_header (t : Target) : t.word ∣ t.blockHeader := Nat.dvd_mul_left t.word 4

/-- The invariant: all block sizes are numbers of words. -/
def Worded (t : Target) (s : HeapSys) : Prop :=
  ∃ T : Tiling t.blockHeader, Represents t s.heap T ∧
    s.live.Perm (payloads t.blockHeader t.heapMemory T.blocks) ∧ ∀ c ∈ T.blocks, t.word ∣ c.size

theorem onWord_spot (hw : ∀ c ∈ T.blocks, t.word ∣ c.size) {y : Nat × Blk}
    (hy : y ∈ spots t.blockHeader t.heapMemory T.blocks) : OnWord t y.1 := by
  obtain ⟨pre, post, he, hpre⟩ := spots_split hy
  have hdvd : ∀ c ∈ pre, t.word ∣ c.size := fun c hc => hw c (by rw [he]; simp [hc])
  obtain ⟨k, hk⟩ := dvd_span (dvd_word_header t) hdvd
  exact ⟨k, by rw [hpre, hk]⟩

theorem OnWord.add (hx : OnWord t x) (hn : t.word ∣ n) : OnWord t (x + n) := by
  obtain ⟨k, rfl⟩ := hx
  obtain ⟨j, rfl⟩ := hn
  exact ⟨k + j, by rw [Nat.mul_add]; omega⟩

/-- An offset from a word boundary to another is a number of words. -/
theorem OnWord.dvd (hx : OnWord t x) (hn : OnWord t (x + n)) : t.word ∣ n := by
  obtain ⟨k, hk⟩ := hx
  obtain ⟨j, hj⟩ := hn
  have h1 : t.word ∣ t.word * k + n := ⟨j, by omega⟩
  exact (Nat.dvd_add_right (Nat.dvd_mul_right _ _)).1 h1

theorem Worded.aligned (hw : Worded t s) : WordAligned t s := by
  obtain ⟨T, hr, hl, hsize⟩ := hw
  refine ⟨⟨_, hr.blocks, fun y hy => onWord_spot hsize hy⟩, fun p hp => ?_⟩
  obtain ⟨y, hy, -, rfl⟩ := mem_payloads.1 (hl.subset hp)
  exact (onWord_spot hsize hy).add (dvd_word_header t)

theorem boot_worded (t : Target) : Worded t (HeapSys.boot t) := by
  refine ⟨.fresh t.dvd_header t.header_le_heap, init_represents (h := HeapState.static) rfl, .nil, fun c hc => ?_⟩
  rw [List.mem_singleton.1 hc]
  have hheap : t.word ∣ HEAP_SIZE := by rcases t.word_eq with h | h <;> rw [h] <;> decide
  exact Nat.dvd_sub hheap (dvd_word_header t)

/-- An allocation leaves the sizes as they are, or cuts a block at the rounded size. -/
theorem malloc_splits (hr : Represents t h T) (n : Nat) :
    (rtosMalloc t h n = some (h, 0) ∧ ¬ Splits t h n) ∨
    ∃ h' pre b post T', rtosMalloc t h n =
        some (h', t.heapMemory + span t.blockHeader pre + t.blockHeader) ∧
      T.blocks = pre ++ b :: post ∧ b.free = true ∧ Represents t h' T' ∧
      T'.blocks = pre ++ split t.blockHeader 32 b (alignSize t n) ++ post ∧
      (Splits t h n ↔ alignSize t n + t.blockHeader + 32 ≤ b.size) := by
  have hplaced := t.placed
  rcases malloc_represents hr n with ⟨e, hno⟩ | ⟨pre, post, b, he, hb, h', e, hr', -⟩
  · refine .inl ⟨e, fun hs => ?_⟩
    obtain ⟨hn, block, hf, h0, -⟩ := hs
    rcases findBestFit_represents hr (alignSize t n) with ⟨e', -⟩ | ⟨pre, b, post, he, hb, -⟩
    · exact h0 (Option.some.inj (hf.symm.trans e'))
    · have := hno.resolve_left hn b (by rw [he]; simp) hb.free
      have := hb.fits
      omega
  · refine .inr ⟨h', pre, b, post, _, e, he, hb.free, hr', rfl, ?_⟩
    obtain ⟨hn, hfound, -⟩ := malloc_some e (by omega)
    rw [Nat.add_sub_cancel] at hfound
    have ht := hr.tiled
    rw [he] at ht
    have hsize : blockSize t h.mem (t.heapMemory + span t.blockHeader pre) = b.size := (tiled_append.1 ht).2.1.size
    constructor
    · intro hs
      obtain ⟨-, block, hf, -, hle⟩ := hs
      obtain rfl := Option.some.inj (hfound.symm.trans hf)
      rwa [hsize] at hle
    · exact fun hle => ⟨hn, _, hfound, by omega, by rwa [hsize]⟩

theorem malloc_worded (hi : Worded t s) (n : Nat) (hs : s.call t (.malloc n) = some s') :
    (Splits t s.heap n → t.word ∣ alignSize t n) ∧ Worded t s' ∨
    ¬ (Splits t s.heap n → t.word ∣ alignSize t n) ∧ ¬ WordAligned t s' := by
  obtain ⟨T, hr, hl, hw⟩ := hi
  have hplaced := t.placed
  unfold HeapSys.call at hs
  dsimp only at hs
  rcases malloc_splits hr n with ⟨e, hno⟩ | ⟨h', pre, b, post, T', e, he, hb, hr', he', hsplit⟩
  · rw [e, Option.map_some, if_pos rfl] at hs
    cases hs
    exact .inl ⟨fun h => absurd h hno, T, hr, hl, hw⟩
  rw [e, Option.map_some, if_neg (by dsimp only; omega)] at hs
  cases hs
  have hpre : ∀ c ∈ pre, t.word ∣ c.size := fun c hc => hw c (by rw [he]; simp [hc])
  have hbw : t.word ∣ b.size := hw b (by rw [he]; simp)
  by_cases hc : Splits t s.heap n → t.word ∣ alignSize t n
  · refine .inl ⟨hc, T', hr', ?_, fun d hd => ?_⟩
    · rw [he']
      exact payloads_granted 32 _ hb (he ▸ hl)
    · rw [he'] at hd
      rcases List.mem_append.1 hd with hd | hd
      · rcases List.mem_append.1 hd with hd | hd
        · exact hpre d hd
        · unfold split at hd
          split at hd
          · rename_i hle
            have ha := hc (hsplit.2 hle)
            rcases List.mem_cons.1 hd with rfl | hd
            · exact ha
            · rw [List.mem_singleton.1 hd]
              exact Nat.dvd_sub (Nat.dvd_sub hbw ha) (dvd_word_header t)
          · rw [List.mem_singleton.1 hd]
            exact hbw
      · exact hw d (by rw [he]; simp [hd])
  · -- the header of the rest lies off the boundary
    refine .inr ⟨hc, fun ha => ?_⟩
    obtain ⟨hs, hnot⟩ := Classical.not_imp.1 hc
    obtain ⟨⟨bs, hbs, hall⟩, -⟩ := ha
    rw [hr'.blocks] at hbs
    cases hbs
    have hle := hsplit.1 hs
    have hspot : (t.heapMemory + span t.blockHeader pre + t.blockHeader + alignSize t n,
        (⟨b.size - alignSize t n - t.blockHeader, true⟩ : Blk)) ∈ spots t.blockHeader t.heapMemory T'.blocks := by
      rw [he', spots_append, spots_append, split, if_pos hle]
      simp [spots]
    obtain ⟨k, hk⟩ := dvd_span (dvd_word_header t) hpre
    have hstart : OnWord t (t.heapMemory + span t.blockHeader pre + t.blockHeader) :=
      OnWord.add ⟨k, by rw [hk]⟩ (dvd_word_header t)
    exact hnot (hstart.dvd (hall _ hspot))

theorem free_worded (hi : Worded t s) (hp : p ∈ s.live) (hs : s.call t (.free p) = some s') : Worded t s' := by
  obtain ⟨T, hr, hl, hw⟩ := hi
  obtain ⟨pre, b, post, he, hf, rfl⟩ := payloads_block (hl.subset hp)
  obtain ⟨h', e, hr', -⟩ := free_represents hr he hf
  unfold HeapSys.call at hs
  dsimp only at hs
  rw [e, Option.map_some] at hs
  cases hs
  refine ⟨_, hr', payloads_released hf (he ▸ hl), dvd_coalesce (dvd_word_header t) _ fun c hc => ?_⟩
  rcases List.mem_append.1 hc with hc | hc
  · exact hw c (by rw [he]; simp [hc])
  · rcases List.mem_cons.1 hc with rfl | hc
    · exact hw b (by rw [he]; simp)
    · exact hw c (by rw [he]; simp [hc])

/-- A call that meets the condition keeps all sizes numbers of words. -/
theorem worded_step (hi : Worded t s) (hc : RoundsToWord t s c) (hs : (heapSys t).step s c s') : Worded t s' := by
  cases c with
  | malloc n => exact ((malloc_worded hi n hs.2).resolve_right fun h => h.1 hc).2
  | free p => exact free_worded hi hs.1 hs.2
  | store x v =>
    obtain ⟨T, hr, hl, hw⟩ := hi
    have e := hs.2
    cases e
    exact ⟨T, store_represents hr hl v hs.1, hl, hw⟩

/-- **When headers and payloads are word-aligned** all along a run: if every
block that is split is split for a size rounded to a multiple of the word. -/
theorem word_aligned (t : Target) (calls : List HeapCall) :
    (heapSys t).Always (WordAligned t) (HeapSys.boot t) calls ↔
    (heapSys t).Steps (RoundsToWord t) (HeapSys.boot t) calls := by
  apply LTS.always_iff_steps (I := Worded t) (fun s hw => hw.aligned) (fun s c s' hi hc hs => worded_step hi hc hs)
    ?_ calls _ (boot_worded t)
  intro s c s' hi hc hs
  cases c with
  | malloc n => exact ((malloc_worded hi n hs.2).resolve_left fun h => hc h.1).2
  | free p => exact absurd trivial hc
  | store x v => exact absurd trivial hc

/-- With words of 4 bytes every run meets the condition. -/
theorem word_aligned_32 (hw : t.word = 4) (h : (heapSys t).Reachable s) : WordAligned t s := by
  have hi : (heapSys t).Inductive (Worded t) := by
    refine ⟨fun s h => h ▸ boot_worded t, fun s c s' hi hs => worded_step hi ?_ hs⟩
    cases c with
    | malloc n => exact fun _ => hw ▸ dvd_alignSize t n
    | free p => trivial
    | store x v => trivial
  exact (hi.reachable s h).aligned

/-- A 64-bit host with its heap on a page boundary. -/
def host : Target := ⟨8, 0x404000, by decide, by decide, by decide⟩

/-- 100 bytes on the host: the rest of the heap starts at an odd multiple of 4. -/
theorem host_misaligned : ∃ s, (heapSys host).Reachable s ∧ ¬ WordAligned host s := by
  obtain ⟨s, -, h, hs⟩ := LTS.reachable_of_exec (M := heapSys host) LTS.step_of_guarded rfl
    (fun s => (heapBlocks host s.heap).map (·.map (·.1)) = some [0x404000, 0x404084]) [.malloc 100] (by decide +kernel)
  refine ⟨s, h, fun ha => ?_⟩
  obtain ⟨⟨bs, hbs, hall⟩, -⟩ := ha
  rw [hbs, Option.map_some] at hs
  have hmem : 0x404084 ∈ bs.map (·.1) := by rw [Option.some.inj hs]; decide
  obtain ⟨y, hy, e⟩ := List.mem_map.1 hmem
  obtain ⟨k, hk⟩ := hall y hy
  have hword : host.word = 8 := rfl
  have hstart : host.heapMemory = 0x404000 := rfl
  rw [hword, hstart] at hk
  omega

end Rtos.Heap
