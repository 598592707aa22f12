import Rtos.Heap.Layout

/-!
# The loops of memory.c on a row of blocks

On memory that holds a row of blocks the search of `find_best_fit` is `pick`,
what `split_block` and the store to `is_free` make of a free block is `split`,
and the walk of `merge_free_blocks` is `merge`. Each changes bytes of headers
only (`Untouched`).
-/
namespace Rtos.Heap

open Rtos.Core Rtos.Core.Blocks

variable {t : Target} {m m' m'' : Mem} {a e p q n x : Nat} {b c : Blk} {bs cs : List Blk}

theorem Target.sizeMod_ge (t : Target) : 2 ^ 32 ≤ t.sizeMod := by
  have h : 4 ≤ t.word := t.word_ge
  calc
    2 ^ 32 = 256 ^ 4 := by decide
    _ ≤ 256 ^ t.word := Nat.pow_le_pow_right (by decide) h

/-- The memories differ in the headers of these blocks at most. -/
def Untouched (t : Target) (m m' : Mem) (a : Nat) (bs : List Blk) : Prop :=
  ∀ x, (∀ y ∈ spots t.blockHeader a bs, x < y.1 ∨ y.1 + t.blockHeader ≤ x) → m' x = m x

theorem Untouched.refl (m : Mem) (a : Nat) (bs : List Blk) : Untouched t m m a bs := fun _ _ => rfl

theorem Untouched.range (h : Untouched t m m' a bs)
    (hx : x < a ∨ a + span t.blockHeader bs ≤ x) : m' x = m x :=
  h x fun y hy => by have := spots_bounds hy; omega

/-- A row that lies apart is as before. -/
theorem Tiled.apart (h : Tiled t m e a bs) (hu : Untouched t m m' p cs)
    (hp : a + span t.blockHeader bs ≤ p ∨ p + span t.blockHeader cs ≤ a) : Tiled t m' e a bs :=
  h.frame_range fun x h1 h2 => hu.range (by omega)

theorem Holds.apart (h : Holds t m a b q) (hu : Untouched t m m' p cs)
    (hp : a + t.blockHeader ≤ p ∨ p + span t.blockHeader cs ≤ a) : Holds t m' a b q :=
  h.congr fun x h1 h2 => hu.range (by omega)

/-! ## The search -/

theorem findBestFitLoop_tiled (size : Nat) (best : Nat × Nat) (ht : Tiled t m 0 a bs) (hn : bs.length ≤ n)
    (ha : 0 < a) (hs : a + span t.blockHeader bs < t.sizeMod) :
    findBestFitLoop t m size n (link a 0 bs) best.1 best.2 = some (pick t.blockHeader size a bs best).2 := by
  induction bs generalizing a n best with
  | nil => unfold findBestFitLoop; rw [link, if_pos rfl, pick]
  | cons b bs ih =>
    obtain ⟨hb, ht⟩ := ht
    rw [span_cons] at hs
    obtain ⟨n, rfl⟩ : ∃ n', n = n' + 1 := ⟨n - 1, by rw [List.length_cons] at hn; omega⟩
    rw [List.length_cons] at hn
    have ih := fun best => ih (n := n) best ht (by omega) (by omega) (by omega)
    have hsub : size ≤ b.size → t.sub b.size size = b.size - size :=
      fun h => Target.sub_of_le h (by omega)
    unfold findBestFitLoop
    rw [link, if_neg (by omega)]
    dsimp only
    rw [hb.free, hb.size, hb.next, pick]
    by_cases hc : b.free = true ∧ size ≤ b.size ∧ b.size - size < best.1
    · rw [if_pos hc, if_pos ⟨hc.1, hc.2.1, by rw [hsub hc.2.1]; exact hc.2.2⟩, hsub hc.2.1]
      exact ih (b.size - size, a)
    · rw [if_neg hc, if_neg fun h => hc ⟨h.1, h.2.1, by rw [← hsub h.2.1]; exact h.2.2⟩]
      exact ih best

/-! ## The split -/

theorem untouched_split (slack : Nat) {m' : Mem}
    (h1 : n + t.blockHeader + slack ≤ b.size → ∀ x, (x < p ∨ p + t.blockHeader ≤ x) →
      (x < p + t.blockHeader + n ∨ p + t.blockHeader + n + t.blockHeader ≤ x) → m' x = m x)
    (h2 : ¬ n + t.blockHeader + slack ≤ b.size → ∀ x, (x < p ∨ p + t.blockHeader ≤ x) → m' x = m x) :
    Untouched t m m' p (split t.blockHeader slack b n) := by
  unfold split
  split
  · rename_i h
    exact fun x hx => h1 h x (hx (p, ⟨n, false⟩) (by simp [spots]))
      (hx (p + t.blockHeader + n, ⟨b.size - n - t.blockHeader, true⟩) (by simp [spots]))
  · rename_i h
    exact fun x hx => h2 h x (hx (p, ⟨b.size, false⟩) (by simp [spots]))

/-- A free block split and marked as used. -/
theorem splitBlock_tiled (hb : Holds t m p b q) (hn : n ≤ b.size) (hq : q < t.sizeMod)
    (hsz : b.size ≤ HEAP_SIZE) (hs : p + t.blockHeader + b.size < t.sizeMod) :
    Tiled t (setIsFree t (splitBlock t m p n) p false) q p (split t.blockHeader 32 b n) ∧
    Untouched t m (setIsFree t (splitBlock t m p n) p false) p (split t.blockHeader 32 b n) := by
  have hmod := t.sizeMod_ge
  have hhdr := t.header_le
  have hheap : HEAP_SIZE = 65536 := rfl
  have hadd : t.add (t.add n t.blockHeader) 32 = n + t.blockHeader + 32 := by
    rw [Target.add_of_lt (p := n) (by omega), Target.add_of_lt (by omega)]
  unfold splitBlock
  rw [hb.size, hadd]
  by_cases hc : n + t.blockHeader + 32 ≤ b.size
  · rw [if_pos hc]
    have hsub : t.sub (t.sub b.size n) t.blockHeader = b.size - n - t.blockHeader := by
      rw [Target.sub_of_le hn (by omega), Target.sub_of_le (by omega) (by omega)]
    dsimp only
    rw [hsub]
    -- the four stores to the new header leave the old one alone
    have h2 : Holds t (setIsFree t (setSize t m (p + t.blockHeader + n) (b.size - n - t.blockHeader))
        (p + t.blockHeader + n) true) p b q :=
      hb.congr fun x h1 h2 => by rw [setIsFree_outside (by omega), setSize_outside (by omega)]
    rw [h2.next]
    have hnew := holds_fresh (t := t) m (p + t.blockHeader + n) (s := b.size - n - t.blockHeader) (q := q)
      (f := true) (by omega) hq
    have hold : Holds t (setMagic t (setNext t (setIsFree t (setSize t m (p + t.blockHeader + n)
        (b.size - n - t.blockHeader)) (p + t.blockHeader + n) true) (p + t.blockHeader + n) q)
        (p + t.blockHeader + n) MEMORY_MAGIC) p b q := hb.congr fun x h1 h2 => by
      rw [setMagic_outside (by omega), setNext_outside (by omega), setIsFree_outside (by omega),
        setSize_outside (by omega)]
    refine ⟨?_, untouched_split 32 (fun _ x h3 h4 => ?_) (fun h => absurd hc h)⟩
    · rw [split, if_pos hc]
      refine ⟨((hold.setSize (by omega)).setNext (by omega)).setIsFree false, ?_, trivial⟩
      refine hnew.congr fun x h1 h2 => ?_
      rw [setIsFree_outside (by omega), setNext_outside (by omega), setSize_outside (by omega)]
    · rw [setIsFree_outside h3, setNext_outside h3, setSize_outside h3, setMagic_outside h4,
        setNext_outside h4, setIsFree_outside h4, setSize_outside h4]
  · rw [if_neg hc]
    refine ⟨?_, untouched_split 32 (fun h => absurd h hc) (fun _ x h3 => setIsFree_outside h3)⟩
    rw [split, if_neg hc]
    exact ⟨hb.setIsFree false, trivial⟩

/-! ## The merge -/

/-- Two neighbours become one block; only the first header changes. -/
theorem mergeNext_tiled (ht : Tiled t m 0 a (b :: c :: bs))
    (hs : a + span t.blockHeader (b :: c :: bs) < t.sizeMod) :
    Tiled t (mergeNext t m a) 0 a (⟨b.size + (t.blockHeader + c.size), b.free⟩ :: bs) ∧
    ∀ x, (x < a ∨ a + t.blockHeader ≤ x) → mergeNext t m a x = m x := by
  obtain ⟨hb, hc, ht⟩ := ht
  simp only [span_cons] at hs
  have hadd : t.add b.size (t.add t.blockHeader c.size) = b.size + (t.blockHeader + c.size) := by
    rw [Target.add_of_lt (p := t.blockHeader) (by omega), Target.add_of_lt (by omega)]
  have hrow : a + t.blockHeader + b.size + t.blockHeader + c.size =
      a + t.blockHeader + (b.size + (t.blockHeader + c.size)) := by omega
  have hl : link (a + t.blockHeader + b.size + t.blockHeader + c.size) 0 bs < t.sizeMod := by
    cases bs <;> simp only [link] <;> omega
  have hnext : blockNext t m a = a + t.blockHeader + b.size := hb.next
  -- the store to `size` leaves `next` and the header behind it alone
  have h1 := hb.setSize (v := b.size + (t.blockHeader + c.size)) (by omega)
  have hnext' : blockNext t (setSize t m a (b.size + (t.blockHeader + c.size))) a =
      a + t.blockHeader + b.size := h1.next
  have hc' : Holds t (setSize t m a (b.size + (t.blockHeader + c.size))) (a + t.blockHeader + b.size) c
      (link (a + t.blockHeader + b.size + t.blockHeader + c.size) 0 bs) :=
    hc.congr fun x h3 h4 => setSize_outside (by omega)
  have e : mergeNext t m a = setNext t (setSize t m a (b.size + (t.blockHeader + c.size))) a
      (link (a + t.blockHeader + b.size + t.blockHeader + c.size) 0 bs) := by
    simp only [mergeNext, hnext, hb.size, hc.size, hadd, hnext', hc'.next]
  have hout : ∀ x, (x < a ∨ a + t.blockHeader ≤ x) → mergeNext t m a x = m x := by
    intro x hx
    rw [e, setNext_outside hx, setSize_outside hx]
  have h2 := h1.setNext hl
  rw [← e, hrow] at h2
  rw [hrow] at ht
  exact ⟨⟨h2, ht.frame_range fun x h3 h4 => hout x (by omega)⟩, hout⟩

theorem mergeLoop_tiled (ht : Tiled t m 0 a (b :: bs)) (hn : bs.length ≤ n) (ha : 0 < a)
    (hs : a + span t.blockHeader (b :: bs) < t.sizeMod) :
    ∃ m', mergeLoop t n m a = some m' ∧ Tiled t m' 0 a (merge t.blockHeader b bs) ∧
      Untouched t m m' a (b :: bs) := by
  induction n generalizing a b bs m with
  | zero =>
    obtain rfl : bs = [] := List.length_eq_zero_iff.1 (by omega)
    exact ⟨m, by unfold mergeLoop; rw [if_pos (.inr ht.1.next)], ht, .refl m _ _⟩
  | succ n ih =>
    cases bs with
    | nil => exact ⟨m, by unfold mergeLoop; rw [if_pos (.inr ht.1.next)], ht, .refl m _ _⟩
    | cons c bs =>
      have hnext : blockNext t m a = a + t.blockHeader + b.size := ht.1.next
      rw [List.length_cons] at hn
      unfold mergeLoop
      rw [if_neg (by rw [hnext]; omega)]
      dsimp only
      rw [hnext, ht.1.free, ht.2.1.free, merge]
      split
      · obtain ⟨h1, hout⟩ := mergeNext_tiled ht hs
        simp only [span_cons] at hs
        obtain ⟨m', e, hm', hu⟩ := ih h1 (by omega) ha (by rw [span_cons]; dsimp only; omega)
        refine ⟨m', e, hm', fun x hx => ?_⟩
        have hxa := hx (a, b) (by simp [spots])
        rw [hu x fun y hy => ?_, hout x hxa]
        rcases List.mem_cons.1 hy with rfl | hy
        · exact hxa
        · apply hx y
          simp only [spots, List.mem_cons]
          right; right
          simpa only [Nat.add_assoc] using hy
      · obtain ⟨hb, ht⟩ := ht
        rw [span_cons] at hs
        obtain ⟨m', e, hm', hu⟩ := ih ht (by omega) (by omega) (by omega)
        refine ⟨m', e, ⟨?_, hm'⟩, fun x hx => hu x fun y hy => hx y (List.mem_cons_of_mem _ hy)⟩
        have hl : link (a + t.blockHeader + b.size) 0 (merge t.blockHeader c bs) =
            a + t.blockHeader + b.size := by
          obtain ⟨s, rest, e⟩ := merge_head t.blockHeader c bs
          rw [e]; rfl
        rw [hl]
        exact hb.apart hu (.inl (by omega))

/-! ## The statistics -/

/-- The sizes of the free blocks. -/
def freeSizes (bs : List Blk) : List Nat := (bs.filter (·.free)).map (·.size)

theorem fragmentationLoop_tiled {largest total : Nat} (ht : Tiled t m 0 a bs) (hn : bs.length ≤ n) (ha : 0 < a)
    (hs : total + span t.blockHeader bs < t.sizeMod) :
    fragmentationLoop t m n (link a 0 bs) largest total =
      some ((freeSizes bs).foldl max largest, total + (freeSizes bs).sum) := by
  induction bs generalizing a n largest total with
  | nil => unfold fragmentationLoop; rw [link, if_pos rfl]; rfl
  | cons b bs ih =>
    obtain ⟨hb, ht⟩ := ht
    rw [span_cons] at hs
    obtain ⟨n, rfl⟩ : ∃ n', n = n' + 1 := ⟨n - 1, by rw [List.length_cons] at hn; omega⟩
    rw [List.length_cons] at hn
    have ih := fun {l s} => @ih (a + t.blockHeader + b.size) n l s ht (by omega) (by omega)
    unfold fragmentationLoop
    rw [link, if_neg (by omega)]
    dsimp only
    rw [hb.free, hb.size, hb.next]
    by_cases hf : b.free = true
    · have hmax : (if b.size > largest then b.size else largest) = max largest b.size := by
        split <;> omega
      rw [if_pos hf, Target.add_of_lt (by omega), ih (by omega), hmax]
      simp only [freeSizes, List.filter_cons_of_pos hf, List.map_cons, List.foldl_cons, List.sum_cons,
        Nat.add_assoc]
    · rw [if_neg hf, ih (by omega)]
      simp only [freeSizes, List.filter_cons_of_neg hf]

end Rtos.Heap
