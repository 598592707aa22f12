import Mathlib.Algebra.GroupWithZero.Nat
import Mathlib.Data.List.Chain

/-!
# Block lists of an allocator

A region cut into blocks, each with a header of `hdr` bytes before its
payload. A block list has no addresses: the first block lies where the region
starts and every block right behind the one before (`spots`), so a list whose
spans add up to the region's size tiles it.

`pick` is the search for the first best fit, `split` cuts a granted block off
a free one, `coalesce` merges neighbouring free blocks from left to right.
Splitting and coalescing keep the total span and the allocated blocks with
their addresses, and a coalesced list has no two neighbouring free blocks. It
is determined by its allocated blocks (`eq_of_allocated`).
-/
namespace Rtos.Core

structure Blk where
  size : Nat
  free : Bool
  deriving DecidableEq, Repr

namespace Blocks

variable (hdr : Nat)

/-- Bytes of a block list, headers included. -/
def span : List Blk → Nat
  | [] => 0
  | b :: bs => hdr + b.size + span bs

/-- The blocks with the addresses of their headers. -/
def spots : Nat → List Blk → List (Nat × Blk)
  | _, [] => []
  | a, b :: bs => (a, b) :: spots (a + hdr + b.size) bs

/-- No two neighbours are both free. -/
def Coalesced (bs : List Blk) : Prop := bs.IsChain fun b c => ¬ (b.free = true ∧ c.free = true)

variable {hdr} {a n : Nat} {b c : Blk} {bs pre post : List Blk}

@[simp] theorem span_nil : span hdr [] = 0 := rfl

@[simp] theorem span_cons : span hdr (b :: bs) = hdr + b.size + span hdr bs := rfl

theorem span_append (bs cs : List Blk) : span hdr (bs ++ cs) = span hdr bs + span hdr cs := by
  induction bs with
  | nil => simp
  | cons b bs ih => rw [List.cons_append, span_cons, span_cons, ih]; omega

theorem spots_append (bs cs : List Blk) :
    spots hdr a (bs ++ cs) = spots hdr a bs ++ spots hdr (a + span hdr bs) cs := by
  induction bs generalizing a with
  | nil => simp [spots]
  | cons b bs ih =>
    rw [List.cons_append, spots, spots, ih, List.cons_append, span_cons]
    simp only [Nat.add_assoc]

theorem dvd_span {d : Nat} (hd : d ∣ hdr) (hb : ∀ c ∈ bs, d ∣ c.size) : d ∣ span hdr bs := by
  induction bs with
  | nil => exact Nat.dvd_zero d
  | cons b bs ih =>
    rw [span_cons]
    exact Nat.dvd_add (Nat.dvd_add hd (hb b List.mem_cons_self)) (ih fun c hc => hb c (List.mem_cons_of_mem _ hc))

/-- Every block lies inside the region. -/
theorem spots_bounds {y : Nat × Blk} (hy : y ∈ spots hdr a bs) :
    a ≤ y.1 ∧ y.1 + hdr + y.2.size ≤ a + span hdr bs := by
  induction bs generalizing a with
  | nil => cases hy
  | cons b bs ih =>
    rw [span_cons]
    rcases List.mem_cons.1 hy with rfl | hy
    · exact ⟨Nat.le_refl _, by dsimp only; omega⟩
    · have := ih hy
      omega

/-- Two blocks of one region are the same or apart. -/
theorem spots_eq_or_apart {x y : Nat × Blk} (hx : x ∈ spots hdr a bs) (hy : y ∈ spots hdr a bs) :
    x = y ∨ x.1 + hdr + x.2.size ≤ y.1 ∨ y.1 + hdr + y.2.size ≤ x.1 := by
  induction bs generalizing a with
  | nil => cases hx
  | cons b bs ih =>
    rcases List.mem_cons.1 hx with rfl | hx' <;> rcases List.mem_cons.1 hy with rfl | hy'
    · exact .inl rfl
    · exact .inr (.inl (spots_bounds hy').1)
    · exact .inr (.inr (spots_bounds hx').1)
    · exact ih hx' hy'

/-- A block of the region cuts its list in two. -/
theorem spots_split {y : Nat × Blk} (hy : y ∈ spots hdr a bs) :
    ∃ pre post, bs = pre ++ y.2 :: post ∧ y.1 = a + span hdr pre := by
  induction bs generalizing a with
  | nil => cases hy
  | cons b bs ih =>
    rcases List.mem_cons.1 hy with rfl | hy
    · exact ⟨[], bs, rfl, rfl⟩
    · obtain ⟨pre, post, h1, h2⟩ := ih hy
      exact ⟨b :: pre, post, by rw [h1]; rfl, by rw [h2, span_cons]; omega⟩

theorem spots_map (hdr a : Nat) (bs : List Blk) : (spots hdr a bs).map (·.2) = bs := by
  induction bs generalizing a with
  | nil => rfl
  | cons b bs ih => rw [spots, List.map_cons, ih]

/-- So does a cut of the list with addresses. -/
theorem spots_eq_append {y : Nat × Blk} {ps qs : List (Nat × Blk)} (h : spots hdr a bs = ps ++ y :: qs) :
    bs = ps.map (·.2) ++ y.2 :: qs.map (·.2) ∧ y.1 = a + span hdr (ps.map (·.2)) := by
  induction ps generalizing a bs with
  | nil =>
    cases bs with
    | nil => cases h
    | cons b bs =>
      obtain ⟨rfl, rfl⟩ := List.cons.inj h
      exact ⟨by rw [spots_map]; rfl, rfl⟩
  | cons p ps ih =>
    cases bs with
    | nil => cases h
    | cons b bs =>
      obtain ⟨rfl, hrest⟩ := List.cons.inj h
      obtain ⟨h1, h2⟩ := ih hrest
      refine ⟨?_, ?_⟩
      · rw [h1]; rfl
      · rw [h2, List.map_cons, span_cons]
        dsimp only
        omega

/-- The flag of a block moves no block. -/
theorem spots_flag {y : Nat × Blk} {s : Nat} {f : Bool} (hy : y ∈ spots hdr a (pre ++ ⟨s, f⟩ :: post))
    (g : Bool) : ∃ z ∈ spots hdr a (pre ++ ⟨s, g⟩ :: post), z.1 = y.1 := by
  rw [spots_append] at hy ⊢
  rcases List.mem_append.1 hy with hy | hy
  · exact ⟨y, List.mem_append_left _ hy, rfl⟩
  · rcases List.mem_cons.1 hy with rfl | hy
    · exact ⟨_, List.mem_append_right _ List.mem_cons_self, rfl⟩
    · exact ⟨y, List.mem_append_right _ (List.mem_cons_of_mem _ hy), rfl⟩

/-! ## The allocated blocks -/

variable (hdr) in
/-- The allocated blocks with the addresses of their headers. -/
def allocated (a : Nat) (bs : List Blk) : List (Nat × Blk) := (spots hdr a bs).filter (!·.2.free)

theorem allocated_append (bs cs : List Blk) :
    allocated hdr a (bs ++ cs) = allocated hdr a bs ++ allocated hdr (a + span hdr bs) cs := by
  rw [allocated, spots_append, List.filter_append]; rfl

theorem allocated_free (hb : b.free = true) :
    allocated hdr a (b :: bs) = allocated hdr (a + hdr + b.size) bs := by
  simp [allocated, spots, hb]

theorem allocated_used (hb : b.free = false) :
    allocated hdr a (b :: bs) = (a, b) :: allocated hdr (a + hdr + b.size) bs := by
  simp [allocated, spots, hb]

theorem allocated_eq_nil (h : ∀ c ∈ bs, c.free = true) : allocated hdr a bs = [] := by
  induction bs generalizing a with
  | nil => rfl
  | cons b bs ih =>
    rw [allocated_free (h b List.mem_cons_self), ih fun c hc => h c (List.mem_cons_of_mem _ hc)]

variable (hdr) in
/-- Where the payloads of the allocated blocks start. -/
def payloads (a : Nat) (bs : List Blk) : List Nat := (allocated hdr a bs).map (·.1 + hdr)

theorem mem_payloads {p : Nat} : p ∈ payloads hdr a bs ↔
    ∃ y ∈ spots hdr a bs, y.2.free = false ∧ p = y.1 + hdr := by
  rw [payloads, List.mem_map]
  constructor
  · intro hi
    obtain ⟨y, hy, rfl⟩ := hi
    obtain ⟨h1, h2⟩ := List.mem_filter.1 hy
    exact ⟨y, h1, by simpa using h2, rfl⟩
  · intro hi
    obtain ⟨y, h1, h2, rfl⟩ := hi
    exact ⟨y, List.mem_filter.2 ⟨h1, by simp [h2]⟩, rfl⟩

/-! ## The best fit -/

variable (hdr n) in
/-- One pass over the blocks with the best difference so far and the address
it was found at. -/
def pick : Nat → List Blk → Nat × Nat → Nat × Nat
  | _, [], best => best
  | a, b :: bs, best =>
    pick (a + hdr + b.size) bs
      (if b.free = true ∧ n ≤ b.size ∧ b.size - n < best.1 then (b.size - n, a) else best)

/-- The block `b` between `pre` and `post` is the first of the smallest free
ones that hold `n` bytes. -/
structure BestFit (n : Nat) (pre : List Blk) (b : Blk) (post : List Blk) : Prop where
  free : b.free = true
  fits : n ≤ b.size
  before : ∀ c ∈ pre, c.free = true → n ≤ c.size → b.size < c.size
  after : ∀ c ∈ post, c.free = true → n ≤ c.size → b.size ≤ c.size

variable (hdr n a bs) in
/-- The pass keeps the best so far if no block beats it, and otherwise stops
at the first best fit. -/
theorem pick_spec (best : Nat × Nat) :
    (pick hdr n a bs best = best ∧ ∀ c ∈ bs, c.free = true → n ≤ c.size → best.1 ≤ c.size - n) ∨
    ∃ pre b post, bs = pre ++ b :: post ∧ BestFit n pre b post ∧ b.size - n < best.1 ∧
      pick hdr n a bs best = (b.size - n, a + span hdr pre) := by
  induction bs generalizing a best with
  | nil => exact .inl ⟨rfl, by simp⟩
  | cons d bs ih =>
    unfold pick
    split
    · rename_i hd
      right
      rcases ih (a + hdr + d.size) (d.size - n, a) with ⟨e, hmin⟩ | ⟨pre, b, post, rfl, hb, hlt, e⟩
      · refine ⟨[], d, bs, rfl, ⟨hd.1, hd.2.1, by simp, fun c hc h1 h2 => ?_⟩, hd.2.2, by rw [e]; rfl⟩
        have := hmin c hc h1 h2
        dsimp only at this
        omega
      · have hbn := hb.fits
        refine ⟨d :: pre, b, post, rfl, ⟨hb.free, hbn, fun c hc h1 h2 => ?_, hb.after⟩, ?_, ?_⟩
        · rcases List.mem_cons.1 hc with rfl | hc
          · dsimp only at hlt; omega
          · exact hb.before c hc h1 h2
        · dsimp only at hlt; omega
        · rw [e, span_cons]; simp only [Nat.add_assoc]
    · rename_i hd
      rcases ih (a + hdr + d.size) best with ⟨e, hmin⟩ | ⟨pre, b, post, rfl, hb, hlt, e⟩
      · refine .inl ⟨e, fun c hc h1 h2 => ?_⟩
        rcases List.mem_cons.1 hc with rfl | hc
        · by_contra hlt
          exact hd ⟨h1, h2, by omega⟩
        · exact hmin c hc h1 h2
      · have hbn := hb.fits
        refine .inr ⟨d :: pre, b, post, rfl, ⟨hb.free, hbn, fun c hc h1 h2 => ?_, hb.after⟩, hlt, ?_⟩
        · rcases List.mem_cons.1 hc with rfl | hc
          · by_contra hge
            exact hd ⟨h1, h2, by omega⟩
          · exact hb.before c hc h1 h2
        · rw [e, span_cons]; simp only [Nat.add_assoc]

/-! ## Splitting -/

variable (hdr) in
/-- The free block `b` granted for `n` bytes: the rest is cut off if it has
room for a header and `slack` bytes. -/
def split (slack : Nat) (b : Blk) (n : Nat) : List Blk :=
  if n + hdr + slack ≤ b.size then [⟨n, false⟩, ⟨b.size - n - hdr, true⟩] else [⟨b.size, false⟩]

theorem span_split (slack : Nat) (b : Blk) (n : Nat) : span hdr (split hdr slack b n) = hdr + b.size := by
  unfold split
  split
  · simp only [span_cons, span_nil]; omega
  · rfl

theorem split_ne_nil (slack : Nat) (b : Blk) (n : Nat) : split hdr slack b n ≠ [] := by
  unfold split; split <;> simp

variable (hdr) in
/-- The size granted. -/
theorem split_head (slack : Nat) (b : Blk) (n : Nat) :
    ∃ g rest, split hdr slack b n = ⟨g, false⟩ :: rest ∧ (∀ c ∈ rest, c.free = true) := by
  unfold split
  split
  · exact ⟨n, [⟨b.size - n - hdr, true⟩], rfl, by simp⟩
  · exact ⟨b.size, [], rfl, by simp⟩

variable (hdr) in
/-- The size that `split` grants. -/
def granted (slack : Nat) (b : Blk) (n : Nat) : Nat := if n + hdr + slack ≤ b.size then n else b.size

theorem granted_ge (slack : Nat) (hn : n ≤ b.size) : n ≤ granted hdr slack b n := by
  unfold granted; split <;> omega

/-- Granting a free block adds it to the allocated ones. -/
theorem allocated_split (slack n : Nat) (hb : b.free = true) :
    (allocated hdr a (pre ++ split hdr slack b n ++ post)).Perm
      ((a + span hdr pre, ⟨granted hdr slack b n, false⟩) :: allocated hdr a (pre ++ b :: post)) := by
  have h1 : allocated hdr (a + span hdr pre) (split hdr slack b n) =
      [(a + span hdr pre, ⟨granted hdr slack b n, false⟩)] := by
    unfold split granted
    split
    · rw [allocated_used rfl, allocated_eq_nil (by simp)]
    · rw [allocated_used rfl, allocated_eq_nil (by simp)]
  have h2 : a + span hdr (pre ++ split hdr slack b n) = a + span hdr pre + hdr + b.size := by
    rw [span_append, span_split]; omega
  rw [allocated_append, allocated_append, allocated_append, allocated_free hb, h1, h2, List.append_assoc,
    List.singleton_append]
  exact List.perm_middle

/-- Granting a free block adds its payload. -/
theorem payloads_split (slack n : Nat) (hb : b.free = true) :
    (payloads hdr a (pre ++ split hdr slack b n ++ post)).Perm
      ((a + span hdr pre + hdr) :: payloads hdr a (pre ++ b :: post)) :=
  (allocated_split slack n hb).map _

/-- The rest of a free block is free, so its right neighbour is not. -/
theorem coalesced_split (slack n : Nat) (h : Coalesced (pre ++ b :: post)) (hb : b.free = true) :
    Coalesced (pre ++ split hdr slack b n ++ post) := by
  have h1 := List.isChain_append.1 h
  have hpost : ∀ c ∈ post.head?, c.free = false := by
    intro c hc
    have := (List.isChain_cons.1 h1.2.1).1 c hc
    simpa [hb] using this
  have h2 : Coalesced post := (List.isChain_cons.1 h1.2.1).2
  rw [Coalesced, List.append_assoc, List.isChain_append]
  refine ⟨h1.1, ?_, ?_⟩
  · unfold split
    split
    · refine List.isChain_cons_cons.2 ⟨by simp, List.isChain_cons.2 ⟨fun c hc => ?_, h2⟩⟩
      simp [hpost c hc]
    · exact List.isChain_cons.2 ⟨fun c _ => by simp, h2⟩
  · intro x _ y hy
    obtain ⟨g, rest, e, -⟩ := split_head hdr slack b n
    rw [e] at hy
    obtain rfl : (⟨g, false⟩ : Blk) = y := by simpa using hy
    simp

/-! ## Coalescing -/

variable (hdr) in
/-- The walk from the block `b` on: it swallows free neighbours while it is
free, else it goes on. -/
def merge : Blk → List Blk → List Blk
  | b, [] => [b]
  | b, c :: bs =>
    if b.free = true ∧ c.free = true then merge ⟨b.size + (hdr + c.size), b.free⟩ bs
    else b :: merge c bs

variable (hdr) in
def coalesce : List Blk → List Blk
  | [] => []
  | b :: bs => merge hdr b bs

theorem span_merge (b : Blk) (bs : List Blk) : span hdr (merge hdr b bs) = span hdr (b :: bs) := by
  induction bs generalizing b with
  | nil => rfl
  | cons c bs ih =>
    unfold merge
    split
    · rw [ih]; simp only [span_cons]; omega
    · rw [span_cons, ih, ← span_cons]

theorem allocated_merge (a : Nat) (b : Blk) (bs : List Blk) :
    allocated hdr a (merge hdr b bs) = allocated hdr a (b :: bs) := by
  induction bs generalizing a b with
  | nil => rfl
  | cons c bs ih =>
    unfold merge
    split
    · rename_i h
      have h' : (⟨b.size + (hdr + c.size), b.free⟩ : Blk).free = true := h.1
      rw [ih, allocated_free h', allocated_free h.1, allocated_free h.2]
      simp only [Nat.add_assoc]
    · cases hb : b.free with
      | true => rw [allocated_free hb, allocated_free hb, ih]
      | false => rw [allocated_used hb, allocated_used hb, ih]

variable (hdr) in
/-- The first block keeps its flag. -/
theorem merge_head (b : Blk) (bs : List Blk) : ∃ s rest, merge hdr b bs = ⟨s, b.free⟩ :: rest := by
  induction bs generalizing b with
  | nil => exact ⟨b.size, [], rfl⟩
  | cons c bs ih =>
    unfold merge
    split
    · exact ih _
    · exact ⟨b.size, _, rfl⟩

theorem coalesced_merge (b : Blk) (bs : List Blk) : Coalesced (merge hdr b bs) := by
  induction bs generalizing b with
  | nil => exact .singleton b
  | cons c bs ih =>
    unfold merge
    split
    · exact ih _
    · rename_i h
      obtain ⟨s, rest, e⟩ := merge_head hdr c bs
      have := ih c
      rw [Coalesced, e] at this ⊢
      exact List.isChain_cons_cons.2 ⟨h, this⟩

/-- A divisor of the header and of all sizes divides all sizes of the result. -/
theorem dvd_merge {d : Nat} (hd : d ∣ hdr) (b : Blk) (bs : List Blk) (hb : ∀ c ∈ b :: bs, d ∣ c.size) :
    ∀ c ∈ merge hdr b bs, d ∣ c.size := by
  induction bs generalizing b with
  | nil => exact hb
  | cons c bs ih =>
    unfold merge
    split
    · refine ih _ fun x hx => ?_
      rcases List.mem_cons.1 hx with rfl | hx
      · exact Nat.dvd_add (hb b (by simp)) (Nat.dvd_add hd (hb c (by simp)))
      · exact hb x (by simp [hx])
    · intro x hx
      rcases List.mem_cons.1 hx with rfl | hx
      · exact hb x (by simp)
      · exact ih c (fun y hy => hb y (List.mem_cons_of_mem _ hy)) x hx

theorem span_coalesce (bs : List Blk) : span hdr (coalesce hdr bs) = span hdr bs := by
  cases bs with
  | nil => rfl
  | cons b bs => exact span_merge b bs

theorem allocated_coalesce (a : Nat) (bs : List Blk) :
    allocated hdr a (coalesce hdr bs) = allocated hdr a bs := by
  cases bs with
  | nil => rfl
  | cons b bs => exact allocated_merge a b bs

/-- Freeing a block removes it from the allocated ones. -/
theorem allocated_release (hb : b.free = false) :
    (allocated hdr a (pre ++ b :: post)).Perm
      ((a + span hdr pre, b) :: allocated hdr a (coalesce hdr (pre ++ ⟨b.size, true⟩ :: post))) := by
  rw [allocated_coalesce, allocated_append, allocated_append, allocated_used hb, allocated_free rfl]
  exact List.perm_middle

/-- Freeing a block removes its payload. -/
theorem payloads_coalesce (hb : b.free = false) :
    (payloads hdr a (pre ++ b :: post)).Perm
      ((a + span hdr pre + hdr) :: payloads hdr a (coalesce hdr (pre ++ ⟨b.size, true⟩ :: post))) :=
  (allocated_release hb).map _

/-- A payload is that of an allocated block. -/
theorem payloads_block {p : Nat} (hp : p ∈ payloads hdr a bs) :
    ∃ pre b post, bs = pre ++ b :: post ∧ b.free = false ∧ p = a + span hdr pre + hdr := by
  obtain ⟨y, hy, hf, rfl⟩ := mem_payloads.1 hp
  obtain ⟨pre, post, he, hpre⟩ := spots_split hy
  exact ⟨pre, y.2, post, he, hf, by rw [hpre]⟩

/-- A list of the payloads, when a free block is granted. -/
theorem payloads_granted {l : List Nat} (slack n : Nat) (hb : b.free = true)
    (hl : l.Perm (payloads hdr a (pre ++ b :: post))) :
    ((a + span hdr pre + hdr) :: l).Perm (payloads hdr a (pre ++ split hdr slack b n ++ post)) :=
  (hl.cons _).trans (payloads_split slack n hb).symm

/-- A list of the payloads, when an allocated block is released. -/
theorem payloads_released {l : List Nat} (hb : b.free = false)
    (hl : l.Perm (payloads hdr a (pre ++ b :: post))) :
    (l.erase (a + span hdr pre + hdr)).Perm (payloads hdr a (coalesce hdr (pre ++ ⟨b.size, true⟩ :: post))) := by
  have h := (hl.trans (payloads_coalesce hb)).erase (a + span hdr pre + hdr)
  rwa [List.erase_cons_head] at h

theorem coalesced_coalesce (bs : List Blk) : Coalesced (coalesce hdr bs) := by
  cases bs with
  | nil => exact .nil
  | cons b bs => exact coalesced_merge b bs

theorem dvd_coalesce {d : Nat} (hd : d ∣ hdr) (bs : List Blk) (hb : ∀ c ∈ bs, d ∣ c.size) :
    ∀ c ∈ coalesce hdr bs, d ∣ c.size := by
  cases bs with
  | nil => exact hb
  | cons b bs => exact dvd_merge hd b bs hb

/-! ## The canonical form -/

theorem allocated_ge {y : Nat × Blk} (hy : y ∈ allocated hdr a bs) : a ≤ y.1 :=
  (spots_bounds (List.mem_filter.1 hy).1).1

theorem allocated_pairwise (a : Nat) (bs : List Blk) :
    (allocated hdr a bs).Pairwise fun x y => x.1 + hdr + x.2.size ≤ y.1 := by
  induction bs generalizing a with
  | nil => exact .nil
  | cons b bs ih =>
    cases hb : b.free with
    | true => rw [allocated_free hb]; exact ih _
    | false =>
      rw [allocated_used hb]
      exact List.pairwise_cons.2 ⟨fun y hy => allocated_ge hy, ih _⟩

/-- No payload starts where another does. -/
theorem payloads_nodup (hdr_pos : 0 < hdr) (a : Nat) (bs : List Blk) : (payloads hdr a bs).Nodup := by
  rw [payloads, List.Nodup, List.pairwise_map]
  refine (allocated_pairwise a bs).imp fun hxy => ?_
  omega

/-- With no allocated block a coalesced list is empty or one free block. -/
theorem coalesced_free (h : Coalesced (b :: bs)) (hb : b.free = true) (hn : allocated hdr a bs = []) :
    bs = [] := by
  cases bs with
  | nil => rfl
  | cons c bs =>
    cases hc : c.free with
    | true => exact absurd ⟨hb, hc⟩ (List.isChain_cons_cons.1 h).1
    | false => rw [allocated_used hc] at hn; cases hn

/-- Behind a free block of a coalesced list the first allocated block follows at once. -/
theorem coalesced_next {y : Nat × Blk} {ys : List (Nat × Blk)} (h : Coalesced (b :: bs)) (hb : b.free = true)
    (hn : allocated hdr a bs = y :: ys) : y.1 = a := by
  cases bs with
  | nil => cases hn
  | cons c bs =>
    cases hc : c.free with
    | true => exact absurd ⟨hb, hc⟩ (List.isChain_cons_cons.1 h).1
    | false =>
      rw [allocated_used hc] at hn
      cases hn
      rfl

/-- **A coalesced list is determined by its allocated blocks** and the end of
the region. -/
theorem eq_of_allocated {bs cs : List Blk} (hdr_pos : 0 < hdr) (hb : Coalesced bs) (hc : Coalesced cs)
    (hs : span hdr bs = span hdr cs) (ha : allocated hdr a bs = allocated hdr a cs) : bs = cs := by
  induction bs generalizing a cs with
  | nil =>
    cases cs with
    | nil => rfl
    | cons c cs => rw [span_nil, span_cons] at hs; omega
  | cons b bs ih =>
    cases cs with
    | nil => rw [span_nil, span_cons] at hs; omega
    | cons c cs =>
      have hb' : Coalesced bs := (List.isChain_cons.1 hb).2
      have hc' : Coalesced cs := (List.isChain_cons.1 hc).2
      rw [span_cons, span_cons] at hs
      cases hbf : b.free <;> cases hcf : c.free
      · -- both used: the first allocated blocks are these
        rw [allocated_used hbf, allocated_used hcf] at ha
        obtain ⟨h1, h2⟩ := List.cons.inj ha
        obtain rfl : b = c := (Prod.mk.inj h1).2
        rw [ih hb' hc' (by omega) h2]
      · -- used against free: the first allocated block of the other list lies behind
        rw [allocated_used hbf, allocated_free hcf] at ha
        have : a + hdr + c.size ≤ a := allocated_ge (ha ▸ List.mem_cons_self : (a, b) ∈ _)
        omega
      · rw [allocated_free hbf, allocated_used hcf] at ha
        have : a + hdr + b.size ≤ a := allocated_ge (ha ▸ List.mem_cons_self : (a, c) ∈ _)
        omega
      · -- both free: both end where the next allocated block starts, or the region ends
        rw [allocated_free hbf, allocated_free hcf] at ha
        have hsize : b.size = c.size := by
          cases hn : allocated hdr (a + hdr + b.size) bs with
          | nil =>
            obtain rfl := coalesced_free hb hbf hn
            obtain rfl := coalesced_free hc hcf (ha.symm.trans hn)
            rw [span_nil] at hs
            omega
          | cons y ys =>
            have h1 := coalesced_next hb hbf hn
            have h2 := coalesced_next hc hcf (ha.symm.trans hn)
            omega
        obtain rfl : b = c := by
          cases b; cases c
          simp only at hbf hcf hsize
          rw [hbf, hcf, hsize]
        rw [ih hb' hc' (by omega) ha]

variable (hdr) in
/-- The allocated payloads, each with its address and size. -/
def grants (a : Nat) (bs : List Blk) : List (Nat × Nat) :=
  (allocated hdr a bs).map fun y => (y.1 + hdr, y.2.size)

theorem mem_grants {p n : Nat} : (p, n) ∈ grants hdr a bs ↔
    ∃ y ∈ spots hdr a bs, y.2.free = false ∧ p = y.1 + hdr ∧ n = y.2.size := by
  rw [grants, List.mem_map]
  constructor
  · intro hi
    obtain ⟨y, hy, e⟩ := hi
    obtain ⟨h1, h2⟩ := List.mem_filter.1 hy
    cases e
    exact ⟨y, h1, by simpa using h2, rfl, rfl⟩
  · intro hi
    obtain ⟨y, h1, h2, rfl, rfl⟩ := hi
    exact ⟨y, List.mem_filter.2 ⟨h1, by simp [h2]⟩, rfl⟩

theorem grants_split (slack n : Nat) (hb : b.free = true) :
    (grants hdr a (pre ++ split hdr slack b n ++ post)).Perm
      ((a + span hdr pre + hdr, granted hdr slack b n) :: grants hdr a (pre ++ b :: post)) :=
  (allocated_split slack n hb).map _

theorem grants_release (hb : b.free = false) :
    (grants hdr a (pre ++ b :: post)).Perm
      ((a + span hdr pre + hdr, b.size) :: grants hdr a (coalesce hdr (pre ++ ⟨b.size, true⟩ :: post))) :=
  (allocated_release hb).map _

theorem allocated_of_grants (a : Nat) (bs : List Blk) :
    allocated hdr a bs = (grants hdr a bs).map fun p => (p.1 - hdr, ⟨p.2, false⟩) := by
  rw [grants, List.map_map]
  refine (List.map_id _).symm.trans (List.map_congr_left fun y hy => ?_)
  have hf : y.2.free = false := by simpa using (List.mem_filter.1 hy).2
  obtain ⟨p, n, f⟩ := y
  simp only at hf
  simp [hf]

/-- The order of the grants is that of their addresses, so it does not matter. -/
theorem eq_of_grants {bs cs : List Blk} (hdr_pos : 0 < hdr) (hb : Coalesced bs) (hc : Coalesced cs)
    (hs : span hdr bs = span hdr cs) (hg : (grants hdr a bs).Perm (grants hdr a cs)) : bs = cs := by
  apply eq_of_allocated (a := a) hdr_pos hb hc hs
  have hp : (allocated hdr a bs).Perm (allocated hdr a cs) := by
    rw [allocated_of_grants, allocated_of_grants]
    exact hg.map _
  exact hp.eq_of_pairwise (fun x y _ _ h1 h2 => by omega) (allocated_pairwise a bs) (allocated_pairwise a cs)

/-! ## The number of free blocks -/

def frees (bs : List Blk) : Nat := (bs.filter (·.free)).length

def headFree (bs : List Blk) : Bool := bs.head?.any (·.free)

def lastFree (bs : List Blk) : Bool := bs.getLast?.any (·.free)

theorem frees_cons (b : Blk) (bs : List Blk) : frees (b :: bs) = b.free.toNat + frees bs := by
  unfold frees
  cases hb : b.free with
  | true => rw [List.filter_cons_of_pos hb, List.length_cons, Bool.toNat_true, Nat.add_comm]
  | false => rw [List.filter_cons_of_neg (by simp [hb]), Bool.toNat_false, Nat.zero_add]

theorem frees_append (bs cs : List Blk) : frees (bs ++ cs) = frees bs + frees cs := by
  rw [frees, List.filter_append, List.length_append]; rfl

theorem frees_split (slack n : Nat) (b : Blk) :
    frees (split hdr slack b n) = if n + hdr + slack ≤ b.size then 1 else 0 := by
  unfold split
  split <;> rfl

/-- With one free block there is no other. -/
theorem free_unique (h : frees bs = 1) (hb : b ∈ bs) (hc : c ∈ bs) (hbf : b.free = true) (hcf : c.free = true) :
    b = c := by
  obtain ⟨d, hd⟩ := List.length_eq_one_iff.1 h
  have hb' : b ∈ bs.filter (·.free) := List.mem_filter.2 ⟨hb, hbf⟩
  have hc' : c ∈ bs.filter (·.free) := List.mem_filter.2 ⟨hc, hcf⟩
  rw [hd, List.mem_singleton] at hb' hc'
  exact hb'.trans hc'.symm

theorem merge_coalesced (h : Coalesced (b :: bs)) : merge hdr b bs = b :: bs := by
  induction bs generalizing b with
  | nil => rfl
  | cons c bs ih =>
    obtain ⟨h1, h2⟩ := List.isChain_cons_cons.1 h
    rw [merge, if_neg h1, ih h2]

/-- A free block in front of a coalesced list swallows at most its head. -/
theorem frees_merge (hdr s : Nat) (h : Coalesced bs) :
    frees (merge hdr ⟨s, true⟩ bs) + (headFree bs).toNat = 1 + frees bs := by
  cases bs with
  | nil => rfl
  | cons c cs =>
    have hhead : headFree (c :: cs) = c.free := rfl
    rw [merge, hhead, frees_cons c]
    cases hc : c.free with
    | true =>
      have h' : Coalesced (⟨s + (hdr + c.size), true⟩ :: cs) := by
        refine List.isChain_cons.2 ⟨fun d hd => ?_, (List.isChain_cons.1 h).2⟩
        have := (List.isChain_cons.1 h).1 d hd
        simpa [hc] using this
      rw [if_pos ⟨rfl, rfl⟩, merge_coalesced h', frees_cons]
      simp only [Bool.toNat_true]
      omega
    | false =>
      rw [if_neg (by simp), merge_coalesced h, frees_cons, frees_cons c, hc]
      simp

/-- A block freed is one free block more, less its free neighbours. -/
theorem frees_coalesce (hdr s : Nat) (hpre : Coalesced pre) (hpost : Coalesced post) :
    frees (coalesce hdr (pre ++ ⟨s, true⟩ :: post)) + (lastFree pre).toNat + (headFree post).toNat =
      frees pre + 1 + frees post := by
  induction pre with
  | nil =>
    have := frees_merge hdr s hpost
    have h0 : (lastFree []).toNat = 0 := rfl
    have h1 : frees [] = 0 := rfl
    rw [List.nil_append, coalesce, h0, h1]
    omega
  | cons b pre ih =>
    cases pre with
    | nil =>
      have hlast : lastFree [b] = b.free := rfl
      have hone : frees [b] = b.free.toNat := by rw [frees_cons]; rfl
      rw [List.singleton_append, coalesce, merge, hlast, hone]
      cases hb : b.free with
      | true =>
        have := frees_merge hdr (b.size + (hdr + s)) hpost
        rw [if_pos ⟨rfl, rfl⟩, Bool.toNat_true]
        dsimp only
        omega
      | false =>
        have := frees_merge hdr s hpost
        rw [if_neg (by simp), frees_cons, hb, Bool.toNat_false]
        omega
    | cons c pre =>
      obtain ⟨h1, h2⟩ := List.isChain_cons_cons.1 hpre
      have ih := ih h2
      have hlast : lastFree (b :: c :: pre) = lastFree (c :: pre) := by
        rw [lastFree, List.getLast?_cons_cons]; rfl
      rw [List.cons_append, coalesce] at ih
      rw [List.cons_append, List.cons_append, coalesce, merge, if_neg h1, frees_cons, hlast, frees_cons b]
      omega

/-! ## Bytes held and spare -/

variable (hdr) in
/-- Bytes of the allocated blocks, headers included. -/
def held (bs : List Blk) : Nat := ((bs.filter (!·.free)).map (·.size + hdr)).sum

variable (hdr) in
/-- Bytes of the free blocks, headers included. -/
def spare (bs : List Blk) : Nat := ((bs.filter (·.free)).map (·.size + hdr)).sum

theorem held_add_spare (hdr : Nat) (bs : List Blk) : held hdr bs + spare hdr bs = span hdr bs := by
  induction bs with
  | nil => rfl
  | cons b bs ih =>
    unfold held spare at *
    rw [span_cons]
    cases hb : b.free with
    | false =>
      rw [List.filter_cons_of_pos (by simp [hb]), List.filter_cons_of_neg (by simp [hb]), List.map_cons,
        List.sum_cons]
      omega
    | true =>
      rw [List.filter_cons_of_neg (by simp [hb]), List.filter_cons_of_pos (by simp [hb]), List.map_cons,
        List.sum_cons]
      omega

theorem spare_eq (bs : List Blk) :
    spare hdr bs = ((bs.filter (·.free)).map (·.size)).sum + (bs.filter (·.free)).length * hdr := by
  unfold spare
  induction bs.filter (·.free) with
  | nil => simp
  | cons b bs ih =>
    simp only [List.map_cons, List.sum_cons, List.length_cons, ih, Nat.add_mul]
    omega

theorem held_grants (a : Nat) (bs : List Blk) :
    ((grants hdr a bs).map (·.2 + hdr)).sum = held hdr bs := by
  unfold held grants
  rw [List.map_map]
  induction bs generalizing a with
  | nil => rfl
  | cons b bs ih =>
    cases hb : b.free with
    | true => rw [allocated_free hb, ih]; simp [hb]
    | false => rw [allocated_used hb]; simp [hb, ih]

end Blocks

end Rtos.Core
