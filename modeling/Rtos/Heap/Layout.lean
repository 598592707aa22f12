import Rtos.Core.Blocks
import Rtos.Heap.Memory

/-!
# Block lists in memory

`Tiled t m e a bs`: the memory `m` holds the blocks `bs` one behind the other
from the address `a` on, each header with its size, its flag, the magic number
and a `next` that is the address of the following block, `e` for the last one.
Only the bytes of the headers matter (`Tiled.frame`), and the list may be cut
anywhere (`tiled_append`).
-/
namespace Rtos.Heap

open Rtos.Core Rtos.Core.Blocks

variable {t : Target} {m m' : Mem} {a e p q n v x : Nat} {b : Blk} {bs cs : List Blk}

/-! ## Arithmetic of the target -/

theorem Target.word_ge (t : Target) : 4 ≤ t.word := by rcases t.word_eq with h | h <;> omega

theorem Target.header_ge (t : Target) : 16 ≤ t.blockHeader := by
  have := t.word_ge
  unfold Target.blockHeader
  omega

theorem Target.header_le (t : Target) : t.blockHeader ≤ 32 := by
  unfold Target.blockHeader
  rcases t.word_eq with h | h <;> omega

theorem Target.dvd_header (t : Target) : 4 ∣ t.blockHeader := Nat.dvd_mul_right 4 t.word

theorem Target.heap_lt (t : Target) : t.heapMemory + HEAP_SIZE < t.sizeMod := t.fits

theorem Target.add_of_lt (h : p + q < t.sizeMod) : t.add p q = p + q := Nat.mod_eq_of_lt h

theorem Target.sub_of_le (h : q ≤ p) (hp : p < t.sizeMod) : t.sub p q = p - q := by
  rw [Target.sub, show p + t.sizeMod - q = p - q + t.sizeMod by omega, Nat.add_mod_right,
    Nat.mod_eq_of_lt (by omega)]

/-- The rounded size is a multiple of 4, even when the rounding wraps. -/
theorem dvd_alignSize (t : Target) (n : Nat) : 4 ∣ alignSize t n := by
  have := Nat.div_add_mod (t.add n 3) 4
  exact ⟨t.add n 3 / 4, by rw [alignSize]; omega⟩

/-! ## One header -/

/-- The `memory_block_t` at `p` describes the block `b` and points to `q`. -/
structure Holds (t : Target) (m : Mem) (p : Nat) (b : Blk) (q : Nat) : Prop where
  size : blockSize t m p = b.size
  free : blockIsFree t m p = b.free
  next : blockNext t m p = q
  magic : blockMagic t m p = MEMORY_MAGIC

theorem Holds.congr (h : Holds t m p b q) (hm : ∀ x, p ≤ x → x < p + t.blockHeader → m' x = m x) :
    Holds t m' p b q := by
  have hw := t.word_ge
  unfold Target.blockHeader at hm
  refine ⟨?_, ?_, ?_, ?_⟩
  · rw [← h.size]; exact Mem.read_congr fun x h1 h2 => hm x (by omega) (by omega)
  · rw [← h.free, blockIsFree, blockIsFree, hm _ (by omega) (by omega)]
  · rw [← h.next]; exact Mem.read_congr fun x h1 h2 => hm x (by omega) (by omega)
  · rw [← h.magic]; exact Mem.read_congr fun x h1 h2 => hm x (by omega) (by omega)

/-! The setters touch no byte outside the header. -/

theorem setSize_outside (hx : x < p ∨ p + t.blockHeader ≤ x) : setSize t m p v x = m x :=
  Mem.write_outside (by rw [Target.blockHeader] at hx; omega)

theorem setIsFree_outside {f : Bool} (hx : x < p ∨ p + t.blockHeader ≤ x) : setIsFree t m p f x = m x := by
  have hw := t.word_ge
  unfold Target.blockHeader at hx
  exact Function.update_of_ne (by omega) _ _

theorem setNext_outside (hx : x < p ∨ p + t.blockHeader ≤ x) : setNext t m p v x = m x :=
  Mem.write_outside (by rw [Target.blockHeader] at hx; omega)

theorem setMagic_outside (hx : x < p ∨ p + t.blockHeader ≤ x) : setMagic t m p v x = m x :=
  Mem.write_outside (by have := t.word_ge; rw [Target.blockHeader] at hx; omega)

/-! What they do to the header itself. -/

theorem Holds.setSize (h : Holds t m p b q) (hv : v < t.sizeMod) :
    Holds t (setSize t m p v) p ⟨v, b.free⟩ q := by
  have hw := t.word_ge
  refine ⟨Mem.read_write_self hv, ?_, ?_, ?_⟩
  · rw [← h.free, blockIsFree, blockIsFree, Heap.setSize, Mem.write_outside (by omega)]
  · rw [← h.next]; exact Mem.read_write_apart (by omega)
  · rw [← h.magic]; exact Mem.read_write_apart (by omega)

theorem Holds.setIsFree (h : Holds t m p b q) (f : Bool) :
    Holds t (setIsFree t m p f) p ⟨b.size, f⟩ q := by
  have hw := t.word_ge
  have hne : ∀ x, x ≠ p + t.word → Heap.setIsFree t m p f x = m x :=
    fun x hx => Function.update_of_ne hx _ _
  refine ⟨?_, ?_, ?_, ?_⟩
  · rw [← h.size]; exact Mem.read_congr fun x h1 h2 => hne x (by omega)
  · rw [blockIsFree, Heap.setIsFree, Function.update_self]
    cases f <;> rfl
  · rw [← h.next]; exact Mem.read_congr fun x h1 h2 => hne x (by omega)
  · rw [← h.magic]; exact Mem.read_congr fun x h1 h2 => hne x (by omega)

theorem Holds.setNext (h : Holds t m p b q) (hv : v < t.sizeMod) : Holds t (setNext t m p v) p b v := by
  have hw := t.word_ge
  refine ⟨?_, ?_, Mem.read_write_self hv, ?_⟩
  · rw [← h.size]; exact Mem.read_write_apart (by omega)
  · rw [← h.free, blockIsFree, blockIsFree, Heap.setNext, Mem.write_outside (by omega)]
  · rw [← h.magic]; exact Mem.read_write_apart (by omega)

/-- The four fields written make a header, whatever was there. -/
theorem holds_fresh (m : Mem) (p : Nat) {s q : Nat} {f : Bool} (hs : s < t.sizeMod) (hq : q < t.sizeMod) :
    Holds t (setMagic t (setNext t (setIsFree t (setSize t m p s) p f) p q) p MEMORY_MAGIC) p ⟨s, f⟩ q := by
  have hw := t.word_ge
  have hmagic : MEMORY_MAGIC < 256 ^ 4 := by decide
  refine ⟨?_, ?_, ?_, Mem.read_write_self hmagic⟩
  · rw [blockSize, setMagic, Mem.read_write_apart (by omega), Heap.setNext, Mem.read_write_apart (by omega)]
    refine (Mem.read_congr (m := setSize t m p s) fun x h1 h2 => ?_).trans (Mem.read_write_self hs)
    exact Function.update_of_ne (by omega) _ _
  · rw [blockIsFree, setMagic, Mem.write_outside (by omega), Heap.setNext, Mem.write_outside (by omega),
      Heap.setIsFree, Function.update_self]
    cases f <;> rfl
  · rw [blockNext, setMagic, Mem.read_write_apart (by omega)]
    exact Mem.read_write_self hq

/-! ## A row of blocks -/

/-- The pointer to the blocks that start at `a`: `e` if there are none. -/
def link (a e : Nat) : List Blk → Nat
  | [] => e
  | _ :: _ => a

def Tiled (t : Target) (m : Mem) (e : Nat) : Nat → List Blk → Prop
  | _, [] => True
  | a, b :: bs => Holds t m a b (link (a + t.blockHeader + b.size) e bs) ∧
    Tiled t m e (a + t.blockHeader + b.size) bs

theorem link_append (a e : Nat) (bs cs : List Blk) :
    link a e (bs ++ cs) = link a (link (a + span t.blockHeader bs) e cs) bs := by
  cases bs <;> rfl

theorem tiled_append : Tiled t m e a (bs ++ cs) ↔
    Tiled t m (link (a + span t.blockHeader bs) e cs) a bs ∧ Tiled t m e (a + span t.blockHeader bs) cs := by
  induction bs generalizing a with
  | nil => simp [Tiled]
  | cons b bs ih =>
    rw [List.cons_append, Tiled, Tiled, ih, link_append (t := t), span_cons, and_assoc]
    simp only [Nat.add_assoc]

theorem Tiled.holds (h : Tiled t m e a bs) {y : Nat × Blk} (hy : y ∈ spots t.blockHeader a bs) :
    ∃ q, Holds t m y.1 y.2 q := by
  induction bs generalizing a with
  | nil => cases hy
  | cons b bs ih =>
    rcases List.mem_cons.1 hy with rfl | hy
    · exact ⟨_, h.1⟩
    · exact ih h.2 hy

/-- A row of blocks is its headers. -/
theorem Tiled.frame (h : Tiled t m e a bs)
    (hm : ∀ y ∈ spots t.blockHeader a bs, ∀ x, y.1 ≤ x → x < y.1 + t.blockHeader → m' x = m x) :
    Tiled t m' e a bs := by
  induction bs generalizing a with
  | nil => trivial
  | cons b bs ih =>
    exact ⟨h.1.congr (hm (a, b) List.mem_cons_self), ih h.2 fun y hy => hm y (List.mem_cons_of_mem _ hy)⟩

/-- So it is as before if the memory is the same from its start to its end. -/
theorem Tiled.frame_range (h : Tiled t m e a bs)
    (hm : ∀ x, a ≤ x → x < a + span t.blockHeader bs → m' x = m x) : Tiled t m' e a bs :=
  h.frame fun y hy x h1 h2 => by
    have := spots_bounds hy
    exact hm x (by omega) (by omega)

theorem length_le_span (bs : List Blk) : bs.length ≤ span t.blockHeader bs := by
  have := t.header_ge
  induction bs with
  | nil => exact Nat.le_refl 0
  | cons b bs ih => rw [List.length_cons, span_cons]; omega

/-! ## Walking the list -/

section

variable (t)

/-- The blocks found by following `next` from `p`: address, size and flag. -/
def blockList (m : Mem) : Nat → Nat → Option (List (Nat × Blk))
  | n, p =>
    if p = 0 then some []
    else
      match n with
      | 0 => none
      | n + 1 => (blockList m n (blockNext t m p)).map ((p, ⟨blockSize t m p, blockIsFree t m p⟩) :: ·)

def heapBlocks (h : HeapState) : Option (List (Nat × Blk)) := blockList t h.mem HEAP_SIZE h.heapHead

end

theorem blockList_tiled (h : Tiled t m 0 a bs) (hn : bs.length ≤ n) (ha : 0 < a) :
    blockList t m n (link a 0 bs) = some (spots t.blockHeader a bs) := by
  induction bs generalizing a n with
  | nil => unfold blockList; rw [link, if_pos rfl]; rfl
  | cons b bs ih =>
    obtain ⟨hb, h⟩ := h
    obtain ⟨n, rfl⟩ : ∃ n', n = n' + 1 := ⟨n - 1, by rw [List.length_cons] at hn; omega⟩
    rw [List.length_cons] at hn
    unfold blockList
    rw [link, if_neg (by omega)]
    dsimp only
    rw [hb.next, hb.size, hb.free, ih h (by omega) (by omega)]
    rfl

end Rtos.Heap
