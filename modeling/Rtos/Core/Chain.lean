import Mathlib.Data.List.Basic
import Mathlib.Data.List.Nodup
import Mathlib.Data.List.TakeWhile
import Mathlib.Logic.Function.Basic

/-!
# Singly linked lists threaded through a `next` field

`next : α → Option α` is the link field of the nodes (`none` is NULL).
`Seg next h l e` says that following `next` from the pointer `h` visits
exactly the nodes `l` and arrives at the pointer `e`; a `Chain` is a segment
that arrives at NULL. A chain determines its nodes (`seg_unique`) and never
visits one twice (`chain_nodup`).

The two loops programs run over such lists, with a bound on the rounds
(`none`: the bound is used up), are `lastWhile` and `findPred`; the two edits
made where they stop are `chain_append_node` and `chain_unlink`.
-/
namespace Rtos.Core

variable {α : Type}

def Seg (next : α → Option α) : Option α → List α → Option α → Prop
  | h, [], e => h = e
  | h, a :: l, e => h = some a ∧ Seg next (next a) l e

abbrev Chain (next : α → Option α) (h : Option α) (l : List α) : Prop := Seg next h l none

@[simp] theorem seg_nil {next : α → Option α} {h e : Option α} : Seg next h [] e ↔ h = e := Iff.rfl

@[simp] theorem seg_cons {next : α → Option α} {h e : Option α} {a : α} {l : List α} :
    Seg next h (a :: l) e ↔ h = some a ∧ Seg next (next a) l e := Iff.rfl

theorem seg_append {next : α → Option α} {e : Option α} {l₂ : List α} :
    ∀ {l₁ : List α} {h : Option α},
      Seg next h (l₁ ++ l₂) e ↔ ∃ m, Seg next h l₁ m ∧ Seg next m l₂ e
  | [], h => by simp
  | a :: l₁, h => by
    simp only [List.cons_append, seg_cons, seg_append]
    constructor
    · intro hi
      obtain ⟨rfl, m, h1, h2⟩ := hi
      exact ⟨m, ⟨rfl, h1⟩, h2⟩
    · intro hi
      obtain ⟨m, ⟨rfl, h1⟩, h2⟩ := hi
      exact ⟨rfl, m, h1, h2⟩

/-- A segment reads the links of its own nodes only. -/
theorem Seg.frame {next next' : α → Option α} {e : Option α} :
    ∀ {l : List α} {h : Option α}, Seg next h l e → (∀ a ∈ l, next' a = next a) → Seg next' h l e
  | [], _, hs, _ => hs
  | a :: l, _, ⟨rfl, hs⟩, hn => by
    refine ⟨rfl, ?_⟩
    rw [hn a List.mem_cons_self]
    exact hs.frame fun b hb => hn b (List.mem_cons_of_mem _ hb)

/-- Writing the link of a node that is not in the segment. -/
theorem Seg.frame_update [DecidableEq α] {next : α → Option α} {h e u : Option α} {l : List α} {t : α}
    (hs : Seg next h l e) (ht : t ∉ l) : Seg (Function.update next t u) h l e :=
  hs.frame fun _ hb => Function.update_of_ne (ne_of_mem_of_not_mem hb ht) _ _

theorem chain_head {next : α → Option α} {h : Option α} {l : List α} (hc : Chain next h l) :
    h = l.head? := by
  cases l with
  | nil => exact hc
  | cons a l => exact hc.1

theorem chain_unique {next : α → Option α} :
    ∀ {l l' : List α} {h : Option α}, Chain next h l → Chain next h l' → l = l'
  | [], [], _, _, _ => rfl
  | [], b :: l', _, h1, h2 => by cases h1.symm.trans h2.1
  | a :: l, [], _, h1, h2 => by cases h2.symm.trans h1.1
  | a :: l, b :: l', _, h1, h2 => by
    obtain rfl : a = b := Option.some.inj (h1.1.symm.trans h2.1)
    rw [chain_unique h1.2 h2.2]

/-- From any node of a chain the chain goes on to its end. -/
theorem chain_suffix {next : α → Option α} {h : Option α} {l₁ l₂ : List α} {a : α}
    (hc : Chain next h (l₁ ++ a :: l₂)) : Chain next (some a) (a :: l₂) := by
  obtain ⟨m, -, h2⟩ := seg_append.1 hc
  exact ⟨rfl, h2.2⟩

theorem chain_nodup {next : α → Option α} :
    ∀ {l : List α} {h : Option α}, Chain next h l → l.Nodup
  | [], _, _ => List.nodup_nil
  | a :: l, _, hc => by
    refine List.nodup_cons.2 ⟨fun hm => ?_, chain_nodup hc.2⟩
    -- a second visit of `a` would make the rest of the list its own proper suffix
    obtain ⟨l₁, l₂, rfl⟩ := List.append_of_mem hm
    have h1 : Chain next (some a) (a :: (l₁ ++ a :: l₂)) := ⟨rfl, hc.2⟩
    have h2 : Chain next (some a) (a :: l₂) := chain_suffix hc.2
    have := congrArg List.length (chain_unique h1 h2)
    simp only [List.length_cons, List.length_append] at this
    omega

/-! ## Reachability through the links -/

/-- Following `next` from the pointer `h` arrives at the node `t`. -/
inductive Linked (next : α → Option α) (t : α) : Option α → Prop
  | here : Linked next t (some t)
  | there {a : α} : Linked next t (next a) → Linked next t (some a)

theorem linked_iff_mem {next : α → Option α} {t : α} :
    ∀ {l : List α} {h : Option α}, Chain next h l → (Linked next t h ↔ t ∈ l)
  | [], h, hc => by
    obtain rfl : h = none := hc
    simp only [List.not_mem_nil, iff_false]
    intro hi
    cases hi
  | a :: l, h, hc => by
    obtain ⟨rfl, hc⟩ := hc
    rw [List.mem_cons, ← linked_iff_mem hc]
    constructor
    · rintro (_ | ht)
      · exact .inl rfl
      · exact .inr ht
    · rintro (rfl | ht)
      · exact .here
      · exact .there ht

/-- The nodes from `h` to the end, if there are at most `n`. -/
def nodesFrom (next : α → Option α) : Nat → Option α → Option (List α)
  | _, none => some []
  | 0, some _ => none
  | n + 1, some a => (nodesFrom next n (next a)).map (a :: ·)

theorem chain_of_nodesFrom {next : α → Option α} :
    ∀ {n : Nat} {h : Option α} {l : List α}, nodesFrom next n h = some l → Chain next h l
  | 0, none, _, e => by cases e; rfl
  | _ + 1, none, _, e => by cases e; rfl
  | n + 1, some a, _, h => by
    obtain ⟨l, e, rfl⟩ := Option.map_eq_some_iff.1 h
    exact ⟨rfl, chain_of_nodesFrom e⟩

/-! ## Walking forward -/

/-- `while (a->next != NULL && p(a->next)) a = a->next;` -/
def lastWhile (next : α → Option α) (p : α → Bool) : Nat → α → Option α
  | 0, _ => none
  | n + 1, a => match next a with
    | none => some a
    | some b => if p b then lastWhile next p n b else some a

theorem lastWhile_chain {next : α → Option α} {p : α → Bool} :
    ∀ {l : List α} {n : Nat} {a : α}, Chain next (next a) l → l.length < n →
      lastWhile next p n a = (a :: l.takeWhile p).getLast?
  | [], n + 1, a, hc, _ => by
    have hn : next a = none := hc
    simp [lastWhile, hn]
  | b :: l, n + 1, a, hc, hn => by
    have hb : next a = some b := hc.1
    have ih := lastWhile_chain (n := n) (p := p) hc.2 (by simpa using hn)
    cases hp : p b with
    | true => simp only [lastWhile, hb, hp, if_true, ih, List.takeWhile_cons_of_pos hp, List.getLast?_cons_cons]
    | false => simp [lastWhile, hb, hp]

/-- `while (a->next != NULL) a = a->next;` -/
abbrev lastNode (next : α → Option α) : Nat → α → Option α := lastWhile next fun _ => true

theorem lastNode_chain {next : α → Option α} {l : List α} {n : Nat} {a : α}
    (hc : Chain next (next a) l) (hn : l.length < n) :
    lastNode next n a = (a :: l).getLast? := by
  have hl : l.takeWhile (fun _ => true) = l := List.takeWhile_eq_self_iff.2 fun _ _ => rfl
  rw [lastNode, lastWhile_chain hc hn, hl]

/-- Hanging a new node `t` behind the last one. -/
theorem chain_append_node {next next' : α → Option α} {h : Option α} {l : List α} {a t : α}
    (hc : Chain next h (l ++ [a])) (hl : ∀ b ∈ l, next' b = next b) (ha : next' a = some t)
    (ht : next' t = none) : Chain next' h (l ++ [a, t]) := by
  obtain ⟨m, h1, rfl, -⟩ := seg_append.1 hc
  exact seg_append.2 ⟨some a, h1.frame hl, rfl, ha, ht⟩

/-- Hanging a new node `t` in behind `a`. -/
theorem chain_insert_after {next next' : α → Option α} {h : Option α} {l post : List α} {a t : α}
    (hc : Chain next h (l ++ a :: post)) (hl : ∀ b ∈ l, next' b = next b) (ha : next' a = some t)
    (ht : next' t = next a) (hp : ∀ b ∈ post, next' b = next b) :
    Chain next' h (l ++ a :: t :: post) := by
  obtain ⟨m, h1, rfl, h2⟩ := seg_append.1 hc
  refine seg_append.2 ⟨some a, h1.frame hl, rfl, ha, ?_⟩
  rw [ht]
  exact h2.frame hp

/-! ## Walking to a node's predecessor -/

/-- What the walk finds: the node is not in the list, is its first node, or
comes right after `a`. -/
inductive Found (α : Type) where
  | absent
  | first
  | after (a : α)
  deriving DecidableEq, Repr

def Found.ofPrev : Option α → Found α
  | none => .first
  | some a => .after a

/-- `while (curr != NULL) { if (curr == t) ...; prev = curr; curr = curr->next; }` -/
def findPred [DecidableEq α] (next : α → Option α) (t : α) : Nat → Option α → Option α → Option (Found α)
  | _, _, none => some .absent
  | 0, _, some _ => none
  | n + 1, prev, some curr =>
    if curr = t then some (.ofPrev prev) else findPred next t n (some curr) (next curr)

theorem findPred_absent [DecidableEq α] {next : α → Option α} {t : α} :
    ∀ {l : List α} {n : Nat} {prev h : Option α}, Chain next h l → t ∉ l → l.length ≤ n →
      findPred next t n prev h = some .absent
  | [], n, _, h, hc, _, _ => by
    obtain rfl : h = none := hc
    cases n <;> rfl
  | a :: l, n + 1, _, _, ⟨rfl, hc⟩, ht, hn => by
    have hne := List.ne_of_not_mem_cons ht
    have ht := List.not_mem_of_not_mem_cons ht
    simp only [findPred, Ne.symm hne, if_false]
    exact findPred_absent hc ht (by simpa using hn)

theorem findPred_mem [DecidableEq α] {next : α → Option α} {t : α} {post : List α} :
    ∀ {pre : List α} {n : Nat} {prev h : Option α}, Chain next h (pre ++ t :: post) → t ∉ pre →
      pre.length < n → findPred next t n prev h = some (.ofPrev (pre.getLast?.or prev))
  | [], n + 1, _, _, ⟨rfl, _⟩, _, _ => by simp [findPred]
  | a :: pre, n + 1, prev, _, ⟨rfl, hc⟩, ht, hn => by
    have hne := List.ne_of_not_mem_cons ht
    have ht := List.not_mem_of_not_mem_cons ht
    simp only [findPred, Ne.symm hne, if_false]
    rw [findPred_mem hc ht (by simpa using hn)]
    cases pre with
    | nil => simp
    | cons b pre => rw [List.getLast?_cons_cons, List.getLast?_eq_some_getLast (List.cons_ne_nil b pre)]; rfl

/-- Unlinking the first node. -/
theorem chain_unlink_first {next next' : α → Option α} {h : Option α} {t : α} {post : List α}
    (hc : Chain next h (t :: post)) (hp : ∀ b ∈ post, next' b = next b) :
    Chain next' (next t) post :=
  hc.2.frame hp

/-- Unlinking the node after `a`. -/
theorem chain_unlink_after {next next' : α → Option α} {h : Option α} {l post : List α} {a t : α}
    (hc : Chain next h (l ++ a :: t :: post)) (hl : ∀ b ∈ l, next' b = next b)
    (ha : next' a = next t) (hp : ∀ b ∈ post, next' b = next b) :
    Chain next' h (l ++ a :: post) := by
  obtain ⟨m, h1, rfl, h2⟩ := seg_append.1 hc
  refine seg_append.2 ⟨some a, h1.frame hl, rfl, ?_⟩
  rw [ha]
  exact h2.2.frame hp

end Rtos.Core
