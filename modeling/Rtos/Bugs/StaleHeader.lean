import Rtos.Heap.Stale

/-!
# A double free behind an overlaid header

`rtos_free` knows a double free by the flag in front of the pointer, which is
1 since the first free. When that header was swallowed by its neighbour, a
later `split_block` may put a header over a part of it: on a 32-bit board, 4
bytes in front, so that the link of the new header lies over the old flag. The
link of the last block is NULL, the flag reads 0 and the magic number behind
it is still there: the double free is taken for a free, counted, and writes
into the new header.

`double_free_caught`: along every run, every double free is caught if and only
if no size or link of a header on the list ever lies over the flag of a freed
pointer with a byte 0 there and the old magic number in place.
-/
namespace Rtos.Heap

open Rtos.Core Rtos.Core.Blocks

/-- The heap, the pointers held, and those freed and not handed out since. -/
structure FreedSys where
  heap : HeapState
  live : List Nat
  freed : List Nat

inductive FreedCall
  | malloc (size : Nat)
  | free (ptr : Nat)

/-- The block list, its headers and the statistics are the same. -/
structure Unharmed (t : Target) (h h' : HeapState) : Prop where
  blocks : heapBlocks t h' = heapBlocks t h
  headers : ∀ bs, heapBlocks t h = some bs → ∀ y ∈ bs, ∀ x, y.1 ≤ x → x < y.1 + t.blockHeader →
    h'.mem x = h.mem x
  stats : h'.globalStats = h.globalStats

section

variable (t : Target)

/-- A pointer is freed once, or again, or is turned down. -/
def FreedLegal (s : FreedSys) : FreedCall → Prop
  | .malloc size => size < t.sizeMod
  | .free ptr => ptr ∈ s.live ∨ ptr ∈ s.freed ∨ TurnedDown t s.heap ptr

instance (s : FreedSys) (c : FreedCall) : Decidable (FreedLegal t s c) := by
  cases c <;> unfold FreedLegal <;> infer_instance

def FreedSys.call (s : FreedSys) : FreedCall → Option FreedSys
  | .malloc size => (rtosMalloc t s.heap size).map fun r =>
      if r.2 = 0 then ⟨r.1, s.live, s.freed⟩ else ⟨r.1, r.2 :: s.live, s.freed.filter (· ≠ r.2)⟩
  | .free ptr => (rtosFree t s.heap ptr).map fun h =>
      if ptr ∈ s.live then ⟨h, s.live.erase ptr, ptr :: s.freed⟩ else ⟨h, s.live, s.freed⟩

def FreedSys.boot : FreedSys := ⟨memoryInit t HeapState.static, [], []⟩

def freedSys : LTS FreedSys FreedCall := (LTS.ofFn (· = FreedSys.boot t) (FreedSys.call t)).restrict (FreedLegal t)

/-- Freeing any freed pointer again does nothing. -/
def Caught (s : FreedSys) : Prop := ∀ p ∈ s.freed, ∃ h', rtosFree t s.heap p = some h' ∧ Unharmed t s.heap h'

/-- The flag in front of a freed pointer lies under the size or the link of a
header on the list and is 0, with the old magic number in place. -/
def Overlaid (s : FreedSys) : Prop :=
  ∃ p ∈ s.freed, Passes t s.heap.mem p ∧ ∃ bs, heapBlocks t s.heap = some bs ∧
    ∃ y ∈ bs, SizeOrNext t y.1 (p - t.blockHeader + t.word)

end

variable {t : Target} {s s' : FreedSys} {c : FreedCall} {p n : Nat}

/-- The invariant while every double free is caught. -/
structure Guarded (t : Target) (s : FreedSys) : Prop where
  inv : Inv t ⟨s.heap, s.live⟩
  spot : ∀ p ∈ s.freed, ∃ k, p = t.heapMemory + t.blockHeader + 4 * k
  apart : ∀ p ∈ s.freed, p ∉ s.live
  stale : ∀ p ∈ s.freed, ¬ Passes t s.heap.mem p

/-- A pointer that passes the checks of `rtos_free` is counted. -/
theorem Passes.harmed {h : HeapState} (hi : h.memoryInitialized = true) (hp : Passes t h.mem p) (h0 : p ≠ 0) :
    ¬ ∃ h', rtosFree t h p = some h' ∧ Unharmed t h h' := by
  intro hex
  obtain ⟨h', e, hu⟩ := hex
  have hf : blockIsFree t h.mem (p - t.blockHeader) = false := by
    unfold blockIsFree
    rw [hp.1]
    rfl
  have hs := congrArg MemoryStats.numFrees (free_stats e hi h0 hp.2 hf)
  rw [hu.stats] at hs
  dsimp only at hs
  omega

theorem Guarded.turnedDown (hg : Guarded t s) (hp : p ∈ s.freed) : TurnedDown t s.heap p := by
  have hplaced := t.placed
  obtain ⟨k, hk⟩ := hg.spot p hp
  exact (turnedDown_iff (by omega) (by omega)).2 (hg.stale p hp)

theorem Guarded.caught (hg : Guarded t s) : Caught t s := fun _ hp =>
  ⟨s.heap, free_turnedDown (hg.turnedDown hp), ⟨rfl, fun _ _ _ _ _ _ _ => rfl, rfl⟩⟩

theorem Guarded.not_overlaid (hg : Guarded t s) : ¬ Overlaid t s := by
  intro ho
  obtain ⟨p, hp, hpass, -⟩ := ho
  exact hg.stale p hp hpass

theorem boot_guarded (t : Target) : Guarded t (FreedSys.boot t) where
  inv := boot_inv
  spot _ hp := absurd hp List.not_mem_nil
  apart _ hp := absurd hp List.not_mem_nil
  stale _ hp := absurd hp List.not_mem_nil

/-- After a call either the old headers still read as free, or one of them is overlaid
and its double free is not caught. -/
theorem guarded_or_overlaid {T : Tiling t.blockHeader} {m₁ : Mem} (hr : Represents t s.heap T)
    (hl : s.live.Perm (payloads t.blockHeader t.heapMemory T.blocks))
    (hs : Stores t m₁ s.heap.mem t.heapMemory T.blocks)
    (hspot : ∀ p ∈ s.freed, ∃ k, p = t.heapMemory + t.blockHeader + 4 * k)
    (hapart : ∀ p ∈ s.freed, p ∉ s.live) (hold : ∀ p ∈ s.freed, ¬ Passes t m₁ p) :
    Guarded t s ∨ ¬ Caught t s ∧ ¬ ¬ Overlaid t s := by
  by_cases hstale : ∀ p ∈ s.freed, ¬ Passes t s.heap.mem p
  · exact .inl ⟨⟨T, hr, hl⟩, hspot, hapart, hstale⟩
  right
  obtain ⟨p, hstale⟩ := not_forall.1 hstale
  obtain ⟨hp, hpass⟩ := Classical.not_imp.1 hstale
  have hpass := not_not.1 hpass
  have hplaced := t.placed
  have hp0 : p ≠ 0 := by
    obtain ⟨k, hk⟩ := hspot p hp
    omega
  refine ⟨fun hc => hpass.harmed hr.init hp0 (hc p hp), not_not.2 ⟨p, hp, hpass, _, hr.blocks, ?_⟩⟩
  exact overlaid_of_stores hr hs (hspot p hp) (fun h => hapart p hp (hl.symm.subset h)) (hold p hp) hpass

/-- Setting a flag makes no old header read as one of an allocated block. -/
theorem not_passes_setIsFree {m : Mem} {a : Nat} (hp : ∃ k, p = t.heapMemory + t.blockHeader + 4 * k)
    (ha : ∃ k, a = t.heapMemory + 4 * k) (h : ¬ Passes t m p) : ¬ Passes t (setIsFree t m a true) p := by
  have hw := t.word_eq
  obtain ⟨j, hj⟩ := hp
  obtain ⟨k, hk⟩ := ha
  intro hp
  obtain ⟨hflag, hmagic⟩ := hp
  by_cases hx : p - t.blockHeader + t.word = a + t.word
  · rw [hx, setIsFree, Function.update_self] at hflag
    cases hflag
  · rw [setIsFree, Function.update_of_ne hx] at hflag
    apply h
    refine ⟨hflag, ?_⟩
    -- a byte 1 is not part of the magic number
    by_cases hin : p - t.blockHeader + 3 * t.word = a + t.word
    · have hbyte := magic_byte hmagic
      rw [hin, setIsFree, Function.update_self] at hbyte
      cases hbyte
    · rw [← hmagic]
      exact (Mem.read_congr fun x h1 h2 => Function.update_of_ne (by omega) _ _).symm

theorem malloc_guarded (hg : Guarded t s) (n : Nat) (h : s.call t (.malloc n) = some s') :
    Guarded t s' ∨ ¬ Caught t s' ∧ ¬ ¬ Overlaid t s' := by
  obtain ⟨T, hr, hl⟩ := hg.inv
  dsimp only at hr hl
  have hplaced := t.placed
  unfold FreedSys.call at h
  dsimp only at h
  rcases malloc_stores hr n with e | ⟨h₁, pre, b, post, T', e, he, hb, hr', he', hst⟩
  · rw [e] at h
    cases h
    exact .inl hg
  · rw [e, Option.map_some, if_neg (by dsimp only; omega)] at h
    cases h
    refine guarded_or_overlaid hr' ?_ hst (fun p hp => hg.spot p (List.mem_of_mem_filter hp)) (fun p hp hpl => ?_)
      fun p hp => hg.stale p (List.mem_of_mem_filter hp)
    · rw [he']
      exact payloads_granted 32 _ hb (he ▸ hl)
    · have hne : p ≠ t.heapMemory + span t.blockHeader pre + t.blockHeader := by
        simpa using (List.mem_filter.1 hp).2
      exact hg.apart p (List.mem_of_mem_filter hp) ((List.mem_cons.1 hpl).resolve_left hne)

theorem free_guarded (hg : Guarded t s) (hc : FreedLegal t s (.free p)) (h : s.call t (.free p) = some s') :
    Guarded t s' ∨ ¬ Caught t s' ∧ ¬ ¬ Overlaid t s' := by
  have hplaced := t.placed
  unfold FreedSys.call at h
  dsimp only at h
  by_cases hp : p ∈ s.live
  · obtain ⟨T, hr, hl⟩ := hg.inv
    dsimp only at hr hl
    obtain ⟨pre, b, post, he, hf, rfl⟩ := payloads_block (hl.subset hp)
    obtain ⟨k, hk⟩ := T.dvd_pre he
    obtain ⟨h₁, T', e, hr', he', hst⟩ := free_stores hr he hf
    have hge := t.header_ge
    have hnodup : s.live.Nodup := hl.nodup_iff.2 (payloads_nodup (by omega) _ _)
    rw [e, Option.map_some, if_pos hp] at h
    cases h
    refine guarded_or_overlaid hr' ?_ hst (fun q hq => ?_) (fun q hq => ?_) fun q hq => ?_
    · rw [he']
      exact payloads_released hf (he ▸ hl)
    · rcases List.mem_cons.1 hq with rfl | hq
      · exact ⟨k, by omega⟩
      · exact hg.spot q hq
    · rcases List.mem_cons.1 hq with rfl | hq
      · exact hnodup.not_mem_erase
      · exact fun h => hg.apart q hq (List.mem_of_mem_erase h)
    · rcases List.mem_cons.1 hq with rfl | hq
      · -- the flag just set
        intro hpass
        have hflag := hpass.1
        rw [Nat.add_sub_cancel, setIsFree, Function.update_self] at hflag
        cases hflag
      · exact not_passes_setIsFree (hg.spot q hq) ⟨k, by omega⟩ (hg.stale q hq)
  · have hdown : TurnedDown t s.heap p := hc.elim (fun h => absurd h hp) fun h => h.elim hg.turnedDown id
    rw [free_turnedDown hdown, Option.map_some, if_neg hp] at h
    cases h
    exact .inl hg

/-- **When every double free is caught**: in every run, as long as no size or
link of a header on the list lies over the flag in front of a freed pointer
with a byte 0 there, the old magic number in place. -/
theorem double_free_caught (t : Target) (calls : List FreedCall) :
    (freedSys t).Always (Caught t) (FreedSys.boot t) calls ↔
    (freedSys t).Always (fun s => ¬ Overlaid t s) (FreedSys.boot t) calls := by
  apply LTS.always_congr (I := Guarded t) (fun s hg => hg.caught) (fun s hg => hg.not_overlaid) ?_ calls _
    (boot_guarded t)
  intro s c s' hg hs
  cases c with
  | malloc n => exact malloc_guarded hg n hs.2
  | free p => exact free_guarded hg hs.1 hs.2

/-- Two blocks of 8 bytes are freed and a block of 4 bytes is taken from their
place: the header of the rest lies 4 bytes in front of the second old one. -/
theorem double_free_uncaught : ∃ s, (freedSys board).Reachable s ∧ ¬ Caught board s := by
  obtain ⟨s, -, h, hi, hp, hpass⟩ := LTS.reachable_of_exec (M := freedSys board) LTS.step_of_guarded rfl
    (fun s => s.heap.memoryInitialized = true ∧ 0x20000028 ∈ s.freed ∧ Passes board s.heap.mem 0x20000028)
    [.malloc 8, .malloc 8, .free 0x20000028, .free 0x20000010, .malloc 4] (by decide +kernel)
  exact ⟨s, h, fun hc => hpass.harmed hi (by decide) (hc _ hp)⟩

end Rtos.Heap
