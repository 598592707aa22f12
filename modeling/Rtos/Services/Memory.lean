import Rtos.Services.Layout

/-!
# Memory calls carry out the specification

`Sound s W c`: the call `c` returns on the store `s`, the specification allows
its result for the world `W`, and the store after it implements the world
after it. Proved here for `rtos_malloc`, `rtos_calloc`, `rtos_realloc`,
`rtos_free` and the accesses of an application to the memory it was given.
-/
namespace Rtos.Services

open Rtos.Core Rtos.Heap
open Rtos.Drivers (UartHandle)

def Sound (t : Target) (callbacks : Nat → Nat → Mem × UartHandle → Mem × UartHandle) (task : UInt32) (s : Store)
    (W : World) (c : Call) : Prop :=
  ∃ s' r W', s.call t callbacks task c = some (s', r) ∧ step task W r W' c ∧ Implements t s' W'

variable {t : Target} {callbacks : Nat → Nat → Mem × UartHandle → Mem × UartHandle} {task : UInt32} {s : Store}
  {W : World} {p i n : Nat} {h : HeapState} {rest : Grants}

theorem isBytes_kinds (hl : W.kinds.isBytes p = true) : ∃ data, W (.ptr p) = some (.bytes data) := by
  unfold Live.isBytes World.kinds at hl
  cases hW : W (.ptr p) with
  | none => rw [hW] at hl; cases hl
  | some o =>
    rw [hW] at hl
    cases o with
    | bytes data => exact ⟨data, rfl⟩
    | _ => cases hl

theorem hasByte_kinds (hl : W.kinds.hasByte p i = true) :
    ∃ data, W (.ptr p) = some (.bytes data) ∧ i < data.length := by
  unfold Live.hasByte World.kinds at hl
  cases hW : W (.ptr p) with
  | none => rw [hW] at hl; cases hl
  | some o =>
    rw [hW] at hl
    cases o with
    | bytes data => exact ⟨data, rfl, of_decide_eq_true hl⟩
    | _ => cases hl

/-- Memory granted is laid out as the bytes that are there. -/
theorem bytesAt_self (m : Mem) (p : Nat) {n g : Nat} (hn : n ≤ g) : BytesAt m {(p, g)} p (m.bytes p n) :=
  ⟨g, rfl, by rwa [Mem.length_bytes], by rw [Mem.length_bytes]⟩

/-- `rtos_malloc` in the terms of `Implements.create`. -/
theorem malloc_creates (hn : n + 3 < t.sizeMod) (rest : Grants) (ho : Outstanding t s.heap rest) :
    (∃ h', rtosMalloc t s.heap n = some (h', 0) ∧ Outstanding t h' rest ∧ Kept rest s.heap.mem h'.mem) ∨
    ∃ h' p o gs, rtosMalloc t s.heap n = some (h', p) ∧ p ≠ 0 ∧ Fresh n o ∧
      ObjectAt t (.ptr p) o gs { s with heap := h' } ∧ Outstanding t h' (gs + rest) ∧ Kept rest s.heap.mem h'.mem := by
  rcases malloc_outstanding ho n with e | ⟨h', p, g, e, hp, hg, ho', hk, -⟩
  · exact .inl ⟨s.heap, e, ho, .refl _ _⟩
  · refine .inr ⟨h', p, .bytes (h'.mem.bytes p n), {(p, g)}, e, hp, ?_, ?_, ?_, hk⟩
    · exact ⟨malloc_ne_zero e hp, _, Mem.length_bytes .., rfl⟩
    · exact bytesAt_self _ _ ((le_alignSize hn).trans hg)
    · rwa [Multiset.singleton_add]

theorem malloc_sound (hi : Implements t s W) (hl : Legal t W.kinds (.malloc n)) :
    Sound t callbacks task s W (.malloc n) :=
  hi.create (malloc_creates hl)

/-- The memory is cleared before anything else happens. -/
theorem calloc_sound {num size : Nat} (hi : Implements t s W) (hl : Legal t W.kinds (.calloc num size)) :
    Sound t callbacks task s W (.calloc num size) := by
  have hl : num * size + 3 < t.sizeMod := hl
  have hmul : t.mul num size = num * size := Nat.mod_eq_of_lt (by omega)
  refine hi.create fun rest ho => ?_
  unfold rtosCalloc
  dsimp only
  rw [hmul]
  rcases malloc_outstanding ho (num * size) with e | ⟨h', p, g, e, hp, hg, ho', hk, -⟩
  · exact .inl ⟨s.heap, by rw [e]; rfl, ho, .refl _ _⟩
  · have hg' := (le_alignSize hl).trans hg
    obtain ⟨ho₂, hk₂⟩ := write_outstanding ho' (h'.mem.put p (fun _ => 0) (num * size))
      fun x hx => Mem.put_outside (by omega)
    refine .inr ⟨_, p, .bytes (List.replicate (num * size) 0), {(p, g)}, ?_, hp, ⟨malloc_ne_zero e hp, rfl⟩, ?_,
      by rwa [Multiset.singleton_add], hk.trans hk₂⟩
    · rw [e, Option.map_some]
      dsimp only
      rw [if_pos hp]
    · refine ⟨g, rfl, by rwa [List.length_replicate], ?_⟩
      rw [List.length_replicate, Mem.bytes_put_self, List.map_const', List.length_range]

theorem free_sound (hi : Implements t s W) (hl : Legal t W.kinds (.free p)) :
    Sound t callbacks task s W (.free p) := by
  refine hi.destroy (fun h0 => ?_) fun h0 => ?_
  · rw [rtosFree, if_pos (.inr h0)]
  · obtain ⟨data, hW⟩ := isBytes_kinds (hl.resolve_left h0)
    refine ⟨_, hW, fun gs rest hr ho => ?_⟩
    obtain ⟨g, rfl, -⟩ := hr
    rw [Multiset.singleton_add] at ho
    obtain ⟨h', e, ho', hk, -⟩ := free_outstanding ho
    exact ⟨h', e, ho', hk.mono (Multiset.subset_cons _ _)⟩

/-- `rtos_realloc` frees, resizes in place, moves, or leaves things as they are. -/
theorem realloc_sound (hi : Implements t s W) (hl : Legal t W.kinds (.realloc p n)) :
    Sound t callbacks task s W (.realloc p n) := by
  obtain ⟨hp, hn⟩ := hl
  by_cases h0 : p = 0
  · obtain ⟨s', r, W', e, hs, hi'⟩ := hi.create (malloc_creates (n := n) hn)
    refine ⟨s', r, W', ?_, ?_, hi'⟩
    · rw [Store.call, rtosRealloc, if_pos h0]
      exact e
    · rw [step, if_pos h0]
      exact hs
  obtain ⟨data, hW⟩ := isBytes_kinds (hp.resolve_left h0)
  obtain ⟨gs, rest, ⟨g, rfl, hlen, hdata⟩, hH, ho⟩ := hi.focus hW
  rw [Multiset.singleton_add] at ho
  by_cases hz : n = 0
  · obtain ⟨h', e, ho', hk, -⟩ := free_outstanding ho
    refine ⟨{ s with heap := h' }, .ptr 0, _, ?_, ?_,
      hi.drop hH (hk.mono (Multiset.subset_cons _ _)) (fun _ _ => rfl) (fun _ _ => rfl) ho' fun u hu => by cases hu⟩
    · rw [Store.call, rtosRealloc, if_neg h0, if_pos hz, e]
      rfl
    · rw [step, if_neg h0, if_pos hz]
      exact ⟨rfl, rfl⟩
  have hstep : ∀ r W', Resizes W r W' p n → step task W r W' (.realloc p n) := fun r W' hr => by
    rwa [step, if_neg h0, if_neg hz]
  rcases realloc_outstanding ho hz hn with ⟨hle, e⟩ | ⟨-, e⟩ | ⟨h', q, k, hlt, e, hq, hk, ho', hb, hkept, -⟩
  · -- it fits where it is
    refine ⟨s, .ptr p, Function.update (Function.update W (.ptr p) none) (.ptr p)
      (some (.bytes (s.heap.mem.bytes p n))), by rw [Store.call, e]; rfl, hstep _ _ ⟨p, data, rfl, hW, .inr ⟨h0,
        .inl rfl, _, Mem.length_bytes .., ?_, rfl⟩⟩, ?_⟩
    · rw [← hdata, Mem.bytes_take, Mem.length_bytes, Mem.bytes_take, Nat.min_comm]
    · rw [Function.update_idem]
      exact hi.put hH (.refl _ _) (fun _ _ => rfl) (fun _ _ => rfl) {(p, g)}
        (by rwa [Multiset.singleton_add]) (bytesAt_self _ _ hle)
  · exact ⟨s, .ptr 0, W, by rw [Store.call, e]; rfl, hstep _ _ ⟨0, data, rfl, hW, .inl ⟨rfl, rfl⟩⟩, hi⟩
  · -- it moves
    have hgone := fresh_handle {(q, k)} hH (by rwa [Multiset.singleton_add]) (Multiset.mem_singleton_self _)
    have hH' : (layout t).Holds (Function.update (Function.update W (.ptr p) none) (.ptr q) none) s rest := by
      rwa [Function.update_eq_self_iff.2 hgone.symm]
    have hfree : q = p ∨ W (.ptr q) = none := by
      by_cases hqp : q = p
      · exact .inl hqp
      · rw [Function.update_of_ne (by simpa using hqp)] at hgone
        exact .inr hgone
    refine ⟨{ s with heap := h' }, .ptr q, _, by rw [Store.call, e]; rfl, hstep _ _ ⟨q, data, rfl, hW,
      .inr ⟨hq, hfree, h'.mem.bytes q n, Mem.length_bytes .., ?_, rfl⟩⟩, ⟨_, hH'.put
        (fun j js _ hsub => ⟨hkept.mono hsub, fun _ _ => rfl, fun _ _ => rfl⟩) (bytesAt_self h'.mem q hk),
        by rwa [Multiset.singleton_add]⟩, fun u hu => ?_⟩
    · calc (h'.mem.bytes q n).take data.length
          = (h'.mem.bytes q g).take data.length := by
            rw [Mem.bytes_take, Mem.bytes_take, Nat.min_eq_left (by omega), Nat.min_eq_left hlen]
        _ = s.heap.mem.bytes p data.length := by rw [hb, Mem.bytes_take, Nat.min_eq_left hlen]
        _ = data.take n := by rw [hdata, List.take_of_length_le (by omega)]
    · rw [Function.update_of_ne (by simp), Function.update_of_ne (by simp)] at hu
      exact hi.idle u hu

theorem store_sound {v : UInt8} (hi : Implements t s W) (hl : Legal t W.kinds (.store p i v)) :
    Sound t callbacks task s W (.store p i v) := by
  obtain ⟨data, hW, hlt⟩ := hasByte_kinds hl
  refine hi.act hW fun gs hr => ?_
  obtain ⟨g, rfl, hg, hd⟩ := hr
  refine ⟨_, .bytes (data.set i v), .unit, rfl, if_pos hlt, ⟨g, rfl, by rwa [List.length_set], ?_⟩,
    .setMem fun x hx => Function.update_of_ne ?_ _ _⟩
  · rw [List.length_set]
    exact (Mem.bytes_update ..).trans (by rw [hd])
  · have := hx (p, g) (Multiset.mem_singleton_self _)
    dsimp only at this
    omega

theorem load_sound (hi : Implements t s W) (hl : Legal t W.kinds (.load p i)) :
    Sound t callbacks task s W (.load p i) := by
  obtain ⟨data, hW, hlt⟩ := hasByte_kinds hl
  refine hi.act hW fun gs hr => ?_
  obtain ⟨g, rfl, hg, hd⟩ := hr
  refine ⟨s, .bytes data, .byte (s.heap.mem (p + i)), rfl, ?_, ⟨g, rfl, hg, hd⟩, .refl _ _ _⟩
  rw [Act.load, ← hd, Mem.bytes_getElem? _ _ hlt]
  rfl

end Rtos.Services
