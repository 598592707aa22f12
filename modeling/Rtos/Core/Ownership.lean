import Mathlib.Data.Multiset.Bind
import Mathlib.Logic.Function.Basic

/-!
# Objects that own parts of a shared store

Named objects of a world `W` are laid out in one store, each in parts of its
own. A `Layout` says what it means that a value is laid out in given parts
(`rep`), and which changes of the store an object does not see (`same`).
`Holds W s gs`: all objects of `W` are laid out in `s`, and the parts they own
are together `gs`.

One object is taken out with its parts (`Holds.take`), what the others hold
survives a change that they do not see (`Holds.frame`), and an object is added
under a free name (`Holds.add`). So an operation on one object needs to be
understood for that object alone (`Holds.put`).
-/
namespace Rtos.Core

/-- How objects named by `K` with values `V` are laid out in parts `P` of a store `S`. -/
structure Layout (P K V S : Type) where
  rep : K → V → Multiset P → S → Prop
  same : K → Multiset P → S → S → Prop
  frame : ∀ {k v gs s s'}, same k gs s s' → rep k v gs s → rep k v gs s'

namespace Layout

variable {P K V S : Type} (R : Layout P K V S)

/-- The objects of `W` are laid out in `s`, each in the parts that `own` gives it. -/
structure Parts (W : K → Option V) (s : S) (own : Multiset (K × Multiset P)) : Prop where
  nodup : (own.map Prod.fst).Nodup
  dom : ∀ k, k ∈ own.map Prod.fst ↔ (W k).isSome = true
  rep : ∀ x ∈ own, ∀ v, W x.1 = some v → R.rep x.1 v x.2 s

/-- The objects of `W` own `gs` in `s`. -/
def Holds (W : K → Option V) (s : S) (gs : Multiset P) : Prop :=
  ∃ own, R.Parts W s own ∧ own.bind Prod.snd = gs

variable {R} {W : K → Option V} {s s' : S} {gs rest : Multiset P} {k : K} {v : V}

theorem holds_empty (s : S) : R.Holds (fun _ => none) s 0 :=
  ⟨0, ⟨Multiset.nodup_zero, fun _ => by simp, fun _ h => absurd h (Multiset.notMem_zero _)⟩, rfl⟩

/-- No objects own nothing. -/
theorem Holds.eq_zero (h : R.Holds (fun _ => none) s gs) : gs = 0 := by
  obtain ⟨own, hp, rfl⟩ := h
  have hown : own = 0 := by
    refine Multiset.eq_zero_of_forall_notMem fun x hx => ?_
    have := (hp.dom x.1).1 (Multiset.mem_map_of_mem _ hx)
    cases this
  rw [hown, Multiset.zero_bind]

/-- An object owns some of the parts. -/
theorem Holds.mem (h : R.Holds W s rest) (hk : W k = some v) : ∃ gs, gs ⊆ rest ∧ R.rep k v gs s := by
  obtain ⟨own, hp, rfl⟩ := h
  obtain ⟨⟨k', gs⟩, hx, rfl⟩ := Multiset.mem_map.1 ((hp.dom k).2 (by rw [hk]; rfl))
  refine ⟨gs, fun g hg => ?_, hp.rep _ hx v hk⟩
  exact Multiset.mem_bind.2 ⟨_, hx, hg⟩

/-- What all objects fail to see is not seen. -/
theorem Holds.frame (h : R.Holds W s rest)
    (hs : ∀ j gs, (W j).isSome = true → gs ⊆ rest → R.same j gs s s') : R.Holds W s' rest := by
  obtain ⟨own, hp, rfl⟩ := h
  refine ⟨own, ⟨hp.nodup, hp.dom, fun x hx v hv => R.frame (hs _ _ ?_ ?_) (hp.rep x hx v hv)⟩, rfl⟩
  · rw [hv]
    rfl
  · intro g hg
    exact Multiset.mem_bind.2 ⟨x, hx, hg⟩

variable [DecidableEq K]

/-- An object is taken out together with its parts. -/
theorem Holds.take (h : R.Holds W s rest) (hk : W k = some v) :
    ∃ gs rest', rest = gs + rest' ∧ R.rep k v gs s ∧ R.Holds (Function.update W k none) s rest' := by
  obtain ⟨own, hp, rfl⟩ := h
  obtain ⟨⟨k', gs⟩, hx, hkk⟩ := Multiset.mem_map.1 ((hp.dom k).2 (by rw [hk]; rfl))
  obtain rfl : k' = k := hkk
  obtain ⟨own', rfl⟩ := Multiset.exists_cons_of_mem hx
  have hn := hp.nodup
  rw [Multiset.map_cons, Multiset.nodup_cons] at hn
  refine ⟨gs, own'.bind Prod.snd, Multiset.cons_bind _ _ _, hp.rep _ hx v hk, own',
    ⟨hn.2, fun j => ?_, fun x hx' u hu => ?_⟩, rfl⟩
  · by_cases hj : j = k'
    · subst hj
      simp [hn.1]
    · have hd := hp.dom j
      rw [Multiset.map_cons, Multiset.mem_cons] at hd
      rw [Function.update_of_ne hj, ← hd]
      simp [hj]
  · have hne : x.1 ≠ k' := by
      intro e
      exact hn.1 (Multiset.mem_map.2 ⟨x, hx', e⟩)
    rw [Function.update_of_ne hne] at hu
    exact hp.rep x (Multiset.mem_cons_of_mem hx') u hu

/-- An object is added under a name that is not in use. -/
theorem Holds.add (h : R.Holds W s rest) (hk : W k = none) (hr : R.rep k v gs s) :
    R.Holds (Function.update W k (some v)) s (gs + rest) := by
  obtain ⟨own, hp, rfl⟩ := h
  have hnot : k ∉ own.map Prod.fst := by
    rw [hp.dom k, hk]
    simp
  refine ⟨(k, gs) ::ₘ own, ⟨?_, fun j => ?_, fun x hx u hu => ?_⟩, Multiset.cons_bind _ _ _⟩
  · rw [Multiset.map_cons, Multiset.nodup_cons]
    exact ⟨hnot, hp.nodup⟩
  · rw [Multiset.map_cons, Multiset.mem_cons]
    by_cases hj : j = k
    · subst hj
      simp
    · rw [Function.update_of_ne hj, ← hp.dom j]
      simp [hj]
  · rcases Multiset.mem_cons.1 hx with rfl | hx
    · rw [Function.update_self] at hu
      obtain rfl : v = u := Option.some.inj hu
      exact hr
    · have hne : x.1 ≠ k := by
        intro e
        exact hnot (Multiset.mem_map.2 ⟨x, hx, e⟩)
      rw [Function.update_of_ne hne] at hu
      exact hp.rep x hx u hu

/-- The object `k` taken out, the store changed where no other looks, and the
object put back with a new value and new parts. -/
theorem Holds.put (h : R.Holds (Function.update W k none) s rest)
    (hs : ∀ j gs, j ≠ k → gs ⊆ rest → R.same j gs s s') (hr : R.rep k v gs s') :
    R.Holds (Function.update W k (some v)) s' (gs + rest) := by
  have h' : R.Holds (Function.update W k none) s' rest := h.frame fun j gs hj hsub => by
    refine hs j gs (fun e => ?_) hsub
    rw [e, Function.update_self] at hj
    cases hj
  have hput := h'.add (Function.update_self ..) hr
  rwa [Function.update_idem] at hput

end Layout

end Rtos.Core
