import Mathlib.Data.List.Basic

/-!
# Labelled transition systems: runs, invariants, conditions on steps

A system is an initial-state predicate and a step relation. Two kinds of
statement about its runs are used:

* an invariant of every reachable state (`Inductive.reachable`), possibly of
  the system whose steps are `restrict`ed to those meeting a condition;
* a comparison along one run of what holds in the states it visits
  (`Always`) with what its steps meet (`Steps`): `always_iff_steps` says that
  the two are the same when meeting the condition keeps the property and
  missing it destroys the property at once. `always_congr` compares two
  properties of states in the same way.
-/
namespace Rtos

structure LTS (S L : Type) where
  init : S → Prop
  step : S → L → S → Prop

namespace LTS

variable {S L : Type}

/-- A deterministic system; `none`: the step does not return. -/
def ofFn (init : S → Prop) (f : S → L → Option S) : LTS S L where
  init := init
  step s l s' := f s l = some s'

/-- The steps that meet `G` in the state they are taken from. -/
def restrict (M : LTS S L) (G : S → L → Prop) : LTS S L where
  init := M.init
  step s l s' := G s l ∧ M.step s l s'

inductive Run (M : LTS S L) : S → List L → S → Prop
  | nil (s : S) : Run M s [] s
  | cons {s s' s'' : S} {l : L} {ls : List L} :
      M.step s l s' → Run M s' ls s'' → Run M s (l :: ls) s''

def Reachable (M : LTS S L) (s : S) : Prop := ∃ s₀ ls, M.init s₀ ∧ M.Run s₀ ls s

/-- `I` holds initially and every step keeps it. -/
structure Inductive (M : LTS S L) (I : S → Prop) : Prop where
  init : ∀ s, M.init s → I s
  step : ∀ s l s', I s → M.step s l s' → I s'

theorem run_keeps {M : LTS S L} {I : S → Prop} (hI : ∀ s l s', I s → M.step s l s' → I s')
    {s s' : S} {ls : List L} (hr : M.Run s ls s') (h : I s) : I s' := by
  induction hr with
  | nil s => exact h
  | cons hs _ ih => exact ih (hI _ _ _ h hs)

theorem Inductive.reachable {M : LTS S L} {I : S → Prop} (hI : M.Inductive I) (s : S)
    (h : M.Reachable s) : I s := by
  obtain ⟨s₀, ls, h0, hr⟩ := h
  exact run_keeps hI.step hr (hI.init s₀ h0)

theorem run_append {M : LTS S L} {s s' s'' : S} {ls ls' : List L} (h : M.Run s ls s')
    (h' : M.Run s' ls' s'') : M.Run s (ls ++ ls') s'' := by
  induction h with
  | nil s => exact h'
  | cons hs _ ih => exact .cons hs (ih h')

theorem run_snoc {M : LTS S L} {s s' s'' : S} {l : L} {ls : List L} (h : M.Run s ls s')
    (hs : M.step s' l s'') : M.Run s (ls ++ [l]) s'' :=
  run_append h (.cons hs (.nil _))

/-- The condition on the steps may be forgotten. -/
theorem run_of_restrict {M : LTS S L} {G : S → L → Prop} {s s' : S} {ls : List L}
    (h : (M.restrict G).Run s ls s') : M.Run s ls s' := by
  induction h with
  | nil s => exact .nil s
  | cons hs _ ih => exact .cons hs.2 ih

theorem run_restrict {M : LTS S L} {G : S → L → Prop} {s s' : S} {ls : List L} (h : M.Run s ls s')
    (hG : ∀ l ∈ ls, ∀ s, G s l) : (M.restrict G).Run s ls s' := by
  induction h with
  | nil s => exact .nil s
  | cons hs _ ih =>
    exact .cons ⟨hG _ List.mem_cons_self _, hs⟩ (ih fun l hl => hG l (List.mem_cons_of_mem _ hl))

/-- The state that a list of steps, each given by a function, leads to. -/
def exec (f : S → L → Option S) : S → List L → Option S
  | s, [] => some s
  | s, l :: ls => (f s l).bind fun s' => exec f s' ls

theorem run_of_exec {M : LTS S L} {f : S → L → Option S} (hf : ∀ s l s', f s l = some s' → M.step s l s') :
    ∀ {ls : List L} {s s' : S}, exec f s ls = some s' → M.Run s ls s'
  | [], s, s', h => by cases h; exact .nil s
  | l :: ls, s, s', h => by
    obtain ⟨s₁, h1, h2⟩ := Option.bind_eq_some_iff.1 h
    exact .cons (hf _ _ _ h1) (run_of_exec hf h2)

/-- What is computed of the state at the end of a run holds of a reachable one. -/
theorem reachable_of_exec {M : LTS S L} {f : S → L → Option S} (hf : ∀ s l s', f s l = some s' → M.step s l s')
    {s₀ : S} (h0 : M.init s₀) (P : S → Prop) [DecidablePred P] (ls : List L)
    (h : (exec f s₀ ls).any (P ·) = true) : ∃ s, M.Run s₀ ls s ∧ M.Reachable s ∧ P s := by
  cases he : exec f s₀ ls with
  | none => rw [he] at h; cases h
  | some s =>
    rw [he] at h
    have hrun := run_of_exec hf he
    exact ⟨s, hrun, ⟨_, ls, h0, hrun⟩, of_decide_eq_true h⟩

/-- One step of a system given by a function, if it meets `G`. -/
def guarded (f : S → L → Option S) (G : S → L → Prop) [∀ s l, Decidable (G s l)] (s : S) (l : L) : Option S :=
  if G s l then f s l else none

theorem step_of_guarded {init : S → Prop} {f : S → L → Option S} {G : S → L → Prop} [∀ s l, Decidable (G s l)]
    (s : S) (l : L) (s' : S) (h : guarded f G s l = some s') : ((ofFn init f).restrict G).step s l s' :=
  Option.ite_none_right_eq_some.1 h

/-! ## Along one run -/

/-- `P` holds in every state the calls `ls` go through, `s` included. -/
def Always (M : LTS S L) (P : S → Prop) : S → List L → Prop
  | s, [] => P s
  | s, l :: ls => P s ∧ ∀ s', M.step s l s' → M.Always P s' ls

/-- Every step the calls `ls` take meets `C` in the state it is taken from. -/
def Steps (M : LTS S L) (C : S → L → Prop) : S → List L → Prop
  | _, [] => True
  | s, l :: ls => ∀ s', M.step s l s' → C s l ∧ M.Steps C s' ls

theorem Always.head {M : LTS S L} {P : S → Prop} {s : S} {ls : List L} (h : M.Always P s ls) :
    P s := by
  cases ls with
  | nil => exact h
  | cons l ls => exact h.1

/-- Meeting the condition keeps the invariant, so what the invariant implies
holds all along the run. -/
theorem always_of_steps {M : LTS S L} {I P : S → Prop} {C : S → L → Prop}
    (hP : ∀ s, I s → P s) (hkeep : ∀ s l s', I s → C s l → M.step s l s' → I s') :
    ∀ (ls : List L) (s : S), I s → M.Steps C s ls → M.Always P s ls
  | [], s, h, _ => hP s h
  | l :: ls, s, h, hc =>
    ⟨hP s h, fun s' hs => always_of_steps hP hkeep ls s' (hkeep s l s' h (hc s' hs).1 hs) (hc s' hs).2⟩

/-- When in addition missing the condition destroys the property at once,
the property along the run is the condition on its steps. -/
theorem always_iff_steps {M : LTS S L} {I P : S → Prop} {C : S → L → Prop}
    (hP : ∀ s, I s → P s) (hkeep : ∀ s l s', I s → C s l → M.step s l s' → I s')
    (hbreak : ∀ s l s', I s → ¬ C s l → M.step s l s' → ¬ P s') (ls : List L) (s : S) (h : I s) :
    M.Always P s ls ↔ M.Steps C s ls := by
  refine ⟨?_, always_of_steps hP hkeep ls s h⟩
  induction ls generalizing s with
  | nil => exact fun _ => trivial
  | cons l ls ih =>
    intro ha s' hs
    have hc : C s l := by
      by_contra hn
      exact hbreak s l s' h hn hs (ha.2 s' hs).head
    exact ⟨hc, ih s' (hkeep s l s' h hc hs) (ha.2 s' hs)⟩

/-- A condition on the calls alone is met by the steps of a run when it is met
by its calls, if every call returns until one misses it. -/
theorem steps_iff_forall {M : LTS S L} {I : S → Prop} {D : L → Prop} (hstep : ∀ s l, I s → ∃ s', M.step s l s')
    (hkeep : ∀ s l s', I s → D l → M.step s l s' → I s') (ls : List L) (s : S) (h : I s) :
    M.Steps (fun _ l => D l) s ls ↔ ∀ l ∈ ls, D l := by
  induction ls generalizing s with
  | nil => exact iff_of_true trivial fun _ hl => absurd hl List.not_mem_nil
  | cons l ls ih =>
    rw [List.forall_mem_cons]
    constructor
    · intro hs
      obtain ⟨s', h1⟩ := hstep s l h
      obtain ⟨hd, hs'⟩ := hs s' h1
      exact ⟨hd, (ih s' (hkeep s l s' h hd h1)).1 hs'⟩
    · intro hd s' h1
      exact ⟨hd.1, (ih s' (hkeep s l s' h hd.1 h1)).2 hd.2⟩

/-- Two properties that the invariant implies and that are both lost when it
is are the same along every run. -/
theorem always_congr {M : LTS S L} {I P Q : S → Prop} (hP : ∀ s, I s → P s) (hQ : ∀ s, I s → Q s)
    (hstep : ∀ s l s', I s → M.step s l s' → I s' ∨ ¬ P s' ∧ ¬ Q s') (ls : List L) (s : S) (h : I s) :
    M.Always P s ls ↔ M.Always Q s ls := by
  induction ls generalizing s with
  | nil => exact iff_of_true (hP s h) (hQ s h)
  | cons l ls ih =>
    show P s ∧ _ ↔ Q s ∧ _
    refine and_congr (iff_of_true (hP s h) (hQ s h)) (forall_congr' fun s' => imp_congr_right fun hs => ?_)
    rcases hstep s l s' h hs with h' | ⟨hp, hq⟩
    · exact ih s' h'
    · exact iff_of_false (fun ha => hp ha.head) fun ha => hq ha.head

end LTS

end Rtos
