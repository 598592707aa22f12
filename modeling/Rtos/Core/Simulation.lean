import Rtos.Core.LTS

/-!
# Forward simulation

`Simulates C A R`: every step that `C` takes is matched by a step of `A` with
the same label, and the states stay related by `R`. So what `C` shows of its
runs, its traces, are traces of `A` (`Simulates.trace`), and a property of the
traces of `A` is one of the traces of `C`.

`LTS.both M N ok` runs two systems side by side; a step of the second is taken
only if `ok` allows it in the state of the first. Simulations of the parts
make one of the whole (`Simulates.both`), and a trace of the whole is one of
each part (`Run.left`, `Run.right`).

`callSys` is a system of calls with results; `callSys_history` derives all of
its runs from a function that answers the calls in an abstraction. `Answered`
is the same for a log of events, where calls may nest.
-/
namespace Rtos

variable {S S' T T' L L' : Type}

namespace LTS

/-- A list of labels that a run from an initial state shows. -/
def Trace (M : LTS S L) (ls : List L) : Prop := ∃ s₀ s, M.init s₀ ∧ M.Run s₀ ls s

/-- The two halves of a run. -/
theorem run_split {M : LTS S L} {ls ls' : List L} {s s'' : S} (h : M.Run s (ls ++ ls') s'') :
    ∃ s', M.Run s ls s' ∧ M.Run s' ls' s'' := by
  induction ls generalizing s with
  | nil => exact ⟨s, .nil s, h⟩
  | cons l ls ih =>
    cases h with
    | cons hs hr =>
      obtain ⟨s', h1, h2⟩ := ih hr
      exact ⟨s', .cons hs h1, h2⟩

/-- An invariant of the state and of the labels so far. -/
theorem run_history {M : LTS S L} {I : List L → S → Prop}
    (hI : ∀ ls s l s', I ls s → M.step s l s' → I (ls ++ [l]) s') {s s' : S} {ls : List L} (hr : M.Run s ls s')
    (h : I [] s) : I ls s' := by
  have hgen : ∀ ls₀, I ls₀ s → I (ls₀ ++ ls) s' := by
    clear h
    induction hr with
    | nil s => intro ls₀ h; rwa [List.append_nil]
    | @cons s s₁ s' l ls hs _ ih =>
      intro ls₀ h
      have h1 := ih (ls₀ ++ [l]) (hI _ _ _ _ h hs)
      rwa [List.append_assoc, List.singleton_append] at h1
  exact hgen [] h

end LTS

/-- Every step of `C` is a step of `A` between related states. -/
structure Simulates (C : LTS S L) (A : LTS T L) (R : S → T → Prop) : Prop where
  init : ∀ s, C.init s → ∃ a, A.init a ∧ R s a
  step : ∀ s l s' a, R s a → C.step s l s' → ∃ a', A.step a l a' ∧ R s' a'

namespace Simulates

variable {C : LTS S L} {A : LTS T L} {R : S → T → Prop} {C' : LTS S' L'} {A' : LTS T' L'}
  {R' : S' → T' → Prop}

theorem run (h : Simulates C A R) {s s' : S} {ls : List L} (hr : C.Run s ls s') {a : T} (ha : R s a) :
    ∃ a', A.Run a ls a' ∧ R s' a' := by
  induction hr generalizing a with
  | nil s => exact ⟨a, .nil a, ha⟩
  | cons hs _ ih =>
    obtain ⟨a₁, h1, ha₁⟩ := h.step _ _ _ _ ha hs
    obtain ⟨a', h2, ha'⟩ := ih ha₁
    exact ⟨a', .cons h1 h2, ha'⟩

theorem start (h : Simulates C A R) {s s' : S} {ls : List L} (h0 : C.init s) (hr : C.Run s ls s') :
    ∃ a a', A.init a ∧ A.Run a ls a' ∧ R s' a' := by
  obtain ⟨a, ha, hR⟩ := h.init s h0
  obtain ⟨a', hr', hR'⟩ := h.run hr hR
  exact ⟨a, a', ha, hr', hR'⟩

/-- Trace inclusion. -/
theorem trace (h : Simulates C A R) {ls : List L} (hc : C.Trace ls) : A.Trace ls := by
  obtain ⟨s₀, s, h0, hr⟩ := hc
  obtain ⟨a, a', ha, hr', -⟩ := h.start h0 hr
  exact ⟨a, a', ha, hr'⟩

end Simulates

/-! ## Two systems side by side -/

namespace LTS

/-- One of the two takes a step; `ok` says when the second one may. -/
def both (M : LTS S L) (N : LTS T L') (ok : S → L' → Prop) : LTS (S × T) (L ⊕ L') where
  init x := M.init x.1 ∧ N.init x.2
  step x l x' := match l with
    | .inl l => M.step x.1 l x'.1 ∧ x'.2 = x.2
    | .inr l => ok x.1 l ∧ x'.1 = x.1 ∧ N.step x.2 l x'.2

variable {M : LTS S L} {N : LTS T L'} {ok : S → L' → Prop} {x x' : S × T} {ls : List (L ⊕ L')}

/-- A run of both is a run of the first. -/
theorem Run.left (h : (M.both N ok).Run x ls x') : M.Run x.1 (ls.filterMap Sum.getLeft?) x'.1 := by
  induction h with
  | nil x => exact .nil _
  | @cons x x₁ x' l ls hs _ ih =>
    cases l with
    | inl l => exact .cons hs.1 ih
    | inr l => exact hs.2.1 ▸ ih

/-- And of the second. -/
theorem Run.right (h : (M.both N ok).Run x ls x') : N.Run x.2 (ls.filterMap Sum.getRight?) x'.2 := by
  induction h with
  | nil x => exact .nil _
  | @cons x x₁ x' l ls hs _ ih =>
    cases l with
    | inl l => exact hs.2 ▸ ih
    | inr l => exact .cons hs.2.2 ih

theorem Trace.right (h : (M.both N ok).Trace ls) : N.Trace (ls.filterMap Sum.getRight?) := by
  obtain ⟨x₀, x, h0, hr⟩ := h
  exact ⟨x₀.2, x.2, h0.2, hr.right⟩

theorem mem_right {l : L'} : l ∈ ls.filterMap Sum.getRight? ↔ .inr l ∈ ls := by
  simp [List.mem_filterMap, Sum.getRight?_eq_some_iff]

end LTS

/-- Simulations of the parts, if `ok` reads of the first system only what the
relation keeps. -/
theorem Simulates.both {C : LTS S L} {A : LTS T L} {R : S → T → Prop} {C' : LTS S' L'} {A' : LTS T' L'}
    {R' : S' → T' → Prop} {ok : S → L' → Prop} {ok' : T → L' → Prop} (h : Simulates C A R)
    (h' : Simulates C' A' R') (hok : ∀ s a l, R s a → ok s l → ok' a l) :
    Simulates (C.both C' ok) (A.both A' ok') fun x y => R x.1 y.1 ∧ R' x.2 y.2 where
  init x hx := by
    obtain ⟨a, ha, hR⟩ := h.init x.1 hx.1
    obtain ⟨b, hb, hR'⟩ := h'.init x.2 hx.2
    exact ⟨(a, b), ⟨ha, hb⟩, hR, hR'⟩
  step x l x' y hR hs := by
    cases l with
    | inl l =>
      obtain ⟨a', h1, h2⟩ := h.step _ _ _ _ hR.1 hs.1
      exact ⟨(a', y.2), ⟨h1, rfl⟩, h2, hs.2.symm ▸ hR.2⟩
    | inr l =>
      obtain ⟨hl, hx, hs⟩ := hs
      obtain ⟨b', h1, h2⟩ := h'.step _ _ _ _ hR.2 hs
      exact ⟨(y.1, b'), ⟨hok _ _ _ hR.1 hl, rfl, h1⟩, hx.symm ▸ hR.1, h2⟩

/-! ## Calls answered from an abstraction -/

/-- A call and what it returned. -/
structure Observed (C R : Type) where
  call : C
  ret : R

/-- The system whose steps are calls; `run` is none where a call has no result. -/
def callSys {C R : Type} (init : S → Prop) (run : S → C → Option (S × R)) : LTS S (Observed C R) where
  init := init
  step s e s' := run s e.call = some (s', e.ret)

/-- One call, if it returns what is expected. -/
def callStep {C R : Type} [DecidableEq R] (run : S → C → Option (S × R)) (s : S) (e : Observed C R) : Option S :=
  (run s e.call).bind fun r => if r.2 = e.ret then some r.1 else none

theorem step_of_callStep {C R : Type} [DecidableEq R] {init : S → Prop} {run : S → C → Option (S × R)} (s : S)
    (e : Observed C R) (s' : S) (h : callStep run s e = some s') : (callSys init run).step s e s' := by
  obtain ⟨r, hr, h⟩ := Option.bind_eq_some_iff.1 h
  obtain ⟨h1, h⟩ := Option.ite_none_right_eq_some.1 h
  cases h
  exact hr.trans (by rw [← h1])

/-- If every call returns what the abstraction of the state answers, and changes
the abstraction as the call says, then the calls of a run determine both. -/
theorem callSys_history {C R : Type} {init I : S → Prop} {run : S → C → Option (S × R)} {f : S → T} {a : T}
    (answer : T → C → Option R) (next : T → C → T) (h0 : ∀ s, init s → I s ∧ f s = a)
    (hrun : ∀ s, I s → ∀ c, ∃ s', I s' ∧ f s' = next (f s) c ∧ run s c = (answer (f s) c).map fun r => (s', r))
    {s₀ s : S} {es : List (Observed C R)} (hs : init s₀) (hr : (callSys init run).Run s₀ es s) :
    I s ∧ f s = es.foldl (fun a e => next a e.call) a ∧
    ∀ e, (∃ s', (callSys init run).step s e s') ↔
      answer (es.foldl (fun a e => next a e.call) a) e.call = some e.ret := by
  have hinv : I s ∧ f s = es.foldl (fun a e => next a e.call) a := by
    refine LTS.run_history (I := fun es s => I s ∧ f s = es.foldl (fun a e => next a e.call) a) ?_ hr (h0 s₀ hs)
    intro es s e s' hi hs
    obtain ⟨s₁, hI, hf, e₁⟩ := hrun s hi.1 e.call
    have hs : run s e.call = some (s', e.ret) := hs
    rw [e₁] at hs
    obtain ⟨r, -, hs⟩ := Option.map_eq_some_iff.1 hs
    cases hs
    refine ⟨hI, ?_⟩
    rw [hf, hi.2, List.foldl_append]
    rfl
  refine ⟨hinv.1, hinv.2, fun e => ?_⟩
  obtain ⟨s₁, -, -, e₁⟩ := hrun s hinv.1 e.call
  rw [← hinv.2]
  constructor
  · intro h
    obtain ⟨s', hs⟩ := h
    have hs : run s e.call = some (s', e.ret) := hs
    rw [e₁] at hs
    obtain ⟨r, hr, hs⟩ := Option.map_eq_some_iff.1 hs
    cases hs
    exact hr
  · intro h
    have hs : run s e.call = some (s₁, e.ret) := by rw [e₁, h]; rfl
    exact ⟨s₁, hs⟩

/-! ## Logs answered from an abstraction -/

section Answered

variable {E : Type} {next : T → E → T} {ok : T → E → Prop} {a : T} {e : E} {es es' : List E}

/-- Every event of the log is right in the state that those before it lead to. -/
def Answered (next : T → E → T) (ok : T → E → Prop) : T → List E → Prop
  | _, [] => True
  | a, e :: es => ok a e ∧ Answered next ok (next a e) es

theorem answered_append : Answered next ok a (es ++ es') ↔
    Answered next ok a es ∧ Answered next ok (es.foldl next a) es' := by
  induction es generalizing a with
  | nil => simp [Answered]
  | cons e es ih => simp [Answered, ih, and_assoc]

theorem Answered.at (h : Answered next ok a (es ++ e :: es')) : ok (es.foldl next a) e :=
  (answered_append.1 h).2.1

end Answered

end Rtos
