import Rtos.Sched.Keeps

/-!
# The task id wraps

Ids come from a 32-bit counter that starts at 1 and is never tested, so the
2^32-th successful `task_create` gives the id 0, the mark of a free slot.
`identity_iff`: along the runs of all functions in any order, live tasks have
different non-zero ids that find their slots, and no live slot is filled
again, exactly as long as fewer than 2^32 tasks were created.
-/
namespace Rtos.Sched

open Rtos.Core

/-- Live tasks have different non-zero ids, each id finds the slot its
`task_create` filled, and no `task_create` is about to fill a live slot. -/
structure Identity (s : Sys) : Prop where
  nonzero : ∀ x ∈ s.h.live, x.2 ≠ 0
  different : (s.h.live.map Prod.snd).Nodup
  found : ∀ x ∈ s.h.live, taskGetTcb s.k x.2 = some x.1
  kept : ∀ t, findFreeTcb s.k = some t → ∀ x ∈ s.h.live, x.1 ≠ t

/-- A `task_create` that succeeds is not the 2^32-th. -/
def InRange (s : Sys) : ApiCall → Prop
  | .app (.taskCreate f _ p _ _) => f ≠ none → p.toNat < NUM_PRIORITY_LEVELS → findFreeTcb s.k ≠ none →
    s.h.created < 2 ^ 32 - 1
  | _ => True

/-- No slot has an id the counter has not reached, no two slots have the same
non-zero id, and a live task's slot has its id and is not DELETED. -/
structure IdInv (k : Kernel) (h : Hist) : Prop where
  counter : k.nextTaskId.toNat = (h.created + 1) % 2 ^ 32
  created : h.created < 2 ^ 32
  bound : ∀ t, (k.taskId t).toNat ≤ h.created
  inj : ∀ t u, k.taskId t = k.taskId u → k.taskId t ≠ 0 → t = u
  live : ∀ x ∈ h.live, k.taskId x.1 = x.2 ∧ x.2 ≠ 0 ∧ k.state x.1 ≠ .deleted
  different : (h.live.map Prod.snd).Nodup

variable {k k' : Kernel} {h : Hist} {r : Ret}

theorem IdInv.identity {s : Sys} (hi : IdInv s.k s.h) : Identity s where
  nonzero x hx := (hi.live x hx).2.1
  different := hi.different
  found x hx := by
    obtain ⟨h1, h2, h3⟩ := hi.live x hx
    cases hf : taskGetTcb s.k x.2 with
    | none =>
      have := List.find?_eq_none.1 hf x.1 (List.mem_finRange _)
      simp [h1, h3] at this
    | some t =>
      have := (tcb_spec hf).1
      rw [hi.inj t x.1 (this.trans h1.symm) (by rwa [this])]
  kept t ht x hx := by
    obtain ⟨h1, h2, h3⟩ := hi.live x hx
    intro e
    subst e
    have : s.k.state x.1 = .deleted ∨ s.k.taskId x.1 = 0 := by simpa using List.find?_some ht
    rcases this with hs | h0
    · exact h3 hs
    · exact h2 (h1.symm.trans h0)

/-- Moving tasks to READY and RUNNING keeps it. -/
theorem IdInv.keeps (hi : IdInv k h) (hk : Keeps k k') : IdInv k' h where
  counter := by rw [hk.nextTaskId, hi.counter]
  created := hi.created
  bound := by rw [hk.taskId]; exact hi.bound
  inj := by rw [hk.taskId]; exact hi.inj
  live x hx := by
    obtain ⟨h1, h2, h3⟩ := hi.live x hx
    exact ⟨by rw [hk.taskId, h1], h2, fun hs => h3 (hk.state_of hs (by simp) (by simp))⟩
  different := hi.different

/-- So does putting a task that is not live afterwards into any state. -/
theorem IdInv.setState (hi : IdInv k h) (t : TaskPtr) (s : TaskState)
    (hs : s = .deleted → ∀ x ∈ h.live, x.1 ≠ t) : IdInv (k.setState t s) h where
  counter := hi.counter
  created := hi.created
  bound := by rw [Kernel.setState_taskId]; exact hi.bound
  inj := by rw [Kernel.setState_taskId]; exact hi.inj
  live x hx := by
    obtain ⟨h1, h2, h3⟩ := hi.live x hx
    refine ⟨by rw [Kernel.setState_taskId, h1], h2, fun hd => ?_⟩
    by_cases hxt : x.1 = t
    · rw [Kernel.setState_state, hxt, Function.update_self] at hd
      exact hs hd x hx hxt
    · rw [Kernel.setState_state, Function.update_of_ne hxt] at hd
      exact h3 hd
  different := hi.different

/-- A new task's id is the counter's, which no slot has yet. -/
theorem IdInv.create (hi : IdInv k h) {t : TaskPtr} {x : Tcb} (hf : findFreeTcb k = some t)
    (hx : x.taskId = k.nextTaskId) (hs : x.state = .ready) (hc : h.created < 2 ^ 32 - 1) {h' : Hist}
    (hl : h'.live = (t, k.nextTaskId) :: h.live) (hcr : h'.created = h.created + 1) :
    IdInv (filled k t x) h' := by
  have hn : k.nextTaskId.toNat = h.created + 1 := by rw [hi.counter]; omega
  have hfresh : ∀ u, k.taskId u ≠ k.nextTaskId := fun u e => by
    have := hi.bound u
    rw [e] at this
    omega
  have hkept := hi.identity (s := ⟨k, h⟩) |>.kept t hf
  refine ⟨?_, by omega, ?_, ?_, ?_, ?_⟩
  · show (k.nextTaskId + 1).toNat = _
    rw [UInt32.toNat_add, hn, hcr]
    rfl
  · intro u
    rw [filled_taskId, hcr]
    by_cases hu : u = t
    · rw [hu, Function.update_self, hx, hn]
    · rw [Function.update_of_ne hu]
      exact Nat.le_succ_of_le (hi.bound u)
  · intro u v
    rw [filled_taskId]
    by_cases hu : u = t <;> by_cases hv : v = t
    · exact fun _ _ => hu.trans hv.symm
    · rw [hu, Function.update_self, Function.update_of_ne hv, hx]
      exact fun e => absurd e.symm (hfresh v)
    · rw [hv, Function.update_self, Function.update_of_ne hu, hx]
      exact fun e => absurd e (hfresh u)
    · rw [Function.update_of_ne hu, Function.update_of_ne hv]
      exact hi.inj u v
  · rw [hl, filled_taskId, filled_state]
    intro y hy
    rcases List.mem_cons.1 hy with rfl | hy
    · refine ⟨by simp [hx], fun h0 => ?_, by simp [hs]⟩
      simp only at h0
      rw [h0] at hn
      simp at hn
    · have hne := hkept y hy
      rw [Function.update_of_ne hne, Function.update_of_ne hne]
      exact hi.live y hy
  · rw [hl, List.map_cons, List.nodup_cons]
    refine ⟨fun hm => ?_, hi.different⟩
    obtain ⟨y, hy, e⟩ := List.mem_map.1 hm
    exact hfresh y.1 ((hi.live y hy).1.trans e)

/-- Forgetting live tasks keeps it, as long as their slots keep their ids. -/
theorem IdInv.forget (hi : IdInv k h) {h' : Hist} (hl : h'.live.Sublist h.live)
    (hc : h'.created = h.created) : IdInv k h' where
  counter := by rw [hc, hi.counter]
  created := by rw [hc]; exact hi.created
  bound := by rw [hc]; exact hi.bound
  inj := hi.inj
  live x hx := hi.live x (hl.subset hx)
  different := hi.different.sublist (hl.map _)

/-! ## Along a run -/

theorem id_call {c : Call} (hi : IdInv k h) (hc : InRange ⟨k, h⟩ (.app c))
    (e : call k c = some (k', r)) : IdInv k' (h.after k r (.app c)) := by
  cases c with
  | taskCreate f name p params w =>
    obtain ⟨⟨k₁, st, id⟩, h1, h2⟩ := Option.map_eq_some_iff.1 e
    cases h2
    rcases taskCreate_keeps h1 with ⟨hst, rfl, -⟩ | ⟨t, x, rfl, hf, hfn, hp, hx, hs, hk, hid⟩
    · rwa [after_create_failed (by simpa using hst)]
    · have hid' : id.getD k.nextTaskId = k.nextTaskId := by rw [hid]; cases w <;> rfl
      rw [after_create_ok hf, hid']
      exact (hi.create hf hx hs (hc hfn hp (by simp [hf])) rfl rfl).keeps hk
  | taskDelete id =>
    obtain ⟨⟨k₁, st⟩, h1, h2⟩ := Option.map_eq_some_iff.1 e
    cases h2
    rcases taskDelete_keeps h1 with ⟨hst, rfl⟩ | ⟨t, k₂, rfl, hf, hk₂, hk⟩
    · rwa [after_delete_failed (by simpa using hst)]
    · rw [after_delete_ok hf]
      have hi₁ : IdInv k { h with live := h.live.filter (· ≠ (t, id)), dead := t :: h.dead } :=
        hi.forget List.filter_sublist rfl
      have hi' := hi₁.keeps hk₂
      refine (hi'.setState t .deleted fun _ x hx hxt => ?_).keeps hk
      -- the only live task of the slot was the one with this id
      have hm := List.mem_filter.1 hx
      have hid : x.2 = id := by rw [← (hi.live x hm.1).1, hxt, (tcb_spec hf).1]
      simp [← hxt, ← hid] at hm
  | taskSuspend id =>
    obtain ⟨⟨k₁, st⟩, h1, h2⟩ := Option.map_eq_some_iff.1 e
    cases h2
    rcases taskSuspend_keeps h1 with rfl | ⟨t, -, hk⟩
    · exact hi
    · exact (hi.setState t .suspended (by simp)).keeps hk
  | taskResume id =>
    obtain ⟨⟨k₁, st⟩, h1, h2⟩ := Option.map_eq_some_iff.1 e
    cases h2
    exact hi.keeps (taskResume_keeps h1)
  | taskDelay ticks =>
    obtain ⟨k₁, h1, h2⟩ := Option.map_eq_some_iff.1 e
    cases h2
    have hi' : IdInv k (h.after k .void (.app (.taskDelay ticks))) := by
      obtain ⟨due, e⟩ := after_delay h k .void ticks
      rw [e]
      exact hi.forget (List.Sublist.refl _) rfl
    rcases taskDelay_keeps h1 with rfl | ⟨c, -, -, hk⟩
    · exact hi'
    · exact (hi'.setState c .blocked (by simp)).keeps hk
  | taskYield | schedulerYield =>
    obtain ⟨k₁, h1, h2⟩ := Option.map_eq_some_iff.1 e
    cases h2
    exact hi.keeps (schedulerYield_keeps h1)
  | schedulerTick =>
    obtain ⟨k₁, h1, h2⟩ := Option.map_eq_some_iff.1 e
    cases h2
    exact (hi.keeps (schedulerTick_keeps h1)).forget (List.Sublist.refl _) rfl
  | schedulerStart =>
    obtain ⟨k₁, h1, h2⟩ := Option.map_eq_some_iff.1 e
    cases h2
    exact (hi.keeps (schedulerStart_keeps h1)).forget (List.Sublist.refl _) rfl

theorem id_init (k : Kernel) (h : Hist) : IdInv (taskInit k) (h.after k .void .taskInit) where
  counter := rfl
  created := by simp [Hist.after, Hist.boot]
  bound t := Nat.le_refl 0
  inj t u _ h0 := absurd rfl h0
  live x hx := by cases hx
  different := List.nodup_nil

theorem id_step {s s' : Sys} {c : ApiCall} (hi : IdInv s.k s.h) (hc : InRange s c)
    (hs : apiSys.step s c s') : IdInv s'.k s'.h := by
  obtain ⟨⟨k', r⟩, e, rfl⟩ := Option.map_eq_some_iff.1 hs
  cases c with
  | app c => exact id_call hi hc e
  | taskInit => cases e; exact id_init s.k s.h
  | schedulerInit => cases e; exact hi.keeps (schedulerInit_keeps s.k)
  | schedulerAddTask t =>
    obtain ⟨k₁, h1, h2⟩ := Option.map_eq_some_iff.1 e
    cases h2
    exact hi.keeps (schedulerAddTask_keeps h1)
  | schedulerRemoveTask t =>
    obtain ⟨k₁, h1, h2⟩ := Option.map_eq_some_iff.1 e
    cases h2
    exact hi.keeps (schedulerRemoveTask_keeps h1)

/-- The 2^32-th task gets the id 0. -/
theorem id_break {s s' : Sys} {c : ApiCall} (hi : IdInv s.k s.h) (hc : ¬ InRange s c)
    (hs : apiSys.step s c s') : ¬ Identity s' := by
  obtain ⟨⟨k', r⟩, e, rfl⟩ := Option.map_eq_some_iff.1 hs
  have hc' : ∃ f name p params w, c = .app (.taskCreate f name p params w) := by
    cases c with
    | app c =>
      cases c with
      | taskCreate f name p params w => exact ⟨f, name, p, params, w, rfl⟩
      | _ => exact absurd trivial hc
    | _ => exact absurd trivial hc
  obtain ⟨f, name, p, params, w, rfl⟩ := hc'
  simp only [InRange] at hc
  push Not at hc
  obtain ⟨hfn, hp, hfree, hn⟩ := hc
  obtain ⟨⟨k₁, st, id⟩, h1, h2⟩ := Option.map_eq_some_iff.1 e
  cases h2
  have hzero : s.k.nextTaskId = 0 := by
    have := hi.counter
    have := hi.created
    apply UInt32.toNat_inj.1
    rw [UInt32.toNat_zero]
    omega
  rcases taskCreate_keeps h1 with ⟨-, -, hfail⟩ | ⟨t, x, rfl, hf, -, -, -, -, -, hid⟩
  · rcases hfail with hf | hf | hf
    · exact absurd hf hfn
    · omega
    · exact absurd hf hfree
  · intro hn'
    dsimp only at hn'
    rw [after_create_ok hf] at hn'
    apply hn'.nonzero (t, id.getD s.k.nextTaskId) List.mem_cons_self
    rw [hid, hzero]
    cases w <;> rfl

/-- **How long ids identify tasks**: along a run of any of the functions, live
tasks have different non-zero ids that find their slots, and no live slot is
filled again, exactly when no successful `task_create` is the 2^32-th. -/
theorem identity_iff (cs : List ApiCall) :
    apiSys.Always Identity Sys.boot cs ↔ apiSys.Steps InRange Sys.boot cs :=
  LTS.always_iff_steps (I := fun s => IdInv s.k s.h) (fun _ h => h.identity)
    (fun _ _ _ hi hc hs => id_step hi hc hs) (fun _ _ _ hi hc hs => id_break hi hc hs) cs Sys.boot
    (id_init Kernel.static Hist.boot)

/-! ## A run that comes to the id 0 -/

/-- Nothing is live, slot 0 is the first free one and the next id is `n`. -/
structure Idle (s : Sys) (a : Abs) (n : UInt32) : Prop where
  refines : Refines s.k a
  wf : a.Wf none
  free : a.free = some 0
  next : a.nextTaskId = n
  current : a.current = none
  live : s.h.live = []

theorem find_first {P : TaskPtr → Bool} (h : P 0 = true) : (List.finRange MAX_TASKS).find? P = some 0 := by
  rw [List.finRange_succ, List.find?_cons_of_pos h]

/-- A task created and deleted again uses up one id. -/
theorem idle_cycle {s : Sys} {a : Abs} {n : UInt32} (h : Idle s a n) (hn : n ≠ 0) :
    ∃ s' a', appSys.Run s [.taskCreate (some 1) none 3 0 true, .taskDelete n] s' ∧ Idle s' a' (n + 1) := by
  have hfree : findFreeTcb s.k = some 0 := (free_refines h.refines).trans h.free
  obtain ⟨k₁, e₁, h₁⟩ := create_refines h.refines h.wf.waits h.free (by simp [h.current]) 1 none
    (p := 3) (by decide) 0 true
  have hw₁ := Abs.wf_create h.wf h.free (p := 3) (by decide) (by rwa [h.next])
  have hfind : ((a.fill 0 3).enqueue 0).find n = some 0 :=
    find_first (by simp [Abs.enqueue, Abs.fill, h.next])
  obtain ⟨k₂, e₂, h₂⟩ := delete_refines h₁ hw₁.waits hfind (hw₁.not_delayed _)
  have hcur : ((((a.fill 0 3).enqueue 0).dequeue 0).setState 0 .deleted).current = none := h.current
  rw [Abs.yieldIf_other (by simp [hcur])] at h₂
  obtain ⟨s₁, hs₁, rfl, hh₁⟩ := step_of_call (s := s) (c := .taskCreate (some 1) none 3 0 true)
    (by rw [call, e₁, Option.map_some])
  obtain ⟨s₂, hs₂, rfl, hh₂⟩ := step_of_call (s := s₁) (c := .taskDelete n)
    (by rw [call, e₂, Option.map_some])
  refine ⟨s₂, _, .cons hs₁ (.cons hs₂ (.nil _)), h₂, Abs.wf_stop hw₁ 0 (by simp), ?_, ?_, hcur, ?_⟩
  · exact find_first (by simp [Abs.setState])
  · exact congrArg (· + 1) h.next
  · rw [hh₂, after_delete_ok ((find_refines h₁ n).trans hfind), hh₁, after_create_ok hfree, h.live]
    simp [h.next]

/-- `m` times a task created and deleted again. -/
def idCycles : Nat → List Call
  | 0 => []
  | m + 1 => idCycles m ++ [.taskCreate (some 1) none 3 0 true, .taskDelete (UInt32.ofNat (m + 1))]

theorem idle_reached (m : Nat) (hm : m < 2 ^ 32) :
    ∃ s a, appSys.Run Sys.boot (idCycles m) s ∧ Idle s a (UInt32.ofNat (m + 1)) := by
  induction m with
  | zero =>
    exact ⟨Sys.boot, Abs.boot, .nil _, boot_refines, Abs.wf_boot, find_first (by decide), rfl, rfl, rfl⟩
  | succ m ih =>
    obtain ⟨s, a, hr, hi⟩ := ih (by omega)
    have hn : UInt32.ofNat (m + 1) ≠ 0 := by
      intro h0
      have := congrArg UInt32.toNat h0
      rw [UInt32.toNat_ofNat_of_lt' hm] at this
      cases this
    obtain ⟨s', a', hr', hi'⟩ := idle_cycle hi hn
    refine ⟨s', a', LTS.run_append hr hr', ?_⟩
    rwa [UInt32.ofNat_add (m + 1) 1]

/-- After 2^32 - 1 tasks created and deleted, the next one gets the id 0. -/
theorem id_wraps : ∃ s : Sys,
    appSys.Run Sys.boot (idCycles (2 ^ 32 - 1) ++ [.taskCreate (some 1) none 3 0 true]) s ∧
    (0, 0) ∈ s.h.live ∧ ¬ Identity s := by
  obtain ⟨s, a, hr, h⟩ := idle_reached (2 ^ 32 - 1) (by omega)
  obtain ⟨k₁, e₁, h₁⟩ := create_refines h.refines h.wf.waits h.free (by simp [h.current]) 1 none
    (p := 3) (by decide) 0 true
  obtain ⟨s₁, hs₁, rfl, hh₁⟩ := step_of_call (s := s) (c := .taskCreate (some 1) none 3 0 true)
    (by rw [call, e₁, Option.map_some])
  have hm : (0, 0) ∈ s₁.h.live := by
    rw [hh₁, after_create_ok ((free_refines h.refines).trans h.free), h.next]
    exact List.mem_cons_self
  exact ⟨s₁, LTS.run_snoc hr hs₁, hm, fun hi => hi.nonzero _ hm rfl⟩

end Rtos.Sched
