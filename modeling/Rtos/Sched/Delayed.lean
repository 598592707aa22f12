import Rtos.Sched.Runs

/-!
# The delayed list at work

`add_to_delayed_list`, which nothing calls, hangs a task in behind those that
wake no later (`addToDelayedList_spec`, `link_refines`), and a tick takes the
first ones off again. `timers` is the system in which it is called: the calls
of an application that leave the delayed tasks alone, and `link`, which puts a
blocked task on the list. `timed_inductive`: the list is sorted in all its
runs, and holds distinct BLOCKED tasks.
-/
namespace Rtos.Sched

open Rtos.Core

/-! ## Insertion -/

/-- The kernel with other links and another head of the delayed list. -/
def Kernel.relink (k : Kernel) (next : TaskPtr → Option TaskPtr) (head : Option TaskPtr) : Kernel :=
  { k with taskPool := fun t => { k.taskPool t with next := next t }, delayedList := head }

@[simp] theorem relink_next (k : Kernel) (next : TaskPtr → Option TaskPtr) (head : Option TaskPtr) :
    (k.relink next head).next = next := rfl

@[simp] theorem relink_wakeTime (k : Kernel) (next : TaskPtr → Option TaskPtr) (head : Option TaskPtr) :
    (k.relink next head).wakeTime = k.wakeTime := rfl

@[simp] theorem relink_delayedList (k : Kernel) (next : TaskPtr → Option TaskPtr) (head : Option TaskPtr) :
    (k.relink next head).delayedList = head := rfl

@[simp] theorem relink_relink (k : Kernel) (next next' : TaskPtr → Option TaskPtr) (head head' : Option TaskPtr) :
    (k.relink next head).relink next' head' = k.relink next' head' := rfl

theorem setNext_eq_relink (k : Kernel) (t : TaskPtr) (u : Option TaskPtr) :
    k.setNext t u = k.relink (Function.update k.next t u) k.delayedList := by
  have hp : (k.setNext t u).taskPool = fun v => { k.taskPool v with next := Function.update k.next t u v } := by
    funext v
    by_cases hv : v = t
    · subst hv; simp [Kernel.setNext, Kernel.setTcb]
    · simp [Kernel.setNext, Kernel.setTcb, hv, Kernel.next]
  rw [Kernel.relink, ← hp]
  rfl

section Insertion

variable {k : Kernel} {t : TaskPtr}

/-- In front of the first task. -/
theorem insert_first {head : TaskPtr} {rest : List TaskPtr} (hc : Chain k.next k.delayedList (head :: rest))
    (ht : t ∉ head :: rest) (hlt : k.wakeTime t < k.wakeTime head) :
    ∃ next', addToDelayedList k t = some (k.relink next' (some t)) ∧
      Chain next' (some t) (t :: head :: rest) ∧ ∀ u ∉ t :: head :: rest, next' u = k.next u := by
  have hd : k.delayedList = some head := hc.1
  refine ⟨Function.update k.next t (some head), ?_, ⟨rfl, ?_⟩, fun u hu =>
    Function.update_of_ne (List.ne_of_not_mem_cons hu) _ _⟩
  · simp only [addToDelayedList, setNext_eq_relink, relink_delayedList, relink_wakeTime, relink_next,
      relink_relink, hd, hlt, if_true, Function.update_idem]
    rfl
  · rw [Function.update_self]
    rw [hd] at hc
    exact hc.frame_update ht

/-- Behind the task `curr`, where the walk stops. -/
theorem insert_behind {pre post : List TaskPtr} {curr : TaskPtr}
    (hc : Chain k.next k.delayedList (pre ++ curr :: post)) (ht : t ∉ pre ++ curr :: post) :
    Chain (Function.update (Function.update k.next t (k.next curr)) curr (some t)) k.delayedList
      (pre ++ curr :: t :: post) := by
  have hne : ∀ u ∈ pre ++ curr :: post, u ≠ t := fun u hu => ne_of_mem_of_not_mem hu ht
  have hnd := (List.nodup_cons.1 ((List.perm_middle.nodup_iff).1 (chain_nodup hc))).1
  have hsame : ∀ u ∈ pre ++ post,
      Function.update (Function.update k.next t (k.next curr)) curr (some t) u = k.next u := by
    intro u hu
    have hmem : u ∈ pre ++ curr :: post := by
      rcases List.mem_append.1 hu with hu | hu <;> simp [hu]
    rw [Function.update_of_ne (ne_of_mem_of_not_mem hu hnd), Function.update_of_ne (hne u hmem)]
  refine chain_insert_after hc (fun u hu => hsame u (by simp [hu])) (Function.update_self ..) ?_
    fun u hu => hsame u (by simp [hu])
  rw [Function.update_of_ne (hne curr (by simp)).symm, Function.update_self]

/-- The walk stops at the last task that wakes no later, and `t` goes behind it. -/
theorem insert_later {head : TaskPtr} {rest : List TaskPtr} (hc : Chain k.next k.delayedList (head :: rest))
    (ht : t ∉ head :: rest) (hlt : ¬ k.wakeTime t < k.wakeTime head) :
    ∃ next', addToDelayedList k t = some (k.relink next' (some head)) ∧
      Chain next' (some head) (insertAfter k.wakeTime t (head :: rest)) ∧
      ∀ u ∉ t :: head :: rest, next' u = k.next u := by
  have hd : k.delayedList = some head := hc.1
  obtain ⟨pre, curr, hpre⟩ : ∃ pre curr, head :: due k.wakeTime (k.wakeTime t) rest = pre ++ [curr] :=
    ⟨_, _, (List.dropLast_append_getLast (List.cons_ne_nil head _)).symm⟩
  have hl : head :: rest = pre ++ curr :: pending k.wakeTime (k.wakeTime t) rest := by
    have hrest : due k.wakeTime (k.wakeTime t) rest ++ pending k.wakeTime (k.wakeTime t) rest = rest :=
      List.takeWhile_append_dropWhile
    calc head :: rest
        = (head :: due k.wakeTime (k.wakeTime t) rest) ++ pending k.wakeTime (k.wakeTime t) rest := by
          rw [List.cons_append, hrest]
      _ = pre ++ curr :: pending k.wakeTime (k.wakeTime t) rest := by
          rw [hpre, List.append_assoc, List.singleton_append]
  have hi : insertAfter k.wakeTime t (head :: rest) =
      pre ++ curr :: t :: pending k.wakeTime (k.wakeTime t) rest := by
    have hp : k.wakeTime head ≤ k.wakeTime t := UInt32.not_lt.1 hlt
    rw [insertAfter_eq, due, pending, List.takeWhile_cons_of_pos (by simpa using hp),
      List.dropWhile_cons_of_pos (by simpa using hp), hpre, List.append_assoc, List.singleton_append]
  have hwalk : lastWhile (Function.update k.next t none) (fun u => k.wakeTime u ≤ k.wakeTime t)
      MAX_TASKS head = some curr := by
    have hc' : Chain (Function.update k.next t none) k.delayedList (head :: rest) :=
      hc.frame_update ht
    have hlen : rest.length < MAX_TASKS := nodup_length_le (chain_nodup hc)
    rw [lastWhile_chain hc'.2 hlen, hpre, List.getLast?_concat]
  have hcurr : curr ∈ head :: rest := by rw [hl]; simp
  refine ⟨Function.update (Function.update k.next t (k.next curr)) curr (some t), ?_, ?_, fun u hu => ?_⟩
  · simp only [addToDelayedList, setNext_eq_relink, relink_delayedList, relink_wakeTime, relink_next,
      relink_relink, hd, hlt, if_false]
    rw [hwalk]
    simp only [Option.map_some, Function.update_of_ne (ne_of_mem_of_not_mem hcurr ht), Function.update_idem]
  · rw [hl] at hc ht
    rw [hi, ← hd]
    exact insert_behind hc ht
  · have huc : u ≠ curr := fun e => hu (List.mem_cons_of_mem _ (e ▸ hcurr))
    rw [Function.update_of_ne huc, Function.update_of_ne (List.ne_of_not_mem_cons hu)]

/-- **Insertion.** `add_to_delayed_list` returns, with the task on the list
behind those that wake no later; no link of another task changes. -/
theorem addToDelayedList_spec {l : List TaskPtr} (hc : Chain k.next k.delayedList l) (ht : t ∉ l) :
    ∃ next' head, addToDelayedList k t = some (k.relink next' head) ∧
      Chain next' head (insertAfter k.wakeTime t l) ∧ ∀ u ∉ t :: l, next' u = k.next u := by
  cases l with
  | nil =>
    have hd : k.delayedList = none := hc
    refine ⟨Function.update k.next t none, some t, ?_, ⟨rfl, Function.update_self ..⟩, fun u hu =>
      Function.update_of_ne (List.ne_of_not_mem_cons hu) _ _⟩
    simp only [addToDelayedList, setNext_eq_relink, relink_delayedList, hd]
    rfl
  | cons head rest =>
    by_cases hlt : k.wakeTime t < k.wakeTime head
    · obtain ⟨next', e, h⟩ := insert_first hc ht hlt
      have hi : insertAfter k.wakeTime t (head :: rest) = t :: head :: rest := by
        rw [insertAfter, List.orderedInsert_cons, if_pos hlt]
      exact ⟨next', some t, e, by rwa [hi]⟩
    · obtain ⟨next', e, h⟩ := insert_later hc ht hlt
      exact ⟨next', some head, e, h⟩

/-- A blocked task that is in no list goes onto the delayed list. -/
theorem link_refines {a : Abs} (h : Refines k a) (hw : a.Waits none) (hs : a.state t = .blocked)
    (ht : t ∉ a.delayed) : ∃ k', addToDelayedList k t = some k' ∧ Refines k' (a.link t) := by
  obtain ⟨next', head, e, hc, hsame⟩ := addToDelayedList_spec h.delayed ht
  rw [h.wakeTime] at hc
  refine ⟨_, e, { h with ready := fun p hp => ?_, delayed := hc }⟩
  refine (h.ready p hp).frame fun u hu => hsame u fun hm => ?_
  have hu' : a.state u = .ready := (hw.wf.mem p hp u hu).1
  rcases List.mem_cons.1 hm with rfl | hm
  · cases hu'.symm.trans hs
  · exact hw.ready_not_mem hu' hm

end Insertion

/-! ## The system in which it is called -/

inductive Event where
  | call (c : Call)
  /-- `add_to_delayed_list` -/
  | link (task : TaskPtr)
  deriving DecidableEq, Repr

def Kernel.event (k : Kernel) : Event → Option Kernel
  | .call c => (call k c).map (·.1)
  | .link task => addToDelayedList k task

/-- `Abs.Spares` on the kernel's variables: no task on the delayed list is
deleted, suspended or delayed. -/
def Spares (k : Kernel) : Call → Prop
  | .taskDelete id | .taskSuspend id =>
    ∀ t, taskGetTcb k id = some t → ¬ Linked k.next t k.delayedList
  | .taskDelay _ => ∀ c, k.currentTask = some c → ¬ Linked k.next c k.delayedList
  | _ => True

/-- What the list relies on: a task goes onto it when it is BLOCKED, and once;
the calls are proper (whatever the history is) and spare its tasks. -/
def Allowed (k : Kernel) : Event → Prop
  | .call c => Proper ⟨k, Hist.boot⟩ c ∧ Spares k c
  | .link task => k.state task = .blocked ∧ k.taskId task ≠ 0 ∧ ¬ Linked k.next task k.delayedList

def timers : LTS Kernel Event := (LTS.ofFn (· = Kernel.boot) Kernel.event).restrict Allowed

/-- The queues of the kernel, with the delayed tasks sorted by wake time. -/
structure TimedBy (k : Kernel) (a : Abs) : Prop where
  refines : Refines k a
  waits : a.Waits none
  sorted : SortedBy a.wakeTime a.delayed

def Timed (k : Kernel) : Prop := ∃ a, TimedBy k a

variable {k k' : Kernel} {a : Abs}

theorem Refines.linked (h : Refines k a) {t : TaskPtr} : Linked k.next t k.delayedList ↔ t ∈ a.delayed :=
  linked_iff_mem h.delayed

theorem spares_refines (h : Refines k a) {c : Call} (hc : Spares k c) : a.Spares c := by
  cases c with
  | taskDelete id | taskSuspend id =>
    intro t hf hm
    exact hc t ((find_refines h id).trans hf) (h.linked.2 hm)
  | taskDelay n =>
    intro c hcur hm
    exact hc c (h.currentTask.trans hcur) (h.linked.2 hm)
  | _ => trivial

/-- The effect of an event on the queues. -/
def Abs.event (a : Abs) : Event → Abs
  | .call c => a.call c
  | .link task => a.link task

theorem sorted_keeps {b : Abs} (h : a.KeepsDelayed b) (hs : SortedBy a.wakeTime a.delayed) :
    SortedBy b.wakeTime b.delayed := by
  rw [h.delayed]
  exact hs.imp_of_mem fun hx hy hle => by rwa [h.wakeTime _ hx, h.wakeTime _ hy]

theorem sorted_onTick (hs : SortedBy a.wakeTime a.delayed) : SortedBy a.onTick.wakeTime a.onTick.delayed := by
  obtain ⟨hd, -, hw⟩ := a.onTick_times
  rw [hd, hw]
  exact sorted_pending hs _

theorem event_refines (h : TimedBy k a) {e : Event} (he : Allowed k e) :
    ∃ k', k.event e = some k' ∧ TimedBy k' (a.event e) := by
  cases e with
  | call c =>
    have hc := proper_refines (s := ⟨k, Hist.boot⟩) h.refines he.1
    have hs := spares_refines h.refines he.2
    obtain ⟨k', e, hr⟩ := call_refines h.refines h.waits hc hs
    refine ⟨k', by rw [Kernel.event, e, Option.map_some], hr, Abs.waits_call h.waits hc hs, ?_⟩
    by_cases ht : c = .schedulerTick
    · subst ht; exact sorted_onTick h.sorted
    · exact sorted_keeps (Abs.call_keeps h.waits hs ht) h.sorted
  | link task =>
    obtain ⟨h1, h2, h3⟩ := he
    rw [h.refines.state] at h1
    rw [h.refines.taskId] at h2
    have h3 := fun hm => h3 (h.refines.linked.2 hm)
    obtain ⟨k', e, hr⟩ := link_refines h.refines h.waits h1 h3
    exact ⟨k', e, hr, Abs.waits_link h.waits h1 h2 h3, sorted_insertAfter h.sorted task⟩

theorem timers_step (h : TimedBy k a) {e : Event} (hs : timers.step k e k') : TimedBy k' (a.event e) := by
  obtain ⟨k₁, h1, h2⟩ := event_refines h hs.1
  obtain rfl : k₁ = k' := Option.some.inj (h1.symm.trans hs.2)
  exact h2

/-- **The delayed list stays in order.** In every state of every run it is
sorted and holds distinct BLOCKED tasks that are in no ready list. -/
theorem timed_inductive : timers.Inductive Timed where
  init := by
    intro k hk
    subst hk
    exact ⟨Abs.boot, boot_refines, Abs.wf_boot.waits, List.Pairwise.nil⟩
  step := by
    intro k e k' hi hs
    obtain ⟨a, h⟩ := hi
    exact ⟨a.event e, timers_step h hs⟩

/-! ## Computing runs -/

/-- `Spares`, with the tasks of the delayed list given. -/
def SparesAll (k : Kernel) (delayed : List TaskPtr) : Call → Prop
  | .taskDelete id | .taskSuspend id => ∀ t, taskGetTcb k id = some t → t ∉ delayed
  | .taskDelay _ => ∀ c, k.currentTask = some c → c ∉ delayed
  | _ => True

def AllowedFor (k : Kernel) (delayed : List TaskPtr) : Event → Prop
  | .call c => Proper ⟨k, Hist.boot⟩ c ∧ SparesAll k delayed c
  | .link task => k.state task = .blocked ∧ k.taskId task ≠ 0 ∧ task ∉ delayed

instance (k : Kernel) (delayed : List TaskPtr) : (c : Call) → Decidable (SparesAll k delayed c)
  | .taskDelete _ | .taskSuspend _ => inferInstanceAs (Decidable (∀ _, _ → _))
  | .taskDelay _ => inferInstanceAs (Decidable (∀ _, _ → _))
  | .taskCreate .. | .taskResume _ | .taskYield | .schedulerYield | .schedulerTick
  | .schedulerStart => inferInstanceAs (Decidable True)

instance (k : Kernel) (delayed : List TaskPtr) : (e : Event) → Decidable (AllowedFor k delayed e)
  | .call _ => inferInstanceAs (Decidable (_ ∧ _))
  | .link _ => inferInstanceAs (Decidable (_ ∧ _ ∧ _))

theorem allowed_of_chain {delayed : List TaskPtr} (hc : Chain k.next k.delayedList delayed) {e : Event}
    (h : AllowedFor k delayed e) : Allowed k e := by
  cases e with
  | call c =>
    refine ⟨h.1, ?_⟩
    have hs := h.2
    cases c with
    | taskDelete | taskSuspend => exact fun t ht hl => hs t ht ((linked_iff_mem hc).1 hl)
    | taskDelay => exact fun c hcur hl => hs c hcur ((linked_iff_mem hc).1 hl)
    | _ => trivial
  | link t => exact ⟨h.1, h.2.1, fun hl => h.2.2 ((linked_iff_mem hc).1 hl)⟩

/-- One step of `timers`. -/
def Kernel.allowedEvent (k : Kernel) (e : Event) : Option Kernel :=
  (nodesFrom k.next MAX_TASKS k.delayedList).bind fun delayed =>
    if AllowedFor k delayed e then k.event e else none

theorem step_of_allowedEvent (k : Kernel) (e : Event) (k' : Kernel) (h : k.allowedEvent e = some k') :
    timers.step k e k' := by
  obtain ⟨delayed, hd, h⟩ := Option.bind_eq_some_iff.1 h
  obtain ⟨ha, h⟩ := Option.ite_none_right_eq_some.1 h
  exact ⟨allowed_of_chain (chain_of_nodesFrom hd) ha, h⟩

theorem not_linked_none {next : TaskPtr → Option TaskPtr} {h : Option TaskPtr} (hn : h = none) (t : TaskPtr) :
    ¬ Linked next t h := by
  subst hn
  intro hl
  cases hl

end Rtos.Sched
