import Rtos.Core.Queues
import Rtos.Sched.Task

/-!
# The scheduler without pointers: ready queues as lists

`Abs` is what the scheduler is for: one FIFO queue of ready tasks for each
priority, the list of delayed tasks, the owner of the CPU. Its operations are
those of `Rtos.Sched.Scheduler` on lists, total and without loops;
`Rtos.Sched.Refine` shows that the code's relinking of `next` fields carries
them out.

`Wf` is the invariant of a run. Its second argument is the task an operation
has just taken out of the queues and has not settled yet: it may be in any
state, but stands in no queue. Between two calls there is none.
-/
namespace Rtos.Sched

open Rtos.Core

structure Abs where
  ready : Queues TaskPtr
  delayed : List TaskPtr
  state : TaskPtr → TaskState
  priority : TaskPtr → UInt8
  taskId : TaskPtr → UInt32
  wakeTime : TaskPtr → UInt32
  current : Option TaskPtr
  running : Bool
  tick : UInt32
  nextTaskId : UInt32

namespace Abs

/-- The index of the list a task belongs to. -/
def level (a : Abs) (t : TaskPtr) : Nat := (a.priority t).toNat

def setState (a : Abs) (t : TaskPtr) (s : TaskState) : Abs :=
  { a with state := Function.update a.state t s }

def enqueue (a : Abs) (t : TaskPtr) : Abs :=
  { a with state := Function.update a.state t .ready, ready := a.ready.push (a.level t) t }

def dequeue (a : Abs) (t : TaskPtr) : Abs := { a with ready := a.ready.drop (a.level t) t }

def highest (a : Abs) : Option TaskPtr := Queues.top NUM_PRIORITY_LEVELS a.ready

def rotate (a : Abs) : Abs :=
  match a.current with
  | none => a
  | some c => if a.state c = .ready then (a.dequeue c).enqueue c else a

def dispatch (a : Abs) (n : TaskPtr) : Abs :=
  { (a.dequeue n).setState n .running with current := some n }

def schedule (a : Abs) : Abs :=
  match a.highest with
  | none => a
  | some n => if some n ≠ a.current then a.rotate.dispatch n else a

def requeue (a : Abs) : Abs :=
  match a.current with
  | none => a
  | some c => if a.state c = .running then a.enqueue c else a

def yield (a : Abs) : Abs := if !a.running then a else a.requeue.schedule

/-- The delayed tasks whose wake time has come move to their ready queues. -/
def releaseFrom : List TaskPtr → Abs → Abs
  | [], a => { a with delayed := [] }
  | t :: l, a =>
    if a.wakeTime t ≤ a.tick then releaseFrom l (a.enqueue t) else { a with delayed := t :: l }

def preempts (a : Abs) : Bool :=
  a.running &&
  match a.highest, a.current with
  | some h, some c => a.priority h < a.priority c
  | _, _ => false

def onTick (a : Abs) : Abs :=
  let a := releaseFrom a.delayed { a with tick := a.tick + 1 }
  if a.preempts then a.yield else a

def start (a : Abs) : Abs := schedule { a with running := true }

/-- The slot `t` filled with a new task, not queued yet. -/
def fill (a : Abs) (t : TaskPtr) (priority : UInt8) : Abs :=
  { a with state := Function.update a.state t .ready,
           priority := Function.update a.priority t priority,
           taskId := Function.update a.taskId t a.nextTaskId,
           wakeTime := Function.update a.wakeTime t 0,
           nextTaskId := a.nextTaskId + 1 }

def yieldIf (a : Abs) (t : TaskPtr) : Abs := if a.current = some t then a.yield else a

theorem yieldIf_other {a : Abs} {t : TaskPtr} (h : a.current ≠ some t) : a.yieldIf t = a := if_neg h

/-- Task `c` blocked until `ticks` from now. -/
def block (a : Abs) (c : TaskPtr) (ticks : UInt32) : Abs :=
  ({ a with wakeTime := Function.update a.wakeTime c (a.tick + ticks) }.setState c .blocked).dequeue c

/-- The slot with this id that is not deleted. -/
def find (a : Abs) (id : UInt32) : Option TaskPtr :=
  (List.finRange MAX_TASKS).find? fun i => a.taskId i = id ∧ a.state i ≠ .deleted

/-- The first slot that is deleted or was never used. -/
def free (a : Abs) : Option TaskPtr :=
  (List.finRange MAX_TASKS).find? fun i => a.state i = .deleted ∨ a.taskId i = 0

/-- What one call does to the queues. -/
def call (a : Abs) : Call → Abs
  | .taskCreate none _ _ _ _ => a
  | .taskCreate (some _) _ p _ _ =>
    if p.toNat ≥ NUM_PRIORITY_LEVELS then a
    else match a.free with
      | none => a
      | some t => (a.fill t p).enqueue t
  | .taskDelete id => match a.find id with
    | none => a
    | some t => ((a.dequeue t).setState t .deleted).yieldIf t
  | .taskSuspend id => match a.find id with
    | none => a
    | some t => ((a.dequeue t).setState t .suspended).yieldIf t
  | .taskResume id => match a.find id with
    | none => a
    | some t => if a.state t = .suspended then a.enqueue t else a
  | .taskDelay ticks => match a.current with
    | none => a
    | some c => if ticks > 0 then (a.block c ticks).yield else a
  | .taskYield => a.yield
  | .schedulerYield => a.yield
  | .schedulerTick => a.onTick
  | .schedulerStart => a.start

/-- What the call returns. -/
def ret (a : Abs) : Call → Ret
  | .taskCreate none _ _ _ _ => ⟨some .errorInvalidParam, none⟩
  | .taskCreate (some _) _ p _ wantId =>
    if p.toNat ≥ NUM_PRIORITY_LEVELS then ⟨some .errorInvalidParam, none⟩
    else match a.free with
      | none => ⟨some .errorNoMemory, none⟩
      | some _ => ⟨some .ok, if wantId then some a.nextTaskId else none⟩
  | .taskDelete id => match a.find id with
    | none => ⟨some .errorInvalidParam, none⟩
    | some _ => ⟨some .ok, none⟩
  | .taskSuspend id => match a.find id with
    | none => ⟨some .errorInvalidParam, none⟩
    | some _ => ⟨some .ok, none⟩
  | .taskResume id => match a.find id with
    | none => ⟨some .errorInvalidParam, none⟩
    | some t => if a.state t = .suspended then ⟨some .ok, none⟩ else ⟨some .errorInvalidParam, none⟩
  | .taskDelay _ => .void
  | .taskYield => .void
  | .schedulerYield => .void
  | .schedulerTick => .void
  | .schedulerStart => .void

def boot : Abs :=
  ⟨fun _ => [], [], fun _ => .ready, fun _ => 0, fun _ => 0, fun _ => 0, none, false, 0, 1⟩

/-! ## The invariant -/

structure Wf (a : Abs) (out : Option TaskPtr) : Prop where
  level_lt : ∀ t, a.level t < NUM_PRIORITY_LEVELS
  nodup : ∀ p < NUM_PRIORITY_LEVELS, (a.ready p).Nodup
  mem : ∀ p < NUM_PRIORITY_LEVELS, ∀ t ∈ a.ready p,
    a.state t = .ready ∧ a.level t = p ∧ a.taskId t ≠ 0 ∧ out ≠ some t
  queued : ∀ t, out ≠ some t → a.state t = .ready → a.taskId t ≠ 0 → t ∈ a.ready (a.level t)
  owner : ∀ c, a.current = some c → a.taskId c ≠ 0
  started : a.current ≠ none → a.running = true
  delayed : a.delayed = []

theorem Wf.not_mem {a : Abs} {out : Option TaskPtr} (h : a.Wf out) {t : TaskPtr}
    (ht : a.state t ≠ .ready ∨ a.taskId t = 0 ∨ out = some t) {p : Nat}
    (hp : p < NUM_PRIORITY_LEVELS) : t ∉ a.ready p := by
  intro hm
  obtain ⟨h1, -, h3, h4⟩ := h.mem p hp t hm
  rcases ht with ht | ht | ht
  · exact ht h1
  · exact h3 ht
  · exact h4 ht

/-- A task that is in no queue may be taken out. -/
theorem wf_out {a : Abs} (h : a.Wf none) {t : TaskPtr} (ht : a.state t ≠ .ready ∨ a.taskId t = 0) :
    a.Wf (some t) :=
  { h with
    mem := fun p hp u hu => by
      obtain ⟨h1, h2, h3, -⟩ := h.mem p hp u hu
      refine ⟨h1, h2, h3, fun e => ?_⟩
      cases e
      rcases ht with ht | ht
      · exact ht h1
      · exact h3 ht
    queued := fun u _ => h.queued u (by simp) }

/-- A task that is not ready belongs to no queue: taking it out is over. -/
theorem wf_settle {a : Abs} {t : TaskPtr} (h : a.Wf (some t)) (ht : a.state t ≠ .ready) :
    a.Wf none :=
  { h with
    mem := fun p hp u hu => by
      obtain ⟨h1, h2, h3, -⟩ := h.mem p hp u hu
      exact ⟨h1, h2, h3, by simp⟩
    queued := fun u _ hu => by
      refine h.queued u (fun e => ?_) hu
      cases e; exact ht hu }

theorem wf_setState {a : Abs} {t : TaskPtr} (h : a.Wf (some t)) (s : TaskState) :
    (a.setState t s).Wf (some t) :=
  { h with
    mem := fun p hp u hu => by
      obtain ⟨h1, h2, h3, h4⟩ := h.mem p hp u hu
      have hne : u ≠ t := fun e => h4 (by rw [e])
      exact ⟨by simpa [setState, hne] using h1, h2, h3, h4⟩
    queued := fun u hne hu => by
      have hne' : u ≠ t := fun e => hne (by rw [e])
      exact h.queued u hne (by simpa [setState, hne'] using hu) }

theorem wf_fill {a : Abs} {t : TaskPtr} (h : a.Wf (some t)) {p : UInt8}
    (hp : p.toNat < NUM_PRIORITY_LEVELS) (hn : a.current = some t → a.nextTaskId ≠ 0) :
    (a.fill t p).Wf (some t) where
  level_lt u := by
    by_cases hu : u = t
    · subst hu; simpa [fill, level] using hp
    · simpa [fill, level, hu] using h.level_lt u
  nodup := h.nodup
  mem p hp u hu := by
    obtain ⟨h1, h2, h3, h4⟩ := h.mem p hp u hu
    have hne : u ≠ t := fun e => h4 (by rw [e])
    exact ⟨by simpa [fill, hne] using h1, by simpa [fill, level, hne] using h2,
      by simpa [fill, hne] using h3, h4⟩
  queued u hne hu hid := by
    have hne' : u ≠ t := fun e => hne (by rw [e])
    simp only [fill, level, ne_eq, hne', not_false_eq_true, Function.update_of_ne] at hu hid ⊢
    exact h.queued u hne hu hid
  owner c hc := by
    by_cases hct : c = t
    · subst hct; simpa [fill] using hn hc
    · simpa [fill, hct] using h.owner c hc
  started := h.started
  delayed := h.delayed

theorem wf_enqueue {a : Abs} {t : TaskPtr} (h : a.Wf (some t)) (ht : a.taskId t ≠ 0) :
    (a.enqueue t).Wf none where
  level_lt := h.level_lt
  nodup p hp := Queues.nodup_push (h.nodup p hp) (h.not_mem (.inr (.inr rfl)) hp)
  mem p hp u hu := by
    rcases Queues.mem_push.1 hu with hu | ⟨rfl, rfl⟩
    · obtain ⟨h1, h2, h3, h4⟩ := h.mem p hp u hu
      have hne : u ≠ t := fun e => h4 (by rw [e])
      exact ⟨by simpa [enqueue, hne] using h1, h2, h3, by simp⟩
    · exact ⟨by simp [enqueue], rfl, ht, by simp⟩
  queued u _ hu hid := by
    apply Queues.mem_push.2
    by_cases hne : u = t
    · exact .inr ⟨by rw [hne]; rfl, hne⟩
    · exact .inl (h.queued u (by simpa using Ne.symm hne) (by simpa [enqueue, hne] using hu) hid)
  owner := h.owner
  started := h.started
  delayed := h.delayed

theorem wf_dequeue {a : Abs} (h : a.Wf none) (t : TaskPtr) : (a.dequeue t).Wf (some t) :=
  { h with
    nodup := fun p hp => Queues.nodup_drop (h.nodup p hp)
    mem := fun p hp u hu => by
      have hn := h.nodup (a.level t) (h.level_lt t)
      obtain ⟨hu, hne⟩ := (Queues.mem_drop hn).1 hu
      obtain ⟨h1, h2, h3, -⟩ := h.mem p hp u hu
      refine ⟨h1, h2, h3, fun e => hne ?_⟩
      cases e; exact ⟨h2.symm, rfl⟩
    queued := fun u hne hu hid => by
      have hn := h.nodup (a.level t) (h.level_lt t)
      exact (Queues.mem_drop hn).2 ⟨h.queued u (by simp) hu hid, fun e => hne (by rw [e.2])⟩ }

/-- The CPU passes to another task. -/
theorem wf_setCurrent {a : Abs} {t : TaskPtr} (h : a.Wf none) (ht : a.taskId t ≠ 0)
    (hr : a.running = true) : Wf { a with current := some t } none :=
  { h with
    owner := fun c hc => by cases hc; exact ht
    started := fun _ => hr }

/-! ## What the operations leave alone -/

structure Frame (a b : Abs) : Prop where
  priority : b.priority = a.priority
  taskId : b.taskId = a.taskId
  running : b.running = a.running
  nextTaskId : b.nextTaskId = a.nextTaskId

theorem Frame.refl (a : Abs) : a.Frame a := ⟨rfl, rfl, rfl, rfl⟩

theorem Frame.trans {a b d : Abs} (h : a.Frame b) (h' : b.Frame d) : a.Frame d :=
  ⟨h'.priority.trans h.priority, h'.taskId.trans h.taskId, h'.running.trans h.running,
    h'.nextTaskId.trans h.nextTaskId⟩

theorem block_frame (a : Abs) (c : TaskPtr) (ticks : UInt32) : a.Frame (a.block c ticks) :=
  ⟨rfl, rfl, rfl, rfl⟩

/-- Scheduling leaves the times and the delayed tasks alone as well: it changes
the queues, the states and the owner of the CPU. -/
structure Reorders (a b : Abs) : Prop extends a.Frame b where
  delayed : b.delayed = a.delayed
  tick : b.tick = a.tick
  wakeTime : b.wakeTime = a.wakeTime

theorem Reorders.refl (a : Abs) : a.Reorders a := ⟨.refl a, rfl, rfl, rfl⟩

theorem Reorders.trans {a b d : Abs} (h : a.Reorders b) (h' : b.Reorders d) : a.Reorders d :=
  ⟨h.toFrame.trans h'.toFrame, h'.delayed.trans h.delayed, h'.tick.trans h.tick,
    h'.wakeTime.trans h.wakeTime⟩

theorem rotate_reorders (a : Abs) : a.Reorders a.rotate := by
  unfold rotate
  split
  · exact .refl a
  · split
    · exact ⟨⟨rfl, rfl, rfl, rfl⟩, rfl, rfl, rfl⟩
    · exact .refl a

theorem dispatch_reorders (a : Abs) (n : TaskPtr) : a.Reorders (a.dispatch n) :=
  ⟨⟨rfl, rfl, rfl, rfl⟩, rfl, rfl, rfl⟩

theorem schedule_reorders (a : Abs) : a.Reorders a.schedule := by
  unfold schedule
  split
  · exact .refl a
  · split
    · exact (rotate_reorders a).trans (dispatch_reorders _ _)
    · exact .refl a

theorem requeue_reorders (a : Abs) : a.Reorders a.requeue := by
  unfold requeue
  split
  · exact .refl a
  · split
    · exact ⟨⟨rfl, rfl, rfl, rfl⟩, rfl, rfl, rfl⟩
    · exact .refl a

theorem yield_reorders (a : Abs) : a.Reorders a.yield := by
  unfold yield
  split
  · exact .refl a
  · exact (requeue_reorders a).trans (schedule_reorders _)

theorem yieldIf_reorders (a : Abs) (t : TaskPtr) : a.Reorders (a.yieldIf t) := by
  unfold yieldIf
  split
  · exact yield_reorders a
  · exact .refl a

theorem stop_reorders (a : Abs) (t : TaskPtr) (s : TaskState) :
    a.Reorders ((a.dequeue t).setState t s) := ⟨⟨rfl, rfl, rfl, rfl⟩, rfl, rfl, rfl⟩

/-! ## Looking tasks up, and setting variables -/

/-- The highest task is the first of the first list that has one. -/
theorem Wf.highest_mem {a : Abs} {out : Option TaskPtr} (h : a.Wf out) {n : TaskPtr}
    (hn : a.highest = some n) : a.state n = .ready ∧ a.taskId n ≠ 0 ∧ n ∈ a.ready (a.level n) ∧
      ∀ r < a.level n, a.ready r = [] := by
  obtain ⟨p, hp, hm, hr⟩ := Queues.mem_of_top hn
  obtain ⟨h1, rfl, h3, -⟩ := h.mem p hp n hm
  exact ⟨h1, h3, hm, hr⟩

theorem wf_setRunning {a : Abs} (h : a.Wf none) : Wf { a with running := true } none :=
  { h with started := fun _ => rfl }

theorem wf_setTick {a : Abs} (h : a.Wf none) (n : UInt32) : Wf { a with tick := n } none := { h with }

theorem wf_setWakeTime {a : Abs} (h : a.Wf none) (w : TaskPtr → UInt32) :
    Wf { a with wakeTime := w } none := { h with }

theorem release_nil {a : Abs} (h : a.delayed = []) : releaseFrom a.delayed a = a := by
  rw [h, releaseFrom, ← h]

/-- With no delayed task the tick only counts, and preempts. -/
theorem onTick_eq {a : Abs} (h : a.Wf none) :
    a.onTick = if ({ a with tick := a.tick + 1 } : Abs).preempts
      then ({ a with tick := a.tick + 1 } : Abs).yield else { a with tick := a.tick + 1 } := by
  have hd : ({ a with tick := a.tick + 1 } : Abs).delayed = [] := h.delayed
  simp only [onTick, release_nil hd]

theorem find_spec {a : Abs} {id : UInt32} {t : TaskPtr} (hf : a.find id = some t) :
    a.taskId t = id ∧ a.state t ≠ .deleted := by
  simpa using List.find?_some hf

theorem free_spec {a : Abs} {t : TaskPtr} (hf : a.free = some t) :
    a.state t = .deleted ∨ a.taskId t = 0 := by
  simpa using List.find?_some hf

/-! ## What a call can do -/

theorem create_cases (a : Abs) (f : Option UInt32) (name : Option (List Char)) (p : UInt8)
    (params : UInt32) (w : Bool) :
    (a.call (.taskCreate f name p params w) = a ∧
      (a.ret (.taskCreate f name p params w)).status ≠ some .ok) ∨
    ∃ t, a.free = some t ∧ p.toNat < NUM_PRIORITY_LEVELS ∧
      a.call (.taskCreate f name p params w) = (a.fill t p).enqueue t ∧
      a.ret (.taskCreate f name p params w) = ⟨some .ok, if w then some a.nextTaskId else none⟩ := by
  cases f with
  | none => exact .inl ⟨rfl, by simp [ret]⟩
  | some f =>
    by_cases hp : p.toNat ≥ NUM_PRIORITY_LEVELS
    · exact .inl ⟨by simp only [call, hp, if_true], by simp [ret, hp]⟩
    · cases hf : a.free with
      | none => exact .inl ⟨by simp only [call, hp, if_false, hf], by simp [ret, hp, hf]⟩
      | some t =>
        exact .inr ⟨t, rfl, Nat.not_le.1 hp, by simp only [call, hp, if_false, hf],
          by simp only [ret, hp, if_false, hf]⟩

theorem delete_cases (a : Abs) (id : UInt32) :
    (a.find id = none ∧ a.call (.taskDelete id) = a ∧
      a.ret (.taskDelete id) = ⟨some .errorInvalidParam, none⟩) ∨
    ∃ t, a.find id = some t ∧
      a.call (.taskDelete id) = ((a.dequeue t).setState t .deleted).yieldIf t ∧
      a.ret (.taskDelete id) = ⟨some .ok, none⟩ := by
  cases hf : a.find id with
  | none => exact .inl ⟨rfl, by simp only [call, hf], by simp only [ret, hf]⟩
  | some t => exact .inr ⟨t, rfl, by simp only [call, hf], by simp only [ret, hf]⟩

/-- The outcomes of a call, each with the condition it comes about under. -/
inductive Effect (a : Abs) : Call → Abs → Prop
  | refused {c : Call} : a.Effect c a
  | create {f : UInt32} {name : Option (List Char)} {p : UInt8} {params : UInt32} {wantId : Bool} {t : TaskPtr}
      (hf : a.free = some t) (hp : p.toNat < NUM_PRIORITY_LEVELS) :
      a.Effect (.taskCreate (some f) name p params wantId) ((a.fill t p).enqueue t)
  | delete {id : UInt32} {t : TaskPtr} (hf : a.find id = some t) :
      a.Effect (.taskDelete id) (((a.dequeue t).setState t .deleted).yieldIf t)
  | suspend {id : UInt32} {t : TaskPtr} (hf : a.find id = some t) :
      a.Effect (.taskSuspend id) (((a.dequeue t).setState t .suspended).yieldIf t)
  | resume {id : UInt32} {t : TaskPtr} (hf : a.find id = some t) (hs : a.state t = .suspended) :
      a.Effect (.taskResume id) (a.enqueue t)
  | delay {ticks : UInt32} {t : TaskPtr} (hc : a.current = some t) (ht : ticks > 0) :
      a.Effect (.taskDelay ticks) (a.block t ticks).yield
  | yield {c : Call} (hc : c = .taskYield ∨ c = .schedulerYield) : a.Effect c a.yield
  | tick : a.Effect .schedulerTick a.onTick
  | start : a.Effect .schedulerStart a.start

theorem call_effect (a : Abs) (c : Call) : a.Effect c (a.call c) := by
  cases c with
  | taskCreate f name p params wantId =>
    cases f with
    | none => exact .refused
    | some f =>
      simp only [call]
      split
      · exact .refused
      · rename_i hp
        split
        · exact .refused
        · exact .create ‹_› (Nat.not_le.1 hp)
  | taskDelete id =>
    simp only [call]
    split
    · exact .refused
    · exact .delete ‹_›
  | taskSuspend id =>
    simp only [call]
    split
    · exact .refused
    · exact .suspend ‹_›
  | taskResume id =>
    simp only [call]
    split
    · exact .refused
    · split
      · exact .resume ‹_› ‹_›
      · exact .refused
  | taskDelay ticks =>
    simp only [call]
    split
    · exact .refused
    · split
      · exact .delay ‹_› ‹_›
      · exact .refused
  | taskYield => exact .yield (.inl rfl)
  | schedulerYield => exact .yield (.inr rfl)
  | schedulerTick => exact .tick
  | schedulerStart => exact .start

/-- Only `task_create` fills slots, only `scheduler_start` starts. -/
theorem call_frame {a : Abs} (h : a.Wf none) {c : Call} (hs : c ≠ .schedulerStart)
    (hc : ∀ f name p params w, c ≠ .taskCreate f name p params w) : a.Frame (a.call c) := by
  have he := a.call_effect c
  generalize a.call c = b at he ⊢
  cases he with
  | refused => exact .refl a
  | create => exact absurd rfl (hc _ _ _ _ _)
  | delete | suspend => exact ((stop_reorders a _ _).trans (yieldIf_reorders _ _)).toFrame
  | resume => exact ⟨rfl, rfl, rfl, rfl⟩
  | delay => exact (block_frame a _ _).trans (yield_reorders _).toFrame
  | yield => exact (yield_reorders a).toFrame
  | tick =>
    have h1 : a.Frame { a with tick := a.tick + 1 } := ⟨rfl, rfl, rfl, rfl⟩
    rw [onTick_eq h]
    split
    · exact h1.trans (yield_reorders _).toFrame
    · exact h1
  | start => exact absurd rfl hs

/-- What the invariant asks of a call: `task_resume` does not find a suspended
slot that was never used (by the id 0 such slots have), and `task_create` is
not called once the 32-bit id counter has come round to 0. -/
def Proper (a : Abs) : Call → Prop
  | .taskCreate .. => a.nextTaskId ≠ 0
  | .taskResume id => ∀ t, a.find id = some t → a.state t = .suspended → a.taskId t ≠ 0
  | _ => True

theorem wf_boot : boot.Wf none where
  level_lt t := by simp [boot, level]
  nodup p _ := by simp [boot]
  mem p _ t ht := by simp [boot] at ht
  queued t _ _ hid := by simp [boot] at hid
  owner c hc := by simp [boot] at hc
  started h := by simp [boot] at h
  delayed := rfl

end Abs

end Rtos.Sched
