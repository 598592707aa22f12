import Rtos.Core.Deadlines
import Rtos.Sched.Abstract

/-!
# The scheduler with tasks on the delayed list

No function of the two headers puts a task on the delayed list, and `Abs.Wf`
asks that there be none. `Abs.Waits` is the invariant with some: the queues
satisfy `Wf` as if nobody were delayed, and the delayed tasks are distinct
BLOCKED ones, which keeps every other operation away from them. The operations
keep `Waits` (`waits_call`), and so `Wf` (`wf_call`).
-/
namespace Rtos.Sched

open Rtos.Core

namespace Abs

def undelayed (a : Abs) : Abs := { a with delayed := [] }

structure Waits (a : Abs) (out : Option TaskPtr) : Prop where
  wf : a.undelayed.Wf out
  nodup : a.delayed.Nodup
  blocked : ∀ t ∈ a.delayed, a.state t = .blocked ∧ a.taskId t ≠ 0 ∧ out ≠ some t

variable {a : Abs} {out : Option TaskPtr} {t : TaskPtr}

theorem Wf.waits (h : a.Wf out) : a.Waits out where
  wf := { h with delayed := rfl }
  nodup := by rw [h.delayed]; exact List.nodup_nil
  blocked u hu := by rw [h.delayed] at hu; cases hu

theorem Wf.not_delayed (h : a.Wf out) (t : TaskPtr) : t ∉ a.delayed := by
  rw [h.delayed]
  exact List.not_mem_nil

theorem Waits.not_mem (h : a.Waits out) (ht : a.state t ≠ .blocked ∨ a.taskId t = 0 ∨ out = some t) :
    t ∉ a.delayed := by
  intro hm
  obtain ⟨h1, h2, h3⟩ := h.blocked t hm
  rcases ht with ht | ht | ht
  · exact ht h1
  · exact h2 ht
  · exact h3 ht

/-- A READY task is not delayed. -/
theorem Waits.ready_not_mem (h : a.Waits out) (hs : a.state t = .ready) : t ∉ a.delayed :=
  h.not_mem (.inl (by rw [hs]; simp))

theorem Waits.highest_mem (h : a.Waits out) {n : TaskPtr} (hn : a.highest = some n) :
    a.state n = .ready ∧ a.taskId n ≠ 0 := by
  obtain ⟨h1, h2, -⟩ := h.wf.highest_mem (n := n) hn
  exact ⟨h1, h2⟩

/-! ## The operations keep it -/

theorem waits_out (h : a.Waits none) (ht : a.state t ≠ .ready ∨ a.taskId t = 0) (hd : t ∉ a.delayed) :
    a.Waits (some t) where
  wf := wf_out h.wf ht
  nodup := h.nodup
  blocked u hu := by
    obtain ⟨h1, h2, -⟩ := h.blocked u hu
    exact ⟨h1, h2, fun e => hd (Option.some.inj e ▸ hu)⟩

/-- Any other task may be taken out. -/
theorem waits_take (h : a.Waits none) (hr : a.state t ≠ .ready) (hb : a.state t ≠ .blocked) :
    a.Waits (some t) := waits_out h (.inl hr) (h.not_mem (.inl hb))

theorem waits_settle (h : a.Waits (some t)) (ht : a.state t ≠ .ready) : a.Waits none where
  wf := wf_settle h.wf ht
  nodup := h.nodup
  blocked u hu := by
    obtain ⟨h1, h2, -⟩ := h.blocked u hu
    exact ⟨h1, h2, by simp⟩

theorem Waits.ne_of_mem (h : a.Waits (some t)) {u : TaskPtr} (hu : u ∈ a.delayed) : u ≠ t :=
  fun e => (h.blocked u hu).2.2 (by rw [e])

theorem waits_setState (h : a.Waits (some t)) (s : TaskState) : (a.setState t s).Waits (some t) where
  wf := wf_setState h.wf s
  nodup := h.nodup
  blocked u hu := by
    obtain ⟨h1, h2, h3⟩ := h.blocked u hu
    exact ⟨by simpa [setState, h.ne_of_mem hu] using h1, h2, h3⟩

theorem waits_fill (h : a.Waits (some t)) {p : UInt8} (hp : p.toNat < NUM_PRIORITY_LEVELS)
    (hn : a.current = some t → a.nextTaskId ≠ 0) : (a.fill t p).Waits (some t) where
  wf := wf_fill h.wf hp hn
  nodup := h.nodup
  blocked u hu := by
    obtain ⟨h1, h2, h3⟩ := h.blocked u hu
    have hne := h.ne_of_mem hu
    exact ⟨by simpa [fill, hne] using h1, by simpa [fill, hne] using h2, h3⟩

theorem waits_enqueue (h : a.Waits (some t)) (ht : a.taskId t ≠ 0) : (a.enqueue t).Waits none where
  wf := wf_enqueue h.wf ht
  nodup := h.nodup
  blocked u hu := by
    obtain ⟨h1, h2, -⟩ := h.blocked u hu
    exact ⟨by simpa [enqueue, h.ne_of_mem hu] using h1, h2, by simp⟩

theorem waits_dequeue (h : a.Waits none) (ht : t ∉ a.delayed) : (a.dequeue t).Waits (some t) where
  wf := wf_dequeue h.wf t
  nodup := h.nodup
  blocked u hu := by
    obtain ⟨h1, h2, -⟩ := h.blocked u hu
    exact ⟨h1, h2, fun e => ht (Option.some.inj e ▸ hu)⟩

theorem waits_rotate (h : a.Waits none) : a.rotate.Waits none := by
  unfold rotate
  split
  · exact h
  · rename_i c hc
    split
    · rename_i hs
      exact waits_enqueue (waits_dequeue h (h.ready_not_mem hs)) (h.wf.owner c hc)
    · exact h

theorem waits_dispatch (h : a.Waits none) {n : TaskPtr} (hs : a.state n = .ready) (hn : a.taskId n ≠ 0)
    (hr : a.running = true) : (a.dispatch n).Waits none := by
  have h1 := waits_setState (waits_dequeue h (h.ready_not_mem hs)) .running
  have h2 := waits_settle h1 (by simp [setState])
  exact { h2 with wf := wf_setCurrent h2.wf hn hr }

theorem rotate_state (a : Abs) : a.rotate.state = a.state := by
  unfold rotate
  split
  · rfl
  · rename_i c _
    split
    · rename_i hs
      exact Function.update_eq_self_iff.2 hs.symm
    · rfl

theorem waits_schedule (h : a.Waits none) (hr : a.running = true) : a.schedule.Waits none := by
  unfold schedule
  split
  · exact h
  · rename_i n hn
    split
    · have hf := rotate_reorders a
      obtain ⟨h1, h2⟩ := h.highest_mem hn
      exact waits_dispatch (waits_rotate h) (by rwa [rotate_state]) (by rwa [hf.taskId]) (by rwa [hf.running])
    · exact h

theorem waits_requeue (h : a.Waits none) : a.requeue.Waits none := by
  unfold requeue
  split
  · exact h
  · rename_i c hc
    split
    · rename_i hs
      have hout := waits_take h (t := c) (by simp [hs]) (by simp [hs])
      exact waits_enqueue hout (h.wf.owner c hc)
    · exact h

theorem waits_yield (h : a.Waits none) : a.yield.Waits none := by
  unfold yield
  split
  · exact h
  · rename_i hr
    exact waits_schedule (waits_requeue h) (by rw [(requeue_reorders a).running]; simpa using hr)

theorem waits_yieldIf (h : a.Waits none) (t : TaskPtr) : (a.yieldIf t).Waits none := by
  unfold yieldIf
  split
  · exact waits_yield h
  · exact h

theorem waits_setRunning (h : a.Waits none) : Waits { a with running := true } none :=
  { h with wf := wf_setRunning h.wf }

theorem waits_setTick (h : a.Waits none) (n : UInt32) : Waits { a with tick := n } none :=
  { h with wf := wf_setTick h.wf n }

theorem waits_setWakeTime (h : a.Waits none) (w : TaskPtr → UInt32) :
    Waits { a with wakeTime := w } none :=
  { h with wf := wf_setWakeTime h.wf w }

theorem waits_stop (h : a.Waits none) (ht : t ∉ a.delayed) {s : TaskState} (hs : s ≠ .ready) :
    ((a.dequeue t).setState t s).Waits none :=
  waits_settle (waits_setState (waits_dequeue h ht) s) (by simpa [setState] using hs)

theorem waits_block (h : a.Waits none) {c : TaskPtr} (hc : c ∉ a.delayed) (ticks : UInt32) :
    (a.block c ticks).Waits none :=
  waits_stop (s := .blocked) (waits_setWakeTime h (Function.update a.wakeTime c (a.tick + ticks))) hc (by simp)

/-- A free slot is in no list. -/
theorem waits_free (h : a.Waits none) (hf : a.free = some t) : a.Waits (some t) := by
  rcases free_spec hf with hs | hid
  · exact waits_take h (by simp [hs]) (by simp [hs])
  · exact waits_out h (.inr hid) (h.not_mem (.inr (.inl hid)))

theorem waits_create (h : a.Waits none) (hf : a.free = some t) {p : UInt8}
    (hp : p.toNat < NUM_PRIORITY_LEVELS) (hn : a.nextTaskId ≠ 0) :
    ((a.fill t p).enqueue t).Waits none :=
  waits_enqueue (waits_fill (waits_free h hf) hp fun _ => hn) (by simpa [fill] using hn)

theorem waits_resume (h : a.Waits none) (hs : a.state t = .suspended) (hid : a.taskId t ≠ 0) :
    (a.enqueue t).Waits none :=
  waits_enqueue (waits_take h (by simp [hs]) (by simp [hs])) hid

/-! ## Tasks that are neither READY nor RUNNING -/

theorem requeue_state {t : TaskPtr} (ht : a.state t ≠ .running) : a.requeue.state t = a.state t := by
  unfold requeue
  split
  · rfl
  · rename_i c _
    split
    · rename_i hs
      have hne : t ≠ c := by intro e; subst e; exact ht hs
      simp [enqueue, hne]
    · rfl

/-- Only a READY task is dispatched. -/
theorem schedule_state (h : a.Waits none) {t : TaskPtr} (ht : a.state t ≠ .ready) :
    a.schedule.state t = a.state t := by
  unfold schedule
  split
  · rfl
  · rename_i n hn
    split
    · have hne : t ≠ n := by intro e; subst e; exact ht (h.highest_mem hn).1
      rw [← congrFun (rotate_state a) t]
      simp [dispatch, dequeue, setState, hne]
    · rfl

/-- They stay as they are. -/
theorem yield_state (h : a.Waits none) {t : TaskPtr} (h1 : a.state t ≠ .ready) (h2 : a.state t ≠ .running) :
    a.yield.state t = a.state t := by
  unfold yield
  split
  · rfl
  · rw [schedule_state (waits_requeue h) (by rwa [requeue_state h2]), requeue_state h2]

/-- What the invariant asks of a call besides `Proper`: it does not delete,
suspend or delay a task that is on the delayed list. -/
def Spares (a : Abs) : Call → Prop
  | .taskDelete id | .taskSuspend id => ∀ t, a.find id = some t → t ∉ a.delayed
  | .taskDelay _ => ∀ c, a.current = some c → c ∉ a.delayed
  | _ => True

theorem Wf.spares (h : a.Wf out) (c : Call) : a.Spares c := by
  cases c with
  | taskDelete | taskSuspend => exact fun t _ => h.not_delayed t
  | taskDelay => exact fun c _ => h.not_delayed c
  | _ => trivial

/-! ## The delayed list changes -/

/-- `t` goes onto the delayed list, behind the tasks that wake no later. -/
def link (a : Abs) (t : TaskPtr) : Abs := { a with delayed := insertAfter a.wakeTime t a.delayed }

theorem mem_link {u : TaskPtr} : u ∈ (a.link t).delayed ↔ u = t ∨ u ∈ a.delayed :=
  List.mem_orderedInsert _

theorem waits_link (h : a.Waits none) (hs : a.state t = .blocked) (hid : a.taskId t ≠ 0)
    (ht : t ∉ a.delayed) : (a.link t).Waits none where
  wf := h.wf
  nodup := (List.perm_orderedInsert _ t a.delayed).nodup_iff.2 (List.nodup_cons.2 ⟨ht, h.nodup⟩)
  blocked u hu := by
    rcases mem_link.1 hu with rfl | hu
    · exact ⟨hs, hid, by simp⟩
    · exact h.blocked u hu

/-- The first delayed task leaves the list. -/
theorem waits_unlink {l : List TaskPtr} (h : Waits { a with delayed := t :: l } none) :
    Waits { a with delayed := l } (some t) := by
  obtain ⟨hs, -, -⟩ := h.blocked t List.mem_cons_self
  have hn := List.nodup_cons.1 h.nodup
  have hs' : a.state t ≠ .ready := fun e => by cases hs.symm.trans e
  exact {
    wf := wf_out h.wf (.inl hs')
    nodup := hn.2
    blocked := fun u hu => by
      obtain ⟨h1, h2, -⟩ := h.blocked u (List.mem_cons_of_mem _ hu)
      exact ⟨h1, h2, fun e => hn.1 (Option.some.inj e ▸ hu)⟩ }

theorem waits_releaseFrom : ∀ {l : List TaskPtr} {a : Abs}, Waits { a with delayed := l } none →
    (releaseFrom l a).Waits none
  | [], _, h => h
  | t :: l, a, h => by
    unfold releaseFrom
    split
    · have hid := (h.blocked t List.mem_cons_self).2.1
      exact waits_releaseFrom (a := a.enqueue t) (waits_enqueue (waits_unlink h) hid)
    · exact h

theorem waits_release (h : a.Waits none) : (releaseFrom a.delayed a).Waits none := waits_releaseFrom h

theorem waits_onTick (h : a.Waits none) : a.onTick.Waits none := by
  have h1 : (releaseFrom a.delayed { a with tick := a.tick + 1 }).Waits none :=
    waits_releaseFrom (waits_setTick h _)
  simp only [onTick]
  split
  · exact waits_yield h1
  · exact h1

theorem waits_call (h : a.Waits none) {c : Call} (hc : a.Proper c) (hs : a.Spares c) :
    (a.call c).Waits none := by
  have he := a.call_effect c
  generalize a.call c = b at he ⊢
  cases he with
  | refused => exact h
  | create hf hp => exact waits_create h hf hp hc
  | delete hf | suspend hf => exact waits_yieldIf (waits_stop h (hs _ hf) (by simp)) _
  | resume hf hsus => exact waits_resume h hsus (hc _ hf hsus)
  | delay hcur => exact waits_yield (waits_block h (hs _ hcur) _)
  | yield => exact waits_yield h
  | tick => exact waits_onTick h
  | start => exact waits_schedule (waits_setRunning h) rfl

/-! ## What a tick releases -/

/-- The tasks that are due become READY and go behind those of their own
queue, in their order, and the list goes on with the first that is not due. -/
theorem releaseFrom_eq : ∀ (l : List TaskPtr) (a : Abs), releaseFrom l a = { a with
    ready := fun p => a.ready p ++ (due a.wakeTime a.tick l).filter fun t => a.level t = p
    delayed := pending a.wakeTime a.tick l
    state := fun t => if t ∈ due a.wakeTime a.tick l then .ready else a.state t }
  | [], a => by simp [releaseFrom, due, pending]
  | u :: l, a => by
    unfold releaseFrom
    split
    · rename_i hu
      rw [due, pending, List.takeWhile_cons_of_pos (by simpa using hu),
        List.dropWhile_cons_of_pos (by simpa using hu), releaseFrom_eq l (a.enqueue u), Abs.mk.injEq]
      refine ⟨funext fun p => ?_, rfl, funext fun t => ?_, rfl, rfl, rfl, rfl, rfl, rfl, rfl⟩
      · show a.ready.push (a.level u) u p ++ (due a.wakeTime a.tick l).filter (fun t => a.level t = p) = _
        by_cases hp : a.level u = p
        · subst hp
          rw [Queues.push_self, List.filter_cons_of_pos (by simp), List.append_assoc, List.singleton_append]
        · rw [Queues.push_other _ _ (Ne.symm hp), List.filter_cons_of_neg (by simpa using hp)]
      · by_cases htu : t = u
        · subst htu; simp [enqueue]
        · simp [enqueue, htu]
    · rename_i hu
      rw [due, pending, List.takeWhile_cons_of_neg (by simpa using hu),
        List.dropWhile_cons_of_neg (by simpa using hu)]
      simp

/-- On a sorted list the release is a matter of each task. -/
theorem release_eq (hs : SortedBy a.wakeTime a.delayed) : releaseFrom a.delayed a = { a with
    ready := fun p => a.ready p ++
      (a.delayed.filter fun t => a.wakeTime t ≤ a.tick).filter fun t => a.level t = p
    delayed := a.delayed.filter fun t => ¬ a.wakeTime t ≤ a.tick
    state := fun t => if t ∈ a.delayed.filter fun t => a.wakeTime t ≤ a.tick then .ready else a.state t } := by
  rw [releaseFrom_eq, due_eq_filter hs, pending_eq_filter hs]

theorem releaseFrom_delayed (l : List TaskPtr) (a : Abs) :
    (releaseFrom l a).delayed = pending a.wakeTime a.tick l := by rw [releaseFrom_eq]

theorem releaseFrom_state (l : List TaskPtr) (a : Abs) :
    (releaseFrom l a).state = fun t => if t ∈ due a.wakeTime a.tick l then .ready else a.state t := by
  rw [releaseFrom_eq]

theorem releaseFrom_frame (l : List TaskPtr) (a : Abs) : a.Frame (releaseFrom l a) := by
  rw [releaseFrom_eq]
  exact ⟨rfl, rfl, rfl, rfl⟩

theorem releaseFrom_times (l : List TaskPtr) (a : Abs) :
    (releaseFrom l a).tick = a.tick ∧ (releaseFrom l a).wakeTime = a.wakeTime := by
  rw [releaseFrom_eq]
  exact ⟨rfl, rfl⟩

/-! ## Times -/

/-- The delayed tasks and their times are the same. -/
structure KeepsDelayed (a b : Abs) : Prop where
  delayed : b.delayed = a.delayed
  tick : b.tick = a.tick
  wakeTime : ∀ t ∈ a.delayed, b.wakeTime t = a.wakeTime t

theorem Reorders.keeps {b : Abs} (h : a.Reorders b) : a.KeepsDelayed b :=
  ⟨h.delayed, h.tick, fun t _ => congrFun h.wakeTime t⟩

theorem KeepsDelayed.trans {a b d : Abs} (h : a.KeepsDelayed b) (h' : b.KeepsDelayed d) :
    a.KeepsDelayed d :=
  ⟨h'.delayed.trans h.delayed, h'.tick.trans h.tick,
    fun t ht => (h'.wakeTime t (by rwa [h.delayed])).trans (h.wakeTime t ht)⟩

/-- Writing the wake time of a task that is not delayed. -/
theorem write_keeps {b : Abs} (hd : b.delayed = a.delayed) (hk : b.tick = a.tick) {w : UInt32}
    (hw : b.wakeTime = Function.update a.wakeTime t w) (ht : t ∉ a.delayed) : a.KeepsDelayed b :=
  ⟨hd, hk, fun u hu => by rw [hw, Function.update_of_ne (ne_of_mem_of_not_mem hu ht)]⟩

theorem block_keeps {c : TaskPtr} (hc : c ∉ a.delayed) (ticks : UInt32) :
    a.KeepsDelayed (a.block c ticks) := write_keeps rfl rfl rfl hc

theorem call_keeps (h : a.Waits none) {c : Call} (hs : a.Spares c) (hc : c ≠ .schedulerTick) :
    a.KeepsDelayed (a.call c) := by
  have he := a.call_effect c
  generalize a.call c = b at he ⊢
  cases he with
  | refused => exact (Reorders.refl a).keeps
  | create hf => exact write_keeps rfl rfl rfl ((waits_free h hf).not_mem (.inr (.inr rfl)))
  | delete | suspend => exact ((stop_reorders a _ _).trans (yieldIf_reorders _ _)).keeps
  | resume => exact ⟨rfl, rfl, fun _ _ => rfl⟩
  | delay hcur => exact (block_keeps (hs _ hcur) _).trans (yield_reorders _).keeps
  | yield => exact (yield_reorders a).keeps
  | tick => exact absurd rfl hc
  | start =>
    have h1 : a.KeepsDelayed { a with running := true } := ⟨rfl, rfl, fun _ _ => rfl⟩
    exact h1.trans (schedule_reorders _).keeps

theorem onTick_times (a : Abs) :
    a.onTick.delayed = pending a.wakeTime (a.tick + 1) a.delayed ∧ a.onTick.tick = a.tick + 1 ∧
      a.onTick.wakeTime = a.wakeTime := by
  have hd := releaseFrom_delayed a.delayed { a with tick := a.tick + 1 }
  obtain ⟨ht, hw⟩ := releaseFrom_times a.delayed { a with tick := a.tick + 1 }
  simp only [onTick]
  split
  · have hy := yield_reorders (releaseFrom a.delayed { a with tick := a.tick + 1 })
    exact ⟨hy.delayed.trans hd, hy.tick.trans ht, hy.wakeTime.trans hw⟩
  · exact ⟨hd, ht, hw⟩

/-! ## With nobody delayed -/

theorem Waits.to_wf (h : a.Waits out) (hd : a.delayed = []) : a.Wf out := by
  have e : a.undelayed = a := by rw [undelayed, ← hd]
  exact e ▸ h.wf

theorem wf_rotate (h : a.Wf none) : a.rotate.Wf none :=
  (waits_rotate h.waits).to_wf ((rotate_reorders a).delayed.trans h.delayed)

theorem wf_requeue (h : a.Wf none) : a.requeue.Wf none :=
  (waits_requeue h.waits).to_wf ((requeue_reorders a).delayed.trans h.delayed)

theorem wf_yield (h : a.Wf none) : a.yield.Wf none :=
  (waits_yield h.waits).to_wf ((yield_reorders a).delayed.trans h.delayed)

/-- A task taken out of the queues and put into a state other than READY. -/
theorem wf_stop (h : a.Wf none) (t : TaskPtr) {s : TaskState} (hs : s ≠ .ready) :
    ((a.dequeue t).setState t s).Wf none :=
  (waits_stop h.waits (h.not_delayed t) hs).to_wf h.delayed

theorem wf_block (h : a.Wf none) (c : TaskPtr) (ticks : UInt32) : (a.block c ticks).Wf none :=
  (waits_block h.waits (h.not_delayed c) ticks).to_wf h.delayed

theorem wf_create (h : a.Wf none) (hf : a.free = some t) {p : UInt8}
    (hp : p.toNat < NUM_PRIORITY_LEVELS) (hn : a.nextTaskId ≠ 0) : ((a.fill t p).enqueue t).Wf none :=
  (waits_create h.waits hf hp hn).to_wf h.delayed

theorem wf_call (h : a.Wf none) {c : Call} (hc : a.Proper c) : (a.call c).Wf none := by
  have hw := waits_call h.waits hc (h.spares c)
  by_cases ht : c = .schedulerTick
  · subst ht
    have hd : (a.call .schedulerTick).delayed = pending a.wakeTime (a.tick + 1) a.delayed := a.onTick_times.1
    exact hw.to_wf (by rw [hd, h.delayed]; rfl)
  · exact hw.to_wf ((call_keeps h.waits (h.spares c) ht).delayed.trans h.delayed)

end Abs

end Rtos.Sched
