import Rtos.System.Exclusion

/-!
# Priority inversion

`mutex_lock` does not block and lends the owner no priority. A task that waits
for a mutex by trying again keeps the CPU, or shares it with its own priority,
and an owner of a lower priority never runs to unlock it
(`priority_inversion`). The argument is about the queues alone: a runnable task
keeps every task of a priority behind its own off the CPU (`Blocked`).
-/
namespace Rtos.System

open Rtos.Sched (Abs RegularInv Regular TaskPtr TaskState taskGetCurrentId taskGetTcb)
open Rtos.Services
open Rtos.Core (Mem Queues)
open Rtos.Heap (Target)
open Rtos.Drivers (UartHandle)

/-- The calls of the kernel that leave the task `id` runnable: it does not
delay itself, and nobody suspends or deletes it. -/
def Spares (s : Sched.Sys) (id : UInt32) : Sched.Call → Prop
  | .taskDelay _ => taskGetCurrentId s.k ≠ id
  | .taskSuspend id' | .taskDelete id' => id' ≠ id
  | _ => True

section

variable {a : Abs} {h u v : TaskPtr} {c : Sched.Call} {high low : UInt32}

/-- The task `high`, in slot `h`, is runnable; whatever slot has the id `low` is
of a priority behind its own and off the CPU. -/
structure Blocked (a : Abs) (h : TaskPtr) (high low : UInt32) : Prop where
  runnable : a.Runnable h
  id : a.taskId h = high
  hhigh : high ≠ 0
  hlow : low ≠ 0
  old : low.toNat < a.nextTaskId.toNat
  behind : ∀ u, a.taskId u = low → a.level h < a.level u ∧ a.current ≠ some u

/-- What it is to be blocked survives any move of other tasks. -/
theorem Blocked.congr {b : Abs} (hb : Blocked a h high low) (hr : b.Runnable h) (hp : b.priority = a.priority)
    (hi : b.taskId = a.taskId) (hn : b.nextTaskId = a.nextTaskId)
    (hc : ∀ u, b.taskId u = low → b.current ≠ some u) : Blocked b h high low where
  runnable := hr
  id := by rw [hi, hb.id]
  hhigh := hb.hhigh
  hlow := hb.hlow
  old := by rw [hn]; exact hb.old
  behind u hu := by
    have hu' := (hb.behind u (by rwa [hi] at hu)).1
    refine ⟨?_, hc u hu⟩
    rwa [Abs.level, Abs.level, hp]

/-- `schedule` finds no task behind one that is READY. -/
theorem Blocked.highest (hb : Blocked a h high low) (hw : a.Wf none) (hs : a.state h = .ready) {n : TaskPtr}
    (hn : a.highest = some n) : a.taskId n ≠ low := by
  intro e
  have hm := hw.queued h (by simp) hs (by rw [hb.id]; exact hb.hhigh)
  have hlt := (hb.behind n e).1
  rw [(hw.highest_mem hn).2.2.2 _ hlt] at hm
  cases hm

theorem runnable_dispatch {n : TaskPtr} (hr : a.Runnable h) : (a.dispatch n).Runnable h := by
  by_cases hn : h = n
  · exact .inr (by rw [hn, Abs.dispatch_state_self])
  · have : (a.dispatch n).state h = a.state h := Function.update_of_ne hn _ _
    rwa [Abs.Runnable, this]

theorem runnable_rotate (hr : a.Runnable h) : a.rotate.Runnable h := by
  unfold Abs.rotate
  split
  · exact hr
  · split
    · rename_i c _ _
      by_cases hn : h = c
      · exact .inl (by rw [hn]; exact Function.update_self ..)
      · have : ((a.dequeue c).enqueue c).state h = a.state h := Function.update_of_ne hn _ _
        rwa [Abs.Runnable, this]
    · exact hr

theorem blocked_schedule (hw : a.Wf none) (hb : Blocked a h high low) (hs : a.state h = .ready) :
    Blocked a.schedule h high low := by
  have hf := a.schedule_reorders
  rcases a.schedule_cases with ⟨-, e⟩ | ⟨-, -, -, e⟩ | ⟨n, hn, -, e⟩
  · rwa [e]
  · rwa [e]
  · refine hb.congr ?_ hf.priority hf.taskId hf.nextTaskId fun u hu hc => ?_
    · rw [e]
      exact runnable_dispatch (runnable_rotate hb.runnable)
    · rw [e] at hc
      cases hc
      rw [hf.taskId] at hu
      exact hb.highest hw hs hn hu

/-- After the current task is requeued no task is RUNNING. -/
theorem requeue_ready (ho : a.Owned) (hr : a.Runnable h) : a.requeue.state h = .ready := by
  rcases hr with hr | hr
  · rw [Abs.requeue_state (by rw [hr]; decide), hr]
  · rw [Abs.requeue_running (ho h hr) hr]
    exact Function.update_self ..

theorem blocked_yield (hw : a.Wf none) (ho : a.Owned) (hb : Blocked a h high low) : Blocked a.yield h high low := by
  by_cases hr : a.running = true
  · have hf := a.requeue_reorders
    rw [Abs.yield_eq hr]
    have hs := requeue_ready ho hb.runnable
    refine blocked_schedule (Abs.wf_requeue hw) (hb.congr (.inl hs) hf.priority hf.taskId hf.nextTaskId ?_) hs
    intro u hu
    rw [Abs.requeue_current]
    exact (hb.behind u (by rwa [hf.taskId] at hu)).2
  · rw [Abs.yield, if_pos (by simpa using hr)]
    exact hb

theorem blocked_stop (hw : a.Wf none) (ho : a.Owned) {s : TaskState} (hs : s ≠ .ready) (hs' : s ≠ .running)
    (hb : Blocked a h high low) (hv : h ≠ v) : Blocked (((a.dequeue v).setState v s).yieldIf v) h high low := by
  have hstop : Blocked ((a.dequeue v).setState v s) h high low := by
    refine hb.congr ?_ rfl rfl rfl fun u hu => (hb.behind u hu).2
    have : ((a.dequeue v).setState v s).state h = a.state h := Function.update_of_ne hv _ _
    rw [Abs.Runnable, this]
    exact hb.runnable
  unfold Abs.yieldIf
  split
  · exact blocked_yield (Abs.wf_stop hw v hs) (Abs.owned_stop ho v hs') hstop
  · exact hstop

/-- A task created has a new id. -/
theorem blocked_create (hb : Blocked a h high low) (hf : a.free = some v) {p : UInt8}
    (hn : a.nextTaskId.toNat + 1 < 2 ^ 32) : Blocked ((a.fill v p).enqueue v) h high low := by
  have hhv : h ≠ v := by
    rintro rfl
    rcases Abs.free_spec hf with h1 | h1
    · rcases hb.runnable with h2 | h2 <;> · rw [h1] at h2; cases h2
    · exact hb.hhigh (hb.id.symm.trans h1)
  have hlev : ∀ w, w ≠ v → ((a.fill v p).enqueue v).level w = a.level w := by
    intro w hw
    exact congrArg UInt8.toNat (Function.update_of_ne hw _ _)
  have hstate : ((a.fill v p).enqueue v).state h = a.state h :=
    (Function.update_of_ne hhv _ _).trans (Function.update_of_ne hhv _ _)
  have hid : ((a.fill v p).enqueue v).taskId = Function.update a.taskId v a.nextTaskId := rfl
  have hold := hb.old
  refine ⟨?_, ?_, hb.hhigh, hb.hlow, ?_, fun u hu => ?_⟩
  · rw [Abs.Runnable, hstate]
    exact hb.runnable
  · rw [hid, Function.update_of_ne hhv, hb.id]
  · show low.toNat < (a.nextTaskId + 1).toNat
    rw [next_id hn]
    omega
  · have huv : u ≠ v := by
      rintro rfl
      rw [hid, Function.update_self] at hu
      rw [hu] at hold
      exact Nat.lt_irrefl _ hold
    rw [hid, Function.update_of_ne huv] at hu
    rw [hlev h hhv, hlev u huv]
    exact hb.behind u hu

/-- No call that leaves the runnable task alone lets the other one run. -/
theorem blocked_call (hw : a.Wf none) (ho : a.Owned) (hb : Blocked a h high low) {s : Sched.Sys} (hr : Sched.Refines s.k a)
    (hc : Spares s high c) (hstart : c = .schedulerStart → a.current = none)
    (hn : ∀ f name p params w, c = .taskCreate f name p params w → a.nextTaskId.toNat + 1 < 2 ^ 32) :
    Blocked (a.call c) h high low := by
  have he := a.call_effect c
  generalize a.call c = b at he ⊢
  cases he with
  | refused => exact hb
  | create hf _ => exact blocked_create hb hf (hn _ _ _ _ _ rfl)
  | delete hf =>
    exact blocked_stop hw ho (by decide) (by decide) hb fun e =>
      hc ((Abs.find_spec hf).1.symm.trans (e ▸ hb.id))
  | suspend hf =>
    exact blocked_stop hw ho (by decide) (by decide) hb fun e =>
      hc ((Abs.find_spec hf).1.symm.trans (e ▸ hb.id))
  | @resume id' v hf hs =>
    have hhv : h ≠ v := by
      rintro rfl
      rcases hb.runnable with h2 | h2 <;> · rw [hs] at h2; cases h2
    have : (a.enqueue v).state h = a.state h := Function.update_of_ne hhv _ _
    exact hb.congr (by rw [Abs.Runnable, this]; exact hb.runnable) rfl rfl rfl fun u hu => (hb.behind u hu).2
  | @delay ticks v hv =>
    have hhv : h ≠ v := by
      rintro rfl
      apply hc
      rw [Sched.taskGetCurrentId, hr.currentTask, hv]
      exact (congrFun hr.taskId h).trans hb.id
    have hstate : (a.block v ticks).state h = a.state h := Function.update_of_ne hhv _ _
    refine blocked_yield (Abs.wf_block hw v ticks) ?_ (hb.congr ?_ rfl rfl rfl fun u hu => (hb.behind u hu).2)
    · exact Abs.owned_setState ho v (by decide)
    · rw [Abs.Runnable, hstate]
      exact hb.runnable
  | yield => exact blocked_yield hw ho hb
  | tick =>
    have ht : Blocked { a with tick := a.tick + 1 } h high low :=
      ⟨hb.runnable, hb.id, hb.hhigh, hb.hlow, hb.old, hb.behind⟩
    rw [Abs.onTick_eq hw]
    split
    · exact blocked_yield (Abs.wf_setTick hw _) ho ht
    · exact ht
  | start =>
    have ht : Blocked { a with running := true } h high low :=
      ⟨hb.runnable, hb.id, hb.hhigh, hb.hlow, hb.old, hb.behind⟩
    refine blocked_schedule (Abs.wf_setRunning hw) ht (hb.runnable.resolve_right fun h2 => ?_)
    have := ho h h2
    rw [hstart rfl] at this
    cases this

theorem blocked_current (hb : Blocked a h high low) : currentId a ≠ low := by
  unfold currentId
  split
  · rename_i v hv
    exact fun e => (hb.behind v e).2 hv
  · exact fun e => hb.hlow e.symm

/-- Two live tasks, the second one behind the first and off the CPU. -/
theorem blocked_of_found {s : Sched.Sys} (hi : RegularInv s a) (hid : Sched.IdInv s.k s.h)
    (hh : taskGetTcb s.k high = some h) (hl : taskGetTcb s.k low = some u) (hhigh : high ≠ 0) (hlow : low ≠ 0)
    (hs : s.k.state h = .ready ∨ s.k.state h = .running) (hp : s.k.priority h < s.k.priority u)
    (hcpu : taskGetCurrentId s.k ≠ low) : Blocked a h high low := by
  have hr := hi.refines
  rw [Sched.find_refines hr] at hh hl
  have hul := (Abs.find_spec hl).1
  refine ⟨by rwa [hr.state] at hs, (Abs.find_spec hh).1, hhigh, hlow, ?_, fun v hv => ?_⟩
  · have hb := hid.bound u
    rw [hr.taskId, hul] at hb
    rw [hi.counter]
    omega
  · have hinj := hid.inj v u
    rw [hr.taskId, hv, hul] at hinj
    obtain rfl := hinj rfl hlow
    refine ⟨?_, fun hc => ?_⟩
    · rw [hr.priority, UInt8.lt_iff_toNat_lt] at hp
      exact hp
    · rw [current_refines hi, currentId, hc] at hcpu
      exact hcpu hv

end

section

variable {a : Abs} {h : TaskPtr} {high low : UInt32} {x x' : Sched.Sys × Sys} {ls : List Label} {t : Target}
  {callbacks : Nat → Nat → Mem × UartHandle → Mem × UartHandle}

/-- The machine while the task `high` stays runnable. -/
def spinning (t : Target) (callbacks : Nat → Nat → Mem × UartHandle → Mem × UartHandle) (high : UInt32) :
    LTS (Sched.Sys × Sys) Label :=
  (machine t callbacks).restrict fun x l => ∀ c r, l = .inl (c, r) → Spares x.1 high c

/-- No event of such a run is a call of the task `low`. -/
theorem blocked_run (hi : RegularInv x.1 a) (hb : Blocked a h high low)
    (hr : (spinning t callbacks high).Run x ls x') : ∀ e, .inr e ∈ ls → e.task ≠ low := by
  induction hr generalizing a with
  | nil x => exact fun e he => absurd he List.not_mem_nil
  | @cons x x₁ x' l ls hs _ ih =>
    obtain ⟨hg, hs⟩ := hs
    cases l with
    | inl l =>
      obtain ⟨c, r⟩ := l
      have hc := hs.1.1
      have hb₁ : Blocked (a.call c) h high low := by
        refine blocked_call hi.wf hi.owned hb hi.refines (hg c r rfl) (fun hl => ?_) fun f name p params w hl => ?_
        · subst hl
          exact hi.no_owner hc
        · subst hl
          have hc : x.1.h.created + 1 < 2 ^ 32 - 1 := hc
          rw [hi.counter]
          omega
      intro e he
      rcases List.mem_cons.1 he with he | he
      · cases he
      · exact ih (kernel_step hi hs.1).2 hb₁ e he
    | inr l =>
      obtain ⟨htask, hx, -⟩ := hs
      intro e he
      rcases List.mem_cons.1 he with he | he
      · cases he
        rw [htask, current_refines hi]
        exact blocked_current hb
      · exact ih (hx ▸ hi) hb e he

end

/-- While a task stays runnable, no mutex held by a task of a lower priority is
ever unlocked, however often it and others yield and try again. -/
theorem priority_inversion (t : Target) (callbacks : Nat → Nat → Mem × UartHandle → Mem × UartHandle)
    {ls₁ ls₂ ls₃ : List Label} {task high low : UInt32} {mutex : Nat} {e : Event} {x₀ x x' : Sched.Sys × Sys}
    (h0 : (machine t callbacks).init x₀)
    (hr : (machine t callbacks).Run x₀ (ls₁ ++ .inr ⟨task, .mutexCreate, .ptr mutex⟩ :: ls₂) x)
    (hmutex : mutex ≠ 0) (hheld : holder mutex (ls₂.filterMap Sum.getRight?) = some low)
    (hlow : low ≠ 0) (hhigh : high ≠ 0) {h u : TaskPtr} (hh : taskGetTcb x.1.k high = some h)
    (hl : taskGetTcb x.1.k low = some u) (hs : x.1.k.state h = .ready ∨ x.1.k.state h = .running)
    (hp : x.1.k.priority h < x.1.k.priority u) (hcpu : taskGetCurrentId x.1.k ≠ low)
    (hr' : (spinning t callbacks high).Run x (ls₃ ++ [.inr e]) x')
    (hlive : ∀ l, Sum.inr l ∈ ls₂ ++ (ls₃ ++ [Sum.inr e]) → l.call ≠ .mutexDestroy mutex) :
    (∀ timeout, e.call = .mutexLock mutex timeout → e.ret = .status .errorTimeout) ∧
    (e.call = .mutexUnlock mutex → e.ret = .status .error) := by
  obtain ⟨⟨a, ha⟩, hid⟩ := kernel_inductive.reachable x.1 ⟨_, _, h0.1, hr.left⟩
  exact held_run h0 hr hmutex hheld (LTS.run_of_restrict hr') hlive
    (blocked_run ha (blocked_of_found ha hid hh hl hhigh hlow hs hp hcpu) hr')

/-- A task of priority 3 tries to lock a mutex that one of priority 5 holds. -/
theorem priority_inversion_two : ∃ x x', (spinning Heap.board (fun _ _ x => x) 2).Run x
      ([.inl (.taskYield, .void), .inl (.schedulerTick, .void)] ++
        [.inr ⟨2, .mutexLock 536870928 0, .status .errorTimeout⟩]) x' ∧
    ∀ timeout, (Event.mk 2 (.mutexLock 536870928 0) (.status .errorTimeout)).call = .mutexLock 536870928 timeout →
      (Event.mk 2 (.mutexLock 536870928 0) (.status .errorTimeout)).ret = .status .errorTimeout := by
  obtain ⟨x, hr, -, ⟨hh, hl, hs, hp, hcpu⟩, hnext⟩ := LTS.reachable_of_exec (M := machine Heap.board fun _ _ x => x)
    Machine.step_of_event Machine.started_init
    (fun x => (taskGetTcb x.1.k 2 = some 1 ∧ taskGetTcb x.1.k 1 = some 0 ∧ x.1.k.state 1 = .running ∧
        x.1.k.priority 1 < x.1.k.priority 0 ∧ taskGetCurrentId x.1.k ≠ 1) ∧
      (LTS.exec (Machine.event Heap.board fun _ _ x => x) x
        ([.inl (.taskYield, .void), .inl (.schedulerTick, .void)] ++
          [.inr ⟨2, .mutexLock 536870928 0, .status .errorTimeout⟩])).isSome = true)
    ([.inl (.taskCreate (some 1) none 5 0 true, ⟨some .ok, some 1⟩), .inl (.schedulerStart, .void)] ++
      .inr ⟨1, .mutexCreate, .ptr 536870928⟩ :: [.inr ⟨1, .mutexLock 536870928 0, .status .ok⟩,
        .inl (.taskCreate (some 1) none 3 0 true, ⟨some .ok, some 2⟩), .inl (.taskYield, .void)])
    (by decide +kernel)
  obtain ⟨x', hx'⟩ := Option.isSome_iff_exists.1 hnext
  have hr' := LTS.run_of_exec (M := machine Heap.board fun _ _ x => x) Machine.step_of_event hx'
  have hr' := LTS.run_restrict (G := fun x l => ∀ c r, l = .inl (c, r) → Spares x.1 2 c) hr'
    (by simp [Spares])
  exact ⟨x, x', hr', (priority_inversion Heap.board _ Machine.started_init hr (by decide) rfl (by decide) (by decide)
    hh hl (.inr hs) hp hcpu hr' (by simp)).1⟩

end Rtos.System
