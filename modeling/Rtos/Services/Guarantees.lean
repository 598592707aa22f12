import Rtos.Services.Local

/-!
# What a queue, a semaphore and a mutex guarantee

From its creation on, whatever the tasks call in whatever order: a queue hands
out what was sent, in order, and holds at most `maxMsgs` messages (`mq_fifo`);
a semaphore grants no more than it was given (`sem_conserves`); a mutex is
locked by one task at a time, which alone can unlock it (`mutex_excludes`).
Each also says what the next call returns.
-/
namespace Rtos.Services

open Rtos.Core Rtos.Heap
open Rtos.Drivers (UartHandle)
open Rtos.Sched (RtosStatus)

variable {t : Target} {callbacks : Nat → Nat → Mem × UartHandle → Mem × UartHandle} {task : UInt32}
  {p mq sem mutex size n count maxCount : Nat} {o o' : Object} {act : Act} {e : Event} {es es₁ es₂ : List Event}

/-- An event that the object cannot take is not on it. -/
theorem Local.other (hl : Local p o e o')
    (hact : ∀ act, e.call.on e.task = some (.ptr p, act) → act o = none) : o' = o := by
  unfold Local at hl
  split at hl
  · rename_i h act hc
    split at hl
    · rename_i hh
      rw [hact act (by rw [hc, hh])] at hl
      cases hl
    · exact hl
  · exact hl

theorem Local.self (hl : Local p o e o') (hc : e.call.on e.task = some (.ptr p, act)) : act o = some (o', e.ret) := by
  unfold Local at hl
  simpa only [hc, if_true] using hl

/-! ## Queues -/

/-- The message that the queue accepted in this event. -/
def Event.sends (mq size : Nat) (e : Event) : Option (List UInt8) :=
  match e.call, e.ret with
  | .mqSend q (some msg), .status .ok => if q = mq then some ((List.range size).map msg) else none
  | _, _ => none

/-- The message that the queue handed out. -/
def Event.receives (mq : Nat) (e : Event) : Option (List UInt8) :=
  match e.call, e.ret with
  | .mqReceive q _, .message msg .ok => if q = mq then some msg else none
  | _, _ => none

def sent (mq size : Nat) (es : List Event) : List (List UInt8) := es.filterMap (Event.sends mq size)

def received (mq : Nat) (es : List Event) : List (List UInt8) := es.filterMap (Event.receives mq)

/-- What a queue of at most `n` messages that holds `msgs` answers. -/
def queueAnswer (mq n : Nat) (msgs : List (List UInt8)) (e : Event) : Prop :=
  (∀ msg, e.call = .mqSend mq (some msg) → e.ret = .status (if msgs.length < n then .ok else .errorBusy)) ∧
  (e.call = .mqReceive mq true → e.ret = match msgs with
    | [] => .message [] .errorTimeout
    | x :: _ => .message x .ok)

theorem queue_step {msgs : List (List UInt8)} (hl : Local mq (.queue size n msgs) e o') :
    ∃ msgs', o' = .queue size n msgs' ∧ msgs ++ (e.sends mq size).toList = (e.receives mq).toList ++ msgs' ∧
      (msgs.length ≤ n → msgs'.length ≤ n) ∧ queueAnswer mq n msgs e := by
  obtain ⟨task, c, r⟩ := e
  by_cases hs : ∃ msg, c = .mqSend mq msg
  · obtain ⟨msg, rfl⟩ := hs
    have h := hl.self rfl
    cases msg with
    | none =>
      cases h
      exact ⟨msgs, rfl, by simp [Event.sends, Event.receives], id, (fun _ hc => by cases hc), (fun hc => by cases hc)⟩
    | some msg =>
      simp only [Act.send] at h
      split at h
      · rename_i hfull
        cases h
        refine ⟨msgs, rfl, by simp [Event.sends, Event.receives], id, fun _ _ => ?_, (fun hc => by cases hc)⟩
        rw [if_neg (by omega)]
      · rename_i hfull
        cases h
        refine ⟨_, rfl, by simp [Event.sends, Event.receives], fun _ => ?_, fun _ _ => ?_, (fun hc => by cases hc)⟩
        · rw [List.length_append, List.length_singleton]
          omega
        · rw [if_pos (by omega)]
  by_cases hr : ∃ msg, c = .mqReceive mq msg
  · obtain ⟨msg, rfl⟩ := hr
    have h := hl.self rfl
    cases msg with
    | false =>
      cases h
      exact ⟨msgs, rfl, by simp [Event.sends, Event.receives], id, (fun _ hc => by cases hc), (fun hc => by cases hc)⟩
    | true =>
      cases msgs with
      | nil =>
        cases h
        exact ⟨[], rfl, by simp [Event.sends, Event.receives], id, (fun _ hc => by cases hc), fun _ => rfl⟩
      | cons x xs =>
        cases h
        exact ⟨xs, rfl, by simp [Event.sends, Event.receives],
          fun h => (Nat.le_succ _).trans h, (fun _ hc => by cases hc), fun _ => rfl⟩
  -- the queue takes no other call
  · have ho : o' = .queue size n msgs := hl.other fun act hc => by
      cases c with
      | mqSend q msg => cases hc; exact absurd ⟨msg, rfl⟩ hs
      | mqReceive q msg => cases hc; exact absurd ⟨msg, rfl⟩ hr
      | _ => cases hc <;> rfl
    have h1 : Event.sends mq size ⟨task, c, r⟩ = none := by
      unfold Event.sends
      split
      · rename_i q msg hc _
        exact if_neg fun e => hs ⟨_, e ▸ hc⟩
      · rfl
    have h2 : Event.receives mq ⟨task, c, r⟩ = none := by
      unfold Event.receives
      split
      · rename_i q b msg hc _
        exact if_neg fun e => hr ⟨_, e ▸ hc⟩
      · rfl
    refine ⟨msgs, ho, by rw [h1, h2]; simp, id, fun msg e => absurd ⟨_, e⟩ hs, fun e => absurd ⟨_, e⟩ hr⟩

theorem queue_run {P : Object → Prop} (hr : (objectSys mq P).Run (.queue size n []) es o) :
    ∃ msgs, o = .queue size n msgs ∧ sent mq size es = received mq es ++ msgs ∧ msgs.length ≤ n := by
  refine LTS.run_history (I := fun es o => ∃ msgs, o = .queue size n msgs ∧
    sent mq size es = received mq es ++ msgs ∧ msgs.length ≤ n) (fun es o e o' hI hs => ?_) hr ⟨[], rfl, rfl, by simp⟩
  obtain ⟨msgs, rfl, hes, hn⟩ := hI
  obtain ⟨msgs', rfl, he, hn', -⟩ := queue_step hs
  refine ⟨msgs', rfl, ?_, hn' hn⟩
  have hsent : sent mq size (es ++ [e]) = sent mq size es ++ (e.sends mq size).toList := by
    cases h : e.sends mq size <;> simp [sent, h]
  have hreceived : received mq (es ++ [e]) = received mq es ++ (e.receives mq).toList := by
    cases h : e.receives mq <;> simp [received, h]
  rw [hsent, hreceived, hes, List.append_assoc, he, List.append_assoc]

/-- A queue from its creation on, in any interleaving: what was received is
what was sent, in order, the rest is in the queue, and `e` gets the answer of a
queue that holds it. -/
theorem mq_fifo (t : Target) (callbacks : Nat → Nat → Mem × UartHandle → Mem × UartHandle)
    (h : (svcSys t callbacks).Trace (es₁ ++ ⟨task, .mqCreate size n, .ptr mq⟩ :: (es₂ ++ [e]))) (hmq : mq ≠ 0)
    (hlive : ∀ x ∈ es₂ ++ [e], x.call ≠ .mqDestroy mq) :
    ∃ msgs, sent mq size es₂ = received mq es₂ ++ msgs ∧ msgs.length ≤ n ∧ queueAnswer mq n msgs e := by
  obtain ⟨o, o', rfl, hr⟩ := created_run (P := (· = .queue size n [])) (k := .queue) h hmq
    (fun W W' ⟨q, hq, h⟩ => ⟨q, hq, h.imp_right fun ⟨h0, hW, o, ho, hW'⟩ => ⟨h0, hW, o, ho.2, hW'⟩⟩)
    (fun o ho => by rw [ho]; rfl) fun x hx hd => hlive x hx hd
  obtain ⟨o₁, hr₁, hr₂⟩ := LTS.run_split hr
  obtain ⟨msgs, rfl, hes, hn⟩ := queue_run hr₁
  cases hr₂ with
  | cons hs _ =>
    obtain ⟨-, -, -, -, ha⟩ := queue_step hs
    exact ⟨msgs, hes, hn, ha⟩

/-- Two tasks send, and what was sent first is received first. -/
theorem mq_fifo_board : ∃ msgs, [[5, 5, 5, 5], [6, 6, 6, 6]] = [[5, 5, 5, 5]] ++ msgs ∧ msgs.length ≤ 2 ∧
    queueAnswer 536870928 2 msgs ⟨2, .mqReceive 536870928 true, .message [6, 6, 6, 6] .ok⟩ := by
  have h : (svcSys board fun _ _ x => x).Trace ([] ++ ⟨1, .mqCreate 4 2, .ptr 536870928⟩ ::
      ([⟨3, .mqSend 536870928 (some fun _ => 5), .status .ok⟩, ⟨1, .malloc 8, .ptr 536870992⟩,
        ⟨2, .mqReceive 536870928 true, .message [5, 5, 5, 5] .ok⟩,
        ⟨1, .mqSend 536870928 (some fun _ => 6), .status .ok⟩] ++
        [⟨2, .mqReceive 536870928 true, .message [6, 6, 6, 6] .ok⟩])) := trace_of_events (by decide +kernel)
  exact mq_fifo board _ h (by decide) (by simp)

/-! ## Semaphores -/

/-- The semaphore granted a take. -/
def Event.takes (sem : Nat) (e : Event) : Bool :=
  match e.call, e.ret with
  | .semTake q _, .status .ok => q = sem
  | _, _ => false

def Event.gives (sem : Nat) (e : Event) : Bool :=
  match e.call, e.ret with
  | .semGive q, .status .ok => q = sem
  | _, _ => false

/-- What a semaphore with this count answers. -/
def semAnswer (sem maxCount count : Nat) (e : Event) : Prop :=
  (∀ timeout, e.call = .semTake sem timeout → e.ret = .status (if 0 < count then .ok else .errorTimeout)) ∧
  (e.call = .semGive sem → e.ret = .status (if count < maxCount then .ok else .error))

theorem sem_step (hl : Local sem (.sem count maxCount) e o') :
    ∃ count', o' = .sem count' maxCount ∧ count + (e.gives sem).toNat = (e.takes sem).toNat + count' ∧
      (count' ≤ count ∨ count' ≤ maxCount) ∧ semAnswer sem maxCount count e := by
  obtain ⟨task, c, r⟩ := e
  by_cases ht : ∃ timeout, c = .semTake sem timeout
  · obtain ⟨timeout, rfl⟩ := ht
    have h := hl.self rfl
    simp only [Act.take] at h
    split at h
    · rename_i h0
      cases h
      exact ⟨count, rfl, by simp [Event.gives, Event.takes], .inl (Nat.le_refl _),
        fun _ _ => by rw [if_neg (by omega)],
        (fun hc => by cases hc)⟩
    · rename_i h0
      cases h
      refine ⟨count - 1, rfl, ?_, .inl (Nat.sub_le _ _), fun _ _ => by rw [if_pos (by omega)], (fun hc => by cases hc)⟩
      simp [Event.gives, Event.takes]
      omega
  by_cases hg : c = .semGive sem
  · rw [hg] at hl ⊢
    have h := hl.self rfl
    simp only [Act.give] at h
    split at h
    · rename_i h0
      cases h
      exact ⟨count, rfl, by simp [Event.gives, Event.takes], .inl (Nat.le_refl _), (fun _ hc => by cases hc),
        fun _ => by rw [if_neg (by omega)]⟩
    · rename_i h0
      cases h
      exact ⟨count + 1, rfl, by simp [Event.gives, Event.takes], .inr (by omega), (fun _ hc => by cases hc),
        fun _ => by rw [if_pos (by omega)]⟩
  · have ho : o' = .sem count maxCount := hl.other fun act hc => by
      cases c with
      | semTake q timeout => cases hc; exact absurd ⟨timeout, rfl⟩ ht
      | semGive q => cases hc; exact absurd rfl hg
      | _ => cases hc <;> rfl
    have h1 : Event.takes sem ⟨task, c, r⟩ = false := by
      unfold Event.takes
      split
      · rename_i q timeout hc _
        exact decide_eq_false fun e => ht ⟨_, e ▸ hc⟩
      · rfl
    have h2 : Event.gives sem ⟨task, c, r⟩ = false := by
      unfold Event.gives
      split
      · rename_i q hc _
        exact decide_eq_false fun e => hg (e ▸ hc)
      · rfl
    exact ⟨count, ho, by rw [h1, h2]; simp, .inl (Nat.le_refl _), fun timeout e => absurd ⟨_, e⟩ ht,
      fun e => absurd e hg⟩

theorem sem_run {P : Object → Prop} {initial : Nat} (hr : (objectSys sem P).Run (.sem initial maxCount) es o) :
    ∃ count, o = .sem count maxCount ∧ initial + es.countP (Event.gives sem) = es.countP (Event.takes sem) + count ∧
      count ≤ max initial maxCount := by
  refine LTS.run_history (I := fun es o => ∃ count, o = .sem count maxCount ∧
    initial + es.countP (Event.gives sem) = es.countP (Event.takes sem) + count ∧ count ≤ max initial maxCount)
    (fun es o e o' hI hs => ?_) hr ⟨initial, rfl, by simp, le_max_left _ _⟩
  obtain ⟨count, rfl, hes, hle⟩ := hI
  obtain ⟨count', rfl, he, hle', -⟩ := sem_step hs
  refine ⟨count', rfl, ?_, by omega⟩
  have hcount : ∀ f : Event → Bool, (es ++ [e]).countP f = es.countP f + (f e).toNat := fun f => by
    cases h : f e <;> simp [h]
  rw [hcount, hcount]
  omega

/-- A semaphore from its creation on: what it granted, and what it still has,
is what it was created with and given, and `e` gets the answer of that count. -/
theorem sem_conserves (t : Target) (callbacks : Nat → Nat → Mem × UartHandle → Mem × UartHandle)
    {initialCount limit : UInt32}
    (h : (svcSys t callbacks).Trace (es₁ ++ ⟨task, .semCreate initialCount limit, .ptr sem⟩ :: (es₂ ++ [e])))
    (hsem : sem ≠ 0) (hlive : ∀ x ∈ es₂ ++ [e], x.call ≠ .semDestroy sem) :
    ∃ count, initialCount.toNat + es₂.countP (Event.gives sem) = es₂.countP (Event.takes sem) + count ∧
      count ≤ max initialCount.toNat limit.toNat ∧ semAnswer sem limit.toNat count e := by
  obtain ⟨o, o', rfl, hr⟩ := created_run (P := (· = .sem initialCount.toNat limit.toNat)) (k := .sem) h hsem
    (fun W W' h => h) (fun o ho => by rw [ho]; rfl) fun x hx hd => hlive x hx hd
  obtain ⟨o₁, hr₁, hr₂⟩ := LTS.run_split hr
  obtain ⟨count, rfl, hes, hle⟩ := sem_run hr₁
  cases hr₂ with
  | cons hs _ =>
    obtain ⟨-, -, -, -, ha⟩ := sem_step hs
    exact ⟨count, hes, hle, ha⟩

theorem sem_conserves_board : ∃ count, 1 + 1 = 2 + count ∧ count ≤ 2 ∧
    semAnswer 536870928 2 count ⟨2, .semTake 536870928 0, .status .errorTimeout⟩ := by
  have h : (svcSys board fun _ _ x => x).Trace ([] ++ ⟨1, .semCreate 1 2, .ptr 536870928⟩ ::
      ([⟨3, .semTake 536870928 0, .status .ok⟩, ⟨1, .semGive 536870928, .status .ok⟩,
        ⟨2, .malloc 16, .ptr 536870952⟩, ⟨3, .semTake 536870928 5, .status .ok⟩] ++
        [⟨2, .semTake 536870928 0, .status .errorTimeout⟩])) := trace_of_events (by decide +kernel)
  exact sem_conserves board _ h (by decide) (by simp)

/-! ## Mutexes -/

/-- The mutex was locked. -/
def Event.locks (mutex : Nat) (e : Event) : Bool :=
  match e.call, e.ret with
  | .mutexLock q _, .status .ok => q = mutex
  | _, _ => false

def Event.unlocks (mutex : Nat) (e : Event) : Bool :=
  match e.call, e.ret with
  | .mutexUnlock q, .status .ok => q = mutex
  | _, _ => false

/-- The task that has locked the mutex and not unlocked it. -/
def holder (mutex : Nat) (es : List Event) : Option UInt32 :=
  es.foldl (fun owner e => if e.locks mutex then some e.task else if e.unlocks mutex then none else owner) none

def mutexAnswer (mutex : Nat) (owner : Option UInt32) (e : Event) : Prop :=
  (∀ timeout, e.call = .mutexLock mutex timeout → e.ret = .status (if owner.isNone then .ok else .errorTimeout)) ∧
  (e.call = .mutexUnlock mutex → e.ret = .status (if owner = some e.task then .ok else .error))

theorem mutex_step {owner : Option UInt32} (hl : Local mutex (.mutex owner) e o') :
    o' = .mutex (if e.locks mutex then some e.task else if e.unlocks mutex then none else owner) ∧
      mutexAnswer mutex owner e := by
  obtain ⟨task, c, r⟩ := e
  by_cases hlock : ∃ timeout, c = .mutexLock mutex timeout
  · obtain ⟨timeout, rfl⟩ := hlock
    have h := hl.self rfl
    cases owner with
    | none => cases h; exact ⟨by simp [Event.locks], fun _ _ => rfl, (fun hc => by cases hc)⟩
    | some owner => cases h; exact ⟨by simp [Event.locks, Event.unlocks], fun _ _ => rfl, (fun hc => by cases hc)⟩
  by_cases hunlock : c = .mutexUnlock mutex
  · rw [hunlock] at hl ⊢
    have h := hl.self rfl
    cases owner with
    | none => cases h; exact ⟨by simp [Event.locks, Event.unlocks], (fun _ hc => by cases hc), fun _ => rfl⟩
    | some owner =>
      simp only [Act.unlock] at h
      split at h
      · rename_i ho
        cases h
        exact ⟨by simp [Event.locks, Event.unlocks], (fun _ hc => by cases hc), fun _ => by rw [if_pos (by rw [ho])]⟩
      · rename_i ho
        cases h
        exact ⟨by simp [Event.locks, Event.unlocks], (fun _ hc => by cases hc),
          fun _ => by rw [if_neg fun e => ho (Option.some.inj e)]⟩
  · have ho : o' = .mutex owner := hl.other fun act hc => by
      cases c with
      | mutexLock q timeout => cases hc; exact absurd ⟨timeout, rfl⟩ hlock
      | mutexUnlock q => cases hc; exact absurd rfl hunlock
      | _ => cases hc <;> rfl
    have h1 : Event.locks mutex ⟨task, c, r⟩ = false := by
      unfold Event.locks
      split
      · rename_i q timeout hc _
        exact decide_eq_false fun e => hlock ⟨_, e ▸ hc⟩
      · rfl
    have h2 : Event.unlocks mutex ⟨task, c, r⟩ = false := by
      unfold Event.unlocks
      split
      · rename_i q hc _
        exact decide_eq_false fun e => hunlock (e ▸ hc)
      · rfl
    exact ⟨by rw [ho, h1, h2]; rfl, fun timeout e => absurd ⟨_, e⟩ hlock, fun e => absurd e hunlock⟩

theorem mutex_run {P : Object → Prop} (hr : (objectSys mutex P).Run (.mutex none) es o) :
    o = .mutex (holder mutex es) := by
  refine LTS.run_history (I := fun es o => o = .mutex (holder mutex es)) (fun es o e o' hI hs => ?_) hr rfl
  subst hI
  obtain ⟨ho, -⟩ := mutex_step hs
  rw [ho, holder, holder, List.foldl_append]
  rfl

/-- A mutex from its creation on: `e` locks it only if no task holds it, and
unlocks it only if its own task does. -/
theorem mutex_excludes (t : Target) (callbacks : Nat → Nat → Mem × UartHandle → Mem × UartHandle)
    (h : (svcSys t callbacks).Trace (es₁ ++ ⟨task, .mutexCreate, .ptr mutex⟩ :: (es₂ ++ [e]))) (hmutex : mutex ≠ 0)
    (hlive : ∀ x ∈ es₂ ++ [e], x.call ≠ .mutexDestroy mutex) : mutexAnswer mutex (holder mutex es₂) e := by
  obtain ⟨o, o', rfl, hr⟩ := created_run (P := (· = .mutex none)) (k := .mutex) h hmutex
    (fun W W' h => h) (fun o ho => by rw [ho]; rfl) fun x hx hd => hlive x hx hd
  obtain ⟨o₁, hr₁, hr₂⟩ := LTS.run_split hr
  cases mutex_run hr₁
  cases hr₂ with
  | cons hs _ => exact (mutex_step hs).2

/-- Another task cannot unlock the mutex. -/
theorem mutex_excludes_board :
    mutexAnswer 536870928 (some 3) ⟨2, .mutexLock 536870928 0, .status .errorTimeout⟩ := by
  have h : (svcSys board fun _ _ x => x).Trace ([] ++ ⟨1, .mutexCreate, .ptr 536870928⟩ ::
      ([⟨3, .mutexLock 536870928 0, .status .ok⟩, ⟨2, .mutexUnlock 536870928, .status .error⟩] ++
        [⟨2, .mutexLock 536870928 0, .status .errorTimeout⟩])) := trace_of_events (by decide +kernel)
  exact mutex_excludes board _ h (by decide) (by simp)

end Rtos.Services
