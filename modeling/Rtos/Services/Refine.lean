import Rtos.Core.Simulation
import Rtos.Services.Ipc
import Rtos.Services.Pools
import Rtos.Services.Uarts

/-!
# The services refine the specification

One call is sound (`call_sound`), so the services simulate the specification
(`services_simulate`): whatever a disciplined application calls, in whatever
order, it gets results that the independent objects of `spec` also give, and
every call returns (`services_return`).
-/
namespace Rtos.Services

open Rtos.Core Rtos.Heap
open Rtos.Drivers (UartHandle)

variable {t : Target} {callbacks : Nat → Nat → Mem × UartHandle → Mem × UartHandle} {task : UInt32} {s : Store}
  {W : World} {c : Call}

/-- A legal call returns, and does to the objects what the specification says. -/
theorem call_sound (callbacks : Nat → Nat → Mem × UartHandle → Mem × UartHandle) (task : UInt32)
    (hi : Implements t s W) (hl : Legal t W.kinds c) : Sound t callbacks task s W c := by
  cases c with
  | malloc size => exact malloc_sound hi hl
  | calloc num size => exact calloc_sound hi hl
  | realloc ptr newSize => exact realloc_sound hi hl
  | free ptr => exact free_sound hi hl
  | store ptr i v => exact store_sound hi hl
  | load ptr i => exact load_sound hi hl
  | mqCreate msgSize maxMsgs => exact mqCreate_sound hi hl
  | mqSend mq msg => exact mqSend_sound hi hl
  | mqReceive mq msg => exact mqReceive_sound hi hl
  | mqDestroy mq => exact mqDestroy_sound hi hl
  | semCreate initialCount maxCount => exact semCreate_sound hi
  | semTake sem timeout => exact semTake_sound hi hl
  | semGive sem => exact semGive_sound hi hl
  | semDestroy sem => exact semDestroy_sound hi hl
  | mutexCreate => exact mutexCreate_sound hi
  | mutexLock mutex timeout => exact mutexLock_sound hi hl
  | mutexUnlock mutex => exact mutexUnlock_sound hi hl
  | mutexDestroy mutex => exact mutexDestroy_sound hi hl
  | poolCreate pool blockSize numBlocks => exact poolCreate_sound hi hl
  | poolAlloc pool => exact poolAlloc_sound hi hl
  | poolFree pool ptr => exact poolFree_sound hi hl
  | poolDestroy pool => exact poolDestroy_sound hi hl
  | blockStore pool ptr i v => exact blockStore_sound hi hl
  | blockLoad pool ptr i => exact blockLoad_sound hi hl
  | uartInit id config => exact uartInit_sound hi
  | uartWrite u data len => exact uartWrite_sound hi
  | uartWriteDma u data len => exact uartWriteDma_sound hi
  | uartRead u buffer len bytesRead => exact uartRead_sound hi
  | uartAvailable u => exact uartAvailable_sound hi
  | uartFlush u => exact uartFlush_sound hi
  | uartSetCallback u callback userData => exact uartSetCallback_sound hi
  | uartDeinit u => exact uartDeinit_sound hi

/-- The store holds the objects, and the application knows their kinds. -/
structure Related (t : Target) (s : Sys) (W : World) : Prop where
  live : s.live = W.kinds
  store : Implements t s.store W

theorem booted_related {s : Sys} (h0 : Booted t s) : Related t s fun _ => none where
  live := h0.2.2
  store :=
    { grants := ⟨0, (layout t).holds_empty s.store, h0.1 ▸ init_outstanding (h := HeapState.static) rfl⟩
      idle := fun u _ => h0.2.1 u }

theorem Related.step {s : Sys} {s' : Store} {r : Ret} (hR : Related t s W) (hl : Legal t s.live c)
    (hs : s.store.call t callbacks task c = some (s', r)) :
    ∃ W', Services.step task W r W' c ∧ Related t ⟨s', s.live.after c r⟩ W' := by
  obtain ⟨s₁, r₁, W', e, hstep, hi'⟩ := call_sound callbacks task hR.store (hR.live ▸ hl)
  rw [hs] at e
  cases e
  have hk : W'.kinds = W.kinds.after c r :=
    after_kinds hstep (fun i _ _ _ _ _ hW => (hR.store.pool_pos hW).2) fun i _ _ _ _ _ hW => (hR.store.pool_pos hW).1
  exact ⟨W', hstep, by rw [hR.live]; exact hk.symm, hi'⟩

/-- The specification with the discipline of the application. -/
def legalSpec (t : Target) : LTS World Event := spec.restrict fun W e => Legal t W.kinds e.call

theorem Related.returns (callbacks : Nat → Nat → Mem × UartHandle → Mem × UartHandle) {s : Sys} (hR : Related t s W)
    (task : UInt32) (hl : Legal t s.live c) :
    ∃ s' r, (svcSys t callbacks).step s ⟨task, c, r⟩ s' := by
  obtain ⟨s', r, W', e, -, -⟩ := call_sound callbacks task hR.store (hR.live ▸ hl)
  exact ⟨⟨s', s.live.after c r⟩, r, hl, e, rfl⟩

theorem services_simulate (t : Target) (callbacks : Nat → Nat → Mem × UartHandle → Mem × UartHandle) :
    Simulates (svcSys t callbacks) (legalSpec t) (Related t) where
  init s h0 := ⟨fun _ => none, rfl, booted_related h0⟩
  step s e s' W hR := by
    rintro ⟨hl, hs, hlive⟩
    obtain ⟨W', hstep, hR'⟩ := hR.step hl hs
    have hl' : Legal t W.kinds e.call := hR.live ▸ hl
    exact ⟨W', ⟨hl', hstep⟩, by rw [hlive]; exact hR'.live, hR'.store⟩

theorem reachable_related {s : Sys} (hs : (svcSys t callbacks).Reachable s) : ∃ W, Related t s W := by
  obtain ⟨s₀, es, h0, hr⟩ := hs
  obtain ⟨-, W, -, -, hR⟩ := (services_simulate t callbacks).start h0 hr
  exact ⟨W, hR⟩

/-! ## Runs given by their calls -/

instance Legal.decidable (t : Target) (live : Live) (c : Call) : Decidable (Legal t live c) := by
  cases c <;> unfold Legal <;> infer_instance

/-- The same result; the buffers of a read are not compared. -/
def Ret.same : Ret → Ret → Bool
  | .unit, .unit => true
  | .ptr p, .ptr q => p = q
  | .status st, .status st' => st = st'
  | .byte v, .byte w => v = w
  | .message msg st, .message msg' st' => msg = msg' && st = st'
  | .count n, .count m => n = m
  | _, _ => false

theorem Ret.eq_of_same {r r' : Ret} (h : r.same r' = true) : r = r' := by
  cases r <;> cases r' <;> simp_all [Ret.same]

/-- A legal call, if it returns what the event says. -/
def Sys.event (t : Target) (callbacks : Nat → Nat → Mem × UartHandle → Mem × UartHandle) (s : Sys) (e : Event) :
    Option Sys :=
  if Legal t s.live e.call then
    (s.store.call t callbacks e.task e.call).bind fun r =>
      if r.2.same e.ret then some ⟨r.1, s.live.after e.call e.ret⟩ else none
  else none

theorem step_of_event (s : Sys) (e : Event) (s' : Sys) (h : s.event t callbacks e = some s') :
    (svcSys t callbacks).step s e s' := by
  obtain ⟨hl, h⟩ := Option.ite_none_right_eq_some.1 h
  obtain ⟨⟨s₁, r⟩, hc, h⟩ := Option.bind_eq_some_iff.1 h
  obtain ⟨hr, h⟩ := Option.ite_none_right_eq_some.1 h
  cases h
  obtain rfl := Ret.eq_of_same hr
  exact ⟨hl, hc, rfl⟩

/-- The services on a board just started. -/
def started : Sys := ⟨⟨(HeapSys.boot board).heap, fun _ => .zero, Drivers.boardUarts⟩, fun _ => none⟩

theorem started_booted : Booted board started := ⟨rfl, fun _ => rfl, rfl⟩

/-- What is computed of the state after these events holds of one that is reached. -/
theorem run_of_events (callbacks : Nat → Nat → Mem × UartHandle → Mem × UartHandle) (P : Sys → Prop)
    [DecidablePred P] (es : List Event)
    (h : (LTS.exec (Sys.event board callbacks) started es).any (P ·) = true) :
    ∃ s, (svcSys board callbacks).Run started es s ∧ (svcSys board callbacks).Reachable s ∧ P s :=
  LTS.reachable_of_exec step_of_event started_booted P es h

theorem trace_of_events {es : List Event} (h : (LTS.exec (Sys.event board callbacks) started es).isSome = true) :
    (svcSys board callbacks).Trace es := by
  obtain ⟨s, h⟩ := Option.isSome_iff_exists.1 h
  exact ⟨started, s, started_booted, LTS.run_of_exec step_of_event h⟩

/-! ## Refinement -/

/-- Every trace of the services is one of the specification. -/
theorem services_refine (t : Target) (callbacks : Nat → Nat → Mem × UartHandle → Mem × UartHandle) {es : List Event}
    (h : (svcSys t callbacks).Trace es) : spec.Trace es := by
  obtain ⟨W₀, W, h0, hr⟩ := (services_simulate t callbacks).trace h
  exact ⟨W₀, W, h0, LTS.run_of_restrict hr⟩

theorem services_refine_board : spec.Trace
    [⟨1, .malloc 16, .ptr 536870928⟩, ⟨2, .mqCreate 4 2, .ptr 536870960⟩, ⟨2, .store 536870928 3 7, .unit⟩,
      ⟨1, .mqSend 536870960 (some fun _ => 5), .status .ok⟩, ⟨2, .mqReceive 536870960 true, .message [5, 5, 5, 5] .ok⟩,
      ⟨2, .load 536870928 3, .byte 7⟩, ⟨1, .mqDestroy 536870960, .unit⟩, ⟨2, .free 536870928, .unit⟩] :=
  services_refine board (fun _ _ x => x) (trace_of_events (by decide +kernel))

/-- No legal call hangs, in whatever state the calls before it left. -/
theorem services_return (t : Target) (callbacks : Nat → Nat → Mem × UartHandle → Mem × UartHandle) {s : Sys}
    (hs : (svcSys t callbacks).Reachable s) (task : UInt32) {c : Call} (hl : Legal t s.live c) :
    ∃ s' r, (svcSys t callbacks).step s ⟨task, c, r⟩ s' := by
  obtain ⟨W, hR⟩ := reachable_related hs
  exact hR.returns callbacks task hl

theorem services_return_board : ∃ s, (svcSys board fun _ _ x => x).Reachable s ∧
    ∃ s' r, (svcSys board fun _ _ x => x).step s ⟨2, .mqReceive 536870928 true, r⟩ s' := by
  obtain ⟨s, -, hs, hl⟩ := run_of_events (fun _ _ x => x)
    (fun s => Legal board s.live (.mqReceive 536870928 true)) [⟨1, .mqCreate 4 2, .ptr 536870928⟩] (by decide +kernel)
  exact ⟨s, hs, services_return board _ hs 2 hl⟩

/-! ## Nothing is lost -/

/-- Once every object of a run is destroyed, the heap is divided as after
`memory_init`, and each allocation returns what it would have returned there. -/
theorem services_no_leak (t : Target) (callbacks : Nat → Nat → Mem × UartHandle → Mem × UartHandle) {s : Sys}
    (hs : (svcSys t callbacks).Reachable s) (hnone : ∀ h, s.live h = none) :
    heapBlocks t s.store.heap = heapBlocks t (HeapSys.boot t).heap ∧
    s.store.heap.globalStats.usedHeapSize = (HeapSys.boot t).heap.globalStats.usedHeapSize ∧
    s.store.heap.globalStats.freeHeapSize = (HeapSys.boot t).heap.globalStats.freeHeapSize ∧
    ∀ n, (rtosMalloc t s.store.heap n).map Prod.snd = (rtosMalloc t (HeapSys.boot t).heap n).map Prod.snd := by
  obtain ⟨W, hR⟩ := reachable_related hs
  have hW : W = fun _ => none := by
    funext h
    have := hnone h
    rw [hR.live] at this
    exact Option.map_eq_none_iff.1 this
  obtain ⟨gs, hH, ho⟩ := hR.store.grants
  rw [hW] at hH
  obtain rfl := hH.eq_zero
  have hboot : Outstanding t (HeapSys.boot t).heap 0 := init_outstanding (h := HeapState.static) rfl
  obtain ⟨hb, -, hu, hf⟩ := outstanding_unique ho hboot
  exact ⟨hb, hu, hf, malloc_unique ho hboot⟩

/-- What is live follows from the events. -/
theorem live_run {s s' : Sys} {es : List Event} (h : (svcSys t callbacks).Run s es s') :
    s'.live = es.foldl (fun live e => live.after e.call e.ret) s.live := by
  induction h with
  | nil s => rfl
  | cons hs _ ih =>
    obtain ⟨-, -, hlive⟩ := hs
    rw [ih, hlive]
    rfl

/-- Memory and a queue, destroyed in the order of their creation. -/
theorem services_no_leak_board : ∃ s, (svcSys board fun _ _ x => x).Reachable s ∧
    s.store.heap.globalStats.numFrees = 3 ∧
    heapBlocks board s.store.heap = heapBlocks board (HeapSys.boot board).heap := by
  obtain ⟨s, hr, hs, hf⟩ := run_of_events (fun _ _ x => x) (fun s => s.store.heap.globalStats.numFrees = 3)
    [⟨1, .malloc 16, .ptr 536870928⟩, ⟨2, .mqCreate 4 2, .ptr 536870960⟩,
      ⟨1, .mqSend 536870960 (some fun _ => 5), .status .ok⟩, ⟨1, .free 536870928, .unit⟩,
      ⟨2, .mqDestroy 536870960, .unit⟩] (by decide +kernel)
  refine ⟨s, hs, hf, (services_no_leak board _ hs fun h => ?_).1⟩
  rw [live_run hr]
  simp only [List.foldl_cons, List.foldl_nil, Live.after, Live.born, Live.dead, started, Function.update_apply,
    OfNat.ofNat_ne_zero, if_false]
  by_cases h1 : h = .ptr 536870928
  · simp [h1]
  · by_cases h2 : h = .ptr 536870960
    · simp [h2]
    · simp [h1, h2]

end Rtos.Services
