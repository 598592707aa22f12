import Rtos.Services.Refine

/-!
# What memory holds, by its history

`known es` is what the calls `es` and their results say of the bytes of memory
and of blocks: what was stored there last, through whatever a `realloc` did to
it, zero after `calloc`, and what an earlier load returned. A load of such a
byte returns it (`load_known`), whatever any task did to other objects since.
-/
namespace Rtos.Services

open Rtos.Core Rtos.Heap
open Rtos.Drivers (UartHandle)

/-- The byte `i` of the memory, or of the block, at `ptr`. -/
inductive Place
  | mem (ptr i : Nat)
  | block (pool ptr i : Nat)
  deriving DecidableEq

def Place.handle : Place → Handle
  | .mem ptr _ => .ptr ptr
  | .block pool _ _ => .pool pool

abbrev Known := Place → Option UInt8

namespace Known

variable (k : Known)

/-- The object is gone. -/
def forget (h : Handle) : Known := fun x => if x.handle = h then none else k x

/-- The block is free. -/
def forgetBlock (pool ptr : Nat) : Known
  | .mem p i => k (.mem p i)
  | .block pool' ptr' i => if pool' = pool ∧ ptr' = ptr then none else k (.block pool' ptr' i)

/-- `n` bytes of memory at `p`. -/
def fill (p n : Nat) (f : Nat → Option UInt8) : Known
  | .mem p' i => if p' = p then (if i < n then f i else none) else k (.mem p' i)
  | .block pool ptr i => k (.block pool ptr i)

def after : Call → Ret → Known
  | .calloc num size, .ptr p => if p = 0 then k else k.fill p (num * size) fun _ => some 0
  | .realloc ptr newSize, .ptr p =>
    if ptr = 0 ∨ newSize ≠ 0 ∧ p = 0 then k
    else if newSize = 0 then k.forget (.ptr ptr)
    else (k.forget (.ptr ptr)).fill p newSize fun i => k (.mem ptr i)
  | .free p, _ | .mqDestroy p, _ | .semDestroy p, _ | .mutexDestroy p, _ => k.forget (.ptr p)
  | .poolCreate pool .., _ | .poolDestroy pool, _ => k.forget (.pool pool)
  | .poolFree pool ptr, _ => k.forgetBlock pool ptr
  | .store ptr i v, _ | .load ptr i, .byte v => Function.update k (.mem ptr i) (some v)
  | .blockStore pool ptr i v, _ | .blockLoad pool ptr i, .byte v => Function.update k (.block pool ptr i) (some v)
  | _, _ => k

end Known

def known (es : List Event) : Known := es.foldl (fun k e => k.after e.call e.ret) fun _ => none

/-- The place that a call loads. -/
def Call.loads : Call → Option Place
  | .load ptr i => some (.mem ptr i)
  | .blockLoad pool ptr i => some (.block pool ptr i)
  | _ => none

/-! ## The specification keeps what is known -/

def Object.byteAt : Object → Place → Option UInt8
  | .bytes data, .mem _ i => data[i]?
  | .pool start stride _ n blocks, .block _ ptr i =>
    (Act.blockAt start stride n ptr).bind fun j => (blocks j).bind fun data => data[i]?
  | _, _ => none

def World.byteAt (W : World) (x : Place) : Option UInt8 := (W x.handle).bind fun o => o.byteAt x

def Known.Agrees (k : Known) (W : World) : Prop := ∀ x v, k x = some v → W.byteAt x = some v

variable {W W' : World} {k k' : Known} {h : Handle} {x : Place} {r : Ret} {o o' : Object} {act : Act}
  {task : UInt32} {c : Call}

theorem byteAt_mem {p i : Nat} {data : List UInt8} (hW : W (.ptr p) = some (.bytes data)) :
    W.byteAt (.mem p i) = data[i]? := by
  rw [World.byteAt, Place.handle, hW]
  rfl

/-- A byte of the block `j`. -/
theorem byteAt_block {start stride blockSize n i j pool ptr : Nat} {blocks : Nat → Option (List UInt8)}
    (hW : W (.pool pool) = some (.pool start stride blockSize n blocks))
    (hj : Act.blockAt start stride n ptr = some j) :
    W.byteAt (.block pool ptr i) = (blocks j).bind fun data => data[i]? := by
  rw [World.byteAt, Place.handle, hW]
  show (Act.blockAt start stride n ptr).bind _ = _
  rw [hj]
  rfl

namespace Known.Agrees

theorem mono (hk : k.Agrees W) (h : ∀ x v, k' x = some v → k x = some v) : k'.Agrees W :=
  fun x v hx => hk x v (h x v hx)

/-- What is known after a change of one object. -/
theorem change (hk : k.Agrees W) {o' : Option Object} (hself : ∀ x v, x.handle = h → k' x = some v →
      o'.bind (fun o => o.byteAt x) = some v)
    (hother : ∀ x, x.handle ≠ h → k' x = k x) : k'.Agrees (Function.update W h o') := by
  intro x v hx
  unfold World.byteAt
  by_cases hh : x.handle = h
  · rw [hh, Function.update_self]
    exact hself x v hh hx
  · rw [Function.update_of_ne hh]
    exact hk x v (hother x hh ▸ hx)

theorem forget (hk : k.Agrees W) (h : Handle) : (k.forget h).Agrees W :=
  hk.mono fun _ _ hx => (Option.ite_none_left_eq_some.1 hx).2

/-- Another object under the handle, or none. -/
theorem overwrite (hk : k.Agrees W) (h : Handle) (o' : Option Object) :
    (k.forget h).Agrees (Function.update W h o') := by
  refine hk.change (fun x v hh hx => ?_) fun x hh => if_neg hh
  rw [Known.forget, if_pos hh] at hx
  cases hx

/-- Nothing was known of an object just created. -/
theorem create (hk : k.Agrees W) (hW : W h = none) (o : Object) : k.Agrees (Function.update W h (some o)) := by
  refine hk.change (fun x v hh hx => ?_) fun _ _ => rfl
  have h1 := hk x v hx
  rw [World.byteAt, hh, hW] at h1
  cases h1

/-- An object changes, and none of the bytes known. -/
theorem replace (hk : k.Agrees W) (hW : W h = some o) (ho : ∀ x v, x.handle = h → k x = some v → o.byteAt x = some v →
    o'.byteAt x = some v) : k.Agrees (Function.update W h (some o')) := by
  refine hk.change (fun x v hh hx => ho x v hh hx ?_) fun _ _ => rfl
  have h1 := hk x v hx
  rw [World.byteAt, hh, hW] at h1
  exact h1

end Known.Agrees

/-- Objects that are not memory have no bytes to load. -/
theorem Acts.agrees (ha : Acts W r W' h act) (hk : k.Agrees W) (hb : ∀ data, act (.bytes data) = none)
    (hp : ∀ start stride blockSize n blocks, act (.pool start stride blockSize n blocks) = none) : k.Agrees W' := by
  obtain ⟨o, o', hW, e, rfl⟩ := ha
  refine hk.replace hW fun x v _ _ hx => ?_
  cases o with
  | bytes data => rw [hb] at e; cases e
  | pool start stride blockSize n blocks => rw [hp] at e; cases e
  | _ => cases x <;> cases hx

theorem ActsPtr.agrees {p : Nat} {null : Ret} (ha : ActsPtr W r W' p null act) (hk : k.Agrees W)
    (hb : ∀ data, act (.bytes data) = none)
    (hp : ∀ start stride blockSize n blocks, act (.pool start stride blockSize n blocks) = none) : k.Agrees W' := by
  rcases ha with ⟨-, -, rfl⟩ | ⟨-, ha⟩
  · exact hk
  · exact ha.agrees hk hb hp

theorem ActsUart.agrees {u : Fin Drivers.MAX_UART_INSTANCES} {idle : Ret} (ha : ActsUart W r W' u idle act)
    (hk : k.Agrees W) (hb : ∀ data, act (.bytes data) = none)
    (hp : ∀ start stride blockSize n blocks, act (.pool start stride blockSize n blocks) = none) : k.Agrees W' := by
  rcases ha with ⟨-, -, rfl⟩ | ha
  · exact hk
  · exact ha.agrees hk hb hp

theorem Creates.agrees {P : Object → Prop} (hc : Creates W r W' P) (hk : k.Agrees W) : k.Agrees W' := by
  obtain ⟨p, -, ⟨-, rfl⟩ | ⟨-, hW, o, -, rfl⟩⟩ := hc
  · exact hk
  · exact hk.create hW o

theorem Destroys.agrees {p : Nat} (hd : Destroys W r W' p) (hk : k.Agrees W) : (k.forget (.ptr p)).Agrees W' := by
  obtain ⟨-, ⟨-, rfl⟩ | ⟨-, rfl⟩⟩ := hd
  · exact hk.forget _
  · exact hk.overwrite _ _

/-- A load says what is there. -/
theorem Known.Agrees.learn (hk : k.Agrees W) {v : UInt8} (hx : W.byteAt x = some v) :
    Known.Agrees (Function.update k x (some v)) W := by
  intro y w hy
  by_cases hyx : y = x
  · rw [hyx, Function.update_self] at hy
    cases hy
    rw [hyx, hx]
  · rw [Function.update_of_ne hyx] at hy
    exact hk y w hy

/-- Memory of which the bytes `f` are known. -/
theorem Known.Agrees.fill {p n : Nat} {f : Nat → Option UInt8} {data : List UInt8} (hk : k.Agrees W)
    (hf : ∀ i v, i < n → f i = some v → data[i]? = some v) :
    (k.fill p n f).Agrees (Function.update W (.ptr p) (some (.bytes data))) := by
  refine hk.change (fun x v hh hx => ?_) fun x hh => ?_
  · cases x with
    | mem ptr i =>
      cases hh
      simp only [Known.fill, if_true] at hx
      obtain ⟨hi, hx⟩ := Option.ite_none_right_eq_some.1 hx
      exact hf i v hi hx
    | block pool ptr i => cases hh
  · cases x with
    | mem ptr i => exact if_neg fun e => hh (congrArg Handle.ptr e)
    | block pool ptr i => rfl

theorem Resizes.agrees {p n : Nat} (hr : Resizes W r W' p n) (hp : p ≠ 0) (hn : n ≠ 0) (hk : k.Agrees W) :
    (k.after (.realloc p n) r).Agrees W' := by
  obtain ⟨q, data, rfl, hW, ⟨hq, rfl⟩ | ⟨hq, -, data', hlen, htake, rfl⟩⟩ := hr
  · simpa only [Known.after, hp, hn, hq, ne_eq, not_false_eq_true, and_self, or_true, if_true] using hk
  · simp only [Known.after, hp, hn, hq, ne_eq, not_false_eq_true, and_false, or_self, if_false]
    refine (hk.overwrite _ _).fill fun i v hi hx => ?_
    -- a byte known of the old memory is in its part that was copied
    have hd := hk _ v hx
    rw [byteAt_mem hW] at hd
    have hlt : i < data.length := (List.getElem?_eq_some_iff.1 hd).1
    have h1 : (data'.take data.length)[i]? = (data.take n)[i]? := by rw [htake]
    rwa [List.getElem?_take_of_lt hlt, List.getElem?_take_of_lt hi, hd] at h1

theorem store_agrees {p i : Nat} {v : UInt8} (ha : Acts W r W' (.ptr p) (.store i v)) (hk : k.Agrees W) :
    Known.Agrees (Function.update k (.mem p i) (some v)) W' := by
  obtain ⟨o, o', hW, e, rfl⟩ := ha
  cases o with
  | bytes data =>
    obtain ⟨hi, e⟩ := Option.ite_none_right_eq_some.1 e
    cases e
    refine hk.change (fun x w hh hx => ?_) fun x hh => Function.update_of_ne (by rintro rfl; exact hh rfl) _ _
    cases x with
    | mem ptr j =>
      cases hh
      show (data.set i v)[j]? = some w
      by_cases hj : j = i
      · rw [hj, Function.update_self] at hx
        rw [hj, List.getElem?_set_self hi, hx]
      · rw [Function.update_of_ne (by rintro ⟨⟩; exact hj rfl)] at hx
        rw [List.getElem?_set_ne fun e => hj e.symm, ← byteAt_mem hW]
        exact hk _ w hx
    | block pool ptr j => cases hh
  | _ => cases e

theorem load_agrees {p i : Nat} (ha : Acts W r W' (.ptr p) (.load i)) (hk : k.Agrees W) :
    (k.after (.load p i) r).Agrees W' := by
  obtain ⟨o, o', hW, e, rfl⟩ := ha
  cases o with
  | bytes data =>
    obtain ⟨v, hv, e⟩ := Option.map_eq_some_iff.1 e
    cases e
    rw [← hW, Function.update_eq_self]
    exact hk.learn (by rw [byteAt_mem hW, hv])
  | _ => cases e

/-! ## Blocks of a pool -/

section

variable {start stride blockSize n i j pool ptr : Nat} {blocks : Nat → Option (List UInt8)} {v : UInt8}

theorem blockAt_ptr (hj : Act.blockAt start stride n ptr = some j) : ptr = start + j * stride := by
  have h := List.find?_some hj
  simpa using h

/-- One block changes. -/
theorem Known.Agrees.block {d : Option (List UInt8)} (hk : k.Agrees W)
    (hW : W (.pool pool) = some (.pool start stride blockSize n blocks))
    (hself : ∀ ptr i v, Act.blockAt start stride n ptr = some j → k' (.block pool ptr i) = some v →
      d.bind (fun data => data[i]?) = some v)
    (hother : ∀ x v, (∀ ptr i, x = .block pool ptr i → Act.blockAt start stride n ptr ≠ some j) → k' x = some v →
      k x = some v) :
    k'.Agrees (Function.update W (.pool pool)
      (some (.pool start stride blockSize n (Function.update blocks j d)))) := by
  intro x v hx
  unfold World.byteAt
  by_cases hh : x.handle = .pool pool
  · rw [hh, Function.update_self]
    cases x with
    | mem p i => cases hh
    | block pool' ptr i =>
      cases hh
      show (Act.blockAt start stride n ptr).bind _ = some v
      by_cases hj : Act.blockAt start stride n ptr = some j
      · rw [hj]
        show (Function.update blocks j d j).bind _ = some v
        rw [Function.update_self]
        exact hself ptr i v hj hx
      · have h1 := hk _ v (hother _ v (fun ptr' i' e => by cases e; exact hj) hx)
        rw [World.byteAt, Place.handle, hW] at h1
        have h1 : (Act.blockAt start stride n ptr).bind (fun j => (blocks j).bind fun data => data[i]?) = some v := h1
        cases hat : Act.blockAt start stride n ptr with
        | none => rw [hat] at h1; cases h1
        | some j' =>
          rw [hat] at h1 hj
          show (Function.update blocks j d j').bind _ = some v
          rwa [Function.update_of_ne fun e => hj (by rw [e])]
  · rw [Function.update_of_ne hh]
    exact hk x v (hother x v (fun ptr i e => absurd (by rw [e]; rfl) hh) hx)

/-- Nothing is known of a block that is free. -/
theorem Known.Agrees.free_block (hk : k.Agrees W)
    (hW : W (.pool pool) = some (.pool start stride blockSize n blocks)) (hb : blocks j = none)
    (hj : Act.blockAt start stride n ptr = some j) (i : Nat) : k (.block pool ptr i) = none := by
  cases hx : k (.block pool ptr i) with
  | none => rfl
  | some v =>
    have h1 := hk _ v hx
    rw [byteAt_block hW hj, hb] at h1
    cases h1

theorem Grabs.agrees (hg : Grabs W r W' pool) (hk : k.Agrees W) : k.Agrees W' := by
  obtain ⟨start, stride, blockSize, n, blocks, hW, hg⟩ := hg
  split at hg
  · obtain ⟨-, rfl⟩ := hg
    exact hk
  · rename_i j hj
    obtain ⟨-, data, -, rfl⟩ := hg
    have hb : blocks j = none := by simpa using List.find?_some hj
    refine hk.block hW (fun ptr i v hat hx => ?_) fun _ _ _ hx => hx
    rw [hk.free_block hW hb hat i] at hx
    cases hx

theorem blockFree_agrees (ha : Acts W r W' (.pool pool) (.blockFree ptr)) (hk : k.Agrees W) :
    (k.forgetBlock pool ptr).Agrees W' := by
  have hmono : ∀ x v, k.forgetBlock pool ptr x = some v → k x = some v := by
    intro x v hx
    cases x with
    | mem p i => exact hx
    | block pool' ptr' i => exact (Option.ite_none_left_eq_some.1 hx).2
  obtain ⟨o, o', hW, e, rfl⟩ := ha
  cases o with
  | pool start stride blockSize n blocks =>
    simp only [Act.blockFree] at e
    split at e
    · cases e
      rw [← hW, Function.update_eq_self]
      exact hk.mono hmono
    · rename_i j hj
      split at e
      · cases e
        rw [← hW, Function.update_eq_self]
        exact hk.mono hmono
      · cases e
        refine hk.block hW (fun ptr' i v hat hx => ?_) fun x v _ hx => hmono x v hx
        rw [blockAt_ptr hat, ← blockAt_ptr hj] at hx
        rw [Known.forgetBlock, if_pos ⟨rfl, rfl⟩] at hx
        cases hx
  | _ => cases e

theorem blockStore_agrees (ha : Acts W r W' (.pool pool) (.blockStore ptr i v)) (hk : k.Agrees W) :
    Known.Agrees (Function.update k (.block pool ptr i) (some v)) W' := by
  obtain ⟨o, o', hW, e, rfl⟩ := ha
  cases o with
  | pool start stride blockSize n blocks =>
    obtain ⟨j, hj, e⟩ := Option.bind_eq_some_iff.1 e
    obtain ⟨data, hd, e⟩ := Option.bind_eq_some_iff.1 e
    obtain ⟨hi, e⟩ := Option.ite_none_right_eq_some.1 e
    cases e
    refine hk.block hW (fun ptr' i' w hat hx => ?_) fun x w hx' hx => ?_
    · rw [blockAt_ptr hat, ← blockAt_ptr hj] at hx
      show (data.set i v)[i']? = some w
      by_cases hii : i' = i
      · rw [hii, Function.update_self] at hx
        rw [hii, List.getElem?_set_self hi, hx]
      · rw [Function.update_of_ne (by rintro ⟨⟩; exact hii rfl)] at hx
        have h1 := hk _ w hx
        rw [byteAt_block hW hj, hd] at h1
        rw [List.getElem?_set_ne fun e => hii e.symm]
        exact h1
    · rwa [Function.update_of_ne fun e => hx' _ _ e hj] at hx
  | _ => cases e

theorem blockLoad_agrees (ha : Acts W r W' (.pool pool) (.blockLoad ptr i)) (hk : k.Agrees W) :
    (k.after (.blockLoad pool ptr i) r).Agrees W' := by
  obtain ⟨o, o', hW, e, rfl⟩ := ha
  cases o with
  | pool start stride blockSize n blocks =>
    obtain ⟨j, hj, e⟩ := Option.bind_eq_some_iff.1 e
    obtain ⟨data, hd, e⟩ := Option.bind_eq_some_iff.1 e
    obtain ⟨v, hv, e⟩ := Option.map_eq_some_iff.1 e
    cases e
    rw [← hW, Function.update_eq_self]
    exact hk.learn (by rw [byteAt_block hW hj, hd, Option.bind_some, hv])
  | _ => cases e

end

/-! ## Along a run -/

theorem after_agrees (hs : step task W r W' c) (hk : k.Agrees W) : (k.after c r).Agrees W' := by
  cases c with
  | malloc size => exact hs.agrees hk
  | calloc num size =>
    obtain ⟨p, rfl, ⟨hp, rfl⟩ | ⟨hp, hW, o, ⟨-, rfl⟩, rfl⟩⟩ := hs
    · simpa only [Known.after, hp, if_true] using hk
    · simp only [Known.after, hp, if_false]
      refine hk.fill fun i v hi hv => ?_
      rw [List.getElem?_replicate_of_lt hi, hv]
  | realloc ptr newSize =>
    simp only [step] at hs
    split at hs
    · rename_i h0
      have h1 := hs.agrees hk
      obtain ⟨p, rfl, -⟩ := hs
      simpa only [Known.after, h0, true_or, if_true] using h1
    · rename_i h0
      split at hs
      · rename_i hn
        obtain ⟨rfl, rfl⟩ := hs
        simp only [Known.after, h0, hn, ne_eq, not_true_eq_false, false_and, or_self, if_false, if_true]
        exact hk.overwrite _ _
      · rename_i hn
        exact hs.agrees h0 hn hk
  | free ptr => exact hs.agrees hk
  | store ptr i v => exact store_agrees hs hk
  | load ptr i => exact load_agrees hs hk
  | mqCreate msgSize maxMsgs => exact hs.agrees hk
  | mqSend mq msg => exact hs.agrees hk (fun _ => rfl) fun _ _ _ _ _ => rfl
  | mqReceive mq msg => exact hs.agrees hk (fun _ => rfl) fun _ _ _ _ _ => rfl
  | mqDestroy mq => exact hs.agrees hk
  | semCreate initialCount maxCount => exact hs.agrees hk
  | semTake sem timeout => exact hs.agrees hk (fun _ => rfl) fun _ _ _ _ _ => rfl
  | semGive sem => exact hs.agrees hk (fun _ => rfl) fun _ _ _ _ _ => rfl
  | semDestroy sem => exact hs.agrees hk
  | mutexCreate => exact hs.agrees hk
  | mutexLock mutex timeout => exact hs.agrees hk (fun _ => rfl) fun _ _ _ _ _ => rfl
  | mutexUnlock mutex => exact hs.agrees hk (fun _ => rfl) fun _ _ _ _ _ => rfl
  | mutexDestroy mutex => exact hs.agrees hk
  | poolCreate pool blockSize numBlocks =>
    obtain ⟨st, -, rfl, rfl⟩ | ⟨rfl, start, stride, -, -, -, -, rfl⟩ := hs
    · exact hk.forget _
    · exact hk.overwrite _ _
  | poolAlloc pool => exact hs.agrees hk
  | poolFree pool ptr => exact blockFree_agrees hs hk
  | poolDestroy pool => obtain ⟨rfl, rfl⟩ := hs; exact hk.overwrite _ _
  | blockStore pool ptr i v => exact blockStore_agrees hs hk
  | blockLoad pool ptr i => exact blockLoad_agrees hs hk
  | uartInit id config =>
    obtain ⟨rfl, rfl, -⟩ | ⟨u, -, rfl, c, -, ⟨-, rfl⟩ | ⟨hW, rfl⟩⟩ := hs
    · exact hk
    · exact hk
    · exact hk.create hW _
  | uartWrite u data len => exact hs.agrees hk (fun _ => rfl) fun _ _ _ _ _ => rfl
  | uartWriteDma u data len => exact hs.agrees hk (fun _ => rfl) fun _ _ _ _ _ => rfl
  | uartRead u buffer len bytesRead => exact hs.agrees hk (fun _ => rfl) fun _ _ _ _ _ => rfl
  | uartAvailable u => exact hs.agrees hk (fun _ => rfl) fun _ _ _ _ _ => rfl
  | uartFlush u => exact hs.agrees hk (fun _ => rfl) fun _ _ _ _ _ => rfl
  | uartSetCallback u callback userData => exact hs.agrees hk (fun _ => rfl) fun _ _ _ _ _ => rfl
  | uartDeinit u =>
    obtain ⟨-, rfl, rfl⟩ | ⟨-, rfl, rfl⟩ := hs
    · exact hk
    · exact hk.change (fun x v hh => by cases x <;> cases hh) fun _ _ => rfl

/-- What is known of a run is what memory holds at its end. -/
theorem known_agrees {es : List Event} (h : spec.Run (fun _ => none) es W) : (known es).Agrees W := by
  refine LTS.run_history (I := fun es W => (known es).Agrees W) (fun es W e W' hk hs => ?_) h fun x v hx => by cases hx
  rw [known, List.foldl_append]
  exact after_agrees hs hk

/-- A load returns the byte that is there. -/
theorem loads_byteAt (hs : step task W r W' c) (hx : c.loads = some x) : ∃ v, r = .byte v ∧ W.byteAt x = some v := by
  cases c with
  | load ptr i =>
    cases hx
    obtain ⟨o, o', hW, e, -⟩ := hs
    cases o with
    | bytes data =>
      obtain ⟨v, hv, e⟩ := Option.map_eq_some_iff.1 e
      cases e
      exact ⟨v, rfl, by rw [byteAt_mem hW, hv]⟩
    | _ => cases e
  | blockLoad pool ptr i =>
    cases hx
    obtain ⟨o, o', hW, e, -⟩ := hs
    cases o with
    | pool start stride blockSize n blocks =>
      obtain ⟨j, hj, e⟩ := Option.bind_eq_some_iff.1 e
      obtain ⟨data, hd, e⟩ := Option.bind_eq_some_iff.1 e
      obtain ⟨v, hv, e⟩ := Option.map_eq_some_iff.1 e
      cases e
      exact ⟨v, rfl, by rw [byteAt_block hW hj, hd, Option.bind_some, hv]⟩
    | _ => cases e
  | _ => cases hx

/-- Memory holds what was put there: the last store to a byte, carried along by
`realloc`, or the zero of `calloc`, is what any later load of it returns. -/
theorem load_known (t : Target) (callbacks : Nat → Nat → Mem × UartHandle → Mem × UartHandle) {es : List Event}
    {e : Event} (h : (svcSys t callbacks).Trace (es ++ [e])) (hx : e.call.loads = some x) {v : UInt8}
    (hk : known es x = some v) : e.ret = .byte v := by
  obtain ⟨W₀, W, rfl, hr⟩ := (services_simulate t callbacks).trace h
  obtain ⟨W₁, hr₁, hr₂⟩ := LTS.run_split (LTS.run_of_restrict hr)
  cases hr₂ with
  | cons hs _ =>
    obtain ⟨w, hret, hw⟩ := loads_byteAt hs hx
    rw [known_agrees hr₁ x v hk] at hw
    cases hw
    exact hret

/-- The memory moved between the store and the load. -/
theorem load_known_board : (⟨2, .load 536870976 3, .byte 7⟩ : Event).ret = .byte 7 := by
  have h : (svcSys board fun _ _ x => x).Trace
      ([⟨1, .malloc 8, .ptr 536870928⟩, ⟨2, .semCreate 1 1, .ptr 536870952⟩, ⟨1, .store 536870928 3 7, .unit⟩,
        ⟨2, .realloc 536870928 40, .ptr 536870976⟩] ++ [⟨2, .load 536870976 3, .byte 7⟩]) :=
    trace_of_events (by decide +kernel)
  exact load_known board _ h (x := .mem 536870976 3) rfl (by decide +kernel)

end Rtos.Services
