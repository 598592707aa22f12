import Rtos.Services.Objects

/-!
# What an application keeps to

`Live` is what an application knows of its handles: which are live, of what
kind, how much memory it asked for, which blocks of a pool it holds. `Legal` is
its discipline: what it frees or hands to a function is live and of the right
kind, it stays inside the memory it asked for, and the sizes it asks for do not
wrap. The functions of the UARTs take any handle at any time.

`after_kinds`: what the application knows is what the objects are.
-/
namespace Rtos.Services

open Rtos.Heap (Target alignSize)
open Rtos.Drivers (UartConfig MAX_UART_INSTANCES)

/-- `held` are the blocks that the application has of a pool. -/
inductive Kind
  | bytes (n : Nat)
  | queue
  | sem
  | mutex
  | pool (blockSize : Nat) (held : Nat → Bool)
  | uart

abbrev Live := Handle → Option Kind

def Object.kind : Object → Kind
  | .bytes data => .bytes data.length
  | .queue .. => .queue
  | .sem .. => .sem
  | .mutex _ => .mutex
  | .pool start stride blockSize numBlocks blocks =>
    .pool blockSize fun ptr => (Act.blockAt start stride numBlocks ptr).any fun j => (blocks j).isSome
  | .uart .. => .uart

def World.kinds (W : World) : Live := fun h => (W h).map Object.kind

namespace Live

variable (live : Live)

/-- At least `i + 1` bytes of memory. -/
def hasByte (p i : Nat) : Bool := match live (.ptr p) with
  | some (.bytes n) => i < n
  | _ => false

def isBytes (p : Nat) : Bool := match live (.ptr p) with
  | some (.bytes _) => true
  | _ => false

def isQueue (p : Nat) : Bool := match live (.ptr p) with
  | some .queue => true
  | _ => false

def isSem (p : Nat) : Bool := match live (.ptr p) with
  | some .sem => true
  | _ => false

def isMutex (p : Nat) : Bool := match live (.ptr p) with
  | some .mutex => true
  | _ => false

def isPool (i : Nat) : Bool := match live (.pool i) with
  | some (.pool ..) => true
  | _ => false

/-- The byte `i` of a block that is held. -/
def hasBlockByte (pool ptr i : Nat) : Bool := match live (.pool pool) with
  | some (.pool blockSize held) => held ptr && i < blockSize
  | _ => false

/-- A creation returned `p`. -/
def born (p : Nat) (k : Kind) : Live := if p = 0 then live else Function.update live (.ptr p) (some k)

def dead (p : Nat) : Live := if p = 0 then live else Function.update live (.ptr p) none

/-- A block of a pool is held or free from now on. -/
def hold (pool ptr : Nat) (b : Bool) : Live := match live (.pool pool) with
  | some (.pool blockSize held) =>
    Function.update live (.pool pool) (some (.pool blockSize (Function.update held ptr b)))
  | _ => live

/-- What the application knows after a call that returned `r`. -/
def after : Call → Ret → Live
  | .malloc size, .ptr p => live.born p (.bytes size)
  | .calloc num size, .ptr p => live.born p (.bytes (num * size))
  | .realloc ptr newSize, .ptr p =>
    if ptr = 0 then live.born p (.bytes newSize)
    else if newSize = 0 then live.dead ptr
    else if p = 0 then live
    else (live.dead ptr).born p (.bytes newSize)
  | .free ptr, _ => live.dead ptr
  | .mqCreate .., .ptr p => live.born p .queue
  | .mqDestroy mq, _ => live.dead mq
  | .semCreate .., .ptr p => live.born p .sem
  | .semDestroy sem, _ => live.dead sem
  | .mutexCreate, .ptr p => live.born p .mutex
  | .mutexDestroy mutex, _ => live.dead mutex
  | .poolCreate pool blockSize _, .status .ok =>
    Function.update live (.pool pool) (some (.pool blockSize fun _ => false))
  | .poolAlloc pool, .ptr p => if p = 0 then live else live.hold pool p true
  | .poolFree pool ptr, .status .ok => live.hold pool ptr false
  | .poolDestroy pool, _ => Function.update live (.pool pool) none
  | .uartInit .., .uart (some u) => Function.update live (.uart u) (some .uart)
  | .uartDeinit u, _ => Function.update live (.uart u) none
  | _, _ => live

end Live

/-- The discipline of the application. -/
def Legal (t : Target) (live : Live) : Call → Prop
  | .malloc size => size + 3 < t.sizeMod
  | .calloc num size => num * size + 3 < t.sizeMod
  | .realloc ptr newSize => (ptr = 0 ∨ live.isBytes ptr) ∧ newSize + 3 < t.sizeMod
  | .free ptr => ptr = 0 ∨ live.isBytes ptr
  | .store ptr i _ | .load ptr i => live.hasByte ptr i
  | .mqCreate msgSize maxMsgs =>
    msgSize < t.sizeMod ∧ maxMsgs < t.sizeMod ∧ msgSize * maxMsgs + 3 < t.sizeMod
  | .mqSend mq _ | .mqReceive mq _ | .mqDestroy mq => mq = 0 ∨ live.isQueue mq
  | .semTake sem _ | .semGive sem | .semDestroy sem => sem = 0 ∨ live.isSem sem
  | .mutexLock mutex _ | .mutexUnlock mutex | .mutexDestroy mutex => mutex = 0 ∨ live.isMutex mutex
  | .poolCreate pool blockSize numBlocks =>
    (live (.pool pool)).isNone ∧ blockSize + 3 < t.sizeMod ∧ numBlocks < t.sizeMod ∧
      alignSize t blockSize * numBlocks < t.sizeMod
  | .poolAlloc pool | .poolDestroy pool => live.isPool pool
  | .poolFree pool ptr => live.isPool pool ∧ ptr < t.sizeMod
  | .blockStore pool ptr i _ | .blockLoad pool ptr i => live.hasBlockByte pool ptr i
  | .semCreate .. | .mutexCreate | .uartInit .. | .uartWrite .. | .uartWriteDma .. | .uartRead ..
  | .uartAvailable _ | .uartFlush _ | .uartSetCallback .. | .uartDeinit _ => True


/-! ## The application knows the kinds of its objects -/

/-- The object stays of its kind. -/
def Act.Keeps (act : Act) : Prop := ∀ o o' r, act o = some (o', r) → o'.kind = o.kind

namespace Act

theorem store_keeps (i : Nat) (v : UInt8) : (store i v).Keeps := by
  intro o o' r h
  cases o with
  | bytes data =>
    obtain ⟨-, h⟩ := Option.ite_none_right_eq_some.1 h
    cases h
    simp [Object.kind]
  | _ => cases h

theorem load_keeps (i : Nat) : (load i).Keeps := by
  intro o o' r h
  cases o with
  | bytes data =>
    obtain ⟨v, -, h⟩ := Option.map_eq_some_iff.1 h
    cases h
    rfl
  | _ => cases h

theorem send_keeps (msg : Option (Nat → UInt8)) : (send msg).Keeps := by
  intro o o' r h
  cases o with
  | queue msgSize maxMsgs msgs =>
    cases msg with
    | none => cases h; rfl
    | some msg =>
      simp only [send] at h
      split at h <;> cases h <;> rfl
  | _ => cases h

theorem receive_keeps (msg : Bool) : (receive msg).Keeps := by
  intro o o' r h
  cases o with
  | queue msgSize maxMsgs msgs => cases msg <;> cases msgs <;> cases h <;> rfl
  | _ => cases h

theorem take_keeps : take.Keeps := by
  intro o o' r h
  cases o with
  | sem count maxCount =>
    simp only [take] at h
    split at h <;> cases h <;> rfl
  | _ => cases h

theorem give_keeps : give.Keeps := by
  intro o o' r h
  cases o with
  | sem count maxCount =>
    simp only [give] at h
    split at h <;> cases h <;> rfl
  | _ => cases h

theorem lock_keeps (task : UInt32) : (lock task).Keeps := by
  intro o o' r h
  cases o with
  | mutex owner => cases owner <;> cases h <;> rfl
  | _ => cases h

theorem unlock_keeps (task : UInt32) : (unlock task).Keeps := by
  intro o o' r h
  cases o with
  | mutex owner =>
    cases owner with
    | none => cases h; rfl
    | some owner =>
      simp only [unlock] at h
      split at h <;> cases h <;> rfl
  | _ => cases h

theorem blockStore_keeps (ptr i : Nat) (v : UInt8) : (blockStore ptr i v).Keeps := by
  intro o o' r h
  cases o with
  | pool start stride blockSize numBlocks blocks =>
    obtain ⟨j, -, h⟩ := Option.bind_eq_some_iff.1 h
    obtain ⟨data, hd, h⟩ := Option.bind_eq_some_iff.1 h
    obtain ⟨-, h⟩ := Option.ite_none_right_eq_some.1 h
    cases h
    -- the same blocks are held
    have hsome : ∀ k, (Function.update blocks j (some (data.set i v)) k).isSome = (blocks k).isSome := by
      intro k
      by_cases hk : k = j
      · rw [hk, Function.update_self, hd]
        rfl
      · rw [Function.update_of_ne hk]
    simp only [Object.kind, hsome]
  | _ => cases h

theorem blockLoad_keeps (ptr i : Nat) : (blockLoad ptr i).Keeps := by
  intro o o' r h
  cases o with
  | pool start stride blockSize numBlocks blocks =>
    obtain ⟨j, -, h⟩ := Option.bind_eq_some_iff.1 h
    obtain ⟨data, -, h⟩ := Option.bind_eq_some_iff.1 h
    obtain ⟨v, -, h⟩ := Option.map_eq_some_iff.1 h
    cases h
    rfl
  | _ => cases h

/-- A UART stays a UART. -/
theorem keeps_of_uart {act : Act} (h : ∀ o o' r, act o = some (o', r) → ∃ c sent c' sent', o = .uart c sent ∧
    o' = .uart c' sent') : act.Keeps := by
  intro o o' r e
  obtain ⟨c, sent, c', sent', rfl, rfl⟩ := h o o' r e
  rfl

theorem write_keeps (data : Option (Nat → UInt8)) (len : Nat) : (write data len).Keeps := by
  refine keeps_of_uart fun o o' r h => ?_
  cases o with
  | uart config sent =>
    cases data with
    | none => cases h; exact ⟨_, _, _, _, rfl, rfl⟩
    | some data =>
      simp only [write] at h
      split at h
      · cases h; exact ⟨_, _, _, _, rfl, rfl⟩
      · split at h <;> cases h <;> exact ⟨_, _, _, _, rfl, rfl⟩
  | _ => cases h

theorem writeDma_keeps (data : Option (Nat → UInt8)) (len : Nat) : (writeDma data len).Keeps := by
  refine keeps_of_uart fun o o' r h => ?_
  cases o with
  | uart config sent =>
    simp only [writeDma] at h
    split at h
    · cases h; exact ⟨_, _, _, _, rfl, rfl⟩
    · split at h <;> cases h <;> exact ⟨_, _, _, _, rfl, rfl⟩
  | _ => cases h

theorem read_keeps (buffer : Option (Nat → UInt8)) (bytesRead : Option Nat) : (read buffer bytesRead).Keeps := by
  refine keeps_of_uart fun o o' r h => ?_
  cases o with
  | uart config sent =>
    simp only [read] at h
    split at h <;> cases h <;> exact ⟨_, _, _, _, rfl, rfl⟩
  | _ => cases h

theorem available_keeps : available.Keeps := by
  refine keeps_of_uart fun o o' r h => ?_
  cases o with
  | uart config sent => cases h; exact ⟨_, _, _, _, rfl, rfl⟩
  | _ => cases h

theorem flush_keeps : flush.Keeps := by
  refine keeps_of_uart fun o o' r h => ?_
  cases o with
  | uart config sent => cases h; exact ⟨_, _, _, _, rfl, rfl⟩
  | _ => cases h

theorem setCallback_keeps : setCallback.Keeps := by
  refine keeps_of_uart fun o o' r h => ?_
  cases o with
  | uart config sent => cases h; exact ⟨_, _, _, _, rfl, rfl⟩
  | _ => cases h

end Act

section

variable {W W' : World} {r : Ret} {h : Handle} {o : Object} {act : Act} {k : Kind}

theorem kinds_update (W : World) (h : Handle) (o : Object) :
    World.kinds (Function.update W h (some o)) = Function.update W.kinds h (some o.kind) := by
  funext j
  by_cases hj : j = h
  · simp [World.kinds, hj]
  · simp [World.kinds, hj]

theorem kinds_remove (W : World) (h : Handle) :
    World.kinds (Function.update W h none) = Function.update W.kinds h none := by
  funext j
  by_cases hj : j = h
  · simp [World.kinds, hj]
  · simp [World.kinds, hj]

theorem kinds_eq (hW : W h = some o) : W.kinds h = some o.kind := by
  rw [World.kinds, hW]
  rfl

/-- An object of the same kind in the place of another one. -/
theorem kinds_replace {o' : Object} (hW : W h = some o) (hk : o'.kind = o.kind) :
    World.kinds (Function.update W h (some o')) = W.kinds := by
  rw [kinds_update, hk, ← kinds_eq hW, Function.update_eq_self]

theorem Acts.kinds (ha : Acts W r W' h act) (hk : act.Keeps) : W'.kinds = W.kinds := by
  obtain ⟨o, o', hW, e, rfl⟩ := ha
  exact kinds_replace hW (hk _ _ _ e)

theorem ActsPtr.kinds {p : Nat} {null : Ret} (ha : ActsPtr W r W' p null act) (hk : act.Keeps) :
    W'.kinds = W.kinds := by
  rcases ha with ⟨-, -, rfl⟩ | ⟨-, ha⟩
  · rfl
  · exact ha.kinds hk

theorem ActsUart.kinds {u : Fin MAX_UART_INSTANCES} {idle : Ret} (ha : ActsUart W r W' u idle act)
    (hk : act.Keeps) : W'.kinds = W.kinds := by
  rcases ha with ⟨-, -, rfl⟩ | ha
  · rfl
  · exact ha.kinds hk

theorem Creates.kinds {P : Object → Prop} (hc : Creates W r W' P) (hP : ∀ o, P o → o.kind = k) :
    ∃ p, r = .ptr p ∧ W'.kinds = W.kinds.born p k := by
  obtain ⟨p, rfl, ⟨h0, rfl⟩ | ⟨h0, -, o, ho, rfl⟩⟩ := hc
  · exact ⟨p, rfl, (if_pos h0).symm⟩
  · refine ⟨p, rfl, ?_⟩
    rw [kinds_update, hP o ho, Live.born, if_neg h0]

theorem Destroys.kinds {p : Nat} (hd : Destroys W r W' p) : W'.kinds = W.kinds.dead p := by
  obtain ⟨-, ⟨h0, rfl⟩ | ⟨h0, rfl⟩⟩ := hd
  · exact (if_pos h0).symm
  · rw [kinds_remove, Live.dead, if_neg h0]

theorem fresh_kind {n : Nat} (ho : Fresh n o) : o.kind = .bytes n := by
  obtain ⟨-, data, rfl, rfl⟩ := ho
  rfl

theorem Resizes.kinds {p n : Nat} (hr : Resizes W r W' p n) (hp : p ≠ 0) (hn : n ≠ 0) :
    W'.kinds = W.kinds.after (.realloc p n) r := by
  obtain ⟨q, data, rfl, hW, ⟨hq, rfl⟩ | ⟨hq, -, data', hlen, -, rfl⟩⟩ := hr
  · simp only [Live.after, hp, hn, hq, if_true, if_false]
  · simp only [Live.after, hp, hn, hq, if_false]
    rw [kinds_update, kinds_remove, Live.born, if_neg hq, Live.dead, if_neg hp, Object.kind, hlen]

end

/-! ## Blocks of a pool -/

section

variable {start stride blockSize n j ptr : Nat}

theorem Act.blockAt_eq (hs : 0 < stride) :
    Act.blockAt start stride n ptr = some j ↔ j < n ∧ ptr = start + j * stride := by
  unfold Act.blockAt
  constructor
  · intro h
    have h1 := List.mem_of_find?_eq_some h
    have h2 := List.find?_some h
    exact ⟨List.mem_range.1 h1, by simpa using h2⟩
  · rintro ⟨hj, rfl⟩
    refine List.find?_range_eq_some.2 ⟨by simp, List.mem_range.2 hj, fun i hi => ?_⟩
    have := Nat.mul_lt_mul_of_pos_right hi hs
    simp
    omega

/-- A block becomes held, or free. -/
theorem pool_hold {W : World} {i : Nat} {blocks : Nat → Option (List UInt8)} (hs : 0 < stride)
    (hW : W (.pool i) = some (.pool start stride blockSize n blocks)) (hj : j < n) (d : Option (List UInt8)) :
    World.kinds (Function.update W (.pool i) (some (.pool start stride blockSize n (Function.update blocks j d)))) =
      W.kinds.hold i (start + j * stride) d.isSome := by
  have hk : W.kinds (.pool i) = some (.pool blockSize fun ptr =>
      (Act.blockAt start stride n ptr).any fun j => (blocks j).isSome) := kinds_eq hW
  rw [kinds_update, Live.hold, hk]
  dsimp only [Object.kind]
  congr 3
  funext ptr
  by_cases hp : ptr = start + j * stride
  · have hat : Act.blockAt start stride n ptr = some j := (Act.blockAt_eq hs).2 ⟨hj, hp⟩
    rw [hat, hp]
    simp
  · rw [Function.update_of_ne hp]
    cases hat : Act.blockAt start stride n ptr with
    | none => rfl
    | some k =>
      have hne : k ≠ j := by
        rintro rfl
        exact hp ((Act.blockAt_eq hs).1 hat).2
      simp [hne]

end

/-! ## After any call -/

section

variable {W W' : World} {r : Ret} {i ptr : Nat}

/-- The blocks of every pool are apart. -/
def World.Strides (W : World) : Prop :=
  ∀ i start stride blockSize n blocks, W (.pool i) = some (.pool start stride blockSize n blocks) → 0 < stride

theorem Grabs.kinds (hg : Grabs W r W' i) (hs : W.Strides)
    (hp : ∀ start stride blockSize n blocks, W (.pool i) = some (.pool start stride blockSize n blocks) → 0 < start) :
    W'.kinds = W.kinds.after (.poolAlloc i) r := by
  obtain ⟨start, stride, blockSize, n, blocks, hW, hg⟩ := hg
  split at hg
  · obtain ⟨rfl, rfl⟩ := hg
    rfl
  · rename_i j hj
    obtain ⟨rfl, data, -, rfl⟩ := hg
    have hstart := hp _ _ _ _ _ hW
    rw [pool_hold (hs _ _ _ _ _ _ hW) hW (List.mem_range.1 (List.mem_of_find?_eq_some hj))]
    simp only [Live.after]
    rw [if_neg (by omega)]
    rfl

theorem blockFree_kinds (ha : Acts W r W' (.pool i) (.blockFree ptr)) (hs : W.Strides) :
    W'.kinds = W.kinds.after (.poolFree i ptr) r := by
  obtain ⟨o, o', hW, e, rfl⟩ := ha
  cases o with
  | pool start stride blockSize n blocks =>
    simp only [Act.blockFree] at e
    split at e
    · cases e
      exact kinds_replace hW rfl
    · rename_i j hj
      obtain ⟨hlt, rfl⟩ := (Act.blockAt_eq (hs _ _ _ _ _ _ hW)).1 hj
      split at e
      · cases e
        exact kinds_replace hW rfl
      · cases e
        exact pool_hold (hs _ _ _ _ _ _ hW) hW hlt none
  | _ => cases e

theorem MakesPool.kinds {blockSize n : Nat} (hm : MakesPool W r W' i blockSize n) :
    W'.kinds = W.kinds.after (.poolCreate i blockSize n) r := by
  obtain ⟨st, hst, rfl, rfl⟩ | ⟨rfl, start, stride, -, -, -, -, rfl⟩ := hm
  · cases st <;> first | rfl | exact absurd rfl hst
  · rw [kinds_update]
    simp only [Live.after, Object.kind]
    congr 3
    funext ptr
    cases Act.blockAt start stride n ptr <;> rfl

theorem Opens.kinds {id : UInt8} {config : Option UartConfig} (ho : Opens W r W' id config) :
    W'.kinds = W.kinds.after (.uartInit id config) r := by
  obtain ⟨rfl, rfl, -⟩ | ⟨u, -, rfl, c, -, ⟨⟨c', sent, hW⟩, rfl⟩ | ⟨-, rfl⟩⟩ := ho
  · rfl
  · have hk : W'.kinds (.uart u) = some .uart := kinds_eq hW
    simp only [Live.after]
    rw [← hk, Function.update_eq_self]
  · exact kinds_update ..

theorem Closes.kinds {u : Fin MAX_UART_INSTANCES} (hc : Closes W r W' u) :
    W'.kinds = W.kinds.after (.uartDeinit u) r := by
  obtain ⟨hW, rfl, rfl⟩ | ⟨-, rfl, rfl⟩ := hc
  · have hk : W'.kinds (.uart u) = none := by rw [World.kinds, hW]; rfl
    simp only [Live.after]
    rw [← hk, Function.update_eq_self]
  · exact kinds_remove ..

/-- What the application knows of its objects, by the calls it made and their
results, is what they are. -/
theorem after_kinds {task : UInt32} {c : Call} (h : step task W r W' c) (hs : W.Strides)
    (hp : ∀ i start stride blockSize n blocks,
      W (.pool i) = some (.pool start stride blockSize n blocks) → 0 < start) :
    W'.kinds = W.kinds.after c r := by
  cases c with
  | malloc size => obtain ⟨p, rfl, hk⟩ := h.kinds fun _ => fresh_kind; exact hk
  | calloc num size =>
    obtain ⟨p, rfl, hk⟩ := h.kinds (k := .bytes (num * size)) fun o ho => by
      rw [ho.2, Object.kind, List.length_replicate]
    exact hk
  | realloc ptr newSize =>
    simp only [step] at h
    split at h
    · rename_i h0
      obtain ⟨p, rfl, hk⟩ := h.kinds fun _ => fresh_kind
      rw [hk, Live.after, if_pos h0]
    · rename_i h0
      split at h
      · rename_i hn
        obtain ⟨rfl, rfl⟩ := h
        rw [kinds_remove, Live.after, if_neg h0, if_pos hn, Live.dead, if_neg h0]
      · rename_i hn
        exact h.kinds h0 hn
  | free ptr => exact h.kinds
  | store ptr i v => exact h.kinds (Act.store_keeps i v)
  | load ptr i => exact h.kinds (Act.load_keeps i)
  | mqCreate a b => obtain ⟨p, rfl, hk⟩ := h.kinds (k := .queue) fun o ho => by rw [ho.2]; rfl
                    exact hk
  | mqSend mq msg => exact h.kinds (Act.send_keeps msg)
  | mqReceive mq msg => exact h.kinds (Act.receive_keeps msg)
  | mqDestroy mq => exact h.kinds
  | semCreate a b => obtain ⟨p, rfl, hk⟩ := h.kinds (k := .sem) fun o ho => by rw [ho]; rfl
                     exact hk
  | semTake sem timeout => exact h.kinds Act.take_keeps
  | semGive sem => exact h.kinds Act.give_keeps
  | semDestroy sem => exact h.kinds
  | mutexCreate => obtain ⟨p, rfl, hk⟩ := h.kinds (k := .mutex) fun o ho => by rw [ho]; rfl
                   exact hk
  | mutexLock mutex timeout => exact h.kinds (Act.lock_keeps task)
  | mutexUnlock mutex => exact h.kinds (Act.unlock_keeps task)
  | mutexDestroy mutex => exact h.kinds
  | poolCreate pool blockSize numBlocks => exact h.kinds
  | poolAlloc pool => exact h.kinds hs fun _ _ _ _ _ => hp _ _ _ _ _ _
  | poolFree pool ptr => exact blockFree_kinds h hs
  | poolDestroy pool => obtain ⟨rfl, rfl⟩ := h; exact kinds_remove ..
  | blockStore pool ptr i v => exact h.kinds (Act.blockStore_keeps ptr i v)
  | blockLoad pool ptr i => exact h.kinds (Act.blockLoad_keeps ptr i)
  | uartInit id config => exact h.kinds
  | uartWrite u data len => exact h.kinds (Act.write_keeps data len)
  | uartWriteDma u data len => exact h.kinds (Act.writeDma_keeps data len)
  | uartRead u buffer len n => exact h.kinds (Act.read_keeps buffer n)
  | uartAvailable u => exact h.kinds Act.available_keeps
  | uartFlush u => exact h.kinds Act.flush_keeps
  | uartSetCallback u callback userData => exact h.kinds Act.setCallback_keeps
  | uartDeinit u => exact h.kinds

end

end Rtos.Services
