import Rtos.Core.Ownership
import Rtos.Drivers.UartRuns
import Rtos.Heap.PoolRuns
import Rtos.Ipc.QueueRuns
import Rtos.Services.Calls

/-!
# Where the objects are

`layout t` says in which grants of the heap an object is laid out and what the
bytes there hold. `Implements t s W`: the store `s` holds the objects of `W`,
each in grants of its own, the heap has granted nothing else, and the UARTs
that are not in `W` are not initialised.

A call needs to be understood for the object it acts on alone
(`Implements.act`, `Implements.create`, `Implements.destroy`).
-/
namespace Rtos.Services

open Rtos.Core Rtos.Heap Rtos.Ipc
open Rtos.Drivers (UartConfig UartHandle UartInstances MAX_UART_INSTANCES)

abbrev Grants := Multiset (Nat × Nat)

section

variable (t : Target) (m : Mem) (gs : Grants)

def BytesAt (p : Nat) (data : List UInt8) : Prop :=
  ∃ g, gs = {(p, g)} ∧ data.length ≤ g ∧ m.bytes p data.length = data

def QueueAt (mq msgSize maxMsgs : Nat) (msgs : List (List UInt8)) : Prop :=
  ∃ (g b k : Nat) (r : Ring maxMsgs), gs = (b, k) ::ₘ {(mq, g)} ∧ mqStruct t ≤ g ∧ msgSize * maxMsgs ≤ k ∧
    QueuePlaced t mq b msgSize maxMsgs ∧ MqFields t m mq b msgSize maxMsgs r.count r.head r.tail ∧
    msgs = r.items (Ipc.slot m b msgSize)

def SemAt (sem count maxCount : Nat) : Prop :=
  ∃ g, gs = {(sem, g)} ∧ 8 ≤ g ∧ semCount m sem = count ∧ semMaxCount m sem = maxCount

def MutexAt (mutex : Nat) (owner : Option UInt32) : Prop :=
  ∃ g, gs = {(mutex, g)} ∧ 8 ≤ g ∧ mutexLocked m mutex = owner.isSome ∧
    ∀ id ∈ owner, mutexOwnerTaskId m mutex = id.toNat

/-- `out` are the addresses of the blocks held. -/
def PoolAt (pool : MemoryPool) (start stride blockSize numBlocks : Nat) (blocks : Nat → Option (List UInt8)) :
    Prop :=
  ∃ (k g : Nat) (out : List Nat), gs = (pool.freeList, k) ::ₘ {(pool.poolStart, g)} ∧
    (pool.poolStart = start ∧ pool.blockSize = stride ∧ pool.numBlocks = numBlocks) ∧
    blockSize ≤ stride ∧ (numBlocks + 7) / 8 ≤ k ∧ stride * numBlocks ≤ g ∧ Pooled t ⟨m, pool, out⟩ ∧
    (∀ j, j < numBlocks → (blocks j).isSome = !m.getBit pool.freeList j) ∧
    ∀ j, j < numBlocks → ∀ data ∈ blocks j, data.length = blockSize ∧ m.bytes (pool.addr j) blockSize = data

/-- Nothing has been received, and there is no callback for the end of a
transmission. -/
def UartAt (uart : UartHandle) (config : UartConfig) (sent : List UInt8) : Prop :=
  ∃ (b k g : Nat) (r : Ring config.txBufferSize.toNat), gs = (b, k) ::ₘ {(uart.rxBuffer.buffer, g)} ∧
    (uart.initialized = true ∧ uart.config = config ∧ uart.rxBuffer.count = 0 ∧ uart.txCallback = 0 ∧
      uart.txBusy = false) ∧
    config.txBufferSize.toNat ≤ k ∧ b + k < t.sizeMod ∧
    uart.txBuffer = ⟨b, config.txBufferSize.toNat, r.head, r.tail, r.count⟩ ∧
    sent = r.items fun i => m (b + i)

end

variable {t : Target} {m m' : Mem} {gs rest : Grants} {p mq sem mutex : Nat} {s s' : Store} {W : World}
  {h : Handle} {o o' : Object}

/-! ## What the other objects do not see -/

theorem BytesAt.congr {data : List UInt8} (hk : Kept gs m m') (hb : BytesAt m gs p data) : BytesAt m' gs p data := by
  obtain ⟨g, rfl, hg, hd⟩ := hb
  refine ⟨g, rfl, hg, ?_⟩
  rw [Mem.bytes_congr fun x h1 h2 => hk (p, g) (Multiset.mem_singleton_self _) x h1 (by dsimp only; omega)]
  exact hd

theorem QueueAt.congr {msgSize maxMsgs : Nat} {msgs : List (List UInt8)} (hk : Kept gs m m')
    (hq : QueueAt t m gs mq msgSize maxMsgs msgs) : QueueAt t m' gs mq msgSize maxMsgs msgs := by
  obtain ⟨g, b, k, r, rfl, hg, hk', hp, hf, rfl⟩ := hq
  have hmq : ∀ x, mq ≤ x → x < mq + mqStruct t → m' x = m x := fun x h1 h2 =>
    hk (mq, g) (Multiset.mem_cons_of_mem (Multiset.mem_singleton_self _)) x h1 (by dsimp only; omega)
  refine ⟨g, b, k, r, rfl, hg, hk', hp, hf.congr hmq, ?_⟩
  refine (r.items_congr fun i hi => Mem.bytes_congr fun x h1 h2 => ?_).symm
  have := slot_le msgSize hi
  exact hk (b, k) (Multiset.mem_cons_self _ _) x (by dsimp only; omega) (by dsimp only; omega)

theorem SemAt.congr {count maxCount : Nat} (hk : Kept gs m m') (hs : SemAt m gs sem count maxCount) :
    SemAt m' gs sem count maxCount := by
  obtain ⟨g, rfl, hg, rfl, rfl⟩ := hs
  have hm : ∀ x, sem ≤ x → x < sem + 8 → m' x = m x := fun x h1 h2 =>
    hk (sem, g) (Multiset.mem_singleton_self _) x h1 (by dsimp only; omega)
  exact ⟨g, rfl, hg, Mem.read_congr fun x h1 h2 => hm x (by omega) (by omega),
    Mem.read_congr fun x h1 h2 => hm x (by omega) (by omega)⟩

theorem MutexAt.congr {owner : Option UInt32} (hk : Kept gs m m') (hs : MutexAt m gs mutex owner) :
    MutexAt m' gs mutex owner := by
  obtain ⟨g, rfl, hg, hl, ho⟩ := hs
  have hm : ∀ x, mutex ≤ x → x < mutex + 8 → m' x = m x := fun x h1 h2 =>
    hk (mutex, g) (Multiset.mem_singleton_self _) x h1 (by dsimp only; omega)
  refine ⟨g, rfl, hg, ?_, fun id hid => ?_⟩
  · rw [mutexLocked, hm mutex (Nat.le_refl _) (by omega)]
    exact hl
  · rw [← ho id hid]
    exact Mem.read_congr fun x h1 h2 => hm x (by omega) (by omega)

/-- A pool is kept by whatever keeps its bitmap. -/
theorem Pooled.congr {pool : MemoryPool} {out : List Nat} (hp : Pooled t ⟨m, pool, out⟩)
    (hb : ∀ j, j < pool.numBlocks → m'.getBit pool.freeList j = m.getBit pool.freeList j) :
    Pooled t ⟨m', pool, out⟩ where
  placed := hp.placed
  count := hp.count.trans (Mem.setBits_congr hb).symm
  nodup := hp.nodup
  out q := (hp.out q).trans (exists_congr fun j => and_congr_right fun hj => by dsimp only; rw [hb j hj])

theorem PoolAt.congr {pool : MemoryPool} {start stride blockSize n : Nat} {blocks : Nat → Option (List UInt8)}
    (hk : Kept gs m m') (hp : PoolAt t m gs pool start stride blockSize n blocks) :
    PoolAt t m' gs pool start stride blockSize n blocks := by
  obtain ⟨k, g, out, rfl, ⟨rfl, rfl, rfl⟩, hbs, hbits, hg, hpool, hheld, hdata⟩ := hp
  have hbit : ∀ j, j < pool.numBlocks → m'.getBit pool.freeList j = m.getBit pool.freeList j := fun j hj =>
    Mem.getBit_congr (hk (pool.freeList, k) (Multiset.mem_cons_self _ _) _ (by dsimp only; omega)
      (by dsimp only; omega))
  refine ⟨k, g, out, rfl, ⟨rfl, rfl, rfl⟩, hbs, hbits, hg, Pooled.congr hpool hbit, fun j hj => ?_,
    fun j hj data hd => ?_⟩
  · rw [hbit j hj]
    exact hheld j hj
  · obtain ⟨hlen, hd⟩ := hdata j hj data hd
    refine ⟨hlen, ?_⟩
    have := MemoryPool.Placed.block_le hj
    rw [Mem.bytes_congr fun x h1 h2 => hk (pool.poolStart, g)
      (Multiset.mem_cons_of_mem (Multiset.mem_singleton_self _)) x
      (by dsimp only; unfold MemoryPool.addr at h1; omega)
      (by dsimp only; unfold MemoryPool.addr at h2; omega)]
    exact hd

theorem UartAt.congr {uart : UartHandle} {config : UartConfig} {sent : List UInt8} (hk : Kept gs m m')
    (hu : UartAt t m gs uart config sent) : UartAt t m' gs uart config sent := by
  obtain ⟨b, k, g, r, rfl, hh, hle, hlt, htx, rfl⟩ := hu
  refine ⟨b, k, g, r, rfl, hh, hle, hlt, htx, (r.items_congr fun i hi => ?_).symm⟩
  exact hk (b, k) (Multiset.mem_cons_self _ _) _ (by dsimp only; omega) (by dsimp only; omega)

/-- The object under a handle. -/
def ObjectAt (t : Target) (h : Handle) (o : Object) (gs : Grants) (s : Store) : Prop :=
  match h, o with
  | .ptr p, .bytes data => BytesAt s.heap.mem gs p data
  | .ptr p, .queue msgSize maxMsgs msgs => QueueAt t s.heap.mem gs p msgSize maxMsgs msgs
  | .ptr p, .sem count maxCount => SemAt s.heap.mem gs p count maxCount
  | .ptr p, .mutex owner => MutexAt s.heap.mem gs p owner
  | .pool i, .pool start stride blockSize numBlocks blocks =>
    PoolAt t s.heap.mem gs (s.pools i) start stride blockSize numBlocks blocks
  | .uart u, .uart config sent => UartAt t s.heap.mem gs (s.uarts u) config sent
  | _, _ => False

/-- The same bytes in these grants, and the same variable. -/
structure Same (h : Handle) (gs : Grants) (s s' : Store) : Prop where
  mem : Kept gs s.heap.mem s'.heap.mem
  pools : ∀ i, h = .pool i → s'.pools i = s.pools i
  uarts : ∀ u, h = .uart u → s'.uarts u = s.uarts u

theorem ObjectAt.congr (hs : Same h gs s s') (ho : ObjectAt t h o gs s) : ObjectAt t h o gs s' := by
  cases h with
  | ptr p =>
    cases o with
    | bytes data => exact BytesAt.congr hs.mem ho
    | queue msgSize maxMsgs msgs => exact QueueAt.congr hs.mem ho
    | sem count maxCount => exact SemAt.congr hs.mem ho
    | mutex owner => exact MutexAt.congr hs.mem ho
    | _ => exact ho.elim
  | pool i =>
    cases o with
    | pool start stride blockSize numBlocks blocks =>
      have h1 := PoolAt.congr hs.mem ho
      rwa [← hs.pools i rfl] at h1
    | _ => exact ho.elim
  | uart u =>
    cases o with
    | uart config sent =>
      have h1 := UartAt.congr hs.mem ho
      rwa [← hs.uarts u rfl] at h1
    | _ => exact ho.elim

def layout (t : Target) : Layout (Nat × Nat) Handle Object Store where
  rep := ObjectAt t
  same := Same
  frame := ObjectAt.congr

/-- The store holds the objects of the world and nothing else. -/
structure Implements (t : Target) (s : Store) (W : World) : Prop where
  grants : ∃ gs, (layout t).Holds W s gs ∧ Outstanding t s.heap gs
  idle : ∀ u, W (.uart u) = none → (s.uarts u).initialized = false

/-! ## One object changes -/

/-- Bytes changed in these grants only, and no variable but that of `h`. -/
structure Within (h : Handle) (gs : Grants) (s s' : Store) : Prop where
  heap : s'.heap = { s.heap with mem := s'.heap.mem }
  mem : ∀ x, (∀ q ∈ gs, x < q.1 ∨ q.1 + q.2 ≤ x) → s'.heap.mem x = s.heap.mem x
  pools : ∀ i, h ≠ .pool i → s'.pools i = s.pools i
  uarts : ∀ u, h ≠ .uart u → s'.uarts u = s.uarts u

theorem Within.refl (h : Handle) (gs : Grants) (s : Store) : Within h gs s s :=
  ⟨rfl, fun _ _ => rfl, fun _ _ => rfl, fun _ _ => rfl⟩

theorem Within.setMem (hm : ∀ x, (∀ q ∈ gs, x < q.1 ∨ q.1 + q.2 ≤ x) → m' x = s.heap.mem x) :
    Within h gs s (s.setMem m') :=
  ⟨rfl, hm, fun _ _ => rfl, fun _ _ => rfl⟩

theorem Implements.focus (hi : Implements t s W) (hW : W h = some o) : ∃ gs rest,
    ObjectAt t h o gs s ∧ (layout t).Holds (Function.update W h none) s rest ∧ Outstanding t s.heap (gs + rest) := by
  obtain ⟨all, hH, ho⟩ := hi.grants
  obtain ⟨gs, rest, rfl, hr, hH'⟩ := hH.take hW
  exact ⟨gs, rest, hr, hH', ho⟩

section

variable (hi : Implements t s W) (hH : (layout t).Holds (Function.update W h none) s rest)
  (hk : Kept rest s.heap.mem s'.heap.mem) (hp : ∀ i, h ≠ .pool i → s'.pools i = s.pools i)
  (hu : ∀ u, h ≠ .uart u → s'.uarts u = s.uarts u)

include hi hH hk hp hu

/-- An object is put in the place of what was under `h`. -/
theorem Implements.put (gs : Grants) (hout : Outstanding t s'.heap (gs + rest)) (hr : ObjectAt t h o gs s') :
    Implements t s' (Function.update W h (some o)) where
  grants := by
    refine ⟨gs + rest, hH.put (fun j js hj hsub => ⟨hk.mono hsub, fun i hi => ?_, fun u hu' => ?_⟩) hr, hout⟩
    · exact hp i fun e => hj (hi.trans e.symm)
    · exact hu u fun e => hj (hu'.trans e.symm)
  idle u hW := by
    by_cases hh : .uart u = h
    · rw [hh, Function.update_self] at hW
      cases hW
    · rw [Function.update_of_ne hh] at hW
      rw [hu u fun e => hh e.symm]
      exact hi.idle u hW

/-- What was under `h` is gone. -/
theorem Implements.drop (hout : Outstanding t s'.heap rest)
    (hidle : ∀ u, h = .uart u → (s'.uarts u).initialized = false) :
    Implements t s' (Function.update W h none) where
  grants := by
    refine ⟨rest, hH.frame fun j js hj hsub => ⟨hk.mono hsub, fun i hi => ?_, fun u hu' => ?_⟩, hout⟩
    · refine hp i fun e => ?_
      rw [hi, ← e, Function.update_self] at hj
      cases hj
    · refine hu u fun e => ?_
      rw [hu', ← e, Function.update_self] at hj
      cases hj
  idle u hW := by
    by_cases hh : h = .uart u
    · exact hidle u hh
    · rw [Function.update_of_ne fun e => hh e.symm] at hW
      rw [hu u hh]
      exact hi.idle u hW

end

/-- An object at a pointer holds a grant there. -/
theorem ObjectAt.grant (ho : ObjectAt t (.ptr p) o gs s) : ∃ g, (p, g) ∈ gs := by
  cases o with
  | bytes data => obtain ⟨g, rfl, -⟩ := ho; exact ⟨g, Multiset.mem_singleton_self _⟩
  | queue msgSize maxMsgs msgs =>
    obtain ⟨g, b, k, r, rfl, -⟩ := ho
    exact ⟨g, Multiset.mem_cons_of_mem (Multiset.mem_singleton_self _)⟩
  | sem count maxCount => obtain ⟨g, rfl, -⟩ := ho; exact ⟨g, Multiset.mem_singleton_self _⟩
  | mutex owner => obtain ⟨g, rfl, -⟩ := ho; exact ⟨g, Multiset.mem_singleton_self _⟩
  | _ => exact ho.elim

/-- A pointer just granted is no handle in use. -/
theorem fresh_handle (gs : Grants) {h' : HeapState} (hH : (layout t).Holds W s rest)
    (hout : Outstanding t h' (gs + rest)) {g : Nat}
    (hg : (p, g) ∈ gs) : W (.ptr p) = none := by
  cases hW : W (.ptr p) with
  | none => rfl
  | some o =>
    obtain ⟨gs', hsub, hr⟩ := hH.mem hW
    obtain ⟨g', hg'⟩ := ObjectAt.grant hr
    have hn := hout.nodup
    rw [Multiset.map_add, Multiset.nodup_add] at hn
    have h1 : p ∈ gs.map Prod.fst := Multiset.mem_map.2 ⟨_, hg, rfl⟩
    have h2 : p ∈ rest.map Prod.fst := Multiset.mem_map.2 ⟨_, hsub hg', rfl⟩
    exact absurd h2 (Multiset.disjoint_left.1 hn.2.2 h1)

/-! ## Calls -/

/-- A call that acts on one object, understood for that object alone. -/
theorem Implements.act {act : Act} {f : Option (Store × Ret)} (hi : Implements t s W) (hW : W h = some o)
    (hs : ∀ gs, ObjectAt t h o gs s → ∃ s' o' r, f = some (s', r) ∧ act o = some (o', r) ∧ ObjectAt t h o' gs s' ∧
      Within h gs s s') :
    ∃ s' r W', f = some (s', r) ∧ Acts W r W' h act ∧ Implements t s' W' := by
  obtain ⟨gs, rest, hr, hH, hout⟩ := hi.focus hW
  obtain ⟨s', o', r, e, ha, hr', hw⟩ := hs gs hr
  obtain ⟨hout', hk⟩ := writes_outstanding hout s'.heap.mem hw.mem
  rw [← hw.heap] at hout'
  exact ⟨s', r, _, e, ⟨o, o', hW, ha, rfl⟩, hi.put hH hk hw.pools hw.uarts gs hout' hr'⟩

/-- A call that takes a pointer which may be NULL. -/
theorem Implements.act_ptr {act : Act} {f : Option (Store × Ret)} {null : Ret} (hi : Implements t s W)
    (h0 : p = 0 → f = some (s, null))
    (hW : p ≠ 0 → ∃ o, W (.ptr p) = some o ∧ ∀ gs, ObjectAt t (.ptr p) o gs s →
      ∃ s' o' r, f = some (s', r) ∧ act o = some (o', r) ∧ ObjectAt t (.ptr p) o' gs s' ∧ Within (.ptr p) gs s s') :
    ∃ s' r W', f = some (s', r) ∧ ActsPtr W r W' p null act ∧ Implements t s' W' := by
  by_cases hp : p = 0
  · exact ⟨s, null, W, h0 hp, .inl ⟨hp, rfl, rfl⟩, hi⟩
  · obtain ⟨o, hW, hs⟩ := hW hp
    obtain ⟨s', r, W', e, ha, hi'⟩ := hi.act hW hs
    exact ⟨s', r, W', e, .inr ⟨hp, ha⟩, hi'⟩

/-- A call that creates an object at a pointer, or returns NULL with no effect on any object. -/
theorem Implements.create {P : Object → Prop} {f : Option (HeapState × Nat)} (hi : Implements t s W)
    (hs : ∀ rest, Outstanding t s.heap rest →
      (∃ h', f = some (h', 0) ∧ Outstanding t h' rest ∧ Kept rest s.heap.mem h'.mem) ∨
      ∃ h' p o gs, f = some (h', p) ∧ p ≠ 0 ∧ P o ∧ ObjectAt t (.ptr p) o gs { s with heap := h' } ∧
        Outstanding t h' (gs + rest) ∧ Kept rest s.heap.mem h'.mem) :
    ∃ s' r W', f.map (fun r => ({ s with heap := r.1 }, Ret.ptr r.2)) = some (s', r) ∧ Creates W r W' P ∧
      Implements t s' W' := by
  obtain ⟨rest, hH, hout⟩ := hi.grants
  rcases hs rest hout with ⟨h', e, hout', hk⟩ | ⟨h', p, o, gs, e, hp, hP, hr, hout', hk⟩
  · refine ⟨{ s with heap := h' }, .ptr 0, W, by rw [e]; rfl, ⟨0, rfl, .inl ⟨rfl, rfl⟩⟩, ?_, hi.idle⟩
    exact ⟨rest, hH.frame fun j js _ hsub => ⟨hk.mono hsub, fun _ _ => rfl, fun _ _ => rfl⟩, hout'⟩
  · obtain ⟨g, hg⟩ := hr.grant
    have hnone := fresh_handle gs hH hout' hg
    have hH' : (layout t).Holds (Function.update W (.ptr p) none) s rest := by
      rwa [← hnone, Function.update_eq_self]
    refine ⟨{ s with heap := h' }, .ptr p, _, by rw [e]; rfl, ⟨p, rfl, .inr ⟨hp, hnone, o, hP, rfl⟩⟩, ?_⟩
    exact hi.put hH' hk (fun _ _ => rfl) (fun _ _ => rfl) gs hout' hr

/-- A call that destroys the object at a pointer, or does nothing with NULL. -/
theorem Implements.destroy {f : Option HeapState} (hi : Implements t s W) (h0 : p = 0 → f = some s.heap)
    (hW : p ≠ 0 → ∃ o, W (.ptr p) = some o ∧ ∀ gs rest, ObjectAt t (.ptr p) o gs s →
      Outstanding t s.heap (gs + rest) →
      ∃ h', f = some h' ∧ Outstanding t h' rest ∧ Kept rest s.heap.mem h'.mem) :
    ∃ s' r W', f.map (fun h => ({ s with heap := h }, Ret.unit)) = some (s', r) ∧ Destroys W r W' p ∧
      Implements t s' W' := by
  by_cases hp : p = 0
  · exact ⟨s, .unit, W, by rw [h0 hp]; rfl, ⟨rfl, .inl ⟨hp, rfl⟩⟩, hi⟩
  · obtain ⟨o, hW, hs⟩ := hW hp
    obtain ⟨gs, rest, hr, hH, hout⟩ := hi.focus hW
    obtain ⟨h', e, hout', hk⟩ := hs gs rest hr hout
    refine ⟨{ s with heap := h' }, .unit, _, by rw [e]; rfl, ⟨rfl, .inr ⟨hp, rfl⟩⟩, ?_⟩
    exact hi.drop hH hk (fun _ _ => rfl) (fun _ _ => rfl) hout' fun u hu => by cases hu

end Rtos.Services
