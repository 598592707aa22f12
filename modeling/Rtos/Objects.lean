import Mathlib.Data.Multiset.Bind
import Rtos.Drivers.Uart
import Rtos.Heap.Pool
import Rtos.Ipc.Locks
import Rtos.Ipc.MessageQueue

/-!
# The lifetime of kernel objects

Message queues, semaphores, mutexes, memory pools and UARTs hold grants of the
heap. `objSys` are the runs that create and destroy them, in any order and
with any arguments, where an object is destroyed at most once. `Owns`: the
heap has granted what it had granted at the start and what the live objects
hold. So when all objects are destroyed the block list is the one at the start
(`no_leak`), and a creation that fails leaves it as it was.

The object that `memory_pool_create` makes is the pair of pointers it leaves
in the structure, which the application may copy.
-/
namespace Rtos.Objects

open Rtos.Core Rtos.Heap Rtos.Ipc Rtos.Drivers
open Rtos.Sched (RtosStatus)

inductive KObj
  | mq (ptr : Nat)
  | sem (ptr : Nat)
  | mutex (ptr : Nat)
  | pool (poolStart freeList : Nat)
  | uart (u : Fin MAX_UART_INSTANCES)
  deriving DecidableEq

/-- The heap, the UARTs, and the objects created and not destroyed. -/
structure ObjSys where
  heap : HeapState
  uarts : UartInstances
  live : List KObj

inductive ObjCall
  | mqCreate (msgSize maxMsgs : Nat)
  | mqDestroy (mq : Nat)
  | semCreate (initialCount maxCount : Nat)
  | semDestroy (sem : Nat)
  | mutexCreate
  | mutexDestroy (mutex : Nat)
  | poolCreate (pool : Option MemoryPool) (blockSize numBlocks : Nat)
  | poolDestroy (pool : Option MemoryPool)
  | uartInit (uartId : UInt8) (config : Option UartConfig)
  | uartDeinit (uart : Option (Fin MAX_UART_INSTANCES))

/-- The calls that create an object. -/
def ObjCall.creates : ObjCall → Bool
  | .mqCreate .. | .semCreate .. | .mutexCreate | .poolCreate .. | .uartInit .. => true
  | .mqDestroy _ | .semDestroy _ | .mutexDestroy _ | .poolDestroy _ | .uartDeinit _ => false

section

variable (t : Target)

/-- Creations take any arguments. Destroyed is what is live, or NULL, or a
structure of NULLs, or a UART that is not initialised. -/
def ObjLegal (s : ObjSys) : ObjCall → Prop
  | .mqCreate msgSize maxMsgs => msgSize < t.sizeMod ∧ maxMsgs < t.sizeMod
  | .semCreate .. | .mutexCreate | .poolCreate .. | .uartInit .. => True
  | .mqDestroy mq => mq = 0 ∨ .mq mq ∈ s.live
  | .semDestroy sem => sem = 0 ∨ .sem sem ∈ s.live
  | .mutexDestroy mutex => mutex = 0 ∨ .mutex mutex ∈ s.live
  | .poolDestroy none => True
  | .poolDestroy (some pool) =>
    (pool.poolStart = 0 ∧ pool.freeList = 0) ∨ .pool pool.poolStart pool.freeList ∈ s.live
  | .uartDeinit none => True
  | .uartDeinit (some u) => (s.uarts u).initialized = false ∨ .uart u ∈ s.live

def ObjSys.call (s : ObjSys) : ObjCall → Option ObjSys
  | .mqCreate msgSize maxMsgs => (mqCreate t s.heap msgSize maxMsgs).map fun r =>
      { s with heap := r.1, live := if r.2 ≠ 0 then .mq r.2 :: s.live else s.live }
  | .mqDestroy mq => (mqDestroy t s.heap mq).map fun h => { s with heap := h, live := s.live.erase (.mq mq) }
  | .semCreate initialCount maxCount => (semCreate t s.heap initialCount maxCount).map fun r =>
      { s with heap := r.1, live := if r.2 ≠ 0 then .sem r.2 :: s.live else s.live }
  | .semDestroy sem => (semDestroy t s.heap sem).map fun h => { s with heap := h, live := s.live.erase (.sem sem) }
  | .mutexCreate => (mutexCreate t s.heap).map fun r =>
      { s with heap := r.1, live := if r.2 ≠ 0 then .mutex r.2 :: s.live else s.live }
  | .mutexDestroy mutex => (mutexDestroy t s.heap mutex).map fun h =>
      { s with heap := h, live := s.live.erase (.mutex mutex) }
  | .poolCreate pool blockSize numBlocks => (memoryPoolCreate t s.heap pool blockSize numBlocks).map fun r =>
      { s with
        heap := r.1
        live := if r.2.2 = .ok then (r.2.1.map fun p => .pool p.poolStart p.freeList).toList ++ s.live
          else s.live }
  | .poolDestroy pool => (memoryPoolDestroy t s.heap pool).map fun r =>
      { s with
        heap := r.1
        live := match pool with
          | none => s.live
          | some pool => s.live.erase (.pool pool.poolStart pool.freeList) }
  | .uartInit uartId config => (Drivers.uartInit t s.heap s.uarts uartId config).map fun r =>
      { heap := r.1
        uarts := r.2.1
        live := match r.2.2 with
          | none => s.live
          | some u => if (s.uarts u).initialized then s.live else .uart u :: s.live }
  | .uartDeinit uart => (Drivers.uartDeinit t s.heap s.uarts uart).map fun r =>
      { heap := r.1
        uarts := r.2.1
        live := match uart with
          | none => s.live
          | some u => s.live.erase (.uart u) }

/-- Any heap in use, any UARTs, and no object yet. -/
def objSys : LTS ObjSys ObjCall :=
  (LTS.ofFn (fun s => (∃ hs, (allocSys t).Reachable hs ∧ s.heap = hs.heap) ∧ s.live = []) (ObjSys.call t)).restrict
    (ObjLegal t)

/-- The same blocks and byte counters. -/
def SameHeap (h h' : HeapState) : Prop :=
  heapBlocks t h = heapBlocks t h' ∧ (heapBlocks t h).isSome = true ∧
    h.globalStats.usedHeapSize = h'.globalStats.usedHeapSize ∧
    h.globalStats.freeHeapSize = h'.globalStats.freeHeapSize

/-- The object holds these grants. -/
def Backed (m : Mem) (uarts : UartInstances) : KObj → Multiset (Nat × Nat) → Prop
  | .mq p, gs => ∃ k g, gs = (mqBuffer t m p, k) ::ₘ (p, g) ::ₘ 0 ∧ mqStruct t ≤ g
  | .sem p, gs => ∃ g, gs = (p, g) ::ₘ 0
  | .mutex p, gs => ∃ g, gs = (p, g) ::ₘ 0
  | .pool start list, gs => ∃ k g, gs = (list, k) ::ₘ (start, g) ::ₘ 0
  | .uart u, gs => ∃ k g, gs = ((uarts u).txBuffer.buffer, k) ::ₘ ((uarts u).rxBuffer.buffer, g) ::ₘ 0 ∧
      (uarts u).initialized = true

/-- The heap has granted `G₀` and what the live objects hold. -/
structure Owns (G₀ : Multiset (Nat × Nat)) (s : ObjSys) (own : Multiset (KObj × Multiset (Nat × Nat))) : Prop where
  live : own.map Prod.fst = (s.live : Multiset KObj)
  backed : ∀ x ∈ own, Backed t s.heap.mem s.uarts x.1 x.2
  heap : Outstanding t s.heap (own.bind Prod.snd + G₀)

end

variable {t : Target} {s s' : ObjSys} {h' : HeapState} {uarts uarts' : UartInstances} {m m' : Mem}
  {G₀ gs : Multiset (Nat × Nat)} {own : Multiset (KObj × Multiset (Nat × Nat))} {o : KObj}
  {u : Fin MAX_UART_INSTANCES} {c : ObjCall}

/-! ## What an object holds -/

theorem Backed.congr (hb : Backed t m uarts o gs) (hk : Kept gs m m')
    (hu : ∀ u, o = .uart u → (uarts u).initialized = true → uarts' u = uarts u) : Backed t m' uarts' o gs := by
  cases o with
  | mq p =>
    obtain ⟨k, g, rfl, hg⟩ := hb
    have hbuf : mqBuffer t m' p = mqBuffer t m p := mqField_congr (by decide) fun x h1 h2 =>
      hk (p, g) (Multiset.mem_cons_of_mem (Multiset.mem_cons_self _ _)) x h1 (by dsimp only; omega)
    exact ⟨k, g, by rw [hbuf], hg⟩
  | sem p => exact hb
  | mutex p => exact hb
  | pool a b => exact hb
  | uart u =>
    obtain ⟨k, g, e, hinit⟩ := hb
    rw [Backed, hu u rfl hinit]
    exact ⟨k, g, e, hinit⟩

theorem Owns.mem_bind (hx : (o, gs) ∈ own) : gs ⊆ own.bind Prod.snd + G₀ := by
  intro y hy
  exact Multiset.mem_add.2 (.inl (Multiset.mem_bind.2 ⟨_, hx, hy⟩))

/-- A call that takes and gives nothing. -/
theorem Owns.keep (ho : Owns t G₀ s own) (hout : Outstanding t h' (own.bind Prod.snd + G₀))
    (hk : Kept (own.bind Prod.snd + G₀) s.heap.mem h'.mem)
    (hu : ∀ u, (s.uarts u).initialized = true → uarts' u = s.uarts u) : Owns t G₀ ⟨h', uarts', s.live⟩ own where
  live := ho.live
  backed x hx := (ho.backed x hx).congr (hk.mono (Owns.mem_bind hx)) fun u _ => hu u
  heap := hout

/-- A call that creates an object. -/
theorem Owns.add (ho : Owns t G₀ s own) (hout : Outstanding t h' (gs + (own.bind Prod.snd + G₀)))
    (hk : Kept (own.bind Prod.snd + G₀) s.heap.mem h'.mem)
    (hu : ∀ u, (s.uarts u).initialized = true → uarts' u = s.uarts u) (hb : Backed t h'.mem uarts' o gs) :
    Owns t G₀ ⟨h', uarts', o :: s.live⟩ ((o, gs) ::ₘ own) where
  live := by rw [Multiset.map_cons, ho.live, Multiset.cons_coe]
  backed x hx := by
    rcases Multiset.mem_cons.1 hx with rfl | hx
    · exact hb
    · exact (ho.backed x hx).congr (hk.mono (Owns.mem_bind hx)) fun u _ => hu u
  heap := by rwa [Multiset.cons_bind, add_assoc]

/-- A live object has its grants. -/
theorem Owns.grants (ho : Owns t G₀ s own) (hl : o ∈ s.live) :
    ∃ gs own', own = (o, gs) ::ₘ own' ∧ Backed t s.heap.mem s.uarts o gs ∧
      Outstanding t s.heap (gs + (own'.bind Prod.snd + G₀)) := by
  obtain ⟨gs, hx⟩ := grant_of_live ho.live hl
  obtain ⟨own', rfl⟩ := Multiset.exists_cons_of_mem hx
  refine ⟨gs, own', rfl, ho.backed _ hx, ?_⟩
  have := ho.heap
  rwa [Multiset.cons_bind, add_assoc] at this

/-- A call that destroys an object. -/
theorem Owns.remove (ho : Owns t G₀ s ((o, gs) ::ₘ own)) (hout : Outstanding t h' (own.bind Prod.snd + G₀))
    (hk : Kept (own.bind Prod.snd + G₀) s.heap.mem h'.mem)
    (hu : ∀ u, o ≠ .uart u → uarts' u = s.uarts u) : Owns t G₀ ⟨h', uarts', s.live.erase o⟩ own where
  live := by
    rw [← Multiset.coe_erase, ← ho.live, Multiset.map_cons, Multiset.erase_cons_head]
  backed x hx := by
    refine (ho.backed x (Multiset.mem_cons_of_mem hx)).congr (hk.mono (Owns.mem_bind hx)) fun u hxu hinit => hu u ?_
    -- no UART is live twice: its buffer would be granted twice
    intro hou
    obtain ⟨o', gs'⟩ := x
    subst hxu hou
    obtain ⟨k, g, rfl, -⟩ := ho.backed _ (Multiset.mem_cons_self _ _)
    obtain ⟨k', g', hgs', -⟩ := ho.backed _ (Multiset.mem_cons_of_mem hx)
    have hn := ho.heap.nodup
    rw [Multiset.cons_bind, add_assoc, Multiset.cons_add, Multiset.map_cons, Multiset.nodup_cons] at hn
    refine hn.1 (Multiset.mem_map.2 ⟨((s.uarts u).txBuffer.buffer, k'), Multiset.mem_add.2 (.inr ?_), rfl⟩)
    apply Owns.mem_bind hx
    dsimp only at hgs'
    rw [hgs']
    exact Multiset.mem_cons_self _ _
  heap := hout

/-! ## The calls -/

/-- What every call does: it returns, the objects own their grants, and if it
was to create an object and did not, the heap is the same. -/
def Sound (t : Target) (G₀ : Multiset (Nat × Nat)) (s : ObjSys) (c : ObjCall) : Prop :=
  ∃ s' own', s.call t c = some s' ∧ Owns t G₀ s' own' ∧
    (c.creates = true → s'.live = s.live → SameHeap t s.heap s'.heap)

/-- A creation that failed. -/
theorem Owns.failed (ho : Owns t G₀ s own) (hout : Outstanding t h' (own.bind Prod.snd + G₀))
    (hk : Kept (own.bind Prod.snd + G₀) s.heap.mem h'.mem)
    (hu : ∀ u, (s.uarts u).initialized = true → uarts' u = s.uarts u)
    (e : s.call t c = some ⟨h', uarts', s.live⟩) : Sound t G₀ s c :=
  ⟨_, own, e, ho.keep hout hk hu, fun _ _ => outstanding_unique ho.heap hout⟩

/-- A creation that succeeded. -/
theorem Owns.created (ho : Owns t G₀ s own) (gs : Multiset (Nat × Nat)) (hout : Outstanding t h' (gs + (own.bind Prod.snd + G₀)))
    (hk : Kept (own.bind Prod.snd + G₀) s.heap.mem h'.mem)
    (hu : ∀ u, (s.uarts u).initialized = true → uarts' u = s.uarts u) (hb : Backed t h'.mem uarts' o gs)
    (e : s.call t c = some ⟨h', uarts', o :: s.live⟩) : Sound t G₀ s c :=
  ⟨_, _, e, ho.add hout hk hu hb, fun _ h => absurd h (List.cons_ne_self _ _)⟩

/-- An object destroyed. -/
theorem Owns.destroyed (ho : Owns t G₀ s ((o, gs) ::ₘ own)) (hout : Outstanding t h' (own.bind Prod.snd + G₀))
    (hk : Kept (own.bind Prod.snd + G₀) s.heap.mem h'.mem)
    (hu : ∀ u, o ≠ .uart u → uarts' u = s.uarts u) (hc : c.creates = false)
    (e : s.call t c = some ⟨h', uarts', s.live.erase o⟩) : Sound t G₀ s c :=
  ⟨_, own, e, ho.remove hout hk hu, fun h => by rw [hc] at h; cases h⟩

/-- A call that changes nothing. -/
theorem Owns.idle (ho : Owns t G₀ s own) (e : s.call t c = some s) : Sound t G₀ s c :=
  ⟨s, own, e, ho, fun _ _ => outstanding_unique ho.heap ho.heap⟩

theorem mqCreate_sound {msgSize maxMsgs : Nat} (ho : Owns t G₀ s own) (h1 : msgSize < t.sizeMod)
    (h2 : maxMsgs < t.sizeMod) : Sound t G₀ s (.mqCreate msgSize maxMsgs) := by
  rcases mqCreate_outstanding ho.heap h1 h2 with ⟨h', e, hout, hk⟩ |
    ⟨h', mq, g, b, k, e, hmq, -, hg, -, hout, hk, hf⟩
  · exact ho.failed hout hk (fun _ _ => rfl) (by rw [ObjSys.call, e]; rfl)
  · refine ho.created (o := .mq mq) ((b, k) ::ₘ (mq, g) ::ₘ 0) ?_ hk (fun _ _ => rfl) ?_ ?_
    · simpa only [Multiset.cons_add, Multiset.zero_add] using hout
    · exact ⟨k, g, by rw [hf.buffer], hg⟩
    · rw [ObjSys.call, e, Option.map_some, if_pos hmq]

theorem mqDestroy_sound {mq : Nat} (ho : Owns t G₀ s own) (hl : .mq mq ∈ s.live) :
    Sound t G₀ s (.mqDestroy mq) := by
  obtain ⟨gs, own', rfl, ⟨k, g, rfl, -⟩, hout⟩ := ho.grants hl
  simp only [Multiset.cons_add, Multiset.zero_add] at hout
  obtain ⟨h', e, hout', hk⟩ := mqDestroy_outstanding hout rfl
  exact ho.destroyed hout' hk (fun _ _ => rfl) rfl (by rw [ObjSys.call, e]; rfl)

/-- The structures of one grant, semaphores and mutexes. -/
theorem structCreate_sound (mk : Nat → KObj) {fill : Mem → Nat → Mem} (ho : Owns t G₀ s own)
    (hfill : ∀ m p x, (x < p ∨ p + 8 ≤ x) → fill m p x = m x)
    (hmk : ∀ m p g, Backed t m s.uarts (mk p) ((p, g) ::ₘ 0))
    (hc : s.call t c = (structCreate t s.heap 8 fill).map fun r =>
      { s with heap := r.1, live := if r.2 ≠ 0 then mk r.2 :: s.live else s.live }) : Sound t G₀ s c := by
  have hmod := t.sizeMod_ge
  rcases structCreate_outstanding ho.heap (show 8 + 3 < t.sizeMod by omega) hfill with e | ⟨h', p, g, e, hp, -, hout, hk⟩
  · exact ho.idle (by rw [hc, e]; rfl)
  · refine ho.created (o := mk p) ((p, g) ::ₘ 0) ?_ hk (fun _ _ => rfl) (hmk _ p g) ?_
    · simpa only [Multiset.cons_add, Multiset.zero_add] using hout
    · rw [hc, e, Option.map_some, if_pos hp]

theorem structDestroy_sound {p : Nat} (ho : Owns t G₀ s own) (hl : o ∈ s.live) (hc : c.creates = false)
    (hb : ∀ gs, Backed t s.heap.mem s.uarts o gs → ∃ g, gs = (p, g) ::ₘ 0)
    (e : s.call t c = (structDestroy t s.heap p).map fun h => { s with heap := h, live := s.live.erase o }) :
    Sound t G₀ s c := by
  obtain ⟨gs, own', rfl, hgs, hout⟩ := ho.grants hl
  obtain ⟨g, rfl⟩ := hb gs hgs
  simp only [Multiset.cons_add, Multiset.zero_add] at hout
  obtain ⟨h', e', hout', hk⟩ := structDestroy_outstanding hout
  exact ho.destroyed hout' hk (fun _ _ => rfl) hc (by rw [e, e']; rfl)

theorem poolCreate_sound (ho : Owns t G₀ s own) (pool : Option MemoryPool) (blockSize numBlocks : Nat) :
    Sound t G₀ s (.poolCreate pool blockSize numBlocks) := by
  rcases poolCreate_outstanding ho.heap pool blockSize numBlocks with ⟨h', pool', st, e, hst, hout, hk⟩ |
    ⟨h', p, g, q, k, e, -, -, -, -, -, -, hout, -, hk⟩
  · exact ho.failed hout hk (fun _ _ => rfl) (by rw [ObjSys.call, e, Option.map_some, if_neg hst])
  · refine ho.created (o := .pool p q) ((q, k) ::ₘ (p, g) ::ₘ 0) ?_ hk (fun _ _ => rfl) ⟨k, g, rfl⟩ ?_
    · simpa only [Multiset.cons_add, Multiset.zero_add] using hout
    · rw [ObjSys.call, e]
      rfl

theorem poolDestroy_sound {pool : MemoryPool} (ho : Owns t G₀ s own)
    (hl : .pool pool.poolStart pool.freeList ∈ s.live) : Sound t G₀ s (.poolDestroy (some pool)) := by
  obtain ⟨gs, own', rfl, ⟨k, g, rfl⟩, hout⟩ := ho.grants hl
  simp only [Multiset.cons_add, Multiset.zero_add] at hout
  obtain ⟨h', e, hout', hk⟩ := poolDestroy_outstanding hout
  exact ho.destroyed hout' hk (fun _ _ => rfl) rfl (by rw [ObjSys.call, e]; rfl)

theorem uartInit_sound (ho : Owns t G₀ s own) (uartId : UInt8) (config : Option UartConfig) :
    Sound t G₀ s (.uartInit uartId config) := by
  rcases uartInit_outstanding ho.heap s.uarts uartId config with ⟨h', uarts', e, hout, hk, hu⟩ |
    ⟨u, e, hinit⟩ | ⟨h', u, c, p, g, q, k, handle, e, hh, -, hinit, hout, hk⟩
  · exact ho.failed hout hk hu (by rw [ObjSys.call, e]; rfl)
  · apply ho.idle
    rw [ObjSys.call, e, Option.map_some]
    dsimp only
    rw [if_pos hinit]
  · have hcall : s.call t (.uartInit uartId config) =
        some ⟨h', Function.update s.uarts u handle, .uart u :: s.live⟩ := by
      rw [ObjSys.call, e, Option.map_some]
      dsimp only
      rw [if_neg (by rw [hinit]; decide)]
    refine ho.created ((q, k) ::ₘ (p, g) ::ₘ 0) ?_ hk (fun v hv => ?_) ?_ hcall
    · simpa only [Multiset.cons_add, Multiset.zero_add] using hout
    · refine Function.update_of_ne ?_ _ _
      intro h
      rw [h, hinit] at hv
      cases hv
    · rw [Backed, Function.update_self, hh]
      exact ⟨k, g, rfl, rfl⟩

theorem uartDeinit_sound (ho : Owns t G₀ s own) (hl : .uart u ∈ s.live) :
    Sound t G₀ s (.uartDeinit (some u)) := by
  obtain ⟨gs, own', rfl, ⟨k, g, rfl, hinit⟩, hout⟩ := ho.grants hl
  simp only [Multiset.cons_add, Multiset.zero_add] at hout
  obtain ⟨h', handle, e, -, hout', hk⟩ := uartDeinit_outstanding hinit hout
  refine ho.destroyed hout' hk (fun v hv => ?_) rfl (by rw [ObjSys.call, e]; rfl)
  exact Function.update_of_ne (fun h => hv (by rw [h])) _ _

/-- No live object is NULL, and the live UARTs are initialised. -/
theorem Owns.live_ne (ho : Owns t G₀ s own) : .mq 0 ∉ s.live ∧ .sem 0 ∉ s.live ∧ .mutex 0 ∉ s.live ∧
    .pool 0 0 ∉ s.live ∧ ∀ u, .uart u ∈ s.live → (s.uarts u).initialized = true := by
  refine ⟨fun hl => ?_, fun hl => ?_, fun hl => ?_, fun hl => ?_, fun u hl => ?_⟩
  · obtain ⟨gs, own', -, ⟨k, g, rfl, -⟩, hout⟩ := ho.grants hl
    exact hout.ne_zero (p := 0) (g := g) (by simp) rfl
  · obtain ⟨gs, own', -, ⟨g, rfl⟩, hout⟩ := ho.grants hl
    exact hout.ne_zero (p := 0) (g := g) (by simp) rfl
  · obtain ⟨gs, own', -, ⟨g, rfl⟩, hout⟩ := ho.grants hl
    exact hout.ne_zero (p := 0) (g := g) (by simp) rfl
  · obtain ⟨gs, own', -, ⟨k, g, rfl⟩, hout⟩ := ho.grants hl
    exact hout.ne_zero (p := 0) (g := g) (by simp) rfl
  · obtain ⟨gs, own', -, ⟨k, g, -, hinit⟩, -⟩ := ho.grants hl
    exact hinit

/-- Every legal call is sound. -/
theorem call_sound (ho : Owns t G₀ s own) (hc : ObjLegal t s c) : Sound t G₀ s c := by
  obtain ⟨hmq, hsem, hmutex, hpool, huart⟩ := ho.live_ne
  cases c with
  | mqCreate msgSize maxMsgs => exact mqCreate_sound ho hc.1 hc.2
  | mqDestroy mq =>
    rcases hc with rfl | hl
    · exact ho.idle (by rw [ObjSys.call, mqDestroy, if_neg (by decide), List.erase_of_not_mem hmq]; rfl)
    · exact mqDestroy_sound ho hl
  | semCreate a b =>
    exact structCreate_sound .sem ho (sem_fill a b) (fun _ _ g => ⟨g, rfl⟩) rfl
  | semDestroy sem =>
    rcases hc with rfl | hl
    · exact ho.idle (by rw [ObjSys.call, semDestroy, structDestroy, if_neg (by decide),
        List.erase_of_not_mem hsem]; rfl)
    · exact structDestroy_sound (p := sem) ho hl rfl (fun _ h => h) rfl
  | mutexCreate =>
    exact structCreate_sound .mutex ho mutex_fill (fun _ _ g => ⟨g, rfl⟩) rfl
  | mutexDestroy mutex =>
    rcases hc with rfl | hl
    · exact ho.idle (by rw [ObjSys.call, mutexDestroy, structDestroy, if_neg (by decide),
        List.erase_of_not_mem hmutex]; rfl)
    · exact structDestroy_sound (p := mutex) ho hl rfl (fun _ h => h) rfl
  | poolCreate pool blockSize numBlocks => exact poolCreate_sound ho pool blockSize numBlocks
  | poolDestroy pool =>
    cases pool with
    | none => exact ho.idle rfl
    | some pool =>
      rcases hc with ⟨h1, h2⟩ | hl
      · apply ho.idle
        simp [ObjSys.call, memoryPoolDestroy, h1, h2, List.erase_of_not_mem hpool]
      · exact poolDestroy_sound ho hl
  | uartInit uartId config => exact uartInit_sound ho uartId config
  | uartDeinit u =>
    cases u with
    | none => exact ho.idle rfl
    | some u =>
      rcases hc with hn | hl
      · have hnot : .uart u ∉ s.live := fun h => by rw [huart u h] at hn; cases hn
        apply ho.idle
        rw [ObjSys.call, Drivers.uartDeinit, hn]
        dsimp only
        rw [List.erase_of_not_mem hnot]
        rfl
      · exact uartDeinit_sound ho hl

/-! ## Whole runs -/

/-- A run keeps the grants of the start. -/
theorem run_owns {s₀ : ObjSys} {calls : List ObjCall} (ho : Outstanding t s₀.heap G₀) (hl : s₀.live = [])
    (hr : (objSys t).Run s₀ calls s) : ∃ own, Owns t G₀ s own := by
  refine LTS.run_keeps (I := fun s => ∃ own, Owns t G₀ s own) (fun s c s' hi hs => ?_) hr
    ⟨0, by rw [hl]; rfl, fun _ h => absurd h (Multiset.notMem_zero _), by simpa using ho⟩
  obtain ⟨own, hown⟩ := hi
  obtain ⟨s₁, own', e, h1, -⟩ := call_sound hown hs.1
  obtain rfl : s₁ = s' := Option.some.inj (e.symm.trans hs.2)
  exact ⟨own', h1⟩

/-- **No kernel object leaks heap.** In every run from any heap in use, when
all objects created are destroyed the block list and the byte counters are
those of the start. At any point of the run a creation that fails leaves them
as they were, and every legal call returns. -/
theorem no_leak (t : Target) (hs : HeapSys) (h : (allocSys t).Reachable hs) (uarts : UartInstances)
    (calls : List ObjCall) (s : ObjSys) (hr : (objSys t).Run ⟨hs.heap, uarts, []⟩ calls s) :
    (s.live = [] → SameHeap t hs.heap s.heap) ∧
    (∀ c s', c.creates = true → (objSys t).step s c s' → s'.live = s.live → SameHeap t s.heap s'.heap) ∧
    ∀ c, ObjLegal t s c → ∃ s', (objSys t).step s c s' := by
  obtain ⟨G, hG, -⟩ := ((accounted_inductive t).reachable hs h).grants
  obtain ⟨own, ho⟩ := run_owns hG rfl hr
  refine ⟨fun hl => ?_, fun c s' hc hstep => ?_, fun c hc => ?_⟩
  · have h0 : own = 0 := by
      have := ho.live
      rw [hl] at this
      exact Multiset.map_eq_zero.1 this
    have hout := ho.heap
    rw [h0, Multiset.zero_bind, Multiset.zero_add] at hout
    exact outstanding_unique hG hout
  · obtain ⟨s₁, own', e, -, hsame⟩ := call_sound ho hstep.1
    obtain rfl : s₁ = s' := Option.some.inj (e.symm.trans hstep.2)
    exact hsame hc
  · obtain ⟨s', own', e, -⟩ := call_sound ho hc
    exact ⟨s', hc, e⟩

instance (s : ObjSys) : (c : ObjCall) → Decidable (ObjLegal t s c)
  | .mqCreate .. => inferInstanceAs (Decidable (_ ∧ _))
  | .mqDestroy _ | .semDestroy _ | .mutexDestroy _ => inferInstanceAs (Decidable (_ ∨ _))
  | .semCreate .. | .mutexCreate | .poolCreate .. | .uartInit .. => inferInstanceAs (Decidable True)
  | .poolDestroy none | .uartDeinit none => inferInstanceAs (Decidable True)
  | .poolDestroy (some _) => inferInstanceAs (Decidable (_ ∨ _))
  | .uartDeinit (some _) => inferInstanceAs (Decidable (_ ∨ _))

/-- A queue and a semaphore, a queue that does not fit, and both destroyed in
the order they were made. -/
theorem no_leak_board : ∃ s, (objSys board).Run ⟨(HeapSys.boot board).heap, boardUarts, []⟩
      [.mqCreate 4 2, .semCreate 1 2, .mqCreate 60000 2, .mqDestroy 0x20000010, .semDestroy 0x20000050] s ∧
    SameHeap board (HeapSys.boot board).heap s.heap := by
  have hinit : (objSys board).init ⟨(HeapSys.boot board).heap, boardUarts, []⟩ :=
    ⟨⟨HeapSys.boot board, ⟨_, [], rfl, .nil _⟩, rfl⟩, rfl⟩
  obtain ⟨s, hr, -, hl⟩ := LTS.reachable_of_exec (M := objSys board) LTS.step_of_guarded hinit
    (fun s => s.live = [])
    [.mqCreate 4 2, .semCreate 1 2, .mqCreate 60000 2, .mqDestroy 0x20000010, .semDestroy 0x20000050]
    (by decide +kernel)
  exact ⟨s, hr, (no_leak board (HeapSys.boot board) ⟨_, [], rfl, .nil _⟩ boardUarts _ s hr).1 hl⟩

end Rtos.Objects
