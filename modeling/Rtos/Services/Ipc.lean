import Rtos.Services.Memory

/-!
# Queues, semaphores and mutexes carry out the specification
-/
namespace Rtos.Services

open Rtos.Core Rtos.Heap Rtos.Ipc
open Rtos.Drivers (UartHandle)
open Rtos.Sched (RtosStatus)

variable {t : Target} {callbacks : Nat → Nat → Mem × UartHandle → Mem × UartHandle} {task : UInt32} {s : Store}
  {W : World} {m m' : Mem} {gs : Grants} {mq sem mutex b x msgSize maxMsgs : Nat}

theorem isQueue_kinds (hl : W.kinds.isQueue mq = true) :
    ∃ msgSize maxMsgs msgs, W (.ptr mq) = some (.queue msgSize maxMsgs msgs) := by
  unfold Live.isQueue World.kinds at hl
  cases hW : W (.ptr mq) with
  | none => rw [hW] at hl; cases hl
  | some o =>
    rw [hW] at hl
    cases o with
    | queue msgSize maxMsgs msgs => exact ⟨_, _, _, rfl⟩
    | _ => cases hl

theorem isSem_kinds (hl : W.kinds.isSem sem = true) : ∃ count maxCount, W (.ptr sem) = some (.sem count maxCount) := by
  unfold Live.isSem World.kinds at hl
  cases hW : W (.ptr sem) with
  | none => rw [hW] at hl; cases hl
  | some o =>
    rw [hW] at hl
    cases o with
    | sem count maxCount => exact ⟨_, _, rfl⟩
    | _ => cases hl

theorem isMutex_kinds (hl : W.kinds.isMutex mutex = true) : ∃ owner, W (.ptr mutex) = some (.mutex owner) := by
  unfold Live.isMutex World.kinds at hl
  cases hW : W (.ptr mutex) with
  | none => rw [hW] at hl; cases hl
  | some o =>
    rw [hW] at hl
    cases o with
    | mutex owner => exact ⟨_, rfl⟩
    | _ => cases hl

/-! ## Message queues -/

theorem mqCreate_sound (hi : Implements t s W) (hl : Legal t W.kinds (.mqCreate msgSize maxMsgs)) :
    Sound t callbacks task s W (.mqCreate msgSize maxMsgs) := by
  obtain ⟨hmsg, hmax, hsize⟩ := hl
  have hmul : t.mul msgSize maxMsgs = msgSize * maxMsgs := Nat.mod_eq_of_lt (by omega)
  refine hi.create fun rest ho => ?_
  rcases mqCreate_outstanding ho hmsg hmax with h | ⟨h', mq, g, b, k, e, hmq, hzero, hg, hk, ho', hkept, hf⟩
  · exact .inl h
  rw [hmul] at hk hzero
  have hk' : msgSize * maxMsgs ≤ k := (le_alignSize hsize).trans hk
  have hpos : 0 < maxMsgs := Nat.pos_of_ne_zero fun h => hzero (by rw [h, Nat.mul_zero])
  have hbb := ho'.bounds (Multiset.mem_cons_self (b, k) _)
  have hlt := t.heap_lt
  refine .inr ⟨h', mq, .queue msgSize maxMsgs [], (b, k) ::ₘ {(mq, g)}, e, hmq, ⟨hzero, rfl⟩,
    ⟨g, b, k, .empty hpos, rfl, hg, hk', ⟨hmq, hmax, by omega, ?_⟩, ?_, (Ring.items_empty _ hpos).symm⟩, ?_, hkept⟩
  · rcases ho'.head_apart (Multiset.mem_cons_self _ _) with h | h
    · exact .inl (by omega)
    · exact .inr (by omega)
  · rw [Ring.head_empty]
    exact hf
  · rwa [Multiset.cons_add, Multiset.singleton_add]

/-- A send writes to the structure and the buffer only. -/
theorem mqSend_outside {r : Ring maxMsgs} {msg : Nat → UInt8} {st : RtosStatus}
    (hp : QueuePlaced t mq b msgSize maxMsgs) (hf : MqFields t m mq b msgSize maxMsgs r.count r.head r.tail)
    (e : mqSend t m mq (some msg) = some (m', st)) (h1 : x < mq ∨ mq + mqStruct t ≤ x)
    (h2 : x < b ∨ b + msgSize * maxMsgs ≤ x) : m' x = m x := by
  unfold mqSend at e
  dsimp only at e
  rw [if_neg hp.ne_zero] at e
  split at e
  · cases e; rfl
  rw [hf.buffer, hf.head, hf.msgSize, hp.slot_addr r.head_lt] at e
  split at e
  · cases e
  · cases e
    have := slot_le msgSize r.head_lt
    rw [setMqField_outside (by decide) h1, setMqField_outside (by decide) h1, Mem.put_outside (by omega)]

/-- A receive writes to the structure only. -/
theorem mqReceive_outside {msg : Bool} {bytes : List UInt8} {st : RtosStatus}
    (e : mqReceive t m mq msg = some (m', bytes, st)) (h1 : x < mq ∨ mq + mqStruct t ≤ x) : m' x = m x := by
  unfold mqReceive at e
  split at e
  · cases e; rfl
  split at e
  · cases e; rfl
  dsimp only at e
  split at e
  · cases e
  · cases e
    rw [setMqField_outside (by decide) h1, setMqField_outside (by decide) h1]

theorem mqSend_sound {msg : Option (Nat → UInt8)} (hi : Implements t s W) (hl : Legal t W.kinds (.mqSend mq msg)) :
    Sound t callbacks task s W (.mqSend mq msg) := by
  refine hi.act_ptr (fun h0 => ?_) fun h0 => ?_
  · subst h0
    cases msg <;> rfl
  obtain ⟨msgSize, maxMsgs, msgs, hW⟩ := isQueue_kinds (hl.resolve_left h0)
  refine ⟨_, hW, fun gs hr => ?_⟩
  cases msg with
  | none => exact ⟨s, _, _, rfl, rfl, hr, .refl _ _ _⟩
  | some msg =>
    obtain ⟨g, b, k, r, rfl, hg, hk, hp, hf, rfl⟩ := hr
    rcases send_ring hp hf msg with ⟨hfull, e⟩ | ⟨hc, m', e, hf', hitems⟩
    · refine ⟨s, .queue msgSize maxMsgs _, _, by rw [Store.call, e]; rfl, ?_,
        ⟨g, b, k, r, rfl, hg, hk, hp, hf, rfl⟩, .refl _ _ _⟩
      rw [Act.send, Ring.length_items, if_pos (by omega)]
    · refine ⟨s.setMem m', .queue msgSize maxMsgs _, _, by rw [Store.call, e]; rfl, ?_,
        ⟨g, b, k, r.push hc, rfl, hg, hk, hp, hf', hitems.symm⟩, .setMem fun x hx => ?_⟩
      · rw [Act.send, Ring.length_items, if_neg (by omega)]
      · have h1 := hx (b, k) (Multiset.mem_cons_self _ _)
        have h2 := hx (mq, g) (Multiset.mem_cons_of_mem (Multiset.mem_singleton_self _))
        dsimp only at h1 h2
        exact mqSend_outside hp hf e (by omega) (by omega)

theorem mqReceive_sound {msg : Bool} (hi : Implements t s W) (hl : Legal t W.kinds (.mqReceive mq msg)) :
    Sound t callbacks task s W (.mqReceive mq msg) := by
  refine hi.act_ptr (fun h0 => ?_) fun h0 => ?_
  · rw [Store.call, mqReceive, if_pos (.inl h0)]
    rfl
  obtain ⟨msgSize, maxMsgs, msgs, hW⟩ := isQueue_kinds (hl.resolve_left h0)
  refine ⟨_, hW, fun gs hr => ?_⟩
  cases msg with
  | false =>
    refine ⟨s, _, _, ?_, rfl, hr, .refl _ _ _⟩
    rw [Store.call, mqReceive, if_pos (.inr rfl)]
    rfl
  | true =>
    obtain ⟨g, b, k, r, rfl, hg, hk, hp, hf, rfl⟩ := hr
    rcases receive_ring hp hf with ⟨h0, e⟩ | ⟨m', hc, e, hf', hitems⟩
    · refine ⟨s, .queue msgSize maxMsgs [], .message [] .errorTimeout, by rw [Store.call, e]; rfl, ?_,
        ⟨g, b, k, r, rfl, hg, hk, hp, hf, ?_⟩, .refl _ _ _⟩
      · rw [List.length_eq_zero_iff.1 ((r.length_items _).trans h0)]
        rfl
      · exact (List.length_eq_zero_iff.1 ((r.length_items _).trans h0)).symm
    · refine ⟨s.setMem m', .queue msgSize maxMsgs (r.pop.items (Ipc.slot m' b msgSize)), _,
        by rw [Store.call, e]; rfl, ?_, ⟨g, b, k, r.pop, rfl, hg, hk, hp, hf', rfl⟩, .setMem fun x hx => ?_⟩
      · rw [hitems]
        rfl
      · have h2 := hx (mq, g) (Multiset.mem_cons_of_mem (Multiset.mem_singleton_self _))
        dsimp only at h2
        exact mqReceive_outside e (by omega)

theorem mqDestroy_sound (hi : Implements t s W) (hl : Legal t W.kinds (.mqDestroy mq)) :
    Sound t callbacks task s W (.mqDestroy mq) := by
  refine hi.destroy (fun h0 => ?_) fun h0 => ?_
  · rw [mqDestroy, if_neg (by simpa using h0)]
  obtain ⟨msgSize, maxMsgs, msgs, hW⟩ := isQueue_kinds (hl.resolve_left h0)
  refine ⟨_, hW, fun gs rest hr ho => ?_⟩
  obtain ⟨g, b, k, r, rfl, -, -, -, hf, -⟩ := hr
  rw [Multiset.cons_add, Multiset.singleton_add] at ho
  exact mqDestroy_outstanding ho hf.buffer

/-! ## Semaphores and mutexes -/

/-- A structure of one grant is destroyed. -/
theorem structDestroy_sound {p : Nat} (hi : Implements t s W) (hW : p ≠ 0 → ∃ o, W (.ptr p) = some o ∧
    ∀ gs, ObjectAt t (.ptr p) o gs s → ∃ g, gs = {(p, g)}) :
    ∃ s' r W', (structDestroy t s.heap p).map (fun h => ({ s with heap := h }, Ret.unit)) = some (s', r) ∧
      Destroys W r W' p ∧ Implements t s' W' := by
  refine hi.destroy (fun h0 => ?_) fun h0 => ?_
  · rw [structDestroy, if_neg (by simpa using h0)]
  · obtain ⟨o, hW, hs⟩ := hW h0
    refine ⟨o, hW, fun gs rest hr ho => ?_⟩
    obtain ⟨g, rfl⟩ := hs gs hr
    rw [Multiset.singleton_add] at ho
    exact structDestroy_outstanding ho

theorem semCreate_sound {a c : UInt32} (hi : Implements t s W) :
    Sound t callbacks task s W (.semCreate a c) := by
  refine hi.create fun rest ho => ?_
  have hmod := t.sizeMod_ge
  rcases structCreate_outstanding ho (show 8 + 3 < t.sizeMod by omega) (sem_fill a.toNat c.toNat) with
    e | ⟨h', p, g, e, hp, hg, ho', hk⟩
  · exact .inl ⟨s.heap, e, ho, .refl _ _⟩
  · obtain ⟨h1, h2⟩ := semCreate_fields e hp
    exact .inr ⟨h', p, .sem a.toNat c.toNat, {(p, g)}, e, hp, rfl, ⟨g, rfl, hg, h1, h2⟩,
      by rwa [Multiset.singleton_add], hk⟩

theorem semTake_sound {timeout : UInt32} (hi : Implements t s W) (hl : Legal t W.kinds (.semTake sem timeout)) :
    Sound t callbacks task s W (.semTake sem timeout) := by
  refine hi.act_ptr (fun h0 => ?_) fun h0 => ?_
  · rw [Store.call, semTake, if_pos h0]
    rfl
  obtain ⟨count, maxCount, hW⟩ := isSem_kinds (hl.resolve_left h0)
  refine ⟨_, hW, fun gs hr => ?_⟩
  obtain ⟨g, rfl, hg, rfl, rfl⟩ := hr
  by_cases hc : semCount s.heap.mem sem = 0
  · refine ⟨s, _, _, ?_, if_pos hc, ⟨g, rfl, hg, rfl, rfl⟩, .refl _ _ _⟩
    rw [Store.call, semTake, if_neg h0, if_pos hc]
    rfl
  · have hlt : semCount s.heap.mem sem < 256 ^ 4 := Mem.read_lt _ _ _
    refine ⟨s.setMem (s.heap.mem.write sem 4 (semCount s.heap.mem sem - 1)), _, _, ?_, if_neg hc,
      ⟨g, rfl, hg, Mem.read_write_self (by omega), Mem.read_write_apart (by omega)⟩, .setMem fun x hx => ?_⟩
    · rw [Store.call, semTake, if_neg h0, if_neg hc]
    · have := hx (sem, g) (Multiset.mem_singleton_self _)
      exact Mem.write_outside (by dsimp only at this; omega)

theorem semGive_sound (hi : Implements t s W) (hl : Legal t W.kinds (.semGive sem)) :
    Sound t callbacks task s W (.semGive sem) := by
  refine hi.act_ptr (fun h0 => ?_) fun h0 => ?_
  · rw [Store.call, semGive, if_pos h0]
    rfl
  obtain ⟨count, maxCount, hW⟩ := isSem_kinds (hl.resolve_left h0)
  refine ⟨_, hW, fun gs hr => ?_⟩
  obtain ⟨g, rfl, hg, rfl, rfl⟩ := hr
  by_cases hc : semMaxCount s.heap.mem sem ≤ semCount s.heap.mem sem
  · refine ⟨s, _, _, ?_, if_pos hc, ⟨g, rfl, hg, rfl, rfl⟩, .refl _ _ _⟩
    rw [Store.call, semGive, if_neg h0, if_pos hc]
    rfl
  · -- below a `uint32_t` the count does not wrap
    have hlt : semMaxCount s.heap.mem sem < 256 ^ 4 := Mem.read_lt _ _ _
    refine ⟨s.setMem (s.heap.mem.write sem 4 (semCount s.heap.mem sem + 1)), _, _, ?_, if_neg hc,
      ⟨g, rfl, hg, Mem.read_write_self (by omega), Mem.read_write_apart (by omega)⟩, .setMem fun x hx => ?_⟩
    · rw [Store.call, semGive, if_neg h0, if_neg hc]
    · have := hx (sem, g) (Multiset.mem_singleton_self _)
      exact Mem.write_outside (by dsimp only at this; omega)

theorem semDestroy_sound (hi : Implements t s W) (hl : Legal t W.kinds (.semDestroy sem)) :
    Sound t callbacks task s W (.semDestroy sem) := by
  refine structDestroy_sound hi fun h0 => ?_
  obtain ⟨count, maxCount, hW⟩ := isSem_kinds (hl.resolve_left h0)
  exact ⟨_, hW, fun gs hr => ⟨hr.choose, hr.choose_spec.1⟩⟩

theorem mutexCreate_sound (hi : Implements t s W) : Sound t callbacks task s W .mutexCreate := by
  refine hi.create fun rest ho => ?_
  have hmod := t.sizeMod_ge
  unfold mutexCreate structCreate
  rcases malloc_outstanding ho 8 with e | ⟨h', p, g, e, hp, hg, ho', hk, -⟩
  · exact .inl ⟨s.heap, by rw [e]; rfl, ho, .refl _ _⟩
  · have hg' := (le_alignSize (show 8 + 3 < t.sizeMod by omega)).trans hg
    obtain ⟨ho₂, hk₂⟩ := write_outstanding ho' (setMutex h'.mem p false 0)
      fun x hx => setMutex_outside _ _ _ _ (by omega)
    refine .inr ⟨_, p, .mutex none, {(p, g)}, ?_, hp, rfl, ⟨g, rfl, hg', setMutex_locked _ _ _ _, ?_⟩,
      by rwa [Multiset.singleton_add], hk.trans hk₂⟩
    · rw [e, Option.map_some]
      dsimp only
      rw [if_neg hp]
      rfl
    · exact fun id hid => by cases hid

theorem mutexLock_sound {timeout : UInt32} (hi : Implements t s W)
    (hl : Legal t W.kinds (.mutexLock mutex timeout)) : Sound t callbacks task s W (.mutexLock mutex timeout) := by
  refine hi.act_ptr (fun h0 => ?_) fun h0 => ?_
  · rw [Store.call, mutexLock, if_pos h0]
    rfl
  obtain ⟨owner, hW⟩ := isMutex_kinds (hl.resolve_left h0)
  refine ⟨_, hW, fun gs hr => ?_⟩
  obtain ⟨g, rfl, hg, hlocked, howner⟩ := hr
  cases owner with
  | some owner =>
    refine ⟨s, _, _, ?_, rfl, ⟨g, rfl, hg, hlocked, howner⟩, .refl _ _ _⟩
    rw [Store.call, mutexLock, if_neg h0, if_pos (by rw [hlocked]; rfl)]
    rfl
  | none =>
    refine ⟨s.setMem (setMutex s.heap.mem mutex true task), _, _, ?_, rfl,
      ⟨g, rfl, hg, setMutex_locked _ _ _ _, fun id hid => ?_⟩, .setMem fun x hx => ?_⟩
    · rw [Store.call, mutexLock, if_neg h0, if_neg (by rw [hlocked]; decide)]
    · cases hid
      exact setMutex_owner _ _ _ _
    · have := hx (mutex, g) (Multiset.mem_singleton_self _)
      exact setMutex_outside _ _ _ _ (by dsimp only at this; omega)

theorem mutexUnlock_sound (hi : Implements t s W) (hl : Legal t W.kinds (.mutexUnlock mutex)) :
    Sound t callbacks task s W (.mutexUnlock mutex) := by
  refine hi.act_ptr (fun h0 => ?_) fun h0 => ?_
  · rw [Store.call, mutexUnlock, if_pos h0]
    rfl
  obtain ⟨owner, hW⟩ := isMutex_kinds (hl.resolve_left h0)
  refine ⟨_, hW, fun gs hr => ?_⟩
  obtain ⟨g, rfl, hg, hlocked, howner⟩ := hr
  cases owner with
  | none =>
    refine ⟨s, _, _, ?_, rfl, ⟨g, rfl, hg, hlocked, howner⟩, .refl _ _ _⟩
    rw [Store.call, mutexUnlock, if_neg h0, if_pos (by rw [hlocked]; rfl)]
    rfl
  | some owner =>
    have hid : mutexOwnerTaskId s.heap.mem mutex = owner.toNat := howner owner rfl
    have hne : ¬ (!mutexLocked s.heap.mem mutex) = true := by rw [hlocked]; simp
    by_cases ho : owner = task
    · refine ⟨s.setMem (setMutex s.heap.mem mutex false 0), _, _, ?_, if_pos ho,
        ⟨g, rfl, hg, setMutex_locked _ _ _ _, fun id hid => by cases hid⟩, .setMem fun x hx => ?_⟩
      · rw [Store.call, mutexUnlock, if_neg h0, if_neg hne, if_neg (by rw [hid, ho]; simp)]
      · have := hx (mutex, g) (Multiset.mem_singleton_self _)
        exact setMutex_outside _ _ _ _ (by dsimp only at this; omega)
    · refine ⟨s, _, _, ?_, if_neg ho, ⟨g, rfl, hg, hlocked, howner⟩, .refl _ _ _⟩
      rw [Store.call, mutexUnlock, if_neg h0, if_neg hne, if_pos (by rw [hid]; exact fun e => ho (UInt32.toNat_inj.1 e))]
      rfl

theorem mutexDestroy_sound (hi : Implements t s W) (hl : Legal t W.kinds (.mutexDestroy mutex)) :
    Sound t callbacks task s W (.mutexDestroy mutex) := by
  refine structDestroy_sound hi fun h0 => ?_
  obtain ⟨owner, hW⟩ := isMutex_kinds (hl.resolve_left h0)
  exact ⟨_, hW, fun gs hr => ⟨hr.choose, hr.choose_spec.1⟩⟩

end Rtos.Services
