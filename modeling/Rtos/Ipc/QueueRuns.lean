import Rtos.Ipc.MessageQueue

/-!
# Runs of a message queue

`queueSys` are the runs of one queue from a creation that succeeded, with the
messages sent and received so far as ghosts. `Queued`: the structure holds a
ring, and the messages sent are those received followed by the ring's items.
It holds from the start if the size of the buffer is not changed by
`align_size` (`created_queued`) and is kept by every call (`call_queued`), so
the queue is a bounded FIFO (`Queued.fifo`).
-/
namespace Rtos.Ipc

open Rtos.Core Rtos.Heap
open Rtos.Sched (RtosStatus)

/-- The queue, the messages accepted and the messages handed out. -/
structure QueueSys where
  mem : Mem
  mq : Nat
  sent : List (List UInt8)
  received : List (List UInt8)

inductive QueueCall
  | send (msg : Option (Nat → UInt8))
  | receive (msg : Bool)

section

variable (t : Target) (msgSize maxMsgs : Nat)

def QueueSys.call (s : QueueSys) : QueueCall → Option QueueSys
  | .send msg => (mqSend t s.mem s.mq msg).map fun r =>
      { s with
        mem := r.1
        sent := if r.2 = .ok then s.sent ++ [(List.range msgSize).map (msg.getD fun _ => 0)] else s.sent }
  | .receive msg => (mqReceive t s.mem s.mq msg).map fun r =>
      { s with
        mem := r.1
        received := if r.2.2 = .ok then s.received ++ [r.2.1] else s.received }

/-- What `mq_create` made on a heap in use. -/
def QueueCreated (s : QueueSys) : Prop :=
  ∃ (hs : HeapSys) (h' : HeapState), (allocSys t).Reachable hs ∧ msgSize < t.sizeMod ∧ maxMsgs < t.sizeMod ∧
    mqCreate t hs.heap msgSize maxMsgs = some (h', s.mq) ∧ s.mq ≠ 0 ∧
    s.mem = h'.mem ∧ s.sent = [] ∧ s.received = []

def queueSys : LTS QueueSys QueueCall := LTS.ofFn (QueueCreated t msgSize maxMsgs) (QueueSys.call t msgSize)

/-- The queue is a FIFO of `maxMsgs` messages. -/
structure Fifo (s : QueueSys) : Prop where
  order : s.received <+: s.sent
  send : ∀ msg, ∃ m, mqSend t s.mem s.mq (some msg) =
    some (m, if s.sent.length = s.received.length + maxMsgs then .errorBusy else .ok)
  receive : ∃ m bytes, mqReceive t s.mem s.mq true =
    some (m, bytes, if s.sent.length = s.received.length then .errorTimeout else .ok)
  sendFails : ∀ msg m st, mqSend t s.mem s.mq msg = some (m, st) → st ≠ .ok → m = s.mem
  receiveFails : ∀ msg m bytes st, mqReceive t s.mem s.mq msg = some (m, bytes, st) → st ≠ .ok → m = s.mem

end

variable {t : Target} {s s' : QueueSys} {m m' : Mem} {msgSize maxMsgs mq b i c hd tl v n : Nat}

/-- The buffer of a queue holds its messages and lies apart from its structure. -/
structure QueuePlaced (t : Target) (mq b msgSize maxMsgs : Nat) : Prop where
  ne_zero : mq ≠ 0
  msgs : maxMsgs < t.sizeMod
  fits : b + msgSize * maxMsgs < t.sizeMod
  apart : b + msgSize * maxMsgs ≤ mq ∨ mq + mqStruct t ≤ b

/-- The message in the slot `i` of the buffer at `b`. -/
def slot (m : Mem) (b msgSize i : Nat) : List UInt8 := m.bytes (b + i * msgSize) msgSize

/-- The structure holds a ring with the messages not yet received. -/
def Queued (t : Target) (msgSize maxMsgs : Nat) (s : QueueSys) : Prop :=
  ∃ (b : Nat) (r : Ring maxMsgs), QueuePlaced t s.mq b msgSize maxMsgs ∧
    MqFields t s.mem s.mq b msgSize maxMsgs r.count r.head r.tail ∧
    s.sent = s.received ++ r.items (slot s.mem b msgSize)

/-! ## Memory -/

/-- A slot below the capacity ends inside the buffer. -/
theorem slot_le (msgSize : Nat) (hi : i < maxMsgs) : i * msgSize + msgSize ≤ msgSize * maxMsgs := by
  calc i * msgSize + msgSize
      = (i + 1) * msgSize := (Nat.succ_mul _ _).symm
    _ ≤ maxMsgs * msgSize := Nat.mul_le_mul_right _ hi
    _ = msgSize * maxMsgs := Nat.mul_comm _ _

theorem QueuePlaced.slot_addr (hp : QueuePlaced t mq b msgSize maxMsgs) (hi : i < maxMsgs) :
    t.add b (t.mul i msgSize) = b + i * msgSize := by
  have h1 := slot_le msgSize hi
  have h2 := hp.fits
  rw [Target.mul, Nat.mod_eq_of_lt (a := i * msgSize) (by omega), Target.add_of_lt (by omega)]

/-- Stores to the structure change no slot. -/
theorem QueuePlaced.slot_congr (hp : QueuePlaced t mq b msgSize maxMsgs) (hi : i < maxMsgs)
    (hm : ∀ x, (x < mq ∨ mq + mqStruct t ≤ x) → m' x = m x) : slot m' b msgSize i = slot m b msgSize i := by
  have h1 := slot_le msgSize hi
  have h2 := hp.apart
  exact Mem.bytes_congr fun x h3 h4 => hm x (by omega)

/-- A copy to one slot changes no other. -/
theorem slot_put_ne {j : Nat} {f : Nat → UInt8} (h : i ≠ j) :
    slot (m.put (b + j * msgSize) f msgSize) b msgSize i = slot m b msgSize i := by
  apply Mem.bytes_put_apart
  rcases Nat.lt_or_gt_of_ne h with h | h
  · have := Nat.mul_le_mul_right msgSize (Nat.succ_le_of_lt h)
    rw [Nat.succ_mul] at this
    omega
  · have := Nat.mul_le_mul_right msgSize (Nat.succ_le_of_lt h)
    rw [Nat.succ_mul] at this
    omega

/-- The stores to `head` and `count`. -/
theorem MqFields.sent (hf : MqFields t m mq b msgSize maxMsgs c hd tl) (hv : v < t.sizeMod) (hn : n < t.sizeMod) :
    MqFields t (setMqField t (setMqField t m mq 4 v) mq 3 n) mq b msgSize maxMsgs n v tl where
  buffer := (mqField_set_ne (by decide)).trans ((mqField_set_ne (by decide)).trans hf.buffer)
  msgSize := (mqField_set_ne (by decide)).trans ((mqField_set_ne (by decide)).trans hf.msgSize)
  maxMsgs := (mqField_set_ne (by decide)).trans ((mqField_set_ne (by decide)).trans hf.maxMsgs)
  count := mqField_set_self hn
  head := (mqField_set_ne (by decide)).trans (mqField_set_self hv)
  tail := (mqField_set_ne (by decide)).trans ((mqField_set_ne (by decide)).trans hf.tail)

/-- The stores to `tail` and `count`. -/
theorem MqFields.received (hf : MqFields t m mq b msgSize maxMsgs c hd tl) (hv : v < t.sizeMod)
    (hn : n < t.sizeMod) :
    MqFields t (setMqField t (setMqField t m mq 5 v) mq 3 n) mq b msgSize maxMsgs n hd v where
  buffer := (mqField_set_ne (by decide)).trans ((mqField_set_ne (by decide)).trans hf.buffer)
  msgSize := (mqField_set_ne (by decide)).trans ((mqField_set_ne (by decide)).trans hf.msgSize)
  maxMsgs := (mqField_set_ne (by decide)).trans ((mqField_set_ne (by decide)).trans hf.maxMsgs)
  count := mqField_set_self hn
  head := (mqField_set_ne (by decide)).trans ((mqField_set_ne (by decide)).trans hf.head)
  tail := (mqField_set_ne (by decide)).trans (mqField_set_self hv)

theorem MqFields.congr (hf : MqFields t m mq b msgSize maxMsgs c hd tl)
    (hm : ∀ x, mq ≤ x → x < mq + mqStruct t → m' x = m x) : MqFields t m' mq b msgSize maxMsgs c hd tl where
  buffer := (mqField_congr (by decide) hm).trans hf.buffer
  msgSize := (mqField_congr (by decide) hm).trans hf.msgSize
  maxMsgs := (mqField_congr (by decide) hm).trans hf.maxMsgs
  count := (mqField_congr (by decide) hm).trans hf.count
  head := (mqField_congr (by decide) hm).trans hf.head
  tail := (mqField_congr (by decide) hm).trans hf.tail

/-! ## The two calls -/

/-- A send with room in the queue copies the message to the slot at `head`,
when that lies apart from the structure. -/
theorem send_slot (hne : mq ≠ 0) (hf : MqFields t m mq b msgSize maxMsgs c hd tl) (hc : c < maxMsgs)
    (hmsgs : maxMsgs < t.sizeMod) (hhd : hd < maxMsgs) (haddr : t.add b (t.mul hd msgSize) = b + hd * msgSize)
    (hapart : b + hd * msgSize + msgSize ≤ mq ∨ mq + mqStruct t ≤ b + hd * msgSize) (msg : Nat → UInt8) :
    mqSend t m mq (some msg) = some (setMqField t (setMqField t (m.put (b + hd * msgSize) msg msgSize) mq 4
      ((hd + 1) % maxMsgs)) mq 3 (c + 1), .ok) ∧
    MqFields t (setMqField t (setMqField t (m.put (b + hd * msgSize) msg msgSize) mq 4
      ((hd + 1) % maxMsgs)) mq 3 (c + 1)) mq b msgSize maxMsgs (c + 1) ((hd + 1) % maxMsgs) tl := by
  unfold mqSend
  dsimp only
  rw [if_neg hne, hf.count, hf.maxMsgs, if_neg (by omega), hf.buffer, hf.head, hf.msgSize, haddr]
  -- the copy reaches no field
  have hf₁ : MqFields t (m.put (b + hd * msgSize) msg msgSize) mq b msgSize maxMsgs c hd tl :=
    hf.congr fun x h1 h2 => Mem.put_outside (by omega)
  have hlt : (hd + 1) % maxMsgs < maxMsgs := Nat.mod_lt _ (by omega)
  rw [hf₁.maxMsgs, if_neg (by omega), hf₁.head, Target.add_of_lt (by omega)]
  have hcount : mqCount t (setMqField t (m.put (b + hd * msgSize) msg msgSize) mq 4 ((hd + 1) % maxMsgs)) mq = c :=
    (mqField_set_ne (by decide)).trans hf₁.count
  rw [hcount, Target.add_of_lt (by omega)]
  exact ⟨rfl, hf₁.sent (by omega) (by omega)⟩

/-- A send to a full queue is turned down, any other pushes the message. -/
theorem send_ring {r : Ring maxMsgs} (hp : QueuePlaced t mq b msgSize maxMsgs)
    (hf : MqFields t m mq b msgSize maxMsgs r.count r.head r.tail) (msg : Nat → UInt8) :
    (r.count = maxMsgs ∧ mqSend t m mq (some msg) = some (m, .errorBusy)) ∨
    ∃ (h : r.count < maxMsgs) (m' : Mem), mqSend t m mq (some msg) = some (m', .ok) ∧
      MqFields t m' mq b msgSize maxMsgs (r.push h).count (r.push h).head (r.push h).tail ∧
      (r.push h).items (slot m' b msgSize) =
        r.items (slot m b msgSize) ++ [(List.range msgSize).map msg] := by
  by_cases hfull : maxMsgs ≤ r.count
  · left
    refine ⟨Nat.le_antisymm r.count_le hfull, ?_⟩
    unfold mqSend
    dsimp only
    rw [if_neg hp.ne_zero, hf.count, hf.maxMsgs, if_pos hfull]
  right
  have hc : r.count < maxMsgs := by omega
  have hhead := r.head_lt
  have hle := slot_le msgSize hhead
  have hapart := hp.apart
  obtain ⟨e, hf'⟩ := send_slot hp.ne_zero hf hc hp.msgs hhead (hp.slot_addr hhead) (by omega) msg
  rw [← r.head_push hc] at e hf'
  have hslot : ∀ i, i < maxMsgs → slot (setMqField t (setMqField t (m.put (b + r.head * msgSize) msg msgSize) mq 4
      (r.push hc).head) mq 3 (r.count + 1)) b msgSize i =
      slot (m.put (b + r.head * msgSize) msg msgSize) b msgSize i := fun i hi =>
    hp.slot_congr hi fun x hx => by
      rw [setMqField_outside (by decide) hx, setMqField_outside (by decide) hx]
  refine ⟨hc, _, e, hf', ?_⟩
  rw [(r.push hc).items_congr hslot, r.items_push hc fun i _ hne => slot_put_ne hne]
  congr 2
  exact Mem.bytes_put_self _ _ _ _

/-- A receive from an empty queue is turned down, any other pops a message. -/
theorem receive_ring {r : Ring maxMsgs} (hp : QueuePlaced t mq b msgSize maxMsgs)
    (hf : MqFields t m mq b msgSize maxMsgs r.count r.head r.tail) :
    (r.count = 0 ∧ mqReceive t m mq true = some (m, [], .errorTimeout)) ∨
    ∃ m', 0 < r.count ∧ mqReceive t m mq true = some (m', slot m b msgSize r.tail, .ok) ∧
      MqFields t m' mq b msgSize maxMsgs r.pop.count r.pop.head r.pop.tail ∧
      r.items (slot m b msgSize) = slot m b msgSize r.tail :: r.pop.items (slot m' b msgSize) := by
  rw [mqReceive, if_neg (by simp [hp.ne_zero]), hf.count]
  by_cases h0 : r.count = 0
  · exact .inl ⟨h0, if_pos h0⟩
  right
  have hpos : 0 < r.count := by omega
  have hmsgs := hp.msgs
  have htail := r.tail_lt
  have hle := r.count_le
  rw [if_neg h0, hf.buffer, hf.tail, hf.msgSize, hp.slot_addr htail]
  dsimp only
  rw [hf.maxMsgs, if_neg (by omega), Target.add_of_lt (by omega)]
  have hlt := r.pop.tail_lt
  have hcount : mqCount t (setMqField t m mq 5 ((r.tail + 1) % maxMsgs)) mq = r.count :=
    (mqField_set_ne (by decide)).trans hf.count
  rw [hcount, Target.sub_of_le hpos (by omega)]
  have hf₂ := hf.received (v := (r.tail + 1) % maxMsgs) (n := r.count - 1)
    (by have := Nat.mod_lt (r.tail + 1) (show 0 < maxMsgs by omega); omega) (by omega)
  refine ⟨_, hpos, rfl, ?_, ?_⟩
  · rw [r.head_pop hpos]
    exact hf₂
  · rw [r.items_pop hpos]
    congr 1
    exact (r.pop.items_congr fun i hi => hp.slot_congr hi fun x hx => by
      rw [setMqField_outside (by decide) hx, setMqField_outside (by decide) hx]).symm

/-- Every call returns and keeps the ring. -/
theorem call_queued (hi : Queued t msgSize maxMsgs s) (c : QueueCall) :
    ∃ s', s.call t msgSize c = some s' ∧ Queued t msgSize maxMsgs s' := by
  obtain ⟨b, r, hp, hf, hs⟩ := hi
  cases c with
  | send msg =>
    cases msg with
    | none => exact ⟨s, rfl, b, r, hp, hf, hs⟩
    | some msg =>
      rw [QueueSys.call]
      rcases send_ring hp hf msg with ⟨-, e⟩ | ⟨hc, m', e, hf', hitems⟩
      · rw [e]
        exact ⟨s, rfl, b, r, hp, hf, hs⟩
      · rw [e]
        refine ⟨_, rfl, b, r.push hc, hp, hf', ?_⟩
        dsimp only
        rw [if_pos rfl, hitems, hs, List.append_assoc]
        rfl
  | receive msg =>
    rw [QueueSys.call]
    cases msg with
    | false =>
      rw [mqReceive, if_pos (.inr rfl)]
      exact ⟨s, rfl, b, r, hp, hf, hs⟩
    | true =>
      rcases receive_ring hp hf with ⟨-, e⟩ | ⟨m', -, e, hf', hitems⟩
      · rw [e]
        exact ⟨s, rfl, b, r, hp, hf, hs⟩
      · rw [e]
        refine ⟨_, rfl, b, r.pop, hp, hf', ?_⟩
        dsimp only
        rw [if_pos rfl, hs, hitems, List.append_assoc]
        rfl

theorem Queued.fifo (hi : Queued t msgSize maxMsgs s) : Fifo t maxMsgs s := by
  obtain ⟨b, r, hp, hf, hs⟩ := hi
  have hlen : s.sent.length = s.received.length + r.count := by
    rw [hs, List.length_append, r.length_items]
  refine ⟨⟨_, hs.symm⟩, fun msg => ?_, ?_, fun msg m st e hst => ?_, fun msg m bytes st e hst => ?_⟩
  · rcases send_ring hp hf msg with ⟨hc, e⟩ | ⟨hc, m', e, -⟩
    · exact ⟨s.mem, by rw [e, if_pos (by omega)]⟩
    · exact ⟨m', by rw [e, if_neg (by omega)]⟩
  · rcases receive_ring hp hf with ⟨hc, e⟩ | ⟨m', hc, e, -⟩
    · exact ⟨s.mem, [], by rw [e, if_pos (by omega)]⟩
    · exact ⟨m', _, by rw [e, if_neg (by omega)]⟩
  · cases msg with
    | none => cases e; rfl
    | some msg =>
      rcases send_ring hp hf msg with ⟨-, e'⟩ | ⟨-, m', e', -⟩
      · rw [e'] at e; cases e; rfl
      · rw [e'] at e; cases e; exact absurd rfl hst
  · cases msg with
    | false => rw [mqReceive, if_pos (.inr rfl)] at e; cases e; rfl
    | true =>
      rcases receive_ring hp hf with ⟨-, e'⟩ | ⟨m', -, e', -⟩
      · rw [e'] at e; cases e; rfl
      · rw [e'] at e; cases e; exact absurd rfl hst

/-! ## Whole runs -/

/-- A queue whose size `align_size` does not wrap has its messages in its buffer. -/
theorem created_queued (hsize : msgSize * maxMsgs + 3 < t.sizeMod) (h : QueueCreated t msgSize maxMsgs s) :
    Queued t msgSize maxMsgs s := by
  obtain ⟨hs, h', hr, hmsg, hmax, e, hne, hm, hsent, hrec⟩ := h
  obtain ⟨G, ho, -⟩ := ((accounted_inductive t).reachable hs hr).grants
  have hmul : t.mul msgSize maxMsgs = msgSize * maxMsgs := Nat.mod_eq_of_lt (by omega)
  rcases mqCreate_outstanding ho hmsg hmax with ⟨_, e', -⟩ | ⟨h₂, mq, g, b, k, e', hmq, hzero, hg, hk, ho', -, hf⟩
  · exact absurd (Prod.mk.inj (Option.some.inj (e'.symm.trans e))).2.symm hne
  rw [e'] at e
  obtain ⟨rfl, rfl⟩ : h₂ = h' ∧ mq = s.mq := by simpa using e
  rw [hmul] at hk hzero
  have hk' : msgSize * maxMsgs ≤ k := (le_alignSize hsize).trans hk
  have hpos : 0 < maxMsgs := Nat.pos_of_ne_zero fun h => hzero (by rw [h, Nat.mul_zero])
  have hb := Multiset.mem_cons_self (b, k) ((s.mq, g) ::ₘ G)
  have hbb := ho'.bounds hb
  have hlt := t.heap_lt
  refine ⟨b, .empty hpos, ⟨hne, hmax, by omega, ?_⟩, ?_, ?_⟩
  · rcases ho'.head_apart (Multiset.mem_cons_self _ _) with h | h
    · exact .inl (by omega)
    · exact .inr (by omega)
  · rw [hm, Ring.head_empty]
    exact hf
  · rw [hsent, hrec, Ring.items_empty]
    rfl

theorem queued_inductive (hsize : msgSize * maxMsgs + 3 < t.sizeMod) :
    (queueSys t msgSize maxMsgs).Inductive (Queued t msgSize maxMsgs) where
  init _ h := created_queued hsize h
  step s c s' hi hs := by
    obtain ⟨s₁, e, h1⟩ := call_queued hi c
    obtain rfl : s₁ = s' := Option.some.inj (e.symm.trans hs)
    exact h1

end Rtos.Ipc
