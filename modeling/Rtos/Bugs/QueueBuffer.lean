import Rtos.Ipc.QueueRuns

/-!
# Queues whose buffer size wraps

`mq_create` multiplies `msg_size` by `max_msgs` without a check, and
`rtos_malloc` rounds the product up without one. When either wraps, the buffer
is smaller than the messages it is meant for, and after the messages that fit
`mq_send` copies the next one past its end.

`queue_in_buffer`: all copies of a queue lie in the block granted for its
buffer, in all its runs, if and only if the product is at most `SIZE_MAX - 3`.
-/
namespace Rtos.Ipc

open Rtos.Core Rtos.Heap
open Rtos.Sched (RtosStatus)

section

variable (t : Target) (msgSize maxMsgs : Nat)

/-- The runs of the queue from a state on. -/
def queueFrom (s₀ : QueueSys) : LTS QueueSys QueueCall := LTS.ofFn (· = s₀) (QueueSys.call t msgSize)

/-- The messages that the next successful calls copy lie in the `k` bytes at `b`. -/
structure InBuffer (b k : Nat) (s : QueueSys) : Prop where
  send : ∀ msg m, mqSend t s.mem s.mq (some msg) = some (m, .ok) →
    b ≤ t.add (mqBuffer t s.mem s.mq) (t.mul (mqHead t s.mem s.mq) (mqMsgSize t s.mem s.mq)) ∧
    t.add (mqBuffer t s.mem s.mq) (t.mul (mqHead t s.mem s.mq) (mqMsgSize t s.mem s.mq)) +
      mqMsgSize t s.mem s.mq ≤ b + k
  receive : ∀ m bytes, mqReceive t s.mem s.mq true = some (m, bytes, .ok) →
    b ≤ t.add (mqBuffer t s.mem s.mq) (t.mul (mqTail t s.mem s.mq) (mqMsgSize t s.mem s.mq)) ∧
    t.add (mqBuffer t s.mem s.mq) (t.mul (mqTail t s.mem s.mq) (mqMsgSize t s.mem s.mq)) +
      mqMsgSize t s.mem s.mq ≤ b + k

/-- The structure holds a ring over the buffer at `b`. -/
def RingAt (b : Nat) (s : QueueSys) : Prop :=
  ∃ r : Ring maxMsgs, QueuePlaced t s.mq b msgSize maxMsgs ∧
    MqFields t s.mem s.mq b msgSize maxMsgs r.count r.head r.tail

/-- `i` messages were sent and none received. -/
structure Sent (mq b i : Nat) (s : QueueSys) : Prop where
  handle : s.mq = mq
  fields : MqFields t s.mem mq b msgSize maxMsgs i i 0

end

variable {t : Target} {s s' s₀ : QueueSys} {c : QueueCall} {msgSize maxMsgs mq b g k i : Nat}

/-! ## Products that do not wrap -/

theorem call_ringAt (hi : RingAt t msgSize maxMsgs b s) (e : s.call t msgSize c = some s') :
    RingAt t msgSize maxMsgs b s' := by
  obtain ⟨r, hp, hf⟩ := hi
  cases c with
  | send msg =>
    obtain ⟨x, hx, rfl⟩ := Option.map_eq_some_iff.1 e
    cases msg with
    | none =>
      cases hx
      exact ⟨r, hp, hf⟩
    | some msg =>
      rcases send_ring hp hf msg with ⟨-, e'⟩ | ⟨hc, m', e', hf', -⟩
      · obtain rfl := Option.some.inj (e'.symm.trans hx)
        exact ⟨r, hp, hf⟩
      · obtain rfl := Option.some.inj (e'.symm.trans hx)
        exact ⟨r.push hc, hp, hf'⟩
  | receive msg =>
    obtain ⟨x, hx, rfl⟩ := Option.map_eq_some_iff.1 e
    cases msg with
    | false =>
      rw [mqReceive, if_pos (.inr rfl)] at hx
      cases hx
      exact ⟨r, hp, hf⟩
    | true =>
      rcases receive_ring hp hf with ⟨-, e'⟩ | ⟨m', -, e', hf', -⟩
      · obtain rfl := Option.some.inj (e'.symm.trans hx)
        exact ⟨r, hp, hf⟩
      · obtain rfl := Option.some.inj (e'.symm.trans hx)
        exact ⟨r.pop, hp, hf'⟩

theorem RingAt.inBuffer (hi : RingAt t msgSize maxMsgs b s) (hk : msgSize * maxMsgs ≤ k) : InBuffer t b k s := by
  obtain ⟨r, hp, hf⟩ := hi
  have hhead := slot_le msgSize r.head_lt
  have htail := slot_le msgSize r.tail_lt
  constructor
  · intro msg m _
    rw [hf.buffer, hf.head, hf.msgSize, hp.slot_addr r.head_lt]
    omega
  · intro m bytes _
    rw [hf.buffer, hf.tail, hf.msgSize, hp.slot_addr r.tail_lt]
    omega

/-! ## Products that wrap -/

/-- Messages that fit the buffer may be sent one after the other. -/
theorem sent_run (hne : mq ≠ 0) (hmax : maxMsgs < t.sizeMod) (hend : b + k < t.sizeMod)
    (hapart : b + k ≤ mq ∨ mq + mqStruct t ≤ b) (h0 : Sent t msgSize maxMsgs mq b 0 s₀) (hi : i < maxMsgs)
    (hk : i * msgSize ≤ k) :
    ∃ s, (queueFrom t msgSize s₀).Run s₀ (List.replicate i (.send (some fun _ => 0))) s ∧
      Sent t msgSize maxMsgs mq b i s := by
  induction i with
  | zero => exact ⟨s₀, .nil s₀, h0⟩
  | succ i ih =>
    rw [Nat.succ_mul] at hk
    obtain ⟨s, hrun, hs⟩ := ih (by omega) (by omega)
    have haddr : t.add b (t.mul i msgSize) = b + i * msgSize := by
      rw [Target.mul, Nat.mod_eq_of_lt (by omega), Target.add_of_lt (by omega)]
    obtain ⟨e, hf⟩ := send_slot hne hs.fields (by omega) hmax (by omega) haddr (by omega) fun _ => 0
    rw [Nat.mod_eq_of_lt hi] at e hf
    have hcall : ∃ s', s.call t msgSize (.send (some fun _ => 0)) = some s' ∧
        Sent t msgSize maxMsgs mq b (i + 1) s' := by
      unfold QueueSys.call
      dsimp only
      rw [hs.handle, e]
      exact ⟨_, rfl, rfl, hf⟩
    obtain ⟨s', hstep, hs'⟩ := hcall
    have hrun' := LTS.run_snoc (M := queueFrom t msgSize s₀) hrun hstep
    rw [← List.replicate_succ'] at hrun'
    exact ⟨s', hrun', hs'⟩

/-- A queue with room takes the message that its next slot already holds. -/
theorem Sent.next (hs : Sent t msgSize maxMsgs mq b i s) (hne : mq ≠ 0) (hi : i < maxMsgs) :
    ∃ msg m, mqSend t s.mem s.mq (some msg) = some (m, .ok) := by
  obtain ⟨hmq, hf⟩ := hs
  refine ⟨fun j => s.mem (t.add b (t.mul i msgSize) + j), ?_⟩
  unfold mqSend
  dsimp only
  rw [hmq, if_neg hne, hf.count, hf.maxMsgs, if_neg (by omega), hf.buffer, hf.head, hf.msgSize, Mem.put_self,
    hf.maxMsgs, if_neg (by omega)]
  exact ⟨_, rfl⟩

/-- That message ends past the buffer when those sent leave no room for it. -/
theorem Sent.not_inBuffer (hs : Sent t msgSize maxMsgs mq b i s) (hne : mq ≠ 0) (hi : i < maxMsgs)
    (hend : b + i * msgSize < t.sizeMod) (hover : k < i * msgSize + msgSize) : ¬ InBuffer t b k s := by
  intro hc
  obtain ⟨msg, m, e⟩ := hs.next hne hi
  have haddr : t.add b (t.mul i msgSize) = b + i * msgSize := by
    rw [Target.mul, Nat.mod_eq_of_lt (by omega), Target.add_of_lt (by omega)]
  have hin := (hc.send msg m e).2
  rw [hs.handle, hs.fields.buffer, hs.fields.head, hs.fields.msgSize, haddr] at hin
  omega

/-- **When the copies of a queue lie in its buffer**: if the bytes asked for
the buffer are at most `SIZE_MAX - 3`. -/
theorem queue_in_buffer (t : Target) (hs : HeapSys) (hr : (allocSys t).Reachable hs) (msgSize maxMsgs : Nat)
    (hmsg : msgSize < t.sizeMod) (hmax : maxMsgs < t.sizeMod) (h' : HeapState) (mq : Nat)
    (e : mqCreate t hs.heap msgSize maxMsgs = some (h', mq)) (hne : mq ≠ 0) :
    (∀ s, (queueFrom t msgSize ⟨h'.mem, mq, [], []⟩).Reachable s →
      InBuffer t (mqBuffer t h'.mem mq) (blockSize t h'.mem (mqBuffer t h'.mem mq - t.blockHeader)) s) ↔
    msgSize * maxMsgs ≤ t.sizeMod - 1 - 3 := by
  obtain ⟨G, ho, -⟩ := ((accounted_inductive t).reachable hs hr).grants
  have hmod := t.sizeMod_ge
  have hlt := t.heap_lt
  have hheap : HEAP_SIZE = 65536 := rfl
  rcases mqCreate_outstanding ho hmsg hmax with ⟨_, e', -⟩ | ⟨h₂, mq₂, g, b, k, e', -, hzero, hg, hk, ho', -, hf⟩
  · exact absurd (Prod.mk.inj (Option.some.inj (e'.symm.trans e))).2.symm hne
  obtain ⟨rfl, rfl⟩ : h₂ = h' ∧ mq₂ = mq := Prod.mk.inj (Option.some.inj (e'.symm.trans e))
  have hb := Multiset.mem_cons_self (b, k) ((mq₂, g) ::ₘ G)
  have hbb := ho'.bounds hb
  have hapart : b + k ≤ mq₂ ∨ mq₂ + mqStruct t ≤ b := by
    rcases ho'.head_apart (Multiset.mem_cons_self _ _) with h | h <;> omega
  rw [hf.buffer, (ho'.header hb).1]
  constructor
  · intro hall
    by_contra hw
    -- after the messages that fit, the next one does not
    have hmsg0 : 0 < msgSize := by
      apply Nat.pos_of_ne_zero
      intro h0
      apply hzero
      rw [h0, Target.mul, Nat.zero_mul, Nat.zero_mod]
    have hdiv := Nat.div_mul_le_self k msgSize
    have hlt' : k / msgSize < maxMsgs := Nat.div_lt_of_lt_mul (by omega)
    have h0 : Sent t msgSize maxMsgs mq₂ b 0 ⟨h₂.mem, mq₂, [], []⟩ := ⟨rfl, hf⟩
    obtain ⟨s, hrun, hs⟩ := sent_run hne hmax (k := k) (by omega) hapart h0 hlt' hdiv
    exact hs.not_inBuffer hne hlt' (by omega) (Nat.lt_div_mul_add hmsg0) (hall s ⟨_, _, rfl, hrun⟩)
  · intro hw
    have hmul : t.mul msgSize maxMsgs = msgSize * maxMsgs := Nat.mod_eq_of_lt (by omega)
    rw [hmul] at hk hzero
    have hk' : msgSize * maxMsgs ≤ k := (le_alignSize (by omega)).trans hk
    have hpos : 0 < maxMsgs := Nat.pos_of_ne_zero fun h => hzero (by rw [h, Nat.mul_zero])
    have hplaced : QueuePlaced t mq₂ b msgSize maxMsgs := ⟨hne, hmax, by omega, by omega⟩
    have hinv : (queueFrom t msgSize ⟨h₂.mem, mq₂, [], []⟩).Inductive (RingAt t msgSize maxMsgs b) := by
      refine ⟨fun s h => ?_, fun s c s' hi hstep => call_ringAt hi hstep⟩
      rw [h]
      refine ⟨.empty hpos, hplaced, ?_⟩
      rw [Ring.head_empty]
      exact hf
    intro s hreach
    exact (hinv.reachable s hreach).inBuffer hk'

/-- 16 messages of 2^28 + 1 bytes get 16 bytes of the heap of a board. -/
theorem queue_buffer_overrun : ∃ hs, (allocSys board).Reachable hs ∧ ∃ h' mq,
    mqCreate board hs.heap 0x10000001 16 = some (h', mq) ∧ mq ≠ 0 ∧
    ∃ s, (queueFrom board 0x10000001 ⟨h'.mem, mq, [], []⟩).Reachable s ∧
      ¬ InBuffer board (mqBuffer board h'.mem mq)
        (blockSize board h'.mem (mqBuffer board h'.mem mq - board.blockHeader)) s := by
  have hrun : (mqCreate board (HeapSys.boot board).heap 0x10000001 16).map (fun r => [r.2, mqBuffer board r.1.mem r.2,
      mqMsgSize board r.1.mem r.2, mqMaxMsgs board r.1.mem r.2, mqCount board r.1.mem r.2, mqHead board r.1.mem r.2,
      mqTail board r.1.mem r.2, blockSize board r.1.mem 0x20000028]) =
      some [0x20000010, 0x20000038, 0x10000001, 16, 0, 0, 0, 16] := by decide +kernel
  obtain ⟨⟨h', mq⟩, e, hr⟩ := Option.map_eq_some_iff.1 hrun
  simp only [List.cons.injEq] at hr
  obtain ⟨rfl, hb, hsize, hmax, hcount, hhead, htail, hblock, -⟩ := hr
  refine ⟨HeapSys.boot board, ⟨_, [], rfl, .nil _⟩, h', _, e, by decide, _, ⟨_, [], rfl, .nil _⟩, fun hi => ?_⟩
  have hs : Sent board 0x10000001 16 0x20000010 0x20000038 0 ⟨h'.mem, 0x20000010, [], []⟩ :=
    ⟨rfl, hb, hsize, hmax, hcount, hhead, htail⟩
  obtain ⟨msg, m, e'⟩ := hs.next (by decide) (by decide)
  have hin := (hi.send msg m e').2
  dsimp only at hin
  rw [hb, hhead, hsize, show 0x20000038 - board.blockHeader = 0x20000028 from rfl, hblock] at hin
  revert hin
  decide

/-- Two messages of 4 bytes. -/
theorem queue_in_buffer_board : ∃ hs, (allocSys board).Reachable hs ∧ ∃ h' mq,
    mqCreate board hs.heap 4 2 = some (h', mq) ∧ mq ≠ 0 ∧
    ∀ s, (queueFrom board 4 ⟨h'.mem, mq, [], []⟩).Reachable s →
      InBuffer board (mqBuffer board h'.mem mq)
        (blockSize board h'.mem (mqBuffer board h'.mem mq - board.blockHeader)) s := by
  have hreach : (allocSys board).Reachable (HeapSys.boot board) := ⟨_, [], rfl, .nil _⟩
  have hrun : (mqCreate board (HeapSys.boot board).heap 4 2).map (·.2) = some 0x20000010 := by decide +kernel
  obtain ⟨⟨h', mq⟩, e, hmq⟩ := Option.map_eq_some_iff.1 hrun
  have hne : mq ≠ 0 := by
    rw [show mq = 0x20000010 from hmq]
    decide
  exact ⟨_, hreach, h', mq, e, hne,
    (queue_in_buffer board _ hreach 4 2 (by decide) (by decide) h' mq e hne).2 (by decide)⟩

end Rtos.Ipc
