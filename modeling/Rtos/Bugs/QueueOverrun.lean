import Rtos.Ipc.QueueRuns

/-!
# A message queue with a buffer of 0 bytes

`align_size` adds 3 before it clears the two low bits, so a size of
`SIZE_MAX - 2` or more is rounded to 0 and `rtos_malloc` grants the smallest
free block. `mq_create` does not see it, and the first `mq_send` copies its
message over whatever lies behind that block. When this is the queue's own
structure, the message just sent is lost.

`queue_fifo`: a queue whose buffer size is not that large is a FIFO in every
state of every run.
-/
namespace Rtos.Ipc

open Rtos.Core Rtos.Heap

/-- **When a queue is a FIFO**: if the bytes asked for its buffer are at most
`SIZE_MAX - 3`. Then every call returns, too. -/
theorem queue_fifo (t : Target) (msgSize maxMsgs : Nat) (hsize : msgSize * maxMsgs + 3 < t.sizeMod)
    (s : QueueSys) (h : (queueSys t msgSize maxMsgs).Reachable s) :
    Fifo t maxMsgs s ∧ ∀ c, ∃ s', (queueSys t msgSize maxMsgs).step s c s' := by
  have hi := (queued_inductive hsize).reachable s h
  refine ⟨hi.fifo, fun c => ?_⟩
  obtain ⟨s', e, -⟩ := call_queued hi c
  exact ⟨s', e⟩

/-- A queue created on the heap of the board after the calls `calls`. -/
def boardQueue (calls : List AllocCall) (msgSize maxMsgs : Nat) : Option QueueSys :=
  (LTS.exec (LTS.guarded (HeapSys.alloc board) (AllocLegal board)) (HeapSys.boot board) calls).bind fun hs =>
    (mqCreate board hs.heap msgSize maxMsgs).bind fun r =>
      if r.2 ≠ 0 ∧ msgSize < board.sizeMod ∧ maxMsgs < board.sizeMod then some ⟨r.1.mem, r.2, [], []⟩
      else none

theorem boardQueue_created {calls : List AllocCall} {msgSize maxMsgs : Nat} {s : QueueSys}
    (h : boardQueue calls msgSize maxMsgs = some s) : QueueCreated board msgSize maxMsgs s := by
  obtain ⟨hs, e, h⟩ := Option.bind_eq_some_iff.1 h
  obtain ⟨r, e', h⟩ := Option.bind_eq_some_iff.1 h
  split at h
  · rename_i hc
    cases h
    exact ⟨hs, r.1, ⟨_, calls, rfl, LTS.run_of_exec LTS.step_of_guarded e⟩, hc.2.1, hc.2.2, e',
      hc.1, rfl, rfl, rfl⟩
  · cases h

/-- What is computed of the state after `cs` on a queue of the board holds of
a reachable one. -/
theorem boardQueue_run (calls : List AllocCall) (msgSize maxMsgs : Nat) (P : QueueSys → Prop) [DecidablePred P]
    (cs : List QueueCall) (h : ((boardQueue calls msgSize maxMsgs).bind fun s =>
      LTS.exec (QueueSys.call board msgSize) s cs).any (P ·) = true) :
    ∃ s, (queueSys board msgSize maxMsgs).Reachable s ∧ P s := by
  cases hb : boardQueue calls msgSize maxMsgs with
  | none => rw [hb] at h; cases h
  | some s₀ =>
    rw [hb, Option.bind_some] at h
    obtain ⟨s, -, hr, hp⟩ := LTS.reachable_of_exec (M := queueSys board msgSize maxMsgs) (fun _ _ _ e => e)
      (boardQueue_created hb) P cs h
    exact ⟨s, hr, hp⟩

/-- Two messages of 4 bytes fill the queue, a third is turned down, and the
first is received. -/
theorem queue_fifo_board : ∃ s, (queueSys board 4 2).Reachable s ∧
    s.sent = [[1, 1, 1, 1], [2, 2, 2, 2]] ∧ s.received = [[1, 1, 1, 1]] ∧ Fifo board 2 s := by
  obtain ⟨s, h, hs, hr⟩ := boardQueue_run [] 4 2
    (fun s => s.sent = [[1, 1, 1, 1], [2, 2, 2, 2]] ∧ s.received = [[1, 1, 1, 1]])
    [.send (some fun _ => 1), .send (some fun _ => 2), .send (some fun _ => 3), .receive true] (by decide +kernel)
  exact ⟨s, h, hs, hr, (queue_fifo board 4 2 (by decide) s h).1⟩

/-- 50529027 messages of 85 bytes are 2^32 - 1 bytes, and the buffer is a
block of 4 bytes in front of the structure. A message of 85 bytes `0xFF` makes
its `count` wrap to 0. -/
theorem queue_overrun : 85 * 50529027 < board.sizeMod ∧
    ∃ s, (queueSys board 85 50529027).Reachable s ∧ ¬ Fifo board 50529027 s := by
  obtain ⟨s, h, hs, hr, hm⟩ := boardQueue_run [.malloc 4, .malloc 4, .free 0x20000010] 85 50529027
    (fun s => s.sent.length = 1 ∧ s.received.length = 0 ∧
      (mqReceive board s.mem s.mq true).map (·.2.2) = some .errorTimeout)
    [.send (some fun _ => 0xFF)] (by decide +kernel)
  refine ⟨by decide, s, h, fun hf => ?_⟩
  obtain ⟨m, bytes, e⟩ := hf.receive
  rw [e, hs, hr] at hm
  cases Option.some.inj hm

end Rtos.Ipc
