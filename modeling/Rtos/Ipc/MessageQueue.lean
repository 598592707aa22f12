import Rtos.Core.Ring
import Rtos.Heap.Usage
import Rtos.Sched.Types

/-!
# src/ipc/message_queue.c

A `struct message_queue` is a payload of the heap, and so is its buffer. Its
six fields are words at consecutive offsets. The timeouts are not read by the
source and are left out.
-/
namespace Rtos.Ipc

open Rtos.Core Rtos.Heap
open Rtos.Sched (RtosStatus)

section

variable (t : Target)

/-- The fields of the `struct message_queue` at `mq`, by their offset in words.
mirrors src/ipc/message_queue.c:6-13 -/
def mqField (m : Mem) (mq k : Nat) : Nat := m.read (mq + k * t.word) t.word
def mqBuffer (m : Mem) (mq : Nat) : Nat := mqField t m mq 0
def mqMsgSize (m : Mem) (mq : Nat) : Nat := mqField t m mq 1
def mqMaxMsgs (m : Mem) (mq : Nat) : Nat := mqField t m mq 2
def mqCount (m : Mem) (mq : Nat) : Nat := mqField t m mq 3
def mqHead (m : Mem) (mq : Nat) : Nat := mqField t m mq 4
def mqTail (m : Mem) (mq : Nat) : Nat := mqField t m mq 5

/-- `mq->field = v` -/
def setMqField (m : Mem) (mq k v : Nat) : Mem := m.write (mq + k * t.word) t.word v

/-- `sizeof(message_queue_t)` -/
def mqStruct : Nat := 6 * t.word

/-- mirrors src/ipc/message_queue.c:15-33 -/
def mqCreate (h : HeapState) (msgSize maxMsgs : Nat) : Option (HeapState × Nat) :=
  (rtosMalloc t h (mqStruct t)).bind fun (h, mq) =>
    if mq = 0 then some (h, 0)
    else
      (rtosMalloc t h (t.mul msgSize maxMsgs)).bind fun (h, buffer) =>
        let h := { h with mem := setMqField t h.mem mq 0 buffer }
        if mqBuffer t h.mem mq = 0 then (rtosFree t h mq).map fun h => (h, 0)
        else
          let m := setMqField t h.mem mq 1 msgSize
          let m := setMqField t m mq 2 maxMsgs
          let m := setMqField t m mq 3 0
          let m := setMqField t m mq 4 0
          let m := setMqField t m mq 5 0
          some ({ h with mem := m }, mq)

/-- `msg` is what the pointer points at, `none` for NULL; `none` of the result
is the division by a `max_msgs` of 0.
mirrors src/ipc/message_queue.c:35-46 -/
def mqSend (m : Mem) (mq : Nat) (msg : Option (Nat → UInt8)) : Option (Mem × RtosStatus) :=
  match msg with
  | none => some (m, .errorInvalidParam)
  | some msg =>
    if mq = 0 then some (m, .errorInvalidParam)
    else if mqCount t m mq ≥ mqMaxMsgs t m mq then some (m, .errorBusy)
    else
      let m := m.put (t.add (mqBuffer t m mq) (t.mul (mqHead t m mq) (mqMsgSize t m mq))) msg (mqMsgSize t m mq)
      if mqMaxMsgs t m mq = 0 then none
      else
        let m := setMqField t m mq 4 (t.add (mqHead t m mq) 1 % mqMaxMsgs t m mq)
        let m := setMqField t m mq 3 (t.add (mqCount t m mq) 1)
        some (m, .ok)

/-- `msg` tells whether the pointer is NULL; the bytes copied to it are
returned.
mirrors src/ipc/message_queue.c:48-59 -/
def mqReceive (m : Mem) (mq : Nat) (msg : Bool) : Option (Mem × List UInt8 × RtosStatus) :=
  if mq = 0 ∨ !msg then some (m, [], .errorInvalidParam)
  else if mqCount t m mq = 0 then some (m, [], .errorTimeout)
  else
    let bytes := m.bytes (t.add (mqBuffer t m mq) (t.mul (mqTail t m mq) (mqMsgSize t m mq))) (mqMsgSize t m mq)
    if mqMaxMsgs t m mq = 0 then none
    else
      let m := setMqField t m mq 5 (t.add (mqTail t m mq) 1 % mqMaxMsgs t m mq)
      let m := setMqField t m mq 3 (t.sub (mqCount t m mq) 1)
      some (m, bytes, .ok)

/-- mirrors src/ipc/message_queue.c:61-67 -/
def mqDestroy (h : HeapState) (mq : Nat) : Option HeapState :=
  if mq ≠ 0 then (rtosFree t h (mqBuffer t h.mem mq)).bind fun h => rtosFree t h mq
  else some h

end

variable {t : Target} {h h' : HeapState} {G : Multiset (Nat × Nat)} {m m' : Mem} {mq j k v x b g n : Nat}

/-! ## The fields -/

theorem field_le (h : j < k) : j * t.word + t.word ≤ k * t.word := by
  rw [← Nat.succ_mul]
  exact Nat.mul_le_mul_right _ h

theorem setMqField_outside (hk : k < 6) (hx : x < mq ∨ mq + mqStruct t ≤ x) :
    setMqField t m mq k v x = m x := by
  have := field_le (t := t) hk
  unfold mqStruct at hx
  exact Mem.write_outside (by omega)

theorem mqField_set_self (hv : v < t.sizeMod) : mqField t (setMqField t m mq k v) mq k = v :=
  Mem.read_write_self hv

theorem mqField_set_ne (h : j ≠ k) : mqField t (setMqField t m mq k v) mq j = mqField t m mq j := by
  apply Mem.read_write_apart
  rcases Nat.lt_or_gt_of_ne h with h | h
  · have := field_le (t := t) h
    omega
  · have := field_le (t := t) h
    omega

theorem mqField_congr (hk : k < 6) (hm : ∀ x, mq ≤ x → x < mq + mqStruct t → m' x = m x) :
    mqField t m' mq k = mqField t m mq k := by
  have := field_le (t := t) hk
  unfold mqStruct at hm
  exact Mem.read_congr fun x h1 h2 => hm x (by omega) (by omega)

/-- What the fields of a queue hold. -/
structure MqFields (t : Target) (m : Mem) (mq buffer msgSize maxMsgs count head tail : Nat) : Prop where
  buffer : mqBuffer t m mq = buffer
  msgSize : mqMsgSize t m mq = msgSize
  maxMsgs : mqMaxMsgs t m mq = maxMsgs
  count : mqCount t m mq = count
  head : mqHead t m mq = head
  tail : mqTail t m mq = tail

variable {msgSize maxMsgs count head tail : Nat}

/-- All fields of a queue stored, in their order. -/
def mqStored (t : Target) (m : Mem) (mq buffer msgSize maxMsgs count head tail : Nat) : Mem :=
  setMqField t (setMqField t (setMqField t (setMqField t (setMqField t (setMqField t m mq 0 buffer) mq 1 msgSize)
    mq 2 maxMsgs) mq 3 count) mq 4 head) mq 5 tail

theorem mqStored_outside (hx : x < mq ∨ mq + mqStruct t ≤ x) :
    mqStored t m mq b msgSize maxMsgs count head tail x = m x := by
  unfold mqStored
  rw [setMqField_outside (by decide) hx, setMqField_outside (by decide) hx, setMqField_outside (by decide) hx,
    setMqField_outside (by decide) hx, setMqField_outside (by decide) hx, setMqField_outside (by decide) hx]

/-- A field keeps its value when the fields after it are stored. -/
theorem mqStored_fields (hb : b < t.sizeMod) (hmsg : msgSize < t.sizeMod) (hmax : maxMsgs < t.sizeMod)
    (hcount : count < t.sizeMod) (hhead : head < t.sizeMod) (htail : tail < t.sizeMod) :
    MqFields t (mqStored t m mq b msgSize maxMsgs count head tail) mq b msgSize maxMsgs count head tail := by
  have hne : ∀ {j k v x : Nat} {m : Mem}, j < k → mqField t m mq j = x → mqField t (setMqField t m mq k v) mq j = x :=
    fun h e => (mqField_set_ne (Nat.ne_of_lt h)).trans e
  have hset : ∀ {m : Mem} {k v : Nat}, v < t.sizeMod → mqField t (setMqField t m mq k v) mq k = v :=
    fun hv => mqField_set_self hv
  constructor
  · exact hne (by decide) (hne (by decide) (hne (by decide) (hne (by decide) (hne (by decide) (hset hb)))))
  · exact hne (by decide) (hne (by decide) (hne (by decide) (hne (by decide) (hset hmsg))))
  · exact hne (by decide) (hne (by decide) (hne (by decide) (hset hmax)))
  · exact hne (by decide) (hne (by decide) (hset hcount))
  · exact hne (by decide) (hset hhead)
  · exact hset htail

/-! ## Creation and destruction -/

theorem mqStruct_le_alignSize (t : Target) : mqStruct t ≤ alignSize t (mqStruct t) := by
  have hmod := t.sizeMod_ge
  apply le_alignSize
  unfold mqStruct
  rcases t.word_eq with h | h <;> omega

/-- A queue is created with two more grants, or not at all. -/
theorem mqCreate_outstanding (ho : Outstanding t h G) (hmsg : msgSize < t.sizeMod) (hmax : maxMsgs < t.sizeMod) :
    (∃ h', mqCreate t h msgSize maxMsgs = some (h', 0) ∧ Outstanding t h' G ∧ Kept G h.mem h'.mem) ∨
    ∃ h' mq g b k, mqCreate t h msgSize maxMsgs = some (h', mq) ∧ mq ≠ 0 ∧
      t.mul msgSize maxMsgs ≠ 0 ∧ mqStruct t ≤ g ∧ alignSize t (t.mul msgSize maxMsgs) ≤ k ∧
      Outstanding t h' ((b, k) ::ₘ (mq, g) ::ₘ G) ∧ Kept G h.mem h'.mem ∧
      MqFields t h'.mem mq b msgSize maxMsgs 0 0 0 := by
  have hmod := t.sizeMod_ge
  have h0 : 0 < t.sizeMod := by omega
  unfold mqCreate
  rcases malloc_outstanding ho (mqStruct t) with e | ⟨h₁, mq, g, e, hmq, hg, ho₁, hk₁, -⟩
  · left
    rw [e, Option.bind_some]
    exact ⟨h, if_pos rfl, ho, .refl G _⟩
  have hg' := (mqStruct_le_alignSize t).trans hg
  rw [e, Option.bind_some]
  dsimp only
  rw [if_neg hmq]
  rcases malloc_outstanding ho₁ (t.mul msgSize maxMsgs) with e₂ | ⟨h₂, b, k, e₂, hb, hk, ho₂, hk₂, -⟩
  · -- the NULL is stored, and the structure freed
    left
    obtain ⟨ho₂, hk₂⟩ := write_outstanding ho₁ (setMqField t h₁.mem mq 0 0)
      fun x hx => setMqField_outside (by decide) (by omega)
    obtain ⟨h₃, e₃, ho₃, hk₃, -⟩ := free_outstanding ho₂
    have hnull : mqBuffer t (setMqField t h₁.mem mq 0 0) mq = 0 := mqField_set_self h0
    rw [e₂, Option.bind_some]
    dsimp only
    rw [if_pos hnull, e₃]
    exact ⟨h₃, rfl, ho₃, (hk₁.trans hk₂).trans (hk₃.mono (Multiset.subset_cons _ _))⟩
  · right
    have hbound := ho₂.bounds (Multiset.mem_cons_self (b, k) _)
    have hlt := t.heap_lt
    have hbuffer : mqBuffer t (setMqField t h₂.mem mq 0 b) mq = b := mqField_set_self (by omega)
    have hzero := malloc_ne_zero e₂ hb
    rw [e₂, Option.bind_some]
    dsimp only
    rw [hbuffer, if_neg hb]
    rw [Multiset.cons_swap] at ho₂
    obtain ⟨ho₃, hk₃⟩ := write_outstanding ho₂ (mqStored t h₂.mem mq b msgSize maxMsgs 0 0 0)
      fun x hx => mqStored_outside (by omega)
    rw [Multiset.cons_swap] at ho₃
    exact ⟨_, mq, g, b, k, rfl, hmq, hzero, hg', hk, ho₃,
      (hk₁.trans (hk₂.mono (Multiset.subset_cons _ _))).trans (hk₃.mono (Multiset.subset_cons _ _)),
      mqStored_fields (by omega) hmsg hmax h0 h0 h0⟩

/-- Destroying a queue takes both grants back. -/
theorem mqDestroy_outstanding (ho : Outstanding t h ((b, k) ::ₘ (mq, g) ::ₘ G)) (hb : mqBuffer t h.mem mq = b) :
    ∃ h', mqDestroy t h mq = some h' ∧ Outstanding t h' G ∧ Kept G h.mem h'.mem := by
  have hmq := ho.ne_zero (Multiset.mem_cons_of_mem (Multiset.mem_cons_self _ _))
  obtain ⟨h₁, h₂, e₁, e₂, ho₂, hk⟩ := free_free_outstanding ho
  refine ⟨h₂, ?_, ho₂, hk⟩
  rw [mqDestroy, if_pos hmq, hb, e₁, Option.bind_some, e₂]

end Rtos.Ipc
