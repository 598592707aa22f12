import Mathlib.Data.Nat.ModEq
import Rtos.Core.LTS
import Rtos.Core.Ring
import Rtos.Drivers.Uart

/-!
# Runs of a UART's circular buffer

`bufSys t size` are the runs of one buffer from `circ_buf_init`, with the bytes
accepted and delivered since the last flush as ghosts. `Buffered`: the fields
are those of a ring, and the bytes accepted are those delivered followed by
the ring's items. It holds from the start and is kept by every call
(`call_buffered`), so the buffer is a bounded FIFO (`Buffered.fifo`), and
`uart_read` is a number of calls of `circ_buf_get` (`uartReadLoop_run`).
-/
namespace Rtos.Drivers

open Rtos.Core Rtos.Heap
open Rtos.Sched (RtosStatus)

/-- The buffer, the bytes accepted and the bytes handed out. -/
structure BufSys where
  mem : Mem
  cb : CircularBuffer
  accepted : List UInt8
  delivered : List UInt8

inductive BufCall
  | put (data : UInt8)
  | get
  | flush

/-- Accepted and not yet delivered. -/
def BufSys.stored (s : BufSys) : List UInt8 := s.accepted.drop s.delivered.length

section

variable (t : Target) (size : Nat)

def BufSys.call (s : BufSys) : BufCall → BufSys
  | .put data =>
    let r := circBufPut t s.mem s.cb data
    { s with
      mem := r.1
      cb := r.2.1
      accepted := if r.2.2 then s.accepted ++ [data] else s.accepted }
  | .get =>
    let r := circBufGet t s.mem s.cb
    { s with
      cb := r.1
      delivered := s.delivered ++ r.2.toList }
  | .flush =>
    { s with
      cb := circBufFlush s.cb
      accepted := []
      delivered := [] }

/-- What `circ_buf_init` made. -/
def BufCreated (s : BufSys) : Prop :=
  ∃ h h', circBufInit t h size = some (h', s.cb) ∧ s.mem = h'.mem ∧ s.accepted = [] ∧ s.delivered = []

def bufSys : LTS BufSys BufCall := LTS.ofFn (BufCreated t size) fun s c => some (s.call t c)

/-- The buffer is a FIFO of `size` bytes. -/
structure ByteFifo (s : BufSys) : Prop where
  order : s.delivered <+: s.accepted
  putFails : ∀ data, (circBufPut t s.mem s.cb data).2.2 = false ↔ s.stored.length = size
  getFails : (circBufGet t s.mem s.cb).2 = none ↔ s.stored = []
  size_eq : s.cb.size = size
  head : s.cb.head = (s.cb.tail + s.cb.count) % size
  count : s.cb.count = s.stored.length
  count_le : s.cb.count ≤ size

end

variable {t : Target} {s s' : BufSys} {m : Mem} {cb : CircularBuffer} {size b : Nat}

/-- The byte in the slot `i` of the buffer at `b`. -/
def slot (t : Target) (m : Mem) (b i : Nat) : UInt8 := m (t.add b i)

/-- The fields hold a ring with the bytes not yet delivered. -/
def Buffered (t : Target) (size : Nat) (s : BufSys) : Prop :=
  ∃ (b : Nat) (r : Ring size), s.cb = ⟨b, size, r.head, r.tail, r.count⟩ ∧
    s.accepted = s.delivered ++ r.items (slot t s.mem b)

/-! ## One call -/

/-- The slots of a buffer are different bytes, wherever it lies. -/
theorem slot_ne {i j : Nat} (hi : i < t.sizeMod) (hj : j < t.sizeMod) (h : i ≠ j) : t.add b i ≠ t.add b j := by
  intro e
  apply h
  have hcong : Nat.ModEq t.sizeMod i j := Nat.ModEq.add_left_cancel' b e
  rwa [Nat.ModEq, Nat.mod_eq_of_lt hi, Nat.mod_eq_of_lt hj] at hcong

theorem Buffered.stored (h : Buffered t size s) : ∃ (b : Nat) (r : Ring size),
    s.cb = ⟨b, size, r.head, r.tail, r.count⟩ ∧ s.stored = r.items (slot t s.mem b) ∧
    s.accepted = s.delivered ++ r.items (slot t s.mem b) := by
  obtain ⟨b, r, hcb, hacc⟩ := h
  refine ⟨b, r, hcb, ?_, hacc⟩
  rw [BufSys.stored, hacc, List.drop_left]

/-- Filling the slot at `head` leaves the others. -/
theorem slot_update (hsize : size < t.sizeMod) (r : Ring size) (data : UInt8) (i : Nat) (hi : i < size)
    (hne : i ≠ r.head) : slot t (Function.update m (t.add b r.head) data) b i = slot t m b i := by
  have hhead := r.head_lt
  exact Function.update_of_ne (slot_ne (by omega) (by omega) hne) _ _

/-- A byte is put at the end unless `size` bytes are stored. -/
theorem Buffered.put (hsize : size < t.sizeMod) (h : Buffered t size s) (data : UInt8) :
    (s.stored.length = size ∧ circBufPut t s.mem s.cb data = (s.mem, s.cb, false)) ∨
    ∃ m cb, s.stored.length < size ∧ circBufPut t s.mem s.cb data = (m, cb, true) ∧
      Buffered t size { s with mem := m, cb := cb, accepted := s.accepted ++ [data] } := by
  obtain ⟨b, r, hcb, hst, hacc⟩ := h.stored
  have hhead := r.head_lt
  rw [hst, Ring.length_items, hcb]
  rcases Nat.lt_or_ge r.count size with hc | hc
  · right
    refine ⟨_, _, hc, if_neg (Nat.not_le_of_lt hc), b, r.push hc, ?_, ?_⟩
    · dsimp only
      rw [r.head_push hc, Target.add_of_lt (p := r.head) (by omega), Target.add_of_lt (p := r.count) (by omega)]
      rfl
    · dsimp only
      rw [hacc, r.items_push hc (slot_update hsize r data), List.append_assoc, slot, Function.update_self]
  · exact .inl ⟨Nat.le_antisymm r.count_le hc, if_pos hc⟩

/-- The oldest byte is taken unless none is stored. -/
theorem Buffered.get (hsize : size < t.sizeMod) (h : Buffered t size s) :
    (s.stored = [] ∧ circBufGet t s.mem s.cb = (s.cb, none)) ∨
    ∃ cb x, s.stored = x :: ({ s with cb := cb, delivered := s.delivered ++ [x] } : BufSys).stored ∧
      circBufGet t s.mem s.cb = (cb, some x) ∧
      Buffered t size { s with cb := cb, delivered := s.delivered ++ [x] } := by
  obtain ⟨b, r, hcb, hst, hacc⟩ := h.stored
  have htail := r.tail_lt
  rcases Nat.eq_zero_or_pos r.count with hc | hc
  · left
    rw [hcb, hst, ← List.length_eq_zero_iff, Ring.length_items]
    exact ⟨hc, if_pos hc⟩
  · right
    have hacc' : s.accepted = (s.delivered ++ [slot t s.mem b r.tail]) ++ r.pop.items (slot t s.mem b) := by
      rw [hacc, r.items_pop hc, List.append_assoc, List.singleton_append]
    refine ⟨⟨b, size, r.pop.head, r.pop.tail, r.pop.count⟩, slot t s.mem b r.tail, ?_, ?_, b, r.pop, rfl, hacc'⟩
    · rw [hst, r.items_pop hc, BufSys.stored]
      dsimp only
      rw [hacc', List.drop_left]
    · rw [hcb, circBufGet, if_neg (Nat.ne_of_gt hc), r.head_pop hc]
      dsimp only
      rw [Target.add_of_lt (p := r.tail) (by omega)]
      rfl

theorem call_buffered (hpos : 0 < size) (hsize : size < t.sizeMod) (c : BufCall) (h : Buffered t size s) :
    Buffered t size (s.call t c) := by
  cases c with
  | put data =>
    dsimp only [BufSys.call]
    rcases h.put hsize data with ⟨-, e⟩ | ⟨m, cb, -, e, h'⟩
    · rw [e]; exact h
    · rw [e]; exact h'
  | get =>
    dsimp only [BufSys.call]
    rcases h.get hsize with ⟨-, e⟩ | ⟨cb, x, -, e, h'⟩
    · rw [e]
      dsimp only [Option.toList_none]
      rw [List.append_nil]
      exact h
    · rw [e]; exact h'
  | flush =>
    obtain ⟨b, r, hcb, -⟩ := h
    refine ⟨b, .empty hpos, ?_, rfl⟩
    rw [Ring.head_empty hpos]
    show circBufFlush s.cb = _
    rw [hcb]
    rfl

theorem created_buffered (hpos : 0 < size) (h : BufCreated t size s) : Buffered t size s := by
  obtain ⟨h, h', e, -, hacc, hdel⟩ := h
  obtain ⟨⟨h₁, buffer⟩, -, e⟩ := Option.map_eq_some_iff.1 e
  obtain ⟨-, hcb⟩ := Prod.mk.inj e
  refine ⟨buffer, .empty hpos, ?_, by rw [hacc, hdel]; rfl⟩
  rw [Ring.head_empty hpos]
  exact hcb.symm

theorem buffered_inductive (hpos : 0 < size) (hsize : size < t.sizeMod) :
    (bufSys t size).Inductive (Buffered t size) where
  init _ h := created_buffered hpos h
  step _ c _ h hs := by cases hs; exact call_buffered hpos hsize c h

theorem Buffered.fifo (hsize : size < t.sizeMod) (h : Buffered t size s) : ByteFifo t size s := by
  obtain ⟨b, r, hcb, hst, hacc⟩ := h.stored
  have hlen : s.stored.length = r.count := by rw [hst, Ring.length_items]
  refine ⟨⟨_, hacc.symm⟩, fun data => ?_, ?_, by rw [hcb], by rw [hcb]; rfl, by rw [hlen, hcb], ?_⟩
  · rcases h.put hsize data with ⟨hc, e⟩ | ⟨m, cb, hc, e, -⟩
    · exact iff_of_true (by rw [e]) hc
    · exact iff_of_false (fun h => by rw [e] at h; cases h) (Nat.ne_of_lt hc)
  · rcases h.get hsize with ⟨hc, e⟩ | ⟨cb, x, hc, e, -⟩
    · exact iff_of_true (by rw [e]) hc
    · exact iff_of_false (by rw [e]; exact Option.some_ne_none x) (by rw [hc]; exact List.cons_ne_nil _ _)
  · rw [hcb]; exact r.count_le

/-! ## `uart_read` -/

/-- The caller's buffer from index `i` on: one byte stored, then the others. -/
theorem fill_cons (i : Nat) (x : UInt8) (xs : List UInt8) (buffer : Nat → UInt8) :
    (fun j => if i + 1 ≤ j then xs.getD (j - (i + 1)) (Function.update buffer i x j)
      else Function.update buffer i x j) =
      fun j => if i ≤ j then (x :: xs).getD (j - i) (buffer j) else buffer j := by
  funext j
  rcases Nat.lt_trichotomy i j with hij | rfl | hij
  · rw [if_pos (by omega), if_pos (by omega), Function.update_of_ne (by omega), ← List.getD_cons_succ,
      show j - (i + 1) + 1 = j - i by omega]
  · rw [if_neg (by omega), if_pos (Nat.le_refl _), Function.update_self, Nat.sub_self]
    rfl
  · rw [if_neg (by omega), if_neg (by omega), Function.update_of_ne (by omega)]

/-- Every round is one get, until one finds the buffer empty. -/
theorem uartReadLoop_run (hsize : size < t.sizeMod) (n i : Nat) (buffer : Nat → UInt8) (k : Nat)
    (hk : k + s.stored.length < t.sizeMod) (h : Buffered t size s) :
    ∃ cb, uartReadLoop t s.mem n i s.cb buffer k =
      (cb, fun j => if i ≤ j then (s.stored.take n).getD (j - i) (buffer j) else buffer j,
        k + min n s.stored.length) ∧
    (bufSys t size).Run s (List.replicate (min n s.stored.length) .get)
      { s with cb := cb, delivered := s.delivered ++ s.stored.take n } := by
  induction n generalizing s i buffer k with
  | zero =>
    refine ⟨s.cb, ?_, ?_⟩
    · simp [uartReadLoop]
    · rw [Nat.zero_min, List.take_zero, List.append_nil]
      exact .nil s
  | succ n ih =>
    rcases h.get hsize with ⟨hst, e⟩ | ⟨cb, x, hst, e, h'⟩
    · refine ⟨s.cb, ?_, ?_⟩
      · simp [uartReadLoop, e, hst]
      · rw [hst, List.length_nil, Nat.min_zero, List.take_nil, List.append_nil]
        exact .nil s
    · have hlen := congrArg List.length hst
      rw [List.length_cons] at hlen
      obtain ⟨cb', e', hrun⟩ := ih (i + 1) (Function.update buffer i x) (t.add k 1)
        (by rw [Target.add_of_lt (by omega)]; omega) h'
      have hmin : min (n + 1) s.stored.length =
          min n ({ s with cb := cb, delivered := s.delivered ++ [x] } : BufSys).stored.length + 1 := by omega
      rw [Target.add_of_lt (by omega)] at e'
      refine ⟨cb', ?_, ?_⟩
      · rw [uartReadLoop, e]
        dsimp only
        rw [Target.add_of_lt (by omega), e', hmin, hst, List.take_succ_cons]
        exact Prod.ext rfl (Prod.ext (fill_cons i x _ buffer) (by dsimp only; omega))
      · rw [hmin, List.replicate_succ, hst, List.take_succ_cons]
        have hget : (bufSys t size).step s .get { s with cb := cb, delivered := s.delivered ++ [x] } := by
          show some (s.call t .get) = _
          dsimp only [BufSys.call]
          rw [e]
          rfl
        dsimp only at hrun
        rw [List.append_assoc, List.singleton_append] at hrun
        exact .cons hget hrun

theorem uartRead_run {uart : UartHandle} (hinit : uart.initialized = true) (hrx : uart.rxBuffer = s.cb)
    (hsize : size < t.sizeMod) (h : Buffered t size s) (buffer : Nat → UInt8) (len n : Nat) :
    ∃ cb, uartRead t s.mem (some uart) (some buffer) len (some n) =
      (some { uart with rxBuffer := cb }, some fun j => (s.stored.take len).getD j (buffer j),
        some (min len s.cb.count), .ok) ∧
    (bufSys t size).Run s (List.replicate (min len s.cb.count) .get)
      { s with cb := cb, delivered := s.delivered ++ s.stored.take len } := by
  have hfifo := h.fifo hsize
  have hcount := hfifo.count
  have hle := hfifo.count_le
  obtain ⟨cb, e, hrun⟩ := uartReadLoop_run hsize len 0 buffer 0 (by omega) h
  rw [hcount]
  refine ⟨cb, ?_, hrun⟩
  unfold uartRead
  dsimp only
  rw [hinit, if_neg (by decide), hrx, e, Nat.zero_add]
  simp only [Nat.zero_le, if_true, Nat.sub_zero]

/-- **The buffer is a bounded FIFO of bytes**, and `uart_read` is as many gets
as there are bytes, at most `len`: it returns the oldest bytes and removes
exactly these. -/
theorem buffer_is_fifo (t : Target) (size : Nat) (hpos : 1 ≤ size) (hsize : size < t.sizeMod) (s : BufSys)
    (h : (bufSys t size).Reachable s) :
    ByteFifo t size s ∧
    ∀ (uart : UartHandle) (buffer : Nat → UInt8) (len n : Nat), uart.initialized = true → uart.rxBuffer = s.cb →
      ∃ cb, uartRead t s.mem (some uart) (some buffer) len (some n) =
        (some { uart with rxBuffer := cb }, some fun j => (s.stored.take len).getD j (buffer j),
          some (min len s.cb.count), .ok) ∧
      (bufSys t size).Run s (List.replicate (min len s.cb.count) .get)
        { s with cb := cb, delivered := s.delivered ++ s.stored.take len } := by
  have hb := (buffered_inductive hpos hsize).reachable s h
  exact ⟨hb.fifo hsize, fun _ buffer len n hinit hrx => uartRead_run hinit hrx hsize hb buffer len n⟩

/-- Two bytes put and one taken, then three asked for. -/
theorem buffer_is_fifo_board : ∃ s uart cb, s.accepted = [1, 2] ∧ s.delivered = [1] ∧ ByteFifo board 4 s ∧
    uartRead board s.mem (some uart) (some fun _ => 0) 3 (some 9) =
      (some { uart with rxBuffer := cb }, some fun j => (s.stored.take 3).getD j 0,
        some (min 3 s.cb.count), .ok) := by
  obtain ⟨⟨h', cb⟩, e, h⟩ := (Option.any_eq_true _ _).1
    (show (circBufInit board (HeapSys.boot board).heap 4).any (fun r =>
      let s := (((⟨r.1.mem, r.2, [], []⟩ : BufSys).call board (.put 1)).call board (.put 2)).call board .get
      decide (s.accepted = [1, 2] ∧ s.delivered = [1])) = true by decide +kernel)
  obtain ⟨h1, h2⟩ := of_decide_eq_true h
  have hrun : (bufSys board 4).Run ⟨h'.mem, cb, [], []⟩ [.put 1, .put 2, .get] _ :=
    .cons rfl (.cons rfl (.cons rfl (.nil _)))
  obtain ⟨hf, hread⟩ := buffer_is_fifo board 4 (by decide) (by decide) _ ⟨_, _, ⟨_, h', e, rfl, rfl, rfl⟩, hrun⟩
  obtain ⟨cb', e', -⟩ := hread { boardUarts 0 with rxBuffer := _, initialized := true } (fun _ => 0) 3 9 rfl rfl
  exact ⟨_, _, cb', h1, h2, hf, e'⟩

end Rtos.Drivers
