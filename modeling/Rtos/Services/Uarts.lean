import Rtos.Services.Memory

/-!
# UARTs carry out the specification

The circular buffer for transmission is a ring of the bytes written and not
flushed: no code takes a byte out of it. Nothing is put in the buffer for
reception, and there is no way to set the callback for the end of a
transmission.
-/
namespace Rtos.Services

open Rtos.Core Rtos.Heap Rtos.Drivers
open Rtos.Sched (RtosStatus)

variable {t : Target} {callbacks : Nat → Nat → Mem × UartHandle → Mem × UartHandle} {task : UInt32} {s : Store}
  {W : World} {gs : Grants} {u : Fin MAX_UART_INSTANCES} {b n len : Nat} {uart : UartHandle}

/-- Bytes are put as long as there is room. -/
theorem uartWriteLoop_ring {size : Nat} (hb : b + size < t.sizeMod) (data : Nat → UInt8) (n i : Nat) (m : Mem)
    (r : Ring size) : ∃ (m' : Mem) (r' : Ring size),
    uartWriteLoop t data n i m ⟨b, size, r.head, r.tail, r.count⟩ =
      (m', ⟨b, size, r'.head, r'.tail, r'.count⟩, decide (r.count + n ≤ size)) ∧
    r'.items (fun j => m' (b + j)) =
      r.items (fun j => m (b + j)) ++ (List.range (min n (size - r.count))).map (fun j => data (i + j)) ∧
    ∀ x, (x < b ∨ b + size ≤ x) → m' x = m x := by
  induction n generalizing i m r with
  | zero =>
    refine ⟨m, r, ?_, by simp, fun _ _ => rfl⟩
    rw [uartWriteLoop, decide_eq_true (by have := r.count_le; omega)]
  | succ n ih =>
    have hhead := r.head_lt
    unfold uartWriteLoop circBufPut
    rcases Nat.lt_or_ge r.count size with hc | hc
    · rw [if_neg (by dsimp only; omega)]
      dsimp only
      rw [Target.add_of_lt (p := b) (by omega), Target.add_of_lt (p := r.head) (by omega),
        Target.add_of_lt (p := r.count) (by omega), ← r.head_push hc]
      obtain ⟨m', r', e, hitems, hout⟩ := ih (i + 1) (Function.update m (b + r.head) (data i)) (r.push hc)
      refine ⟨m', r', ?_, ?_, fun x hx => ?_⟩
      · refine Eq.trans e ?_
        show (m', _, decide (r.count + 1 + n ≤ size)) = _
        rw [Nat.add_assoc, Nat.add_comm 1 n]
      · have hpush : (r.push hc).items (fun j => Function.update m (b + r.head) (data i) (b + j)) =
            r.items (fun j => m (b + j)) ++ [Function.update m (b + r.head) (data i) (b + r.head)] :=
          r.items_push hc fun j _ hne => Function.update_of_ne (fun h => hne (Nat.add_left_cancel h)) _ _
        rw [hitems, hpush, Function.update_self]
        show _ ++ (List.range (min n (size - (r.count + 1)))).map _ = _
        rw [show min (n + 1) (size - r.count) = min n (size - (r.count + 1)) + 1 by omega, List.range_succ_eq_map,
          List.map_cons, List.map_map, List.append_assoc, List.singleton_append]
        congr 2
        refine List.map_congr_left fun j _ => ?_
        rw [Function.comp_apply, Nat.succ_eq_add_one, show i + 1 + j = i + (j + 1) by omega]
      · rw [hout x hx, Function.update_of_ne (by omega)]
    · rw [if_pos hc]
      refine ⟨m, r, ?_, ?_, fun _ _ => rfl⟩
      · rw [decide_eq_false (by omega)]
      · rw [show min (n + 1) (size - r.count) = 0 by omega, List.range_zero, List.map_nil, List.append_nil]

/-- A UART writes to its entry and changes bytes of its own. -/
theorem Within.setUart {m : Mem} (hm : ∀ x, (∀ q ∈ gs, x < q.1 ∨ q.1 + q.2 ≤ x) → m x = s.heap.mem x) :
    Within (.uart u) gs s ⟨{ s.heap with mem := m }, s.pools, Function.update s.uarts u uart⟩ :=
  ⟨rfl, hm, fun _ _ => rfl, fun _ hv => Function.update_of_ne (fun e => hv (by rw [e])) _ _⟩

theorem onUart_self {α : Type} (r : α) (ret : α → Ret) : s.onUart u (some (s.uarts u), r) ret = some (s, ret r) := by
  rw [Store.onUart, Option.getD_some, Function.update_eq_self]

/-- A call on a UART, initialised or not. -/
theorem Implements.act_uart {act : Act} {f : Option (Store × Ret)} {idle : Ret} (hi : Implements t s W)
    (hidle : (s.uarts u).initialized = false → f = some (s, idle))
    (hW : ∀ config sent gs, UartAt t s.heap.mem gs (s.uarts u) config sent → ∃ s' sent' r, f = some (s', r) ∧
      act (.uart config sent) = some (.uart config sent', r) ∧
      UartAt t s'.heap.mem gs (s'.uarts u) config sent' ∧ Within (.uart u) gs s s') :
    ∃ s' r W', f = some (s', r) ∧ ActsUart W r W' u idle act ∧ Implements t s' W' := by
  cases hu : W (.uart u) with
  | none => exact ⟨s, idle, W, hidle (hi.idle u hu), .inl ⟨hu, rfl, rfl⟩, hi⟩
  | some o =>
    have hact : ∃ s' r W', f = some (s', r) ∧ Acts W r W' (.uart u) act ∧ Implements t s' W' :=
      hi.act hu fun gs hr => by
        cases o with
        | uart config sent =>
          obtain ⟨s', sent', r, h1, h2, h3, h4⟩ := hW config sent gs hr
          exact ⟨s', .uart config sent', r, h1, h2, h3, h4⟩
        | _ => exact hr.elim
    obtain ⟨s', r, W', e, ha, hi'⟩ := hact
    exact ⟨s', r, W', e, .inr ha, hi'⟩

/-! ## Initialisation -/

theorem uartInit_sound {id : UInt8} {config : Option UartConfig} (hi : Implements t s W) :
    Sound t callbacks task s W (.uartInit id config) := by
  obtain ⟨rest, hH, ho⟩ := hi.grants
  -- an initialised entry is a UART of the world
  have hlive : ∀ u, (s.uarts u).initialized = true → ∃ c sent, W (.uart u) = some (.uart c sent) := by
    intro u hu
    cases hW : W (.uart u) with
    | none =>
      rw [hi.idle u hW] at hu
      cases hu
    | some o =>
      obtain ⟨gs, -, hr⟩ := hH.mem hW
      cases o with
      | uart c sent => exact ⟨c, sent, rfl⟩
      | _ => exact hr.elim
  -- and an entry that is not is none
  have hdead : ∀ u, (s.uarts u).initialized = false → W (.uart u) = none := by
    intro u hu
    cases hW : W (.uart u) with
    | none => rfl
    | some o =>
      obtain ⟨gs, -, hr⟩ := hH.mem hW
      cases o with
      | uart c sent =>
        obtain ⟨b, k, g, r, -, ⟨hinit, -⟩, -⟩ := hr
        rw [hu] at hinit
        cases hinit
      | _ => exact hr.elim
  rcases uartInit_granted ho s.uarts id config with ⟨h', uarts', e, ho', hk, hsame, hfail, hthis⟩ |
    ⟨u, e, hu, hc⟩ | ⟨h', u, c, p, g, q, k, handle, e, rfl, rfl, hu, hsize, hq, ho', hk⟩
  · refine ⟨⟨h', s.pools, uarts'⟩, .uart none, W, by rw [Store.call, e]; rfl,
      .inl ⟨rfl, rfl, fun u h1 h2 => hdead u (hthis u h1 h2)⟩, ⟨rest, hH.frame fun j js hj hsub =>
        ⟨hk.mono hsub, fun _ _ => rfl, fun u hju => hsame u ?_⟩, ho'⟩, fun u hW => hfail u (hi.idle u hW)⟩
    cases hinit : (s.uarts u).initialized with
    | true => rfl
    | false =>
      rw [hju, hdead u hinit] at hj
      cases hj
  · obtain ⟨c, rfl⟩ := Option.isSome_iff_exists.1 hc
    exact ⟨s, .uart (some u), W, by rw [Store.call, e]; rfl,
      .inr ⟨u, uartInit_index e, rfl, c, rfl, .inl ⟨hlive u hu, rfl⟩⟩, hi⟩
  · have hW := hdead u hu
    have hself : Function.update W (.uart u) none = W := Function.update_eq_self_iff.2 hW.symm
    have hlt := t.heap_lt
    have hmod := t.sizeMod_ge
    have htx := c.txBufferSize.toNat_lt
    have hbb := ho'.bounds (Multiset.mem_cons_self (q, k) _)
    refine ⟨⟨h', s.pools, Function.update s.uarts u _⟩, .uart (some u), _, by rw [Store.call, e]; rfl,
      .inr ⟨u, uartInit_index e, rfl, c, rfl, .inr ⟨hW, rfl⟩⟩,
      hi.put (h := .uart u) (by rwa [hself]) hk (fun _ _ => rfl)
        (fun v hv => Function.update_of_ne (fun e => hv (by rw [e])) _ _) ((q, k) ::ₘ {(p, g)})
        (by rwa [Multiset.cons_add, Multiset.singleton_add]) ?_⟩
    show UartAt t h'.mem _ (Function.update s.uarts u _ u) c []
    rw [Function.update_self]
    refine ⟨q, k, g, .empty (Nat.pos_of_ne_zero hsize), rfl, ⟨rfl, rfl, rfl, rfl, rfl⟩,
      (le_alignSize (by omega)).trans hq, by omega, ?_, (Ring.items_empty _ _).symm⟩
    rw [Ring.head_empty]
    rfl

theorem uartDeinit_sound (hi : Implements t s W) : Sound t callbacks task s W (.uartDeinit u) := by
  cases hu : W (.uart u) with
  | none =>
    refine ⟨s, _, W, ?_, .inl ⟨hu, rfl, rfl⟩, hi⟩
    rw [Store.call, Drivers.uartDeinit, hi.idle u hu]
    rfl
  | some o =>
    obtain ⟨gs, rest, hr, hH, ho⟩ := hi.focus hu
    cases o with
    | uart config sent =>
      obtain ⟨b, k, g, r, rfl, ⟨hinit, -⟩, -, -, htx, -⟩ := hr
      rw [Multiset.cons_add, Multiset.singleton_add] at ho
      obtain ⟨h', handle, e, hh, ho', hk⟩ := uartDeinit_outstanding (k := k) hinit (by rwa [htx])
      refine ⟨⟨h', s.pools, Function.update s.uarts u handle⟩, .status .ok, _, by rw [Store.call, e]; rfl,
        .inr ⟨by rw [hu]; simp, rfl, rfl⟩, hi.drop hH hk (fun _ _ => rfl)
          (fun v hv => Function.update_of_ne (fun e => hv (by rw [e])) _ _) ho' fun v hv => ?_⟩
      cases hv
      show (Function.update s.uarts u handle u).initialized = false
      rw [Function.update_self, hh]
    | _ => exact hr.elim

/-! ## Transfers -/

theorem uartWrite_sound {data : Option (Nat → UInt8)} (hi : Implements t s W) :
    Sound t callbacks task s W (.uartWrite u data len) := by
  refine hi.act_uart (fun hinit => ?_) fun config sent gs hr => ?_
  · have e : Drivers.uartWrite t callbacks s.heap.mem (some (s.uarts u)) data len =
        (s.heap.mem, some (s.uarts u), .errorInvalidParam) := by
      cases data with
      | none => rfl
      | some data =>
        unfold Drivers.uartWrite
        dsimp only
        rw [if_pos (.inl (by rw [hinit]; rfl))]
    rw [Store.call, e]
    exact onUart_self ..
  obtain ⟨b, k, g, r, rfl, ⟨hinit, hconf, hrx, hcall, hbusy⟩, hk, hlt, htx, rfl⟩ := hr
  have hself : UartAt t s.heap.mem ((b, k) ::ₘ {((s.uarts u).rxBuffer.buffer, g)}) (s.uarts u) config
      (r.items fun i => s.heap.mem (b + i)) :=
    ⟨b, k, g, r, rfl, ⟨hinit, hconf, hrx, hcall, hbusy⟩, hk, hlt, htx, rfl⟩
  cases data with
  | none => exact ⟨s, _, _, onUart_self _ _, rfl, hself, .refl _ _ _⟩
  | some data =>
    by_cases h0 : len = 0
    · refine ⟨s, _, _, ?_, if_pos h0, hself, .refl _ _ _⟩
      have e : Drivers.uartWrite t callbacks s.heap.mem (some (s.uarts u)) (some data) len =
          (s.heap.mem, some (s.uarts u), .errorInvalidParam) := if_pos (.inr h0)
      rw [Store.call, e]
      exact onUart_self ..
    obtain ⟨m', r', e, hitems, hout⟩ := uartWriteLoop_ring (show b + config.txBufferSize.toNat < t.sizeMod by omega)
      data len 0 s.heap.mem r
    have hle := r.count_le
    have hwrite : Drivers.uartWrite t callbacks s.heap.mem (some (s.uarts u)) (some data) len =
        (m', some { s.uarts u with txBuffer := ⟨b, config.txBufferSize.toNat, r'.head, r'.tail, r'.count⟩ },
          if r.count + len ≤ config.txBufferSize.toNat then .ok else .errorBusy) := by
      unfold Drivers.uartWrite
      dsimp only
      rw [if_neg (by simp [hinit, h0]), htx, e]
      by_cases hfit : r.count + len ≤ config.txBufferSize.toNat
      · rw [decide_eq_true hfit, if_pos hfit]
        dsimp only
        rw [if_neg (not_not.2 hcall)]
      · rw [decide_eq_false hfit, if_neg hfit]
    refine ⟨⟨{ s.heap with mem := m' }, s.pools, Function.update s.uarts u _⟩, r'.items fun j => m' (b + j), _,
      by rw [Store.call, hwrite]; rfl, ?_, ?_, .setUart fun x hx => hout x ?_⟩
    · simp only [Nat.zero_add] at hitems
      rw [Act.write, Ring.length_items, hitems]
      dsimp only
      rw [if_neg h0]
      by_cases hfit : r.count + len ≤ config.txBufferSize.toNat
      · rw [if_pos hfit, if_pos hfit, Nat.min_eq_left (by omega)]
      · rw [if_neg hfit, if_neg hfit, Nat.min_eq_right (by omega)]
    · show UartAt t m' _ (Function.update s.uarts u _ u) config _
      rw [Function.update_self]
      exact ⟨b, k, g, r', rfl, ⟨hinit, hconf, hrx, hcall, hbusy⟩, hk, hlt, rfl, rfl⟩
    · have := hx (b, k) (Multiset.mem_cons_self _ _)
      dsimp only at this
      omega

/-- The functions that store a new handle and write no byte. -/
theorem uart_entry_sound {act : Act} {α : Type} {f : Option UartHandle × α} {ret : α → Ret} {idle : Ret}
    (hi : Implements t s W)
    (hidle : (s.uarts u).initialized = false → ∃ r, f = (some (s.uarts u), r) ∧ ret r = idle)
    (hW : ∀ config sent gs, UartAt t s.heap.mem gs (s.uarts u) config sent → ∃ uart sent' r,
      f = (some uart, r) ∧ act (.uart config sent) = some (.uart config sent', ret r) ∧
      UartAt t s.heap.mem gs uart config sent') :
    ∃ s' r W', s.onUart u f ret = some (s', r) ∧ ActsUart W r W' u idle act ∧ Implements t s' W' := by
  refine hi.act_uart (fun hinit => ?_) fun config sent gs hr => ?_
  · obtain ⟨r, e, rfl⟩ := hidle hinit
    rw [e]
    exact onUart_self ..
  · obtain ⟨uart, sent', r, e, ha, hr'⟩ := hW config sent gs hr
    refine ⟨⟨{ s.heap with mem := s.heap.mem }, s.pools, Function.update s.uarts u uart⟩, sent', ret r, by rw [e]; rfl,
      ha, ?_, .setUart fun _ _ => rfl⟩
    show UartAt t s.heap.mem gs (Function.update s.uarts u uart u) config sent'
    rwa [Function.update_self]

theorem uartWriteDma_sound {data : Option (Nat → UInt8)} (hi : Implements t s W) :
    Sound t callbacks task s W (.uartWriteDma u data len) := by
  refine uart_entry_sound hi (fun hinit => ⟨_, ?_, rfl⟩) fun config sent gs hr => ?_
  · cases data with
    | none => rfl
    | some data => exact if_pos (.inl (by rw [hinit]; rfl))
  have hr' := hr
  obtain ⟨b, k, g, r, -, ⟨hinit, hconf, -, -, hbusy⟩, -⟩ := hr
  cases data with
  | none => exact ⟨_, sent, _, rfl, rfl, hr'⟩
  | some data =>
    by_cases h0 : len = 0
    · exact ⟨_, sent, _, if_pos (.inr h0), if_pos (.inr h0), hr'⟩
    · cases hdma : config.enableDma with
      | false =>
        refine ⟨s.uarts u, sent, .errorNotReady, ?_, ?_, hr'⟩
        · unfold Drivers.uartWriteDma
          dsimp only
          rw [if_neg (by simp [hinit, h0]), if_pos (by rw [hconf, hdma]; rfl)]
        · rw [Act.writeDma, if_neg (by simp [h0]), if_pos (by rw [hdma]; rfl)]
      | true =>
        refine ⟨s.uarts u, sent, .ok, ?_, ?_, hr'⟩
        · unfold Drivers.uartWriteDma
          dsimp only
          rw [if_neg (by simp [hinit, h0]), if_neg (by rw [hconf, hdma]; decide), if_neg (by rw [hbusy]; decide)]
          rw [← hbusy]
        · rw [Act.writeDma, if_neg (by simp [h0]), if_neg (by rw [hdma]; decide)]

/-- Nothing is taken out of an empty buffer. -/
theorem uartReadLoop_empty {cb : CircularBuffer} (hcb : cb.count = 0) (m : Mem) (n i : Nat) (buffer : Nat → UInt8)
    (bytesRead : Nat) : uartReadLoop t m n i cb buffer bytesRead = (cb, buffer, bytesRead) := by
  cases n with
  | zero => rfl
  | succ n => rw [uartReadLoop, circBufGet, if_pos hcb]

theorem uartRead_sound {buffer : Option (Nat → UInt8)} {bytesRead : Option Nat} (hi : Implements t s W) :
    Sound t callbacks task s W (.uartRead u buffer len bytesRead) := by
  refine hi.act_uart (fun hinit => ?_) fun config sent gs hr => ?_
  · have e : Drivers.uartRead t s.heap.mem (some (s.uarts u)) buffer len bytesRead =
        (some (s.uarts u), buffer, bytesRead, .errorInvalidParam) := by
      cases buffer <;> cases bytesRead <;> first | rfl | exact if_pos (by rw [hinit]; rfl)
    rw [Store.call, e]
    exact onUart_self ..
  have hr' := hr
  obtain ⟨b, k, g, r, -, ⟨hinit, -, hrx, -⟩, -⟩ := hr
  by_cases hn : buffer.isNone ∨ bytesRead.isNone
  · have e : Drivers.uartRead t s.heap.mem (some (s.uarts u)) buffer len bytesRead =
        (some (s.uarts u), buffer, bytesRead, .errorInvalidParam) := by
      cases buffer <;> cases bytesRead <;> first | rfl | simp at hn
    refine ⟨s, sent, _, ?_, if_pos hn, hr', .refl _ _ _⟩
    rw [Store.call, e]
    exact onUart_self ..
  · have e : Drivers.uartRead t s.heap.mem (some (s.uarts u)) buffer len bytesRead =
        (some (s.uarts u), buffer, some 0, .ok) := by
      cases buffer with
      | none => simp at hn
      | some buffer =>
        cases bytesRead with
        | none => simp at hn
        | some bytesRead =>
          unfold Drivers.uartRead
          dsimp only
          rw [if_neg (by rw [hinit]; decide), uartReadLoop_empty hrx]
    refine ⟨s, sent, _, ?_, if_neg hn, hr', .refl _ _ _⟩
    rw [Store.call, e]
    exact onUart_self ..

theorem uartAvailable_sound (hi : Implements t s W) : Sound t callbacks task s W (.uartAvailable u) := by
  refine hi.act_uart (fun hinit => ?_) fun config sent gs hr => ?_
  · rw [Store.call, Drivers.uartAvailable, hinit]
    rfl
  · refine ⟨s, sent, _, ?_, rfl, hr, .refl _ _ _⟩
    obtain ⟨b, k, g, r, -, ⟨hinit, -, hrx, -⟩, -⟩ := hr
    rw [Store.call, Drivers.uartAvailable, hinit]
    exact congrArg (fun n => some (s, Ret.count n)) hrx

theorem uartFlush_sound (hi : Implements t s W) : Sound t callbacks task s W (.uartFlush u) := by
  refine uart_entry_sound hi (fun hinit => ⟨_, if_pos (by rw [hinit]; rfl), rfl⟩) fun config sent gs hr => ?_
  obtain ⟨b, k, g, r, rfl, ⟨hinit, hconf, hrx, hcall, hbusy⟩, hk, hlt, htx, -⟩ := hr
  have hpos : 0 < config.txBufferSize.toNat := by have := r.tail_lt; omega
  refine ⟨_, [], _, if_neg (by rw [hinit]; decide), rfl,
    ⟨b, k, g, .empty hpos, rfl, ⟨hinit, hconf, rfl, hcall, hbusy⟩, hk, hlt, ?_, (Ring.items_empty _ _).symm⟩⟩
  rw [Ring.head_empty]
  show circBufFlush (s.uarts u).txBuffer = _
  rw [htx]
  rfl

theorem uartSetCallback_sound {callback userData : Nat} (hi : Implements t s W) :
    Sound t callbacks task s W (.uartSetCallback u callback userData) := by
  refine uart_entry_sound hi (fun hinit => ⟨_, if_pos (by rw [hinit]; rfl), rfl⟩) fun config sent gs hr => ?_
  obtain ⟨b, k, g, r, rfl, ⟨hinit, hconf, hrx, hcall, hbusy⟩, hk, hlt, htx, rfl⟩ := hr
  exact ⟨_, _, _, if_neg (by rw [hinit]; decide), rfl,
    ⟨b, k, g, r, rfl, ⟨hinit, hconf, hrx, hcall, hbusy⟩, hk, hlt, htx, rfl⟩⟩

end Rtos.Services
