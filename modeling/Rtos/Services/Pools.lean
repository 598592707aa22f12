import Rtos.Services.Memory

/-!
# Memory pools carry out the specification
-/
namespace Rtos.Services

open Rtos.Core Rtos.Heap
open Rtos.Drivers (UartHandle)
open Rtos.Sched (RtosStatus)

variable {t : Target} {callbacks : Nat → Nat → Mem × UartHandle → Mem × UartHandle} {task : UInt32} {s : Store}
  {W : World} {m m' : Mem} {gs : Grants} {pool : MemoryPool} {i j n p ptr start stride blockSize : Nat}
  {blocks : Nat → Option (List UInt8)}

theorem isPool_kinds (hl : W.kinds.isPool i = true) :
    ∃ start stride blockSize n blocks, W (.pool i) = some (.pool start stride blockSize n blocks) := by
  unfold Live.isPool World.kinds at hl
  cases hW : W (.pool i) with
  | none => rw [hW] at hl; cases hl
  | some o =>
    rw [hW] at hl
    cases o with
    | pool start stride blockSize n blocks => exact ⟨_, _, _, _, _, rfl⟩
    | _ => cases hl

/-- A byte of a block that is held. -/
theorem hasBlockByte_kinds (hl : W.kinds.hasBlockByte i ptr p = true) :
    ∃ start stride blockSize n blocks j data, W (.pool i) = some (.pool start stride blockSize n blocks) ∧
      Act.blockAt start stride n ptr = some j ∧ blocks j = some data ∧ p < blockSize := by
  unfold Live.hasBlockByte World.kinds at hl
  cases hW : W (.pool i) with
  | none => rw [hW] at hl; cases hl
  | some o =>
    rw [hW] at hl
    cases o with
    | pool start stride blockSize n blocks =>
      obtain ⟨hheld, hp⟩ := Bool.and_eq_true_iff.1 hl
      obtain ⟨j, hj, hb⟩ := (Option.any_eq_true _ _).1 hheld
      obtain ⟨data, hd⟩ := Option.isSome_iff_exists.1 hb
      exact ⟨_, _, _, _, _, j, data, rfl, hj, hd, of_decide_eq_true hp⟩
    | _ => cases hl

/-- The blocks of the pools are apart, and none is at NULL. -/
theorem Implements.pool_pos (hi : Implements t s W)
    (hW : W (.pool i) = some (.pool start stride blockSize n blocks)) : 0 < start ∧ 0 < stride := by
  obtain ⟨gs, rest, hr, -, -⟩ := hi.focus hW
  obtain ⟨k, g, out, -, ⟨rfl, rfl, rfl⟩, -, -, -, hp, -⟩ := hr
  exact ⟨hp.placed.start, hp.placed.size⟩

theorem poolCreate_sound {bs : Nat} (hi : Implements t s W) (hl : Legal t W.kinds (.poolCreate i bs n)) :
    Sound t callbacks task s W (.poolCreate i bs n) := by
  obtain ⟨hnone, hbs, hn, hmul⟩ := hl
  have hW : W (.pool i) = none := by
    rw [World.kinds, Option.isNone_map, Option.isNone_iff_eq_none] at hnone
    exact hnone
  obtain ⟨rest, hH, ho⟩ := hi.grants
  have hself : Function.update W (.pool i) none = W := Function.update_eq_self_iff.2 hW.symm
  have hH' : (layout t).Holds (Function.update W (.pool i) none) s rest := by rwa [hself]
  rcases poolCreate_outstanding ho (some (s.pools i)) bs n with ⟨h', pool', st, e, hst, ho', hk⟩ |
    ⟨h', p, g, q, k, e, hbs0, hn0, htotal, hg, -, hk, ho', hones, hkept⟩
  · -- the variable is left behind, but no object is in it
    refine ⟨⟨h', Function.update s.pools i (pool'.getD (s.pools i)), s.uarts⟩, .status st, W,
      by rw [Store.call, e]; rfl, .inl ⟨st, hst, rfl, rfl⟩, ?_⟩
    have hd : Implements t ⟨h', Function.update s.pools i (pool'.getD (s.pools i)), s.uarts⟩
        (Function.update W (.pool i) none) := hi.drop hH' hk
      (fun j hj => Function.update_of_ne (fun e => hj (by rw [e])) _ _) (fun _ _ => rfl) ho' fun u hu => by cases hu
    rwa [hself] at hd
  · obtain ⟨hp, hbits, hsize⟩ := fresh_pooled hn hmul htotal hg hk ho' hones
    refine ⟨⟨h', Function.update s.pools i ⟨p, alignSize t bs, n, n, q⟩, s.uarts⟩, .status .ok, _,
      by rw [Store.call, e]; rfl, .inr ⟨rfl, p, alignSize t bs, hp.placed.start, Nat.pos_of_ne_zero hbs0,
        le_alignSize hbs, Nat.pos_of_ne_zero hn0, rfl⟩,
      hi.put hH' hkept (fun j hj => Function.update_of_ne (fun e => hj (by rw [e])) _ _) (fun _ _ => rfl)
        ((q, k) ::ₘ {(p, g)}) (by rwa [Multiset.cons_add, Multiset.singleton_add]) ?_⟩
    show PoolAt t h'.mem _ (Function.update s.pools i _ i) p (alignSize t bs) bs n fun _ => none
    rw [Function.update_self]
    refine ⟨k, g, [], rfl, ⟨rfl, rfl, rfl⟩, le_alignSize hbs, hbits, hsize, hp, fun j hj => ?_,
      fun j hj data hd => by cases hd⟩
    -- a bit that is clear would be a block held
    cases hb : h'.mem.getBit q j with
    | true => rfl
    | false => exact absurd ((hp.out _).2 ⟨j, hj, rfl, hb⟩) List.not_mem_nil

/-! ## Blocks -/

/-- Clearing or setting bits of the bitmap, and writing in one block, leaves
the bytes of the others. -/
theorem block_bytes_congr {pool : MemoryPool} (hj : j < pool.numBlocks)
    (hbs : blockSize ≤ pool.blockSize)
    (hm : ∀ x, pool.poolStart ≤ x → x < pool.poolStart + pool.blockSize * pool.numBlocks → m' x = m x) :
    m'.bytes (pool.addr j) blockSize = m.bytes (pool.addr j) blockSize := by
  have hb := MemoryPool.Placed.block_le hj
  exact Mem.bytes_congr fun x h1 h2 => by
    unfold MemoryPool.addr at h1 h2
    exact hm x (by omega) (by omega)

/-- A byte of the bitmap is none of a block. -/
theorem bitmap_apart {pool : MemoryPool} (hp : pool.Placed t) (hj : j < pool.numBlocks) {x : Nat}
    (h1 : pool.poolStart ≤ x) (h2 : x < pool.poolStart + pool.blockSize * pool.numBlocks) :
    x ≠ pool.freeList + j / 8 := by
  rcases hp.apart with h | h <;> omega

theorem poolAlloc_sound (hi : Implements t s W) (hl : Legal t W.kinds (.poolAlloc i)) :
    Sound t callbacks task s W (.poolAlloc i) := by
  obtain ⟨start, stride, blockSize, n, blocks, hW⟩ := isPool_kinds hl
  obtain ⟨gs, rest, hr, hH, ho⟩ := hi.focus hW
  obtain ⟨k, g, out, rfl, ⟨rfl, rfl, rfl⟩, hbs, hbits, hg, hpool, hheld, hdata⟩ := hr
  rcases hpool.alloc with ⟨hfull, e⟩ | ⟨j, hj, hb, hlow, e⟩
  · -- all blocks are held
    refine ⟨s, .ptr 0, W, ?_, ⟨_, _, _, _, _, hW, ?_⟩, hi⟩
    · dsimp only [Store.call] at e ⊢
      rw [e]
      dsimp only [Option.getD_some]
      rw [Function.update_eq_self]
      rfl
    · have hzero : s.heap.mem.setBits (s.pools i).freeList (s.pools i).numBlocks = 0 := by
        have h1 := hpool.length_add
        have h2 := hpool.count
        dsimp only at h1 h2 hfull
        omega
      have hfind : (List.range (s.pools i).numBlocks).find? (fun j => (blocks j).isNone) = none := by
        rw [List.find?_eq_none]
        intro j hj hn
        have hj := List.mem_range.1 hj
        rw [Mem.setBits, List.length_eq_zero_iff, List.filter_eq_nil_iff] at hzero
        have h1 := hheld j hj
        rw [Bool.eq_false_iff.2 (hzero j (List.mem_range.2 hj))] at h1
        rw [← Option.not_isSome, h1] at hn
        cases hn
      rw [hfind]
      exact ⟨rfl, rfl⟩
  · obtain ⟨s₁, e₁, hpool'⟩ := alloc_pooled hpool
    rw [PoolSys.call, e] at e₁
    cases e₁
    dsimp only at hpool' hb hj
    let m' := s.heap.mem.clearBit (s.pools i).freeList j
    let pool' : MemoryPool := { s.pools i with freeBlocks := t.sub (s.pools i).freeBlocks 1 }
    refine ⟨⟨{ s.heap with mem := m' }, Function.update s.pools i pool', s.uarts⟩, .ptr ((s.pools i).addr j),
      Function.update W (.pool i) (some (.pool (s.pools i).poolStart (s.pools i).blockSize blockSize
        (s.pools i).numBlocks (Function.update blocks j (some (m'.bytes ((s.pools i).addr j) blockSize))))), ?_,
      ⟨_, _, _, _, _, hW, ?_⟩, ?_⟩
    · dsimp only [Store.call] at e ⊢
      rw [e]
      rfl
    · have hfind : (List.range (s.pools i).numBlocks).find? (fun j => (blocks j).isNone) = some j := by
        refine List.find?_range_eq_some.2 ⟨?_, List.mem_range.2 hj, fun l hl => ?_⟩
        · rw [← Option.not_isSome, hheld j hj, hb]
          rfl
        · rw [← Option.not_isSome, hheld l (by omega), hlow l hl]
          rfl
      rw [hfind]
      exact ⟨rfl, _, Mem.length_bytes .., rfl⟩
    · have hm : ∀ x, x ≠ (s.pools i).freeList + j / 8 → m' x = s.heap.mem x := fun x hx => Function.update_of_ne hx _ _
      have hbit : ∀ l, m'.getBit (s.pools i).freeList l = (!decide (l = j) && s.heap.mem.getBit (s.pools i).freeList l) :=
        fun l => Mem.getBit_clearBit ..
      have hw := writes_outstanding ho m' fun x hx => hm x (by
        have := hx ((s.pools i).freeList, k) (Multiset.mem_cons_self _ _)
        dsimp only at this
        omega)
      refine hi.put hH hw.2 (fun l hl => Function.update_of_ne (fun e => hl (by rw [e])) _ _) (fun _ _ => rfl) _ hw.1 ?_
      show PoolAt t m' _ (Function.update s.pools i pool' i) _ _ _ _ _
      rw [Function.update_self]
      refine ⟨k, g, _, rfl, ⟨rfl, rfl, rfl⟩, hbs, hbits, hg, hpool', fun l hl => ?_, fun l hl data hd => ?_⟩
      · show _ = !m'.getBit (s.pools i).freeList l
        rw [hbit]
        by_cases hlj : l = j
        · simp [hlj]
        · simp [hlj, hheld l hl]
      · by_cases hlj : l = j
        · subst hlj
          rw [Function.update_self] at hd
          cases hd
          exact ⟨Mem.length_bytes .., rfl⟩
        · rw [Function.update_of_ne hlj] at hd
          obtain ⟨h1, h2⟩ := hdata l hl data hd
          refine ⟨h1, Eq.trans ?_ h2⟩
          show m'.bytes ((s.pools i).addr l) blockSize = _
          exact block_bytes_congr hl hbs fun x h3 h4 => hm x (bitmap_apart hpool.placed hj h3 h4)

/-- The three ways a pointer is freed: no block starts there, its block is free, or it is held. -/
theorem poolFree_cases {out : List Nat} (hp : Pooled t ⟨m, pool, out⟩) (hlt : ptr < t.sizeMod) :
    (Act.blockAt pool.poolStart pool.blockSize pool.numBlocks ptr = none ∧
      memoryPoolFree t m (some pool) ptr = some (m, some pool, .errorInvalidParam)) ∨
    ∃ j, Act.blockAt pool.poolStart pool.blockSize pool.numBlocks ptr = some j ∧ j < pool.numBlocks ∧
      ((m.getBit pool.freeList j = true ∧ memoryPoolFree t m (some pool) ptr = some (m, some pool, .error)) ∨
       (m.getBit pool.freeList j = false ∧ memoryPoolFree t m (some pool) ptr = some (m.setBit pool.freeList j,
          some { pool with freeBlocks := t.add pool.freeBlocks 1 }, .ok) ∧
        ∃ out', Pooled t ⟨m.setBit pool.freeList j, { pool with freeBlocks := t.add pool.freeBlocks 1 }, out'⟩)) := by
  have hpl := hp.placed
  have hsize := hpl.size
  -- no block starts at a pointer that the function finds to be none
  have hnone : (∀ j, j < pool.numBlocks → ptr ≠ pool.addr j) →
      Act.blockAt pool.poolStart pool.blockSize pool.numBlocks ptr = none := by
    intro h
    cases hat : Act.blockAt pool.poolStart pool.blockSize pool.numBlocks ptr with
    | none => rfl
    | some j =>
      obtain ⟨h1, h2⟩ := (Act.blockAt_eq hsize).1 hat
      exact absurd h2 (h j h1)
  have hsub : ∀ j, j < pool.numBlocks → t.sub (pool.addr j) pool.poolStart = j * pool.blockSize := fun j =>
    hpl.sub_addr
  by_cases h0 : ptr = 0
  · refine .inl ⟨hnone fun j _ e => hpl.addr_ne_zero (e.symm.trans h0), ?_⟩
    rw [memoryPoolFree, if_pos h0]
  have hfree : memoryPoolFree t m (some pool) ptr =
      if t.sub ptr pool.poolStart % pool.blockSize ≠ 0 then some (m, some pool, .errorInvalidParam)
      else if t.sub ptr pool.poolStart / pool.blockSize ≥ pool.numBlocks then some (m, some pool, .errorInvalidParam)
      else if m.getBit pool.freeList (t.sub ptr pool.poolStart / pool.blockSize) then some (m, some pool, .error)
      else some (m.setBit pool.freeList (t.sub ptr pool.poolStart / pool.blockSize),
        some { pool with freeBlocks := t.add pool.freeBlocks 1 }, .ok) := by
    rw [memoryPoolFree, if_neg h0, if_neg (show ¬ pool.blockSize = 0 by dsimp only at hsize; omega)]
  by_cases hm : t.sub ptr pool.poolStart % pool.blockSize = 0
  swap
  · refine .inl ⟨hnone fun j hj e => hm ?_, by rw [hfree, if_pos hm]⟩
    rw [e, hsub j hj, Nat.mul_mod_left]
  rw [if_neg (not_not.2 hm)] at hfree
  by_cases hn : pool.numBlocks ≤ t.sub ptr pool.poolStart / pool.blockSize
  · refine .inl ⟨hnone fun j hj e => ?_, by rw [hfree, if_pos hn]⟩
    rw [e, hsub j hj, Nat.mul_div_cancel _ hsize] at hn
    omega
  rw [if_neg hn] at hfree
  have hj := Nat.lt_of_not_le hn
  have haddr := hpl.addr_of_sub hlt hm hj
  refine .inr ⟨_, (Act.blockAt_eq hsize).2 ⟨hj, haddr⟩, hj, ?_⟩
  cases hb : m.getBit pool.freeList (t.sub ptr pool.poolStart / pool.blockSize) with
  | true => exact .inl ⟨rfl, by rw [hfree, if_pos hb]⟩
  | false =>
    rw [if_neg (by rw [hb]; decide)] at hfree
    refine .inr ⟨rfl, hfree, ?_⟩
    obtain ⟨s', e, hp'⟩ := free_pooled hp (Nat.pos_of_ne_zero h0) hlt
    rw [PoolSys.call] at e
    dsimp only at e
    rw [hfree, Option.map_some] at e
    cases e
    exact ⟨_, hp'⟩

theorem poolFree_sound (hi : Implements t s W) (hl : Legal t W.kinds (.poolFree i ptr)) :
    Sound t callbacks task s W (.poolFree i ptr) := by
  obtain ⟨start, stride, blockSize, n, blocks, hW⟩ := isPool_kinds hl.1
  refine hi.act hW fun gs hr => ?_
  obtain ⟨k, g, out, rfl, ⟨rfl, rfl, rfl⟩, hbs, hbits, hg, hpool, hheld, hdata⟩ := hr
  have hsame : ({ s.setMem s.heap.mem with
      pools := Function.update s.pools i (s.pools i) } : Store) = s := by
    rw [Function.update_eq_self]
    rfl
  rcases poolFree_cases hpool hl.2 with ⟨hat, e⟩ | ⟨j, hat, hj, ⟨hb, e⟩ | ⟨hb, e, out', hpool'⟩⟩
  · refine ⟨s, .pool _ _ blockSize _ blocks, _, ?_, by rw [Act.blockFree, hat],
      ⟨k, g, out, rfl, ⟨rfl, rfl, rfl⟩, hbs, hbits, hg, hpool, hheld, hdata⟩, .refl _ _ _⟩
    rw [Store.call, e, Option.map_some]
    exact congrArg (fun x => some (x, _)) hsame
  · refine ⟨s, .pool _ _ blockSize _ blocks, .status .error, ?_, ?_,
      ⟨k, g, out, rfl, ⟨rfl, rfl, rfl⟩, hbs, hbits, hg, hpool, hheld, hdata⟩, .refl _ _ _⟩
    · rw [Store.call, e, Option.map_some]
      exact congrArg (fun x => some (x, _)) hsame
    · rw [Act.blockFree, hat]
      dsimp only
      rw [if_pos (by rw [← Option.not_isSome, hheld j hj, hb]; rfl)]
  · let m' := s.heap.mem.setBit (s.pools i).freeList j
    let pool' : MemoryPool := { s.pools i with freeBlocks := t.add (s.pools i).freeBlocks 1 }
    have hm : ∀ x, x ≠ (s.pools i).freeList + j / 8 → m' x = s.heap.mem x := fun x hx => Function.update_of_ne hx _ _
    have hbit : ∀ l, m'.getBit (s.pools i).freeList l = (decide (l = j) || s.heap.mem.getBit (s.pools i).freeList l) :=
      fun l => Mem.getBit_setBit ..
    refine ⟨⟨{ s.heap with mem := m' }, Function.update s.pools i pool', s.uarts⟩,
      .pool (s.pools i).poolStart (s.pools i).blockSize blockSize (s.pools i).numBlocks
        (Function.update blocks j none), .status .ok, ?_, ?_, ?_, ⟨rfl, fun x hx => hm x ?_, fun l hl =>
        Function.update_of_ne (fun e => hl (by rw [e])) _ _, fun _ _ => rfl⟩⟩
    · rw [Store.call, e]
      rfl
    · rw [Act.blockFree, hat]
      dsimp only
      rw [if_neg (by rw [← Option.not_isSome, hheld j hj, hb]; decide)]
    · show PoolAt t m' _ (Function.update s.pools i pool' i) _ _ _ _ _
      rw [Function.update_self]
      refine ⟨k, g, out', rfl, ⟨rfl, rfl, rfl⟩, hbs, hbits, hg, hpool', fun l hl => ?_, fun l hl data hd => ?_⟩
      · show _ = !m'.getBit (s.pools i).freeList l
        rw [hbit]
        by_cases hlj : l = j
        · simp [hlj]
        · simp [hlj, hheld l hl]
      · by_cases hlj : l = j
        · rw [hlj, Function.update_self] at hd
          cases hd
        · rw [Function.update_of_ne hlj] at hd
          obtain ⟨h1, h2⟩ := hdata l hl data hd
          refine ⟨h1, Eq.trans ?_ h2⟩
          show m'.bytes ((s.pools i).addr l) blockSize = _
          exact block_bytes_congr hl hbs fun x h3 h4 => hm x (bitmap_apart hpool.placed hj h3 h4)
    · have := hx ((s.pools i).freeList, k) (Multiset.mem_cons_self _ _)
      dsimp only at this
      omega

theorem poolDestroy_sound (hi : Implements t s W) (hl : Legal t W.kinds (.poolDestroy i)) :
    Sound t callbacks task s W (.poolDestroy i) := by
  obtain ⟨start, stride, blockSize, n, blocks, hW⟩ := isPool_kinds hl
  obtain ⟨gs, rest, hr, hH, ho⟩ := hi.focus hW
  obtain ⟨k, g, out, rfl, -⟩ := hr
  rw [Multiset.cons_add, Multiset.singleton_add] at ho
  obtain ⟨h', e, ho', hk⟩ := poolDestroy_outstanding ho
  refine ⟨⟨h', Function.update s.pools i .zero, s.uarts⟩, .unit, _, by rw [Store.call, e]; rfl, ⟨rfl, rfl⟩,
    hi.drop hH hk (fun l hl => Function.update_of_ne (fun e => hl (by rw [e])) _ _) (fun _ _ => rfl) ho'
      fun u hu => by cases hu⟩

/-- Different blocks are apart. -/
theorem block_apart {pool : MemoryPool} {j l : Nat} (h : l ≠ j) :
    pool.addr l + pool.blockSize ≤ pool.addr j ∨ pool.addr j + pool.blockSize ≤ pool.addr l := by
  unfold MemoryPool.addr
  rcases Nat.lt_or_gt_of_ne h with h | h
  · have := Nat.mul_le_mul_right pool.blockSize (Nat.succ_le_of_lt h)
    rw [Nat.succ_mul] at this
    omega
  · have := Nat.mul_le_mul_right pool.blockSize (Nat.succ_le_of_lt h)
    rw [Nat.succ_mul] at this
    omega

theorem blockStore_sound {v : UInt8} (hi : Implements t s W) (hl : Legal t W.kinds (.blockStore i ptr p v)) :
    Sound t callbacks task s W (.blockStore i ptr p v) := by
  obtain ⟨start, stride, blockSize, n, blocks, j, data, hW, hat, hj, hp⟩ := hasBlockByte_kinds hl
  refine hi.act hW fun gs hr => ?_
  obtain ⟨k, g, out, rfl, ⟨rfl, rfl, rfl⟩, hbs, hbits, hg, hpool, hheld, hdata⟩ := hr
  have hpl : (s.pools i).Placed t := hpool.placed
  obtain ⟨hlt, rfl⟩ := (Act.blockAt_eq hpl.size).1 hat
  obtain ⟨hlen, hd⟩ := hdata j hlt data hj
  have hb := MemoryPool.Placed.block_le hlt
  have hout : (s.pools i).addr j ∈ out := (hpool.out _).2 ⟨j, hlt, rfl, by
    have := hheld j hlt
    rw [hj] at this
    simpa using this.symm⟩
  have hbit : ∀ l, l < (s.pools i).numBlocks →
      Mem.getBit (Function.update s.heap.mem ((s.pools i).addr j + p) v) (s.pools i).freeList l =
        s.heap.mem.getBit (s.pools i).freeList l := by
    intro l hl
    refine Mem.getBit_congr (Function.update_of_ne ?_ _ _)
    unfold MemoryPool.addr
    exact (bitmap_apart hpl hl (by omega) (by omega)).symm
  refine ⟨s.setMem (Function.update s.heap.mem ((s.pools i).addr j + p) v),
    .pool _ _ blockSize _ (Function.update blocks j (some (data.set p v))), .unit, rfl, ?_,
    ⟨k, g, out, rfl, ⟨rfl, rfl, rfl⟩, hbs, hbits, hg, ?_, fun l hl => ?_, fun l hl d hd' => ?_⟩,
    .setMem fun x hx => Function.update_of_ne ?_ _ _⟩
  · show (Act.blockAt _ _ _ _).bind _ = _
    rw [hat, Option.bind_some, hj, Option.bind_some, if_pos (by omega)]
    rfl
  · obtain ⟨s', e, hp'⟩ := store_pooled hpool v ⟨_, hout, Nat.le_add_right _ p, by
      dsimp only
      omega⟩
    cases e
    exact hp'
  · refine Eq.trans ?_ (congrArg _ (hbit l hl).symm)
    rw [← hheld l hl]
    by_cases hlj : l = j
    · rw [hlj, Function.update_self, hj]
      rfl
    · rw [Function.update_of_ne hlj]
  · by_cases hlj : l = j
    · subst hlj
      rw [Function.update_self] at hd'
      cases hd'
      refine ⟨by rw [List.length_set, hlen], (Mem.bytes_update ..).trans ?_⟩
      rw [hd]
    · rw [Function.update_of_ne hlj] at hd'
      obtain ⟨h1, h2⟩ := hdata l hl d hd'
      refine ⟨h1, Eq.trans (Mem.bytes_congr fun x h3 h4 => Function.update_of_ne ?_ _ _) h2⟩
      have hne := @block_apart (s.pools i) j l hlj
      have h3' : (s.pools i).addr l ≤ x := h3
      have h4' : x < (s.pools i).addr l + blockSize := h4
      omega
  · have := hx ((s.pools i).poolStart, g) (Multiset.mem_cons_of_mem (Multiset.mem_singleton_self _))
    unfold MemoryPool.addr
    dsimp only at this
    omega

theorem blockLoad_sound (hi : Implements t s W) (hl : Legal t W.kinds (.blockLoad i ptr p)) :
    Sound t callbacks task s W (.blockLoad i ptr p) := by
  obtain ⟨start, stride, blockSize, n, blocks, j, data, hW, hat, hj, hp⟩ := hasBlockByte_kinds hl
  refine hi.act hW fun gs hr => ?_
  obtain ⟨k, g, out, rfl, ⟨rfl, rfl, rfl⟩, hbs, hbits, hg, hpool, hheld, hdata⟩ := hr
  have hpl : (s.pools i).Placed t := hpool.placed
  obtain ⟨hlt, rfl⟩ := (Act.blockAt_eq hpl.size).1 hat
  obtain ⟨-, hd⟩ := hdata j hlt data hj
  refine ⟨s, .pool _ _ blockSize _ blocks, .byte (s.heap.mem ((s.pools i).addr j + p)), rfl, ?_,
    ⟨k, g, out, rfl, ⟨rfl, rfl, rfl⟩, hbs, hbits, hg, hpool, hheld, hdata⟩, .refl _ _ _⟩
  show (Act.blockAt _ _ _ _).bind _ = _
  rw [hat, Option.bind_some, hj, Option.bind_some, ← hd, Mem.bytes_getElem? _ _ hp]
  rfl

end Rtos.Services
