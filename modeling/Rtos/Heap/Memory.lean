import Rtos.Core.Bytes

/-!
# src/kernel/memory.c: the heap

The heap lives in a byte memory, headers included: a `memory_block_t` at
address `p` has its fields where the compiler of the target puts them, words
are little-endian, NULL is 0. `size_t` arithmetic is modulo `2^w`. The list
loops carry a bound of `HEAP_SIZE` rounds, and `none` is a loop that goes on
past it, a call that does not return. The copies of `memcpy` do not overlap.
`printf` output and the critical sections, which are empty on the host, are
left out.
-/
namespace Rtos.Heap

open Rtos.Core

/-- mirrors include/rtos_types.h:46 -/
abbrev HEAP_SIZE : Nat := 64 * 1024

/-- mirrors src/kernel/memory.c:8 -/
abbrev MEMORY_MAGIC : Nat := 0xDEADBEEF

/-- A 32-bit or 64-bit target, and where the linker puts `heap_memory`: past
address 0, with its end still an address. -/
structure Target where
  word : Nat
  heapMemory : Nat
  word_eq : word = 4 ∨ word = 8
  placed : 0 < heapMemory
  fits : heapMemory + HEAP_SIZE < 256 ^ word

/-- mirrors include/kernel/memory.h:25-33 -/
structure MemoryStats where
  totalHeapSize : Nat
  usedHeapSize : Nat
  freeHeapSize : Nat
  largestFreeBlock : Nat
  numAllocations : Nat
  numFrees : Nat
  fragmentationPercent : Nat
  deriving DecidableEq, Repr

/-- mirrors src/kernel/memory.c:12-17 -/
structure HeapState where
  mem : Mem
  heapHead : Nat
  memoryInitialized : Bool
  globalStats : MemoryStats

/-- The static variables before any call. -/
def HeapState.static : HeapState := ⟨fun _ => 0, 0, false, ⟨0, 0, 0, 0, 0, 0, 0⟩⟩

/-! ## `memory_block_t` -/

section Fields

variable (t : Target)

/-- `sizeof(memory_block_t)`: `size_t`, `bool` and padding, a pointer,
`uint32_t` and padding. -/
def Target.blockHeader : Nat := 4 * t.word

/-- `SIZE_MAX + 1` -/
def Target.sizeMod : Nat := 256 ^ t.word

/-- Arithmetic of `size_t`. -/
def Target.add (a b : Nat) : Nat := (a + b) % t.sizeMod
def Target.sub (a b : Nat) : Nat := (a + t.sizeMod - b) % t.sizeMod
def Target.mul (a b : Nat) : Nat := a * b % t.sizeMod

/-- The fields of the `memory_block_t` at `p`.
mirrors include/kernel/memory.h:7-12 -/
def blockSize (m : Mem) (p : Nat) : Nat := m.read p t.word
def blockIsFree (m : Mem) (p : Nat) : Bool := m (p + t.word) != 0
def blockNext (m : Mem) (p : Nat) : Nat := m.read (p + 2 * t.word) t.word
def blockMagic (m : Mem) (p : Nat) : Nat := m.read (p + 3 * t.word) 4

/-- `p->size = v`, `p->is_free = b`, `p->next = q` and `p->magic = v` -/
def setSize (m : Mem) (p v : Nat) : Mem := m.write p t.word v
def setIsFree (m : Mem) (p : Nat) (b : Bool) : Mem := Function.update m (p + t.word) (if b then 1 else 0)
def setNext (m : Mem) (p q : Nat) : Mem := m.write (p + 2 * t.word) t.word q
def setMagic (m : Mem) (p v : Nat) : Mem := m.write (p + 3 * t.word) 4 v

end Fields

/-! ## The functions -/

variable (t : Target)

/-- mirrors src/kernel/memory.c:20-44 -/
def memoryInit (h : HeapState) : HeapState :=
  if h.memoryInitialized then h
  else
    let head := t.heapMemory
    let m := setSize t h.mem head (HEAP_SIZE - t.blockHeader)
    let m := setIsFree t m head true
    let m := setNext t m head 0
    let m := setMagic t m head MEMORY_MAGIC
    { mem := m
      heapHead := head
      memoryInitialized := true
      globalStats :=
        { totalHeapSize := HEAP_SIZE
          usedHeapSize := t.blockHeader
          freeHeapSize := blockSize t m head
          largestFreeBlock := blockSize t m head
          numAllocations := 0
          numFrees := 0
          fragmentationPercent := 0 } }

/-- `& ~3` clears the two low bits.
mirrors src/kernel/memory.c:47-49 -/
def alignSize (size : Nat) : Nat := t.add size 3 - t.add size 3 % 4

/-- mirrors src/kernel/memory.c:57-68 -/
def findBestFitLoop (m : Mem) (size : Nat) : Nat → Nat → Nat → Nat → Option Nat
  | n, current, minDiff, bestFit =>
    if current = 0 then some bestFit
    else
      match n with
      | 0 => none
      | n + 1 =>
        if blockIsFree t m current ∧ blockSize t m current ≥ size ∧
            t.sub (blockSize t m current) size < minDiff then
          findBestFitLoop m size n (blockNext t m current) (t.sub (blockSize t m current) size) current
        else findBestFitLoop m size n (blockNext t m current) minDiff bestFit

/-- mirrors src/kernel/memory.c:52-69 -/
def findBestFit (h : HeapState) (size : Nat) : Option Nat :=
  findBestFitLoop t h.mem size HEAP_SIZE h.heapHead (t.sizeMod - 1) 0

/-- mirrors src/kernel/memory.c:72-85 -/
def splitBlock (m : Mem) (block size : Nat) : Mem :=
  if blockSize t m block ≥ t.add (t.add size t.blockHeader) 32 then
    let newBlock := block + t.blockHeader + size
    let m := setSize t m newBlock (t.sub (t.sub (blockSize t m block) size) t.blockHeader)
    let m := setIsFree t m newBlock true
    let m := setNext t m newBlock (blockNext t m block)
    let m := setMagic t m newBlock MEMORY_MAGIC
    let m := setSize t m block size
    setNext t m block newBlock
  else m

/-- Merge with the next block.
mirrors src/kernel/memory.c:94-95 -/
def mergeNext (m : Mem) (current : Nat) : Mem :=
  let m := setSize t m current (t.add (blockSize t m current)
    (t.add t.blockHeader (blockSize t m (blockNext t m current))))
  setNext t m current (blockNext t m (blockNext t m current))

/-- mirrors src/kernel/memory.c:91-99 -/
def mergeLoop : Nat → Mem → Nat → Option Mem
  | n, m, current =>
    if current = 0 ∨ blockNext t m current = 0 then some m
    else
      match n with
      | 0 => none
      | n + 1 =>
        if blockIsFree t m current ∧ blockIsFree t m (blockNext t m current) then
          mergeLoop n (mergeNext t m current) current
        else mergeLoop n m (blockNext t m current)

/-- mirrors src/kernel/memory.c:88-100 -/
def mergeFreeBlocks (h : HeapState) : Option HeapState :=
  (mergeLoop t HEAP_SIZE h.mem h.heapHead).map fun m => { h with mem := m }

/-- mirrors src/kernel/memory.c:103-140 -/
def rtosMalloc (h : HeapState) (size : Nat) : Option (HeapState × Nat) :=
  if !h.memoryInitialized ∨ size = 0 then some (h, 0)
  else
    let size := alignSize t size
    (findBestFit t h size).map fun block =>
      if block = 0 then (h, 0)
      else
        let m := setIsFree t (splitBlock t h.mem block size) block false
        let bytes := t.add (blockSize t m block) t.blockHeader
        let stats := { h.globalStats with
          numAllocations := (h.globalStats.numAllocations + 1) % 2 ^ 32
          usedHeapSize := t.add h.globalStats.usedHeapSize bytes
          freeHeapSize := t.sub h.globalStats.freeHeapSize bytes }
        ({ h with mem := m, globalStats := stats }, block + t.blockHeader)

/-- mirrors src/kernel/memory.c:143-181 -/
def rtosFree (h : HeapState) (ptr : Nat) : Option HeapState :=
  if !h.memoryInitialized ∨ ptr = 0 then some h
  else
    let block := ptr - t.blockHeader
    if blockMagic t h.mem block ≠ MEMORY_MAGIC then some h
    else if blockIsFree t h.mem block then some h
    else
      let m := setIsFree t h.mem block true
      let bytes := t.add (blockSize t m block) t.blockHeader
      let stats := { h.globalStats with
        numFrees := (h.globalStats.numFrees + 1) % 2 ^ 32
        usedHeapSize := t.sub h.globalStats.usedHeapSize bytes
        freeHeapSize := t.add h.globalStats.freeHeapSize bytes }
      mergeFreeBlocks t { h with mem := m, globalStats := stats }

/-- mirrors src/kernel/memory.c:184-193 -/
def rtosCalloc (h : HeapState) (num size : Nat) : Option (HeapState × Nat) :=
  let totalSize := t.mul num size
  (rtosMalloc t h totalSize).map fun (h, ptr) =>
    if ptr ≠ 0 then ({ h with mem := h.mem.put ptr (fun _ => 0) totalSize }, ptr) else (h, ptr)

/-- mirrors src/kernel/memory.c:196-227 -/
def rtosRealloc (h : HeapState) (ptr newSize : Nat) : Option (HeapState × Nat) :=
  if ptr = 0 then rtosMalloc t h newSize
  else if newSize = 0 then (rtosFree t h ptr).map fun h => (h, 0)
  else
    let block := ptr - t.blockHeader
    if newSize ≤ blockSize t h.mem block then some (h, ptr)
    else
      (rtosMalloc t h newSize).bind fun (h, newPtr) =>
        if newPtr = 0 then some (h, 0)
        else
          let m := h.mem.put newPtr (fun i => h.mem (ptr + i)) (blockSize t h.mem block)
          (rtosFree t { h with mem := m } ptr).map fun h => (h, newPtr)

/-- mirrors src/kernel/memory.c:363-371 -/
def fragmentationLoop (m : Mem) : Nat → Nat → Nat → Nat → Option (Nat × Nat)
  | n, current, largestFree, totalFree =>
    if current = 0 then some (largestFree, totalFree)
    else
      match n with
      | 0 => none
      | n + 1 =>
        if blockIsFree t m current then
          fragmentationLoop m n (blockNext t m current)
            (if blockSize t m current > largestFree then blockSize t m current else largestFree)
            (t.add totalFree (blockSize t m current))
        else fragmentationLoop m n (blockNext t m current) largestFree totalFree

/-- mirrors src/kernel/memory.c:376-381 -/
def fragmentationPercent (largestFree totalFree : Nat) : Nat :=
  if totalFree > 0 then ((1.0 - Float.ofNat largestFree / Float.ofNat totalFree) * 100.0).toUInt32.toNat
  else 0

/-- mirrors src/kernel/memory.c:358-382 -/
def calculateFragmentation (h : HeapState) (stats : MemoryStats) : Option MemoryStats :=
  (fragmentationLoop t h.mem HEAP_SIZE h.heapHead 0 0).map fun (largestFree, totalFree) =>
    { stats with
      largestFreeBlock := largestFree
      fragmentationPercent := fragmentationPercent largestFree totalFree }

/-- `stats` is what the pointer points at, `none` for NULL.
mirrors src/kernel/memory.c:385-396 -/
def memoryGetStats (h : HeapState) (stats : Option MemoryStats) : Option (Option MemoryStats) :=
  if stats.isNone ∨ !h.memoryInitialized then some stats
  else (calculateFragmentation t h h.globalStats).map some

end Rtos.Heap
