import RmMicroControllers.Library.Fallible
import RmMicroControllers.Library.Memory

/-!
# The heap of the operating system

The allocator of `heap_4_custom.c` on a byte memory. Pointers and `size_t` values are
naturals below 2^32; a `BlockLink_t` is a `pxNextFreeBlock` word followed by an `xBlockSize`
word, so `xHeapStructSize` is 8 and `heapMINIMUM_BLOCK_SIZE` is 16. The scheduler calls and
the counters of successful calls are left out.
-/

namespace RmMicroControllers

open Memory

/-- `configTOTAL_HEAP_SIZE` of both boards. -/
def configTOTAL_HEAP_SIZE : ℕ := 60000

def xHeapStructSize : ℕ := 8

def heapMINIMUM_BLOCK_SIZE : ℕ := 16

/-- Where the linker puts the array `ucHeap` and the list head `xStart`. -/
structure Layout where
  ucHeap : ℕ
  xStart : ℕ
  ucHeap_pos : 0 < ucHeap
  ucHeap_end : ucHeap + configTOTAL_HEAP_SIZE ≤ 4294967296
  xStart_end : xStart + xHeapStructSize ≤ 4294967296
  disjoint : xStart + xHeapStructSize ≤ ucHeap ∨ ucHeap + configTOTAL_HEAP_SIZE ≤ xStart

/-- A heap at the start of the internal memory and the list head behind it. -/
def Layout.internal : Layout :=
  { ucHeap := 536870912
    xStart := 536936448
    ucHeap_pos := by decide
    ucHeap_end := by decide
    xStart_end := by decide
    disjoint := by decide }

/-- The memory and the other static variables of the allocator. -/
structure Heap where
  mem : Mem
  pxEnd : ℕ
  xFreeBytesRemaining : ℕ
  xMinimumEverFreeBytesRemaining : ℕ
  xBlockAllocatedBit : ℕ

/-- The heap before the first call; `pxEnd` is null. -/
def Heap.uninitialised (m : Mem) : Heap :=
  { mem := m, pxEnd := 0, xFreeBytesRemaining := 0, xMinimumEverFreeBytesRemaining := 0,
    xBlockAllocatedBit := 0 }

/-- How a call can end other than by returning. -/
inductive HeapFault where
  | assertFailed
  | nullWrite
  | diverges
  deriving DecidableEq, Repr

def configASSERT (c : Prop) [Decidable c] : Except HeapFault Unit :=
  if c then .ok () else .error .assertFailed

/-- `~ x` on a `size_t`. -/
def complement (x : ℕ) : ℕ := 4294967295 - x

/-- `x - y` on a `size_t` or a pointer. -/
def subtract (x y : ℕ) : ℕ := (x + 4294967296 - y) % 4294967296

section BlockLink

def pxNextFreeBlock (m : Mem) (px : ℕ) : ℕ := load32 m px

def xBlockSize (m : Mem) (px : ℕ) : ℕ := load32 m (px + 4)

def setNextFreeBlock (m : Mem) (px v : ℕ) : Mem := store32 m px v

def setBlockSize (m : Mem) (px v : ℕ) : Mem := store32 m (px + 4) v

end BlockLink

section Init

/-- `pucAlignedHeap` of `prvHeapInit`. -/
def pucAlignedHeap (L : Layout) : ℕ :=
  if L.ucHeap &&& 7 ≠ 0 then (L.ucHeap + 7) &&& complement 7 else L.ucHeap

/-- `xTotalHeapSize` of `prvHeapInit`. -/
def xTotalHeapSize (L : Layout) : ℕ :=
  if L.ucHeap &&& 7 ≠ 0 then
    subtract configTOTAL_HEAP_SIZE (subtract (pucAlignedHeap L) L.ucHeap)
  else configTOTAL_HEAP_SIZE

/-- The address of `pxEnd` in `prvHeapInit`. -/
def endAddress (L : Layout) : ℕ :=
  subtract (pucAlignedHeap L + xTotalHeapSize L) xHeapStructSize &&& complement 7

def prvHeapInit (L : Layout) (h : Heap) : Heap :=
  let m := setNextFreeBlock h.mem L.xStart (pucAlignedHeap L)
  let m := setBlockSize m L.xStart 0
  let pxEnd := endAddress L
  let m := setBlockSize m pxEnd 0
  let m := setNextFreeBlock m pxEnd 0
  let pxFirstFreeBlock := pucAlignedHeap L
  let m := setBlockSize m pxFirstFreeBlock (subtract pxEnd pxFirstFreeBlock)
  let m := setNextFreeBlock m pxFirstFreeBlock pxEnd
  { mem := m
    pxEnd := pxEnd
    xMinimumEverFreeBytesRemaining := xBlockSize m pxFirstFreeBlock
    xFreeBytesRemaining := xBlockSize m pxFirstFreeBlock
    xBlockAllocatedBit := 2147483648 }

end Init

section Insert

/-- The loop that looks for the block to insert after. -/
def findInsertion (m : Mem) (pxBlockToInsert : ℕ) : ℕ → ℕ → Except HeapFault ℕ
  | 0, _ => .error .diverges
  | fuel + 1, pxIterator =>
    if pxNextFreeBlock m pxIterator < pxBlockToInsert then
      findInsertion m pxBlockToInsert fuel (pxNextFreeBlock m pxIterator)
    else .ok pxIterator

/-- The merge with the block before: the memory and the block that is inserted from here on. -/
def mergePrevious (m : Mem) (pxIterator pxBlockToInsert : ℕ) : Mem × ℕ :=
  if pxIterator + xBlockSize m pxIterator = pxBlockToInsert then
    (setBlockSize m pxIterator (xBlockSize m pxIterator + xBlockSize m pxBlockToInsert),
      pxIterator)
  else (m, pxBlockToInsert)

/-- The merge with the block after, or the link to it. -/
def mergeNext (pxEnd : ℕ) (m : Mem) (pxIterator pxBlockToInsert : ℕ) : Mem :=
  if pxBlockToInsert + xBlockSize m pxBlockToInsert = pxNextFreeBlock m pxIterator then
    if pxNextFreeBlock m pxIterator ≠ pxEnd then
      let m := setBlockSize m pxBlockToInsert
        (xBlockSize m pxBlockToInsert + xBlockSize m (pxNextFreeBlock m pxIterator))
      setNextFreeBlock m pxBlockToInsert (pxNextFreeBlock m (pxNextFreeBlock m pxIterator))
    else setNextFreeBlock m pxBlockToInsert pxEnd
  else setNextFreeBlock m pxBlockToInsert (pxNextFreeBlock m pxIterator)

/-- `prvInsertBlockIntoFreeList` after its loop. -/
def insertAfter (pxEnd : ℕ) (m : Mem) (pxIterator pxBlockToInsert : ℕ) : Mem :=
  let merged := mergePrevious m pxIterator pxBlockToInsert
  let m := mergeNext pxEnd merged.1 pxIterator merged.2
  if pxIterator ≠ merged.2 then setNextFreeBlock m pxIterator merged.2 else m

def prvInsertBlockIntoFreeList (L : Layout) (h : Heap) (pxBlockToInsert : ℕ) :
    Except HeapFault Heap := do
  let pxIterator ← findInsertion h.mem pxBlockToInsert configTOTAL_HEAP_SIZE L.xStart
  pure { h with mem := insertAfter h.pxEnd h.mem pxIterator pxBlockToInsert }

end Insert

section Malloc

/-- The wanted size with the header, rounded up; 0 where that overflows. -/
def adjustSize (xWantedSize : ℕ) : Except HeapFault ℕ :=
  if 0 < xWantedSize ∧ xWantedSize < (xWantedSize + xHeapStructSize) % 4294967296 then
    let xWantedSize := (xWantedSize + xHeapStructSize) % 4294967296
    if xWantedSize &&& 7 ≠ 0 then
      let rounded := (xWantedSize + (8 - (xWantedSize &&& 7))) % 4294967296
      if xWantedSize < rounded then do
        configASSERT (rounded &&& 7 = 0)
        pure rounded
      else pure 0
    else pure xWantedSize
  else pure 0

/-- The loop that looks for a block of adequate size: `pxPreviousBlock` and `pxBlock`. -/
def findBlock (m : Mem) (xWantedSize : ℕ) : ℕ → ℕ → ℕ → Except HeapFault (ℕ × ℕ)
  | 0, _, _ => .error .diverges
  | fuel + 1, pxPreviousBlock, pxBlock =>
    if xBlockSize m pxBlock < xWantedSize ∧ pxNextFreeBlock m pxBlock ≠ 0 then
      findBlock m xWantedSize fuel pxBlock (pxNextFreeBlock m pxBlock)
    else .ok (pxPreviousBlock, pxBlock)

/-- The second of the two blocks that a larger block is split into, put back into the list. -/
def splitBlock (L : Layout) (h : Heap) (pxBlock xWantedSize : ℕ) : Except HeapFault Heap :=
  if heapMINIMUM_BLOCK_SIZE < subtract (xBlockSize h.mem pxBlock) xWantedSize then do
    let pxNewBlockLink := pxBlock + xWantedSize
    configASSERT (pxNewBlockLink &&& 7 = 0)
    let m := setBlockSize h.mem pxNewBlockLink
      (subtract (xBlockSize h.mem pxBlock) xWantedSize)
    let m := setBlockSize m pxBlock xWantedSize
    prvInsertBlockIntoFreeList L { h with mem := m } pxNewBlockLink
  else pure h

/-- The block that was found leaves the list and is marked as allocated. -/
def takeBlock (L : Layout) (h : Heap) (pxPreviousBlock pxBlock xWantedSize : ℕ) :
    Except HeapFault (Heap × ℕ) := do
  let pvReturn := pxNextFreeBlock h.mem pxPreviousBlock + xHeapStructSize
  let m := setNextFreeBlock h.mem pxPreviousBlock (pxNextFreeBlock h.mem pxBlock)
  let h ← splitBlock L { h with mem := m } pxBlock xWantedSize
  let remaining := subtract h.xFreeBytesRemaining (xBlockSize h.mem pxBlock)
  let m := setBlockSize h.mem pxBlock (xBlockSize h.mem pxBlock ||| h.xBlockAllocatedBit)
  let m := setNextFreeBlock m pxBlock 0
  pure ({ h with
    mem := m
    xFreeBytesRemaining := remaining
    xMinimumEverFreeBytesRemaining :=
      if remaining < h.xMinimumEverFreeBytesRemaining then remaining
      else h.xMinimumEverFreeBytesRemaining }, pvReturn)

/-- The heap that a call of `pvPortMalloc` works on: initialised by the first call. -/
def initialised (L : Layout) (h : Heap) : Heap :=
  if h.pxEnd = 0 then prvHeapInit L h else h

/-- The search and the allocation, on an initialised heap. -/
def allocate (L : Layout) (h : Heap) (xWantedSize : ℕ) : Except HeapFault (Heap × ℕ) :=
  if xWantedSize &&& h.xBlockAllocatedBit = 0 then do
    let xWantedSize ← adjustSize xWantedSize
    if 0 < xWantedSize ∧ xWantedSize ≤ h.xFreeBytesRemaining then do
      let found ← findBlock h.mem xWantedSize configTOTAL_HEAP_SIZE L.xStart
        (pxNextFreeBlock h.mem L.xStart)
      if found.2 ≠ h.pxEnd then takeBlock L h found.1 found.2 xWantedSize else pure (h, 0)
    else pure (h, 0)
  else pure (h, 0)

/-- The new heap and `pvReturn`, null where the call failed. -/
def pvPortMalloc (L : Layout) (h : Heap) (xWantedSize : UInt32) :
    Except HeapFault (Heap × ℕ) := do
  let r ← allocate L (initialised L h) xWantedSize.toNat
  configASSERT (r.2 &&& 7 = 0)
  pure r

end Malloc

section Free

/-- The size of the block of `pv`, its header included. -/
def getBlockSize (h : Heap) (pv : ℕ) : ℕ :=
  xBlockSize h.mem (subtract pv xHeapStructSize) &&& complement h.xBlockAllocatedBit

def vPortFree (L : Layout) (h : Heap) (pv : ℕ) : Except HeapFault Heap :=
  if pv ≠ 0 then do
    let pxLink := subtract pv xHeapStructSize
    configASSERT (xBlockSize h.mem pxLink &&& h.xBlockAllocatedBit ≠ 0)
    configASSERT (pxNextFreeBlock h.mem pxLink = 0)
    if xBlockSize h.mem pxLink &&& h.xBlockAllocatedBit ≠ 0 then
      if pxNextFreeBlock h.mem pxLink = 0 then
        let m := setBlockSize h.mem pxLink
          (xBlockSize h.mem pxLink &&& complement h.xBlockAllocatedBit)
        let xFreeBytesRemaining := (h.xFreeBytesRemaining + xBlockSize m pxLink) % 4294967296
        prvInsertBlockIntoFreeList L
          { h with mem := m, xFreeBytesRemaining := xFreeBytesRemaining } pxLink
      else pure h
    else pure h
  else pure h

end Free

section Realloc

/-- `while (count--) *in_dest++ = *in_src++;` -/
def copyLoop : ℕ → Mem → ℕ → ℕ → Except HeapFault Mem
  | 0, m, _, _ => .ok m
  | count + 1, m, in_dest, in_src =>
    if in_dest = 0 then .error .nullWrite
    else copyLoop count (store8 m in_dest (m in_src)) (in_dest + 1) (in_src + 1)

/-- `while (count--) *in_dest++ = 0;` -/
def zeroLoop : ℕ → Mem → ℕ → Except HeapFault Mem
  | 0, m, _ => .ok m
  | count + 1, m, in_dest =>
    if in_dest = 0 then .error .nullWrite
    else zeroLoop count (store8 m in_dest 0) (in_dest + 1)

def pvPortRealloc (L : Layout) (h : Heap) (pv : ℕ) (xWantedSize : UInt32) :
    Except HeapFault (Heap × ℕ) := do
  let r ← pvPortMalloc L h xWantedSize
  let count := getBlockSize r.1 pv
  let m ← copyLoop count r.1.mem r.2 pv
  let h ← vPortFree L { r.1 with mem := m } pv
  pure (h, r.2)

def pvPortCalloc (L : Layout) (h : Heap) (num xWantedSize : UInt32) :
    Except HeapFault (Heap × ℕ) := do
  let count := xWantedSize * num
  let r ← pvPortMalloc L h count
  let m ← zeroLoop count.toNat r.1.mem r.2
  pure ({ r.1 with mem := m }, r.2)

end Realloc

end RmMicroControllers
