import NullOS.Memory.Vmm

/-!
# The kernel heap

`kernel/memory/heap.c`.  The blocks form a doubly linked list whose headers lie in the heap.  A loop
over the list gets as many rounds as there can be headers, and `kmalloc` may call itself again
twice; where that were not enough the result is `none`.
-/

namespace NullOS.Memory

open Lib

def heapStart : Nat := 0x400000

def heapMax : Nat := 0x800000

def magicFree : Nat := 0xDEAD1234

def magicUsed : Nat := 0xBEEF5678

def headerSize : Nat := 16

def heapInitialSize : Nat := 256 * 1024

/-- The heap: physical memory, `heap_start_ptr` and `heap_end`. -/
structure Heap where
  phys : Phys
  startPtr : Nat
  heapEnd : Nat

inductive Field
  | magic | size | next | prev
deriving DecidableEq, Repr

def Field.offset : Field → Nat
  | .magic => 0
  | .size => 4
  | .next => 8
  | .prev => 12

def getField (m : Mem) (f : Field) (hdr : Nat) : Nat := m.load32 (hdr + f.offset)

def setField (m : Mem) (f : Field) (hdr w : Nat) : Mem := m.store32 (hdr + f.offset) w

namespace Heap

def withMem (s : Heap) (mem : Mem) : Heap := { s with phys := { s.phys with mem } }

def expandPages (s : Heap) : Nat → Bool × Heap
  | 0 => (true, s)
  | n + 1 =>
      if heapMax < s.heapEnd + pageSize then (false, s)
      else
        let (phys, pmm) := s.phys.pmm.pmmAllocPageAt s.heapEnd
        if phys = 0 then (false, { s with phys := { s.phys with pmm } })
        else
          match vmmMapPage { s.phys with pmm } s.heapEnd phys vmmKernel with
          | (.ok, p) => expandPages { s with phys := p, heapEnd := s.heapEnd + pageSize } n
          | (_, p) => (false, { s with phys := { p with pmm := p.pmm.pmmFreePage phys } })

def heapExpand (s : Heap) (size : Nat) : Bool × Heap :=
  s.expandPages ((size + 0xFFF) % 0x100000000 / pageSize)

def writeHeader (m : Mem) (hdr magic size next prev : Nat) : Mem :=
  setField (setField (setField (setField m .magic hdr magic) .size hdr size) .next hdr next)
    .prev hdr prev

def heapInit (s : Heap) : Heap :=
  match s.heapExpand heapInitialSize with
  | (false, t) => t
  | (true, t) =>
      { t.withMem (writeHeader t.phys.mem heapStart magicFree
          (t.heapEnd - heapStart - headerSize) 0 0) with startPtr := heapStart }

inductive Search
  | found (cur : Nat)
  | exhausted
  | corrupt
  | spinning
deriving DecidableEq, Repr

def search (m : Mem) (size : Nat) : Nat → Nat → Search
  | 0, _ => .spinning
  | fuel + 1, cur =>
      if cur = 0 then .exhausted
      else if getField m .magic cur ≠ magicFree ∧ getField m .magic cur ≠ magicUsed then .corrupt
      else if getField m .magic cur = magicFree ∧ size ≤ getField m .size cur then .found cur
      else search m size fuel (getField m .next cur)

def setPrevOf (m : Mem) (p w : Nat) : Mem := if p = 0 then m else setField m .prev p w

def split (m : Mem) (cur size : Nat) : Mem :=
  let newBlock := cur + headerSize + size
  let m := writeHeader m newBlock magicFree (getField m .size cur - size - headerSize)
    (getField m .next cur) cur
  let m := setPrevOf m (getField m .next cur) newBlock
  setField (setField m .next cur newBlock) .size cur size

def takeBlock (m : Mem) (cur size : Nat) : Mem :=
  setField (if size + headerSize + 4 ≤ getField m .size cur then split m cur size else m)
    .magic cur magicUsed

def tailOf (m : Mem) : Nat → Nat → Option Nat
  | 0, _ => none
  | fuel + 1, tail =>
      if tail ≠ 0 ∧ getField m .next tail ≠ 0 then tailOf m fuel (getField m .next tail)
      else some tail

def listFuel : Nat := (heapMax - heapStart) / headerSize + 1

def appendBlock (s : Heap) (oldEnd : Nat) : Option Heap :=
  let m := writeHeader s.phys.mem oldEnd magicFree (s.heapEnd - oldEnd - headerSize) 0 0
  (tailOf m listFuel s.startPtr).map fun tail =>
    if tail = 0 then { s.withMem m with startPtr := oldEnd }
    else
      let m := setField (setField m .next tail oldEnd) .prev oldEnd tail
      if getField m .magic tail = magicFree then
        s.withMem (setField (setField m .size tail
          (getField m .size tail + (headerSize + getField m .size oldEnd))) .next tail 0)
      else s.withMem m

/-- `kmalloc`, with the number of times it may still be entered: the address of the block handed
out, or 0. -/
def kmallocRetry : Nat → Heap → Nat → Option (Nat × Heap)
  | 0, _, _ => none
  | retries + 1, s, size =>
      if size = 0 ∨ heapMax - heapStart < size then some (0, s)
      else
        let size := (size + 3) / 4 * 4
        match search s.phys.mem size listFuel s.startPtr with
        | .spinning => none
        | .corrupt => some (0, s)
        | .found cur => some (cur + headerSize, s.withMem (takeBlock s.phys.mem cur size))
        | .exhausted =>
            match s.heapExpand (size + headerSize) with
            | (false, t) => some (0, t)
            | (true, t) => (t.appendBlock s.heapEnd).bind fun u => kmallocRetry retries u size

@[inherit_doc kmallocRetry]
def kmalloc (s : Heap) (size : Nat) : Option (Nat × Heap) := kmallocRetry 3 s size

def mergeNext (m : Mem) (hdr : Nat) : Mem :=
  let n := getField m .next hdr
  if n ≠ 0 ∧ getField m .magic n = magicFree then
    let m := setField m .size hdr (getField m .size hdr + (headerSize + getField m .size n))
    let m := setField m .next hdr (getField m .next n)
    setPrevOf m (getField m .next hdr) hdr
  else m

def mergePrev (m : Mem) (hdr : Nat) : Mem :=
  let p := getField m .prev hdr
  if p ≠ 0 ∧ getField m .magic p = magicFree then
    let m := setField m .size p (getField m .size p + (headerSize + getField m .size hdr))
    let m := setField m .next p (getField m .next hdr)
    setPrevOf m (getField m .next hdr) p
  else m

def kfree (s : Heap) (ptr : Nat) : Heap :=
  if ptr = 0 then s
  else
    let hdr := ptr - headerSize
    if getField s.phys.mem .magic hdr ≠ magicUsed then s
    else s.withMem (mergePrev (mergeNext (setField s.phys.mem .magic hdr magicFree) hdr) hdr)

def freeBytesFrom (m : Mem) : Nat → Nat → Nat → Option Nat
  | 0, _, _ => none
  | fuel + 1, cur, free =>
      if cur = 0 then some free
      else freeBytesFrom m fuel (getField m .next cur)
        (if getField m .magic cur = magicFree then (free + getField m .size cur) % 0x100000000
          else free)

def heapFreeBytes (s : Heap) : Option Nat := freeBytesFrom s.phys.mem listFuel s.startPtr 0

end Heap

/-! ## Fields -/

variable {m : Mem} {f g : Field} {x y w : Nat}

lemma getField_lt : getField m f x < 0x100000000 := Mem.load32_lt

lemma getField_setField_self (hw : w < 0x100000000) : getField (setField m f x w) f x = w :=
  Mem.load32_store32 hw

lemma getField_setField_of_ne (hfg : g ≠ f) :
    getField (setField m f x w) g x = getField m g x := by
  refine Mem.load32_store32_of_disjoint ?_
  cases f <;> cases g <;> simp only [Field.offset, ne_eq, not_true_eq_false] at hfg ⊢ <;> omega

lemma getField_setField_of_apart (h : x + headerSize ≤ y ∨ y + headerSize ≤ x) :
    getField (setField m f x w) g y = getField m g y := by
  refine Mem.load32_store32_of_disjoint ?_
  simp only [headerSize] at h
  cases f <;> cases g <;> simp only [Field.offset] <;> omega

lemma setField_of_not_mem {a : Nat} (h : a < x ∨ x + headerSize ≤ a) :
    setField m f x w a = m a := by
  refine Mem.store32_of_not_mem ?_
  simp only [headerSize] at h
  cases f <;> simp only [Field.offset] <;> omega

end NullOS.Memory
