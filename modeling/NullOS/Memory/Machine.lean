import NullOS.Memory.ElfPlace
import NullOS.Memory.Fork
import NullOS.Memory.Boot
import NullOS.Process.Basic
import NullOS.Lib.Run

/-!
# One pool of frames

The heap, the page directories and tables and the pages of the processes all come from the same
frames.  The machine makes the calls that take and return them, in any order, each to its end;
between the calls processes write their pages and the kernel its heap blocks.
-/

namespace NullOS.Memory

open Lib

/-- `USER_STACK_VIRT`, as a page number. -/
def userStackPage : Nat := 0x2000

def userStackPages : Nat := 2

def mapStack (cr3 : Nat) : Phys → List Nat → Bool × Phys
  | s, [] => (true, s)
  | s, i :: is =>
      match mapNewPage (fun m _ => m) s cr3 ((userStackPage + i) * pageSize) with
      | (true, t) => mapStack cr3 t is
      | (false, t) => (false, t)

/-- The heap with the memory under it, the directory of the process in each slot, the directories
that no process has yet, and the heap blocks handed out. -/
structure Machine where
  heap : Heap
  procs : Nat → Option Nat
  built : Nat → Bool
  live : Nat → Bool

namespace Machine

def mem (s : Machine) : Mem := s.heap.phys.mem

def withPhys (s : Machine) (p : Phys) : Machine := { s with heap := { s.heap with phys := p } }

def freeSlot (s : Machine) : Option Nat :=
  (List.range processMax).find? fun i => (s.procs i).isNone

def enter (s : Machine) (i cr3 : Nat) : Machine :=
  { s with procs := Function.update s.procs i (some cr3) }

end Machine

inductive Act
  | pmmInit (map : List Pmm.Region)
  | heapInit
  | kmalloc (size : Nat)
  | kfree (ptr : Nat)
  | createDirectory
  | elfLoad (cr3 : Nat) (img : List UInt8)
  | mapStack (cr3 : Nat)
  | spawn (cr3 : Nat)
  | fork (slot : Nat)
  | exit (slot : Nat)
  | store (slot virt : Nat) (b : UInt8)
  | fill (ptr i : Nat) (b : UInt8)

def step (s : Machine) : Act → Option Machine
  | .pmmInit map => some (s.withPhys { s.heap.phys with pmm := Pmm.pmmInit map })
  | .heapInit => some { s with heap := s.heap.heapInit, live := fun _ => false }
  | .kmalloc size =>
      (s.heap.kmalloc size).map fun (ptr, t) =>
        { s with heap := t, live := if ptr = 0 then s.live else Function.update s.live ptr true }
  | .kfree ptr => some { s with heap := s.heap.kfree ptr, live := Function.update s.live ptr false }
  | .createDirectory =>
      let (cr3, t) := vmmCreateDirectory s.heap.phys
      some { s.withPhys t with
        built := if cr3 = 0 then s.built else Function.update s.built cr3 true }
  | .elfLoad cr3 img =>
      if s.built cr3 then some (s.withPhys (elfLoad s.heap.phys cr3 img).2) else none
  | .mapStack cr3 =>
      if s.built cr3 then
        some (s.withPhys (mapStack cr3 s.heap.phys (List.range userStackPages)).2)
      else none
  | .spawn cr3 =>
      if s.built cr3 then
        -- without a free slot the directory is abandoned
        some { (match s.freeSlot with
            | some i => s.enter i cr3
            | none => s) with
          built := Function.update s.built cr3 false }
      else none
  | .fork slot =>
      (s.procs slot).map fun parentCr3 =>
        match s.freeSlot with
        | none => s
        | some i =>
            match forkAddressSpace s.heap.phys parentCr3 with
            | (some childCr3, t) => (s.withPhys t).enter i childCr3
            | (none, t) => s.withPhys t
  | .exit slot => some { s with procs := Function.update s.procs slot none }
  | .store slot virt b =>
      match (s.procs slot).bind fun pd => walk s.mem pd (virt / pageSize) with
      | some f =>
          if 0x800000 ≤ virt ∧ virt < 0x100000000 then
            some (s.withPhys { s.heap.phys with
              mem := s.mem.blit (f * pageSize + virt % pageSize) 1 fun _ => b })
          else none
      | none => none
  | .fill ptr i b =>
      if s.live ptr = true ∧ i < getField s.mem .size (ptr - headerSize) then
        some (s.withPhys { s.heap.phys with mem := s.mem.blit (ptr + i) 1 fun _ => b })
      else none

/-- The machine after `pmm_init` and `vmm_init`, with any content of the memory before. -/
def boot (mem : Mem) (map : List Pmm.Region) : Machine where
  heap :=
    { phys := vmmInit { mem, pmm := Pmm.pmmInit map, ptNext := pageTableStart }
      startPtr := 0
      heapEnd := heapStart }
  procs := fun _ => none
  built := fun _ => false
  live := fun _ => false

def Boot (s : Machine) : Prop := ∃ mem map, s = boot mem map

/-! ## What a frame is used for -/

inductive Use
  | heapPage (vpage : Nat)
  | directory (slot : Nat)
  | pageTable (slot di : Nat)
  | userPage (slot vpage : Nat)
deriving DecidableEq

def Machine.Plays (s : Machine) (f : Nat) : Use → Prop
  | .heapPage vpage =>
      heapStart ≤ vpage * pageSize ∧ vpage * pageSize < s.heap.heapEnd ∧
        walk s.mem pageDirAddr vpage = some f
  | .directory slot => ∃ pd, s.procs slot = some pd ∧ pd / pageSize = f
  | .pageTable slot di =>
      di < 1024 ∧ ∃ pd, s.procs slot = some pd ∧ Present (pde s.mem pd di) ∧
        pde s.mem pd di / pageSize = f
  | .userPage slot vpage =>
      vpage < 0x100000 ∧ ∃ pd, s.procs slot = some pd ∧ UserMapped s.mem pd vpage f

/-- Each frame in [4 MB, 8 MB) has at most one use, and if it has one it is marked used. -/
def Machine.Exclusive (s : Machine) : Prop :=
  ∀ f, 1024 ≤ f → f < 2048 →
    (∀ u u', s.Plays f u → s.Plays f u' → u = u') ∧
      ∀ u, s.Plays f u → s.heap.phys.pmm.bitmap f = true

/-- The calls that keep to the rules: `pmm_init` is not called again, only blocks that are out
are freed, and file data of a program starts on page boundaries. -/
def Fair (s : Machine) : Act → Prop
  | .pmmInit _ => False
  | .kfree ptr => ptr = 0 ∨ s.live ptr = true
  | .elfLoad _ img => ∀ ph ∈ segments img, ph.Aligned
  | _ => True

end NullOS.Memory
