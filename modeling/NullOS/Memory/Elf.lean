import NullOS.Memory.Vmm

/-!
# Loading a program

`kernel/elf.c`.  An access outside the image is the outcome `fault`, which the source would not
notice.  `elfLoadAt` reads the image from the memory, where the loader's own writes can change it.
`elfLoad` is for an image that stays as it is, a list of bytes.
-/

namespace NullOS.Memory

open Lib

structure Ehdr where
  magic : List Nat
  elfClass : Nat
  elfData : Nat
  type : Nat
  machine : Nat
  entry : Nat
  phoff : Nat
  phentsize : Nat
  phnum : Nat

structure Phdr where
  type : Nat
  offset : Nat
  vaddr : Nat
  filesz : Nat
  memsz : Nat
deriving DecidableEq, Repr

def ehdrSize : Nat := 52

def phdrSize : Nat := 32

def elfMaxPhnum : Nat := 64

def elfUserLimit : Nat := 0x02000000

def ptLoad : Nat := 1

def bytesOf (img : List UInt8) : Mem := fun i => img.getD i 0

def inImage (img : List UInt8) (off len : Nat) : Bool := off + len ≤ img.length

def readEhdr (img : List UInt8) : Option Ehdr :=
  let m := bytesOf img
  if inImage img 0 ehdrSize then
    some { magic := [(m 0).toNat, (m 1).toNat, (m 2).toNat, (m 3).toNat]
           elfClass := (m 4).toNat
           elfData := (m 5).toNat
           type := m.load16 16
           machine := m.load16 18
           entry := m.load32 24
           phoff := m.load32 28
           phentsize := m.load16 42
           phnum := m.load16 44 }
  else none

def readPhdr (img : List UInt8) (h : Ehdr) (i : Nat) : Option Phdr :=
  let m := bytesOf img
  let base := h.phoff + i * h.phentsize
  if inImage img base phdrSize then
    some { type := m.load32 base
           offset := m.load32 (base + 4)
           vaddr := m.load32 (base + 8)
           filesz := m.load32 (base + 16)
           memsz := m.load32 (base + 20) }
  else none

def ehdrOk (size : Nat) (h : Ehdr) : Bool :=
  h.magic = [0x7F, 0x45, 0x4C, 0x46] ∧ h.elfClass = 1 ∧ h.elfData = 1 ∧ h.type = 2 ∧
    h.machine = 3 ∧ h.phnum ≤ elfMaxPhnum ∧
    (h.phnum ≠ 0 → phdrSize ≤ h.phentsize ∧ h.phoff + h.phnum * h.phentsize ≤ size)

def Phdr.loads (ph : Phdr) : Bool := ph.type = ptLoad ∧ ph.memsz ≠ 0

def phdrOk (size : Nat) (ph : Phdr) : Bool :=
  ph.filesz ≤ ph.memsz ∧ (ph.filesz ≠ 0 → ph.offset + ph.filesz ≤ size) ∧
    0x800000 ≤ ph.vaddr ∧ ph.vaddr + ph.memsz ≤ elfUserLimit

lemma Phdr.loads_iff {ph : Phdr} : ph.loads = true ↔ ph.type = ptLoad ∧ ph.memsz ≠ 0 :=
  decide_eq_true_iff

lemma phdrOk_iff {size : Nat} {ph : Phdr} :
    phdrOk size ph = true ↔
      ph.filesz ≤ ph.memsz ∧ (ph.filesz ≠ 0 → ph.offset + ph.filesz ≤ size) ∧
        0x800000 ≤ ph.vaddr ∧ ph.vaddr + ph.memsz ≤ elfUserLimit :=
  decide_eq_true_iff

inductive ElfResult
  /-- 0, with the entry point. -/
  | ok (entry : Nat)
  | fail
  /-- A byte outside the image is read. -/
  | fault
deriving DecidableEq, Repr

/-- The loop that validates every program header before anything is mapped: `none` when all
are good. -/
def checkPhdrs (img : List UInt8) (h : Ehdr) : List Nat → Option ElfResult
  | [] => none
  | i :: is =>
      match readPhdr img h i with
      | none => some .fault
      | some ph =>
          if ph.loads ∧ ¬ phdrOk img.length ph then some .fail else checkPhdrs img h is

/-- The loop that maps a zeroed page at `va`, `va + PAGE_SIZE` and so on, with `n` pages to
go. -/
def mapPages (s : Phys) (cr3 va : Nat) : Nat → Bool × Phys
  | 0 => (true, s)
  | n + 1 =>
      let (phys, pmm) := s.pmm.pmmAllocPage
      if phys = 0 then (false, { s with pmm })
      else
        match vmmMapUserPage { s with pmm, mem := s.mem.fill phys pageSize 0 } cr3 va phys with
        | (.ok, t) => mapPages t cr3 (va + pageSize) n
        | (_, t) => (false, { t with pmm := t.pmm.pmmFreePage phys })

/-- The loop that copies the file data, `copied` bytes of which are in place; each round copies
at least one byte, so that `filesz` rounds are enough. -/
def copySegment (img : List UInt8) (cr3 : Nat) (ph : Phdr) : Nat → Mem → Nat → Option Mem
  | 0, m, _ => some m
  | fuel + 1, m, copied =>
      if copied < ph.filesz then
        let va := ph.vaddr + copied
        let phys := vmmGetPhysFromDir m cr3 va
        let pgOff := va % pageSize
        let chunk := min (pageSize - pgOff) (ph.filesz - copied)
        if inImage img (ph.offset + copied) chunk then
          copySegment img cr3 ph fuel
            (m.blit (phys + pgOff) chunk fun i => bytesOf img (ph.offset + copied + i))
            (copied + chunk)
        else none
      else some m

/-- First and last page of a segment, as page numbers; the last one is not included. -/
def Phdr.firstPage (ph : Phdr) : Nat := ph.vaddr / pageSize

@[inherit_doc Phdr.firstPage]
def Phdr.endPage (ph : Phdr) : Nat := (ph.vaddr + ph.memsz + 0xFFF) % 0x100000000 / pageSize

def loadSegment (s : Phys) (cr3 : Nat) (img : List UInt8) (ph : Phdr) : Option ElfResult × Phys :=
  match mapPages s cr3 (ph.firstPage * pageSize) (ph.endPage - ph.firstPage) with
  | (false, t) => (some .fail, t)
  | (true, t) =>
      match copySegment img cr3 ph ph.filesz t.mem 0 with
      | none => (some .fault, t)
      | some mem => (none, { t with mem })

def loadPhdrs (cr3 : Nat) (img : List UInt8) (h : Ehdr) : Phys → List Nat → Option ElfResult × Phys
  | s, [] => (none, s)
  | s, i :: is =>
      match readPhdr img h i with
      | none => (some .fault, s)
      | some ph =>
          if ph.loads then
            match loadSegment s cr3 img ph with
            | (none, t) => loadPhdrs cr3 img h t is
            | (some r, t) => (some r, t)
          else loadPhdrs cr3 img h s is

def elfLoad (s : Phys) (cr3 : Nat) (img : List UInt8) : ElfResult × Phys :=
  if img.length < ehdrSize then (.fail, s)
  else
    match readEhdr img with
    | none => (.fault, s)
    | some h =>
        if ehdrOk img.length h then
          match checkPhdrs img h (List.range h.phnum) with
          | some r => (r, s)
          | none =>
              match loadPhdrs cr3 img h s (List.range h.phnum) with
              | (some r, t) => (r, t)
              | (none, t) => (.ok h.entry, t)
        else (.fail, s)

/-! ## The image in memory -/

def imageAt (m : Mem) (addr size : Nat) : List UInt8 := (List.range size).map fun i => m (addr + i)

def memcpy8 (m : Mem) (dst src : Nat) : Nat → Mem
  | 0 => m
  | len + 1 =>
      let m' := memcpy8 m dst src len
      Function.update m' (dst + len) (m' (src + len))

/-- `ph` of round `i`; its address is computed in 32 bits. -/
def phdrAt (m : Mem) (addr size : Nat) (h : Ehdr) (i : Nat) : Option Phdr :=
  readPhdr (imageAt m addr size)
    { h with phoff := (h.phoff + i * h.phentsize) % 0x100000000, phentsize := 0 } 0

def copySegmentAt (addr size cr3 : Nat) (ph : Phdr) (offset : Nat) : Nat → Mem → Nat → Option Mem
  | 0, m, _ => some m
  | fuel + 1, m, copied =>
      if copied < ph.filesz then
        let va := ph.vaddr + copied
        let phys := vmmGetPhysFromDir m cr3 va
        let pgOff := va % pageSize
        let chunk := min (pageSize - pgOff) (ph.filesz - copied)
        let src := (offset + copied) % 0x100000000
        if src + chunk ≤ size then
          copySegmentAt addr size cr3 ph offset fuel
            (memcpy8 m (phys + pgOff) (addr + src) chunk) (copied + chunk)
        else none
      else some m

/-- `mapPages`, with the addresses for which it calls `vmm_map_user_page`. -/
def mapPagesCalls (s : Phys) (cr3 va : Nat) : Nat → List Nat × Bool × Phys
  | 0 => ([], true, s)
  | n + 1 =>
      let (phys, pmm) := s.pmm.pmmAllocPage
      if phys = 0 then ([], false, { s with pmm })
      else
        match vmmMapUserPage { s with pmm, mem := s.mem.fill phys pageSize 0 } cr3 va phys with
        | (.ok, t) =>
            let (calls, r) := mapPagesCalls t cr3 (va + pageSize) n
            (va :: calls, r)
        | (_, t) => ([va], false, { t with pmm := t.pmm.pmmFreePage phys })

/-- One round of the loop that loads, for header `i`; `p_offset` is read after the pages have been
mapped. -/
def loadSegmentAt (s : Phys) (cr3 addr size : Nat) (h : Ehdr) (i : Nat) (ph : Phdr) :
    List Nat × Option ElfResult × Phys :=
  match mapPagesCalls s cr3 (ph.firstPage * pageSize) (ph.endPage - ph.firstPage) with
  | (calls, false, t) => (calls, some .fail, t)
  | (calls, true, t) =>
      match phdrAt t.mem addr size h i with
      | none => (calls, some .fault, t)
      | some ph' =>
          match copySegmentAt addr size cr3 ph ph'.offset ph.filesz t.mem 0 with
          | none => (calls, some .fault, t)
          | some mem => (calls, none, { t with mem })

/-- The loop that loads, from header `i` on.  The ELF header is read again in every round; there are
fewer than `2^16` rounds because `e_phnum` has 16 bits. -/
def loadPhdrsAt (cr3 addr size : Nat) : Nat → Phys → Nat → List Nat × Option ElfResult × Phys
  | 0, s, _ => ([], none, s)
  | fuel + 1, s, i =>
      match readEhdr (imageAt s.mem addr size) with
      | none => ([], some .fault, s)
      | some h =>
          if i < h.phnum then
            match phdrAt s.mem addr size h i with
            | none => ([], some .fault, s)
            | some ph =>
                if ph.loads then
                  match loadSegmentAt s cr3 addr size h i ph with
                  | (calls, none, t) =>
                      let (rest, r) := loadPhdrsAt cr3 addr size fuel t (i + 1)
                      (calls ++ rest, r)
                  | (calls, some r, t) => (calls, some r, t)
                else loadPhdrsAt cr3 addr size fuel s (i + 1)
          else ([], none, s)

/-- `elf_load` of the `size` bytes at `addr`, with the addresses for which it calls
`vmm_map_user_page`. -/
def elfLoadAt (s : Phys) (cr3 addr size : Nat) : List Nat × ElfResult × Phys :=
  if addr = 0 ∨ size < ehdrSize then ([], .fail, s)
  else
    match readEhdr (imageAt s.mem addr size) with
    | none => ([], .fault, s)
    | some h =>
        if ehdrOk size h then
          match checkPhdrs (imageAt s.mem addr size) h (List.range h.phnum) with
          | some r => ([], r, s)
          | none =>
              match loadPhdrsAt cr3 addr size 0x10000 s 0 with
              | (calls, some r, t) => (calls, r, t)
              | (calls, none, t) =>
                  match readEhdr (imageAt t.mem addr size) with
                  | none => (calls, .fault, t)
                  | some h => (calls, .ok h.entry, t)
        else ([], .fail, s)

/-! ## Loads that keep some addresses -/

section Avoids

variable (A : Nat → Prop) (cr3 : Nat) (img : List UInt8)

/-- The copy loop writes no address in `A`. -/
def CopyAvoids (ph : Phdr) : Nat → Mem → Nat → Prop
  | 0, _, _ => True
  | fuel + 1, m, copied => copied < ph.filesz →
      let va := ph.vaddr + copied
      let dst := vmmGetPhysFromDir m cr3 va + va % pageSize
      let chunk := min (pageSize - va % pageSize) (ph.filesz - copied)
      (∀ i < chunk, ¬ A (dst + i)) ∧ CopyAvoids ph fuel
        (m.blit dst chunk fun i => bytesOf img (ph.offset + copied + i)) (copied + chunk)

/-- Loading the segment changes nothing at the addresses in `A`. -/
def SegmentAvoids (s : Phys) (ph : Phdr) : Prop :=
  let r := mapPages s cr3 (ph.firstPage * pageSize) (ph.endPage - ph.firstPage)
  (∀ a, A a → r.2.mem a = s.mem a) ∧
    (r.1 = true → CopyAvoids A cr3 img ph ph.filesz r.2.mem 0)

/-- Loading the segments one after the other changes nothing at the addresses in `A`. -/
def LoadAvoids (h : Ehdr) : Phys → List Nat → Prop
  | _, [] => True
  | s, i :: is => ∀ ph, readPhdr img h i = some ph →
      if ph.loads then SegmentAvoids A cr3 img s ph ∧
        ∀ t, loadSegment s cr3 img ph = (none, t) → LoadAvoids h t is
      else LoadAvoids h s is

end Avoids

end NullOS.Memory
