import NullOS.Memory.Pmm
import NullOS.Lib.Bytes

/-!
# Page directories

`kernel/memory/vmm.c`.  Directories and tables are pages of physical memory, which the kernel reads
and writes through the identity map of the first 8 MB.
-/

namespace NullOS.Memory

open Lib

/-- Physical memory, the page allocator and `pt_next`. -/
structure Phys where
  mem : Mem
  pmm : Pmm
  ptNext : Nat

def pageDirAddr : Nat := 0x300000

def pageTableStart : Nat := 0x301000

def pageTableEnd : Nat := 0x341000

/-- `VMM_KERNEL`: present and writable. -/
def vmmKernel : Nat := 3

/-- `VMM_PRESENT | VMM_WRITABLE | VMM_USER`. -/
def vmmUserRw : Nat := 7

/-- `entry & VMM_PRESENT`. -/
def Present (entry : Nat) : Prop := entry % 2 = 1

/-- `entry & VMM_USER`. -/
def User (entry : Nat) : Prop := entry / 4 % 2 = 1

instance : DecidablePred Present := fun e => inferInstanceAs (Decidable (e % 2 = 1))
instance : DecidablePred User := fun e => inferInstanceAs (Decidable (e / 4 % 2 = 1))

/-- `entry & 0xFFFFF000`. -/
def frameAddr (entry : Nat) : Nat := entry / pageSize * pageSize

/-- `virt >> 22`. -/
def dirIndex (virt : Nat) : Nat := virt / 0x400000

/-- `(virt >> 12) & 0x3FF`. -/
def tableIndex (virt : Nat) : Nat := virt / pageSize % 1024

/-- `pd[di]`. -/
def pde (m : Mem) (pd di : Nat) : Nat := m.load32 (pd + 4 * di)

/-- `pt[ti]`, in the table that `pd[di]` names. -/
def pte (m : Mem) (pd di ti : Nat) : Nat := m.load32 (frameAddr (pde m pd di) + 4 * ti)

def zero4kb (m : Mem) (addr : Nat) : Mem := m.fill addr 4096 0

/-- `pt[ti] = entry`, in the table that `pd[di]` names. -/
def Phys.putPte (s : Phys) (pd di ti entry : Nat) : Phys :=
  { s with mem := s.mem.store32 (frameAddr (pde s.mem pd di) + 4 * ti) entry }

inductive MapResult
  | ok
  | errRange
  | errNomem
deriving DecidableEq, Repr

/-- `map_page_early`, which `vmm_map_page` calls, in the kernel's own directory. -/
def vmmMapPage (s : Phys) (virt phys flags : Nat) : MapResult × Phys :=
  let entry := frameAddr phys + (flags % pageSize ||| 1)
  if Present (pde s.mem pageDirAddr (dirIndex virt)) then
    (.ok, s.putPte pageDirAddr (dirIndex virt) (tableIndex virt) entry)
  else if pageTableEnd ≤ s.ptNext then (.errNomem, s)
  else
    let m := (zero4kb s.mem s.ptNext).store32 (pageDirAddr + 4 * dirIndex virt)
      (s.ptNext + vmmKernel)
    let t := { s with mem := m, ptNext := s.ptNext + pageSize }
    (.ok, t.putPte pageDirAddr (dirIndex virt) (tableIndex virt) entry)

def vmmGetPhysFromDir (m : Mem) (pd virt : Nat) : Nat :=
  if ¬ Present (pde m pd (dirIndex virt)) then 0
  else if ¬ Present (pte m pd (dirIndex virt) (tableIndex virt)) then 0
  else frameAddr (pte m pd (dirIndex virt) (tableIndex virt)) + virt % pageSize

def vmmGetUserPhysFromDir (m : Mem) (pd virt : Nat) : Nat :=
  if ¬ Present (pde m pd (dirIndex virt)) ∨ ¬ User (pde m pd (dirIndex virt)) then 0
  else if ¬ Present (pte m pd (dirIndex virt) (tableIndex virt)) ∨
      ¬ User (pte m pd (dirIndex virt) (tableIndex virt)) then 0
  else frameAddr (pte m pd (dirIndex virt) (tableIndex virt)) + virt % pageSize

/-- The block of `vmm_map_user_page` that makes sure there is a table: whether there is one
now. -/
def ensureTable (s : Phys) (pd di : Nat) : Bool × Phys :=
  if Present (pde s.mem pd di) then (true, s)
  else
    let (ptPhys, pmm) := s.pmm.pmmAllocPage
    if ptPhys = 0 then (false, { s with pmm })
    else if pmmLimitAddr ≤ ptPhys then (false, { s with pmm := pmm.pmmFreePage ptPhys })
    else (true, { s with
      pmm
      mem := (zero4kb s.mem ptPhys).store32 (pd + 4 * di) (ptPhys + vmmUserRw) })

def vmmMapUserPage (s : Phys) (pd virt phys : Nat) : MapResult × Phys :=
  if virt < 0x800000 then (.errRange, s)
  else
    match ensureTable s pd (dirIndex virt) with
    | (false, t) => (.errNomem, t)
    | (true, t) =>
        (.ok, t.putPte pd (dirIndex virt) (tableIndex virt) (frameAddr phys + vmmUserRw))

/-- `vmm_create_directory`: the address of the new directory, or 0. -/
def vmmCreateDirectory (s : Phys) : Nat × Phys :=
  let (pd, pmm) := s.pmm.pmmAllocPage
  if pd = 0 then (0, { s with pmm })
  else if pmmLimitAddr ≤ pd then (0, { s with pmm := pmm.pmmFreePage pd })
  else
    let m := zero4kb s.mem pd
    let m := m.store32 pd (pde m pageDirAddr 0)
    let m := m.store32 (pd + 4) (pde m pageDirAddr 1)
    (pd, { s with pmm, mem := m })

/-- The identity map that `vmm_init` builds: the tables for 0-4 MB and 4-8 MB, and the two
entries of the kernel's directory. -/
def vmmInit (s : Phys) : Phys :=
  let entry (base : Nat) (off : Nat) : UInt8 :=
    Mem.byteOf ((base + off / 4) * pageSize + vmmKernel) (off % 4)
  let m := zero4kb s.mem pageDirAddr
  let m := m.blit pageTableStart 4096 (entry 0)
  let m := m.blit (pageTableStart + pageSize) 4096 (entry 1024)
  let m := m.store32 pageDirAddr (pageTableStart + vmmKernel)
  { s with mem := m.store32 (pageDirAddr + 4) (pageTableStart + pageSize + vmmKernel) }

/-! ## Walks -/

/-- The frame number to which a directory maps a virtual page. -/
def walk (m : Mem) (pd vpage : Nat) : Option Nat :=
  if Present (pde m pd (vpage / 1024)) ∧ Present (pte m pd (vpage / 1024) (vpage % 1024)) then
    some (pte m pd (vpage / 1024) (vpage % 1024) / pageSize)
  else none

/-- The page `vpage` of a process: mapped, with the user bit in both entries. -/
def UserMapped (m : Mem) (pd vpage f : Nat) : Prop :=
  walk m pd vpage = some f ∧ User (pde m pd (vpage / 1024)) ∧
    User (pte m pd (vpage / 1024) (vpage % 1024))

lemma dirIndex_eq (virt : Nat) : dirIndex virt = virt / pageSize / 1024 := by
  unfold dirIndex pageSize
  omega

lemma vmmGetPhysFromDir_eq (m : Mem) (pd virt : Nat) :
    vmmGetPhysFromDir m pd virt =
      match walk m pd (virt / pageSize) with
      | none => 0
      | some f => f * pageSize + virt % pageSize := by
  unfold vmmGetPhysFromDir walk tableIndex
  rw [dirIndex_eq]
  by_cases hp : Present (pde m pd (virt / pageSize / 1024))
  · by_cases ht : Present (pte m pd (virt / pageSize / 1024) (virt / pageSize % 1024))
    · rw [if_neg (not_not.mpr hp), if_neg (not_not.mpr ht), if_pos ⟨hp, ht⟩]
      rfl
    · rw [if_neg (not_not.mpr hp), if_pos ht, if_neg fun h => ht h.2]
  · rw [if_pos hp, if_neg fun h => hp h.1]

lemma vmmGetUserPhysFromDir_of_mapped {m : Mem} {pd virt f : Nat}
    (h : UserMapped m pd (virt / pageSize) f) :
    vmmGetUserPhysFromDir m pd virt = f * pageSize + virt % pageSize := by
  obtain ⟨hwalk, hud, hut⟩ := h
  unfold walk at hwalk
  split at hwalk
  case isFalse => simp at hwalk
  case isTrue hp =>
    rw [vmmGetUserPhysFromDir, dirIndex_eq, tableIndex, if_neg (by simp [hp.1, hud]),
      if_neg (by simp [hp.2, hut]), frameAddr, Option.some.inj hwalk]

lemma userMapped_of_ne_zero {m : Mem} {pd virt : Nat} (h : vmmGetUserPhysFromDir m pd virt ≠ 0) :
    ∃ f, UserMapped m pd (virt / pageSize) f := by
  rw [vmmGetUserPhysFromDir, dirIndex_eq, tableIndex] at h
  split at h
  case isTrue => exact absurd rfl h
  case isFalse hd =>
    split at h
    case isTrue => exact absurd rfl h
    case isFalse ht =>
      rw [not_or, not_not, not_not] at hd ht
      exact ⟨_, if_pos ⟨hd.1, ht.1⟩, hd.2, ht.2⟩

end NullOS.Memory
