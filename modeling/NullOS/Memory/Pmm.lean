import Mathlib.Data.Finset.Card
import Mathlib.Data.Finset.Range
import Mathlib.Logic.Function.Basic

/-!
# The physical page allocator

`kernel/memory/pmm.c`: one bit per 4 KB page below 8 MB, the number of managed pages and the number
of used ones.  The 32-bit words of the bitmap matter only to `pmm_alloc_page`, which skips a word
that is all ones.  The counter wraps.
-/

namespace NullOS.Memory

def pageSize : Nat := 4096

def pmmLimitAddr : Nat := 0x800000

def pmmMaxPages : Nat := 2048

def pmmBitmapSize : Nat := 64

structure Pmm where
  total : Nat
  used : Nat
  bitmap : Nat → Bool

namespace Pmm

variable {p : Pmm} {page q : Nat}

def bitmapSet (p : Pmm) (page : Nat) : Pmm :=
  { p with bitmap := Function.update p.bitmap page true }

def bitmapClear (p : Pmm) (page : Nat) : Pmm :=
  { p with bitmap := Function.update p.bitmap page false }

def usedIncr (p : Pmm) : Pmm := { p with used := (p.used + 1) % 0x100000000 }

def usedDecr (p : Pmm) : Pmm :=
  { p with used := if p.used = 0 then 0xFFFFFFFF else p.used - 1 }

def take (p : Pmm) (page : Nat) : Pmm := (p.bitmapSet page).usedIncr

def drop (p : Pmm) (page : Nat) : Pmm := (p.bitmapClear page).usedDecr

def markUsedFrom (p : Pmm) (page : Nat) : Nat → Pmm
  | 0 => p
  | n + 1 =>
      if page < p.total then
        markUsedFrom (if p.bitmap page then p else p.take page) (page + 1) n
      else p

def markFreeFrom (p : Pmm) (page : Nat) : Nat → Pmm
  | 0 => p
  | n + 1 =>
      if page < p.total then
        markFreeFrom (if p.bitmap page then p.drop page else p) (page + 1) n
      else p

/-- The number of pages a byte count is rounded up to, in 32-bit arithmetic. -/
def pagesOf (size : Nat) : Nat := (size + 0xFFF) % 0x100000000 / pageSize

def pmmMarkUsed (p : Pmm) (addr size : Nat) : Pmm :=
  p.markUsedFrom (addr / pageSize) (pagesOf size)

def pmmMarkFree (p : Pmm) (addr size : Nat) : Pmm :=
  p.markFreeFrom (addr / pageSize) (pagesOf size)

def wordFull (p : Pmm) (i : Nat) : Bool :=
  (List.range 32).all fun bit => p.bitmap (i * 32 + bit)

inductive Scan
  | next
  /-- Past the last managed page: `return 0`. -/
  | stop
  | found (page : Nat)
deriving DecidableEq, Repr

def scanBits (p : Pmm) (i : Nat) : List Nat → Scan
  | [] => .next
  | bit :: bits =>
      if p.total ≤ i * 32 + bit then .stop
      else if p.bitmap (i * 32 + bit) then scanBits p i bits
      else .found (i * 32 + bit)

def scanWords (p : Pmm) : List Nat → Option Nat
  | [] => none
  | i :: is =>
      if p.wordFull i then scanWords p is
      else match p.scanBits i (List.range 32) with
        | .next => scanWords p is
        | .stop => none
        | .found page => some page

/-- `pmm_alloc_page`: the address of the page handed out, or 0. -/
def pmmAllocPage (p : Pmm) : Nat × Pmm :=
  match p.scanWords (List.range pmmBitmapSize) with
  | none => (0, p)
  | some page => (page * pageSize, p.take page)

def pmmAllocPageAt (p : Pmm) (addr : Nat) : Nat × Pmm :=
  if addr % pageSize ≠ 0 then (0, p)
  else if p.total ≤ addr / pageSize ∨ p.bitmap (addr / pageSize) = true then (0, p)
  else (addr, p.take (addr / pageSize))

def pmmFreePage (p : Pmm) (addr : Nat) : Pmm :=
  if p.total ≤ addr / pageSize ∨ p.bitmap (addr / pageSize) = false then p
  else p.drop (addr / pageSize)

def pmmFreePages (p : Pmm) : Nat := (p.total + (0x100000000 - p.used)) % 0x100000000

/-! ## Initialisation -/

structure Region where
  base : Nat
  length : Nat
  type : Nat

def bootMemUsable : Nat := 1

def Region.start (r : Region) : Nat := (r.base + 0xFFF) % 0x10000000000000000 / pageSize * pageSize

def Region.stop (r : Region) : Nat :=
  min ((r.base + r.length) % 0x10000000000000000 / pageSize * pageSize) pmmLimitAddr

/-- The loop of `pmm_init` over the memory map; `highest` is the end of the last usable
region so far. -/
def initRegions (p : Pmm) (highest : Nat) : List Region → Pmm × Nat
  | [] => (p, highest)
  | r :: rs =>
      if r.type ≠ bootMemUsable ∨ r.stop ≤ r.start then initRegions p highest rs
      else initRegions (p.pmmMarkFree r.start (r.stop - r.start)) (max highest r.stop) rs

def allUsed : Pmm := ⟨pmmMaxPages, pmmMaxPages, fun _ => true⟩

/-- What `pmm_init` does with the memory map, before it marks the kernel's pages. -/
def initFromMap (map : List Region) : Pmm :=
  if map = [] then allUsed.pmmMarkFree 0x100000 (pmmLimitAddr - 0x100000)
  else
    let (p, highest) := initRegions allUsed 0 map
    if highest ≠ 0 ∧ highest < pmmLimitAddr then
      -- less than 8 MB of memory: the pages past the last usable byte do not exist
      { p with
        used := (p.used + (0x100000000 - (pmmMaxPages - highest / pageSize))) % 0x100000000
        total := highest / pageSize }
    else p

def pmmInit (map : List Region) : Pmm :=
  ((initFromMap map).pmmMarkUsed 0 0x100000).pmmMarkUsed 0x100000 0x300000

/-! ## Projections -/

@[simp] lemma bitmapSet_total : (p.bitmapSet page).total = p.total := rfl
@[simp] lemma bitmapClear_total : (p.bitmapClear page).total = p.total := rfl
@[simp] lemma usedIncr_total : p.usedIncr.total = p.total := rfl
@[simp] lemma usedDecr_total : p.usedDecr.total = p.total := rfl
@[simp] lemma usedIncr_bitmap : p.usedIncr.bitmap = p.bitmap := rfl
@[simp] lemma usedDecr_bitmap : p.usedDecr.bitmap = p.bitmap := rfl
@[simp] lemma take_total : (p.take page).total = p.total := rfl
@[simp] lemma drop_total : (p.drop page).total = p.total := rfl

@[simp] lemma take_bitmap_self : (p.take page).bitmap page = true := by
  simp [take, bitmapSet]

@[simp] lemma drop_bitmap_self : (p.drop page).bitmap page = false := by
  simp [drop, bitmapClear]

lemma take_bitmap_of_ne (h : q ≠ page) : (p.take page).bitmap q = p.bitmap q := by
  simp [take, bitmapSet, h]

lemma drop_bitmap_of_ne (h : q ≠ page) : (p.drop page).bitmap q = p.bitmap q := by
  simp [drop, bitmapClear, h]

/-! ## The two loops of `pmm_alloc_page` -/

lemma scanBits_found {i : Nat} {bits : List Nat} (h : p.scanBits i bits = .found page) :
    page < p.total ∧ p.bitmap page = false := by
  induction bits with
  | nil => simp [scanBits] at h
  | cons bit bits ih =>
    rw [scanBits] at h
    split at h
    · simp at h
    · rename_i hlt
      split at h
      · exact ih h
      · rename_i hbit
        cases h
        exact ⟨by omega, by simpa using hbit⟩

lemma scanWords_some {is : List Nat} (h : p.scanWords is = some page) :
    page < p.total ∧ p.bitmap page = false := by
  induction is with
  | nil => simp [scanWords] at h
  | cons i is ih =>
    rw [scanWords] at h
    split at h
    · exact ih h
    · split at h
      · exact ih h
      · simp at h
      · rename_i pg hscan
        cases h
        exact scanBits_found hscan

/-- **What `pmm_alloc_page` does.**  Either it fails and changes nothing, or it hands out a
managed page that was free and marks it. -/
lemma pmmAllocPage_cases (p : Pmm) :
    p.pmmAllocPage = (0, p) ∨
      ∃ page, page < p.total ∧ p.bitmap page = false ∧
        p.pmmAllocPage = (page * pageSize, p.take page) := by
  unfold pmmAllocPage
  split
  · exact Or.inl rfl
  · rename_i page hscan
    obtain ⟨hlt, hfree⟩ := scanWords_some hscan
    exact Or.inr ⟨page, hlt, hfree, rfl⟩

/-! ## The counter and the bitmap -/

def setBits (p : Pmm) : Nat := ((Finset.range p.total).filter fun q => p.bitmap q = true).card

@[simp] lemma usedIncr_setBits : p.usedIncr.setBits = p.setBits := rfl
@[simp] lemma usedDecr_setBits : p.usedDecr.setBits = p.setBits := rfl

lemma setBits_le (p : Pmm) : p.setBits ≤ p.total := by
  have h := Finset.card_filter_le (Finset.range p.total) fun q => p.bitmap q = true
  simpa [setBits] using h

lemma setBits_bitmapSet (hlt : page < p.total) (hfree : p.bitmap page = false) :
    (p.bitmapSet page).setBits = p.setBits + 1 := by
  have heq : (Finset.range p.total).filter (fun q => (p.bitmapSet page).bitmap q = true) =
      insert page ((Finset.range p.total).filter fun q => p.bitmap q = true) := by
    ext q
    rw [Finset.mem_insert, Finset.mem_filter, Finset.mem_filter, Finset.mem_range]
    by_cases hq : q = page
    · subst hq
      simp [bitmapSet, hlt]
    · simp [bitmapSet, hq]
  rw [setBits, bitmapSet_total, heq, Finset.card_insert_of_notMem (by simp [hfree])]
  rfl

lemma setBits_bitmapClear (hlt : page < p.total) (hused : p.bitmap page = true) :
    (p.bitmapClear page).setBits + 1 = p.setBits := by
  have hfree : (p.bitmapClear page).bitmap page = false := by simp [bitmapClear]
  have hback : (p.bitmapClear page).bitmapSet page = p := by
    have hbm : Function.update (Function.update p.bitmap page false) page true = p.bitmap := by
      rw [Function.update_idem, ← hused, Function.update_eq_self]
    cases p
    simpa [bitmapClear, bitmapSet] using hbm
  rw [← setBits_bitmapSet (p := p.bitmapClear page) (by simpa using hlt) hfree, hback]

/-- The counter agrees with the bitmap. -/
def Counted (p : Pmm) : Prop := p.used = p.setBits

lemma usedIncr_counted (htot : p.total ≤ pmmMaxPages) (h : p.used + 1 = p.setBits) :
    p.usedIncr.Counted := by
  have hle := p.setBits_le
  have hmax : pmmMaxPages = 2048 := rfl
  rw [Counted, usedIncr_setBits, ← h]
  simp only [usedIncr]
  omega

lemma Counted.drop (h : p.Counted) (hlt : page < p.total) (hused : p.bitmap page = true) :
    (p.drop page).Counted := by
  have hclear := setBits_bitmapClear hlt hused
  have hused' : (p.bitmapClear page).used = p.used := rfl
  rw [Counted, Pmm.drop, usedDecr_setBits]
  simp only [usedDecr, hused']
  rw [Counted] at h
  split <;> omega

lemma Counted.take (h : p.Counted) (htot : p.total ≤ pmmMaxPages) (hlt : page < p.total)
    (hfree : p.bitmap page = false) : (p.take page).Counted :=
  usedIncr_counted htot (by rw [setBits_bitmapSet hlt hfree, ← h]; rfl)

end Pmm

end NullOS.Memory
