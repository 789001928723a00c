import NullOS.Memory.HeapFrames

/-!
# What `pmm_init` and `vmm_init` leave

After `pmm_init` no frame below 4 MB is free, whatever the memory map says, and after
`vmm_init` the kernel's directory maps 4-8 MB to itself.
-/

namespace NullOS.Memory

open Lib

namespace Pmm

variable {p : Pmm} {page q n highest : Nat} {r : Region}

/-! ## Marking -/

@[simp] lemma markUsedFrom_total : (p.markUsedFrom page n).total = p.total := by
  induction n generalizing p page with
  | zero => rfl
  | succ n ih =>
    rw [markUsedFrom]
    split
    · rw [ih]
      split <;> rfl
    · rfl

@[simp] lemma markFreeFrom_total : (p.markFreeFrom page n).total = p.total := by
  induction n generalizing p page with
  | zero => rfl
  | succ n ih =>
    rw [markFreeFrom]
    split
    · rw [ih]
      split <;> rfl
    · rfl

lemma markUsedFrom_of_used (h : p.bitmap q = true) : (p.markUsedFrom page n).bitmap q = true := by
  induction n generalizing p page with
  | zero => exact h
  | succ n ih =>
    rw [markUsedFrom]
    split
    · refine ih ?_
      split
      · exact h
      · by_cases hq : q = page
        · rw [hq, take_bitmap_self]
        · rwa [take_bitmap_of_ne hq]
    · exact h

lemma markUsedFrom_of_mem (hlo : page ≤ q) (hhi : q < page + n) (ht : q < p.total) :
    (p.markUsedFrom page n).bitmap q = true := by
  induction n generalizing p page with
  | zero => omega
  | succ n ih =>
    rw [markUsedFrom, if_pos (by omega)]
    by_cases hq : q = page
    · refine markUsedFrom_of_used ?_
      rw [hq]
      split
      case isTrue h => exact h
      case isFalse => exact take_bitmap_self
    · refine ih (by omega) (by omega) ?_
      split <;> exact ht

lemma markUsedFrom_of_not_mem (h : q < page ∨ page + n ≤ q) :
    (p.markUsedFrom page n).bitmap q = p.bitmap q := by
  induction n generalizing p page with
  | zero => rfl
  | succ n ih =>
    rw [markUsedFrom]
    split
    · rw [ih (by omega)]
      split
      · rfl
      · exact take_bitmap_of_ne (by omega)
    · rfl

lemma markFreeFrom_of_not_mem (h : q < page ∨ page + n ≤ q) :
    (p.markFreeFrom page n).bitmap q = p.bitmap q := by
  induction n generalizing p page with
  | zero => rfl
  | succ n ih =>
    rw [markFreeFrom]
    split
    · rw [ih (by omega)]
      split
      · exact drop_bitmap_of_ne (by omega)
      · rfl
    · rfl

/-! ## The memory map -/

lemma Region.stop_le (r : Region) : r.stop ≤ pmmLimitAddr := Nat.min_le_right _ _

lemma Region.stop_mod (r : Region) : r.stop % pageSize = 0 := by
  simp only [Region.stop, pmmLimitAddr, pageSize]
  omega

lemma Region.start_mod (r : Region) : r.start % pageSize = 0 := by
  simp only [Region.start, pageSize]
  omega

/-- **The loop over the memory map** frees no page past the end of the last region. -/
lemma initRegions_spec (rs : List Region) (hal : highest % pageSize = 0)
    (hle : highest ≤ pmmLimitAddr) (hfree : ∀ q, p.bitmap q = false → q < highest / pageSize) :
    (initRegions p highest rs).1.total = p.total ∧
      (initRegions p highest rs).2 ≤ pmmLimitAddr ∧
      ∀ q, (initRegions p highest rs).1.bitmap q = false →
        q < (initRegions p highest rs).2 / pageSize := by
  induction rs generalizing p highest with
  | nil => exact ⟨rfl, hle, hfree⟩
  | cons r rs ih =>
    rw [initRegions]
    split
    · exact ih hal hle hfree
    case isFalse hok =>
      rw [not_or, not_le] at hok
      have hstop := r.stop_le
      have hmod := r.stop_mod
      have hmod' := r.start_mod
      have hlt := hok.2
      have hmax : max highest r.stop % pageSize = 0 ∧ max highest r.stop ≤ pmmLimitAddr := by
        rcases max_choice highest r.stop with hm | hm
        all_goals
          rw [hm]
          exact ⟨by assumption, by assumption⟩
      refine (ih hmax.1 hmax.2 fun q hq => ?_).imp_left fun ht => ?_
      · by_cases hin : r.start / pageSize ≤ q ∧ q < r.stop / pageSize
        · have := le_max_right highest r.stop
          simp only [pageSize] at hin ⊢
          omega
        · rw [pmmMarkFree, markFreeFrom_of_not_mem] at hq
          · have := hfree q hq
            have := le_max_left highest r.stop
            simp only [pageSize] at *
            omega
          · simp only [pagesOf, pmmLimitAddr, pageSize] at *
            omega
      · rw [ht]
        exact markFreeFrom_total

lemma initFromMap_spec (map : List Region) :
    (initFromMap map).total ≤ pmmMaxPages ∧
      ∀ q, (initFromMap map).bitmap q = false → q < (initFromMap map).total := by
  rw [initFromMap]
  split
  · refine ⟨le_of_eq markFreeFrom_total, fun q hq => ?_⟩
    rw [pmmMarkFree, markFreeFrom_total]
    by_contra hge
    have hge' : 2048 ≤ q := not_lt.mp hge
    rw [pmmMarkFree, markFreeFrom_of_not_mem (.inr (by
      simp only [pagesOf, pmmLimitAddr, pageSize]
      omega))] at hq
    simp [allUsed] at hq
  · obtain ⟨htotal, hle, hfree⟩ := initRegions_spec (p := allUsed) map (Nat.zero_mod pageSize)
      (Nat.zero_le _) fun q hq => absurd hq (by simp [allUsed])
    dsimp only
    split
    · refine ⟨?_, hfree⟩
      simp only [pmmLimitAddr, pageSize, pmmMaxPages] at hle ⊢
      omega
    · refine ⟨le_of_eq htotal, fun q hq => ?_⟩
      have := hfree q hq
      rw [htotal]
      simp only [allUsed, pmmLimitAddr, pageSize, pmmMaxPages] at hle this ⊢
      omega

end Pmm

/-- **After `pmm_init`** at most 8 MB are managed, and nothing below 4 MB is free. -/
lemma managed_pmmInit (map : List Pmm.Region) : Managed (Pmm.pmmInit map) := by
  obtain ⟨htotal, hfree⟩ := Pmm.initFromMap_spec map
  have htotal' : (Pmm.pmmInit map).total = (Pmm.initFromMap map).total := by
    rw [Pmm.pmmInit, Pmm.pmmMarkUsed, Pmm.pmmMarkUsed, Pmm.markUsedFrom_total,
      Pmm.markUsedFrom_total]
  refine ⟨htotal' ▸ htotal, fun q hq => ?_⟩
  by_cases hqt : q < (Pmm.initFromMap map).total
  · rw [Pmm.pmmInit]
    by_cases hlow : q < 256
    · exact Pmm.markUsedFrom_of_used (Pmm.markUsedFrom_of_mem (Nat.zero_le _) (by
        simp only [Pmm.pagesOf, pageSize]
        omega) hqt)
    · refine Pmm.markUsedFrom_of_mem ?_ ?_ ?_
      · simp only [pageSize]
        omega
      · simp only [Pmm.pagesOf, pageSize]
        omega
      · rw [Pmm.pmmMarkUsed, Pmm.markUsedFrom_total]
        exact hqt
  · refine Pmm.markUsedFrom_of_used (Pmm.markUsedFrom_of_used ?_)
    by_contra hq'
    exact hqt (hfree q (by simpa using hq'))

/-- **After `vmm_init`** the kernel's directory maps 4-8 MB to itself. -/
lemma kernelMap_vmmInit (s : Phys) : KernelMap (vmmInit s).mem := by
  obtain ⟨m₁, hm₁⟩ : ∃ m, ((zero4kb s.mem pageDirAddr).blit pageTableStart 4096 fun off =>
    Mem.byteOf ((0 + off / 4) * pageSize + vmmKernel) (off % 4)) = m := ⟨_, rfl⟩
  obtain ⟨m₂, hm₂⟩ : ∃ m, (m₁.blit (pageTableStart + pageSize) 4096 fun off =>
    Mem.byteOf ((1024 + off / 4) * pageSize + vmmKernel) (off % 4)) = m := ⟨_, rfl⟩
  have hmem : (vmmInit s).mem = (m₂.store32 pageDirAddr (pageTableStart + vmmKernel)).store32
      (pageDirAddr + 4) (pageTableStart + pageSize + vmmKernel) := by
    rw [← hm₂, ← hm₁]
    rfl
  have hhigh : pde (vmmInit s).mem pageDirAddr 1 = pageTableStart + pageSize + vmmKernel := by
    rw [hmem]
    exact Mem.load32_store32 (by decide)
  refine ⟨?_, hhigh, fun ti hti => ?_⟩
  · rw [hmem, pde, Mem.load32_store32_of_disjoint (by decide)]
    exact Mem.load32_store32 (by decide)
  · have hframe : frameAddr (pageTableStart + pageSize + vmmKernel) = pageTableStart +
      pageSize := by
      decide
    rw [pte, hhigh, hframe, hmem, Mem.load32_store32_of_disjoint, Mem.load32_store32_of_disjoint,
      ← hm₂]
    · refine Mem.load32_blit_words (f := fun i => (1024 + i) * pageSize + vmmKernel) (by omega) ?_
      simp only [pageSize, vmmKernel]
      omega
    all_goals
      simp only [pageTableStart, pageSize, pageDirAddr]
      omega

end NullOS.Memory
