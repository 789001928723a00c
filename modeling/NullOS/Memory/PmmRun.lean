import NullOS.Memory.Boot
import NullOS.Lib.Run
import Mathlib.Algebra.BigOperators.Intervals

/-!
# The page allocator over whole runs

`pmm_init` with any memory map, and then any sequence of reservations, allocations and frees of what
was handed out.  A page that is handed out was free, is usable, and stays taken until it is freed.
-/

namespace NullOS.Memory

open Lib

namespace Pmm

variable {p : Pmm} {page q n highest : Nat} {r : Region} {map : List Region}

/-! ## The counter -/

lemma markUsedFrom_counted (htot : p.total ≤ pmmMaxPages) (h : p.Counted) :
    (p.markUsedFrom page n).Counted := by
  induction n generalizing p page with
  | zero => exact h
  | succ n ih =>
    rw [markUsedFrom]
    split
    case isTrue hlt =>
      split
      · exact ih htot h
      case isFalse hfree => exact ih htot (h.take htot hlt (by simpa using hfree))
    case isFalse => exact h

lemma markFreeFrom_counted (h : p.Counted) : (p.markFreeFrom page n).Counted := by
  induction n generalizing p page with
  | zero => exact h
  | succ n ih =>
    rw [markFreeFrom]
    split
    case isTrue hlt =>
      split
      case isTrue hused => exact ih (h.drop hlt hused)
      · exact ih h
    case isFalse => exact h

lemma counted_allUsed : allUsed.Counted := by
  simp [Counted, setBits, allUsed]

lemma initRegions_counted (highest : Nat) (rs : List Region) (h : p.Counted) :
    (initRegions p highest rs).1.Counted := by
  induction rs generalizing p highest with
  | nil => exact h
  | cons r rs ih =>
    rw [initRegions]
    split
    · exact ih _ h
    · exact ih _ (markFreeFrom_counted h)

lemma setBits_shrink {m : Nat} (hm : m ≤ p.total)
    (hused : ∀ q, m ≤ q → q < p.total → p.bitmap q = true) :
    ({ p with total := m } : Pmm).setBits + (p.total - m) = p.setBits := by
  have hsum : ∀ k, ((Finset.range k).filter fun q => p.bitmap q = true).card =
      ∑ q ∈ Finset.range k, if p.bitmap q = true then (1 : Nat) else 0 :=
    fun k => Finset.card_filter _ _
  have hhigh :
      ∑ q ∈ Finset.range (p.total - m), (if p.bitmap (m + q) = true then (1 : Nat) else 0) =
      p.total - m := by
    rw [Finset.sum_const_nat fun q hq => if_pos (hused (m + q) (by omega) ?_), Finset.card_range,
      Nat.mul_one]
    rw [Finset.mem_range] at hq
    omega
  have hsplit := Finset.sum_range_add (fun q => if p.bitmap q = true then (1 : Nat) else 0) m
    (p.total - m)
  rw [Nat.add_sub_cancel' hm, hhigh] at hsplit
  rw [setBits, setBits, hsum, hsum, hsplit]

/-- A page that lies in a usable region. -/
def InUsable (map : List Region) (q : Nat) : Prop :=
  ∃ r ∈ map, r.type = bootMemUsable ∧ r.base ≤ q * pageSize ∧
    (q + 1) * pageSize ≤ r.base + r.length

lemma Region.inside (hr : r.base + r.length + 4095 < 0x10000000000000000)
    (hlo : r.start / pageSize ≤ q) (hhi : q < r.stop / pageSize) :
    r.base ≤ q * pageSize ∧ (q + 1) * pageSize ≤ r.base + r.length := by
  simp only [Region.start, Region.stop, pageSize, pmmLimitAddr] at hlo hhi ⊢
  omega

lemma initRegions_usable (highest : Nat) (rs : List Region)
    (hmap : ∀ r ∈ rs, r.base + r.length + 4095 < 0x10000000000000000) (hsub : ∀ r ∈ rs, r ∈ map)
    (hfree : ∀ q, p.bitmap q = false → InUsable map q) :
    ∀ q, (initRegions p highest rs).1.bitmap q = false → InUsable map q := by
  induction rs generalizing p highest with
  | nil => exact hfree
  | cons r rs ih =>
    rw [initRegions]
    split
    · exact ih _ (fun r' hr' => hmap r' (List.mem_cons_of_mem _ hr'))
        (fun r' hr' => hsub r' (List.mem_cons_of_mem _ hr')) hfree
    case isFalse hok =>
      rw [not_or, not_not, not_le] at hok
      refine ih _ (fun r' hr' => hmap r' (List.mem_cons_of_mem _ hr'))
        (fun r' hr' => hsub r' (List.mem_cons_of_mem _ hr')) fun q hq => ?_
      by_cases hin : r.start / pageSize ≤ q ∧ q < r.stop / pageSize
      · exact ⟨r, hsub r List.mem_cons_self, hok.1, Region.inside (hmap r List.mem_cons_self) hin.1
          hin.2⟩
      · refine hfree q ?_
        rwa [pmmMarkFree, markFreeFrom_of_not_mem] at hq
        have hstart := r.start_mod
        have hstop := r.stop_mod
        have hle := r.stop_le
        simp only [pagesOf, pmmLimitAddr, pageSize] at *
        omega

/-! ## After `pmm_init` -/

lemma initFromMap_counted (map : List Region) : (initFromMap map).Counted := by
  rw [initFromMap]
  split
  · exact markFreeFrom_counted counted_allUsed
  · obtain ⟨htotal, hle, hfree⟩ := initRegions_spec (p := allUsed) map (Nat.zero_mod pageSize)
      (Nat.zero_le _) fun q hq => absurd hq (by simp [allUsed])
    have hcount := initRegions_counted 0 map counted_allUsed
    dsimp only
    split
    case isFalse => exact hcount
    case isTrue hcut =>
      generalize initRegions allUsed 0 map = s at *
      have hmax : s.1.total = pmmMaxPages := htotal
      have hshrink := setBits_shrink (p := s.1) (m := s.2 / pageSize) (by
        rw [hmax]
        simp only [pmmLimitAddr, pageSize, pmmMaxPages] at hle ⊢
        omega) fun q hge _ => by
          by_contra hq
          have hlt := hfree q (by simpa using hq)
          omega
      have hle' := setBits_le s.1
      rw [Counted] at hcount ⊢
      show (s.1.used + (0x100000000 - (pmmMaxPages - s.2 / pageSize))) % 0x100000000 =
        ({ s.1 with total := s.2 / pageSize } : Pmm).setBits
      rw [hmax] at hshrink hle'
      simp only [pmmLimitAddr, pageSize, pmmMaxPages] at *
      omega

lemma initFromMap_usable (hmap : ∀ r ∈ map, r.base + r.length + 4095 < 0x10000000000000000)
    (hne : map ≠ []) (hq : (initFromMap map).bitmap q = false) : InUsable map q := by
  rw [initFromMap, if_neg hne] at hq
  refine initRegions_usable (p := allUsed) 0 map hmap (fun r hr => hr)
    (fun q hq => absurd hq (by simp [allUsed])) q ?_
  dsimp only at hq
  split at hq
  · exact hq
  · exact hq

/-! ## The scan of `pmm_alloc_page` -/

lemma scanBits_next {i : Nat} {bits : List Nat} (h : p.scanBits i bits = .next) :
    ∀ bit ∈ bits, p.bitmap (i * 32 + bit) = true := by
  induction bits with
  | nil => exact fun bit hbit => absurd hbit (by simp)
  | cons b bits ih =>
    rw [scanBits] at h
    split at h
    · simp at h
    · split at h
      case isTrue hb =>
        intro bit hbit
        rcases List.mem_cons.mp hbit with rfl | hbit
        · exact hb
        · exact ih h bit hbit
      · simp at h

lemma scanBits_stop {i b k : Nat} (h : p.scanBits i (List.range' b k) = .stop) :
    ∃ bit, bit < b + k ∧ p.total ≤ i * 32 + bit ∧
      ∀ bit', b ≤ bit' → bit' < bit → p.bitmap (i * 32 + bit') = true := by
  induction k generalizing b with
  | zero => simp [scanBits] at h
  | succ k ih =>
    rw [List.range'_succ, scanBits] at h
    split at h
    case isTrue hend => exact ⟨b, by omega, hend, fun bit' hle hlt => by omega⟩
    case isFalse =>
      split at h
      case isFalse => simp at h
      case isTrue hb =>
        obtain ⟨bit, hlt, hend, hused⟩ := ih h
        refine ⟨bit, by omega, hend, fun bit' hle hlt' => ?_⟩
        by_cases hbb : bit' = b
        · rw [hbb]
          exact hb
        · exact hused bit' (by omega) hlt'

lemma scanWords_none {i k : Nat} (h : p.scanWords (List.range' i k) = none) :
    ∀ q, i * 32 ≤ q → q < (i + k) * 32 → q < p.total → p.bitmap q = true := by
  induction k generalizing i with
  | zero => intro q hlo hhi; omega
  | succ k ih =>
    intro q hlo hhi ht
    have hpos : q = q / 32 * 32 + q % 32 := by omega
    rw [List.range'_succ, scanWords] at h
    -- the page is in the first word, or in one of the rest
    have hcase : p.scanWords (List.range' (i + 1) k) = none →
        (q / 32 = i → p.bitmap q = true) → p.bitmap q = true := by
      intro hrest hword
      by_cases hi : q / 32 = i
      · exact hword hi
      · exact ih hrest q (by omega) (by omega) ht
    split at h
    case isTrue hfull =>
      refine hcase h fun hi => ?_
      have hbit := List.all_eq_true.mp hfull (q % 32) (List.mem_range.mpr (by omega))
      rwa [← hi, ← hpos] at hbit
    case isFalse =>
      split at h
      case h_1 hnext =>
        refine hcase h fun hi => ?_
        have hbit := scanBits_next hnext (q % 32) (List.mem_range.mpr (by omega))
        rwa [← hi, ← hpos] at hbit
      case h_2 hstop =>
        rw [List.range_eq_range'] at hstop
        obtain ⟨bit, hbit, hend, hused⟩ := scanBits_stop hstop
        have hi : q / 32 = i := by omega
        have hq := hused (q % 32) (Nat.zero_le _) (by omega)
        rwa [← hi, ← hpos] at hq
      case h_3 => simp at h

/-- **`pmm_alloc_page` fails only if no managed page is free.** -/
lemma pmmAllocPage_zero {t : Pmm} (hman : Managed p) (h : p.pmmAllocPage = (0, t)) :
    ∀ q < p.total, p.bitmap q = true := by
  have htot := hman.total_le
  have hmax : pmmMaxPages = 2048 := rfl
  rw [pmmAllocPage] at h
  split at h
  case h_1 hnone =>
    intro q hq
    rw [List.range_eq_range'] at hnone
    refine scanWords_none hnone q (by omega) ?_ hq
    simp only [pmmBitmapSize]
    omega
  case h_2 page hsome =>
    -- page 0 is never free
    have hzero : page * pageSize = 0 := (Prod.mk.inj h).1
    have hlow := hman.low page (by
      simp only [pageSize] at hzero
      omega)
    rw [(scanWords_some hsome).2] at hlow
    simp at hlow

end Pmm

/-! ## Runs -/

/-- The allocator, and the addresses of the pages that are handed out and not yet freed. -/
structure PmmUse where
  pmm : Pmm
  out : List Nat

inductive PmmCall
  | markUsed (addr size : UInt32)
  | allocPage
  | allocPageAt (addr : UInt32)
  | freePage (addr : UInt32)

namespace PmmUse

variable {s t : PmmUse} {map : List Pmm.Region} {c : PmmCall} {a q : Nat}

def handOut (s : PmmUse) (r : Nat × Pmm) : PmmUse :=
  { pmm := r.2, out := if r.1 = 0 then s.out else r.1 :: s.out }

def step (s : PmmUse) : PmmCall → Option PmmUse
  | .markUsed addr size => some { s with pmm := s.pmm.pmmMarkUsed addr.toNat size.toNat }
  | .allocPage => some (s.handOut s.pmm.pmmAllocPage)
  | .allocPageAt addr => some (s.handOut (s.pmm.pmmAllocPageAt addr.toNat))
  | .freePage addr =>
      if addr.toNat ∈ s.out then
        some { pmm := s.pmm.pmmFreePage addr.toNat, out := s.out.erase addr.toNat }
      else none

def start (map : List Pmm.Region) : PmmUse := { pmm := Pmm.pmmInit map, out := [] }

structure Inv (map : List Pmm.Region) (s : PmmUse) : Prop where
  managed : Managed s.pmm
  counted : s.pmm.Counted
  free : ∀ q, s.pmm.bitmap q = false → q < s.pmm.total ∧ (map ≠ [] → Pmm.InUsable map q)
  nodup : s.out.Nodup
  out : ∀ a ∈ s.out, ∃ q, a = q * pageSize ∧ 1024 ≤ q ∧ q < s.pmm.total ∧
    s.pmm.bitmap q = true ∧ (map ≠ [] → Pmm.InUsable map q)

lemma Inv.fit (h : Inv map s) (hq : s.pmm.bitmap q = false) :
    1024 ≤ q ∧ q < s.pmm.total ∧ (map ≠ [] → Pmm.InUsable map q) ∧ q * pageSize ∉ s.out := by
  refine ⟨?_, (h.free q hq).1, (h.free q hq).2, fun hmem => ?_⟩
  · by_contra hlow
    rw [h.managed.low q (by omega)] at hq
    simp at hq
  · obtain ⟨q', heq, -, -, hused, -⟩ := h.out _ hmem
    obtain rfl : q = q' := Nat.eq_of_mul_eq_mul_right (by decide) heq
    rw [hq] at hused
    simp at hused

lemma inv_start (hmap : ∀ r ∈ map, r.base + r.length + 4095 < 0x10000000000000000) :
    Inv map (start map) := by
  have hman := managed_pmmInit map
  have htot := (Pmm.initFromMap_spec map).1
  have hcounted : (Pmm.pmmInit map).Counted := by
    refine Pmm.markUsedFrom_counted ?_ (Pmm.markUsedFrom_counted htot (Pmm.initFromMap_counted map))
    rw [Pmm.pmmMarkUsed, Pmm.markUsedFrom_total]
    exact htot
  have htotal : (Pmm.pmmInit map).total = (Pmm.initFromMap map).total := by
    rw [Pmm.pmmInit, Pmm.pmmMarkUsed, Pmm.pmmMarkUsed, Pmm.markUsedFrom_total,
      Pmm.markUsedFrom_total]
  refine ⟨hman, hcounted, fun q hq => ?_, List.nodup_nil, fun a ha => absurd ha (by simp [start])⟩
  -- marking pages as used makes none free
  have hq' : (Pmm.initFromMap map).bitmap q = false := by
    by_contra hused
    rw [Bool.not_eq_false] at hused
    have hstill : (Pmm.pmmInit map).bitmap q = true :=
      Pmm.markUsedFrom_of_used (Pmm.markUsedFrom_of_used hused)
    exact absurd (hq.symm.trans hstill) (by simp)
  refine ⟨?_, fun hne => Pmm.initFromMap_usable hmap hne hq'⟩
  show q < (Pmm.pmmInit map).total
  rw [htotal]
  exact (Pmm.initFromMap_spec map).2 q hq'

lemma Inv.take (h : Inv map s) (hq : s.pmm.bitmap q = false) :
    Inv map (s.handOut (q * pageSize, s.pmm.take q)) := by
  obtain ⟨hlow, hlt, husable, hnew⟩ := h.fit hq
  have hne : q * pageSize ≠ 0 := by
    simp only [pageSize]
    omega
  have hstill : ∀ {q'}, s.pmm.bitmap q' = true → (s.pmm.take q).bitmap q' = true := by
    intro q' hq'
    by_cases heq : q' = q
    · rw [heq, Pmm.take_bitmap_self]
    · rwa [Pmm.take_bitmap_of_ne heq]
  rw [handOut, if_neg hne]
  refine ⟨⟨h.managed.total_le, fun q' hq' => hstill (h.managed.low q' hq')⟩,
    h.counted.take h.managed.total_le hlt hq, fun q' hq' => h.free q' ?_,
    List.nodup_cons.mpr ⟨hnew, h.nodup⟩, fun a ha => ?_⟩
  · by_contra hused
    rw [hstill (by simpa using hused)] at hq'
    simp at hq'
  · rcases List.mem_cons.mp ha with rfl | ha
    · exact ⟨q, rfl, hlow, hlt, Pmm.take_bitmap_self, husable⟩
    · obtain ⟨q', heq, hlow', hlt', hused', husable'⟩ := h.out a ha
      exact ⟨q', heq, hlow', hlt', hstill hused', husable'⟩

lemma Inv.free_page (h : Inv map s) (ha : a ∈ s.out) :
    Inv map { pmm := s.pmm.pmmFreePage a, out := s.out.erase a } := by
  obtain ⟨q, rfl, hlow, hlt, hused, husable⟩ := h.out a ha
  have hdiv : q * pageSize / pageSize = q := Nat.mul_div_cancel q (by decide)
  have hdrop : s.pmm.pmmFreePage (q * pageSize) = s.pmm.drop q := by
    rw [Pmm.pmmFreePage, hdiv, if_neg]
    rw [not_or, not_le, hused]
    exact ⟨hlt, by simp⟩
  rw [hdrop]
  refine ⟨⟨h.managed.total_le, fun q' hq' => ?_⟩, h.counted.drop hlt hused, fun q' hq' => ?_,
    h.nodup.erase _, fun b hb => ?_⟩
  · rw [Pmm.drop_bitmap_of_ne (by omega)]
    exact h.managed.low q' hq'
  · by_cases heq : q' = q
    · rw [heq]
      exact ⟨hlt, husable⟩
    · rw [Pmm.drop_bitmap_of_ne heq] at hq'
      exact h.free q' hq'
  · obtain ⟨q', heq, hlow', hlt', hused', husable'⟩ := h.out b (List.mem_of_mem_erase hb)
    refine ⟨q', heq, hlow', hlt', ?_, husable'⟩
    have hne : q' ≠ q := by
      rintro rfl
      rw [heq] at hb
      exact h.nodup.not_mem_erase hb
    show (s.pmm.drop q).bitmap q' = true
    rw [Pmm.drop_bitmap_of_ne hne]
    exact hused'

lemma Inv.mark (h : Inv map s) (page n : Nat) :
    Inv map { s with pmm := s.pmm.markUsedFrom page n } := by
  refine ⟨⟨?_, fun q hq => Pmm.markUsedFrom_of_used (h.managed.low q hq)⟩,
    Pmm.markUsedFrom_counted h.managed.total_le h.counted, fun q hq => ?_, h.nodup, fun a ha => ?_⟩
  · rw [Pmm.markUsedFrom_total]
    exact h.managed.total_le
  · have hq' : s.pmm.bitmap q = false := by
      by_contra hused
      rw [Pmm.markUsedFrom_of_used (by simpa using hused)] at hq
      simp at hq
    show q < (s.pmm.markUsedFrom page n).total ∧ _
    rw [Pmm.markUsedFrom_total]
    exact h.free q hq'
  · obtain ⟨q, heq, hlow, hlt, hused, husable⟩ := h.out a ha
    refine ⟨q, heq, hlow, ?_, Pmm.markUsedFrom_of_used hused, husable⟩
    show q < (s.pmm.markUsedFrom page n).total
    rwa [Pmm.markUsedFrom_total]

lemma pmmAllocPageAt_cases (p : Pmm) (addr : Nat) : p.pmmAllocPageAt addr = (0, p) ∨
    ∃ q, q < p.total ∧ p.bitmap q = false ∧
      p.pmmAllocPageAt addr = (q * pageSize, p.take q) := by
  rw [Pmm.pmmAllocPageAt]
  split
  · exact .inl rfl
  case isFalse hmod =>
    split
    · exact .inl rfl
    case isFalse hfree =>
      rw [not_or, not_le, Bool.not_eq_true] at hfree
      have haddr : addr = addr / pageSize * pageSize := by
        simp only [pageSize] at hmod ⊢
        omega
      exact .inr ⟨addr / pageSize, hfree.1, hfree.2, by rw [← haddr]⟩

lemma Inv.step (h : Inv map s) (hs : s.step c = some t) : Inv map t := by
  have hfail : s.handOut (0, s.pmm) = s := rfl
  cases c with
  | markUsed addr size =>
    cases hs
    exact h.mark _ _
  | allocPage =>
    cases hs
    rcases s.pmm.pmmAllocPage_cases with hr | ⟨q, -, hq, hr⟩
    · rw [hr, hfail]
      exact h
    · rw [hr]
      exact h.take hq
  | allocPageAt addr =>
    cases hs
    rcases pmmAllocPageAt_cases s.pmm addr.toNat with hr | ⟨q, -, hq, hr⟩
    · rw [hr, hfail]
      exact h
    · rw [hr]
      exact h.take hq
  | freePage addr =>
    rw [PmmUse.step] at hs
    split at hs
    case isTrue hmem =>
      cases hs
      exact h.free_page hmem
    case isFalse => simp at hs

def Hands (s : PmmUse) (a : Nat) : Prop :=
  s.pmm.pmmAllocPage.1 = a ∨ ∃ addr : UInt32, (s.pmm.pmmAllocPageAt addr.toNat).1 = a

lemma Hands.free (h : Hands s a) (ha : a ≠ 0) :
    ∃ q, a = q * pageSize ∧ q < s.pmm.total ∧ s.pmm.bitmap q = false := by
  rcases h with rfl | ⟨addr, rfl⟩
  · rcases s.pmm.pmmAllocPage_cases with hr | ⟨q, hlt, hq, hr⟩
    · rw [hr] at ha
      exact absurd rfl ha
    · exact ⟨q, by rw [hr], hlt, hq⟩
  · rcases pmmAllocPageAt_cases s.pmm addr.toNat with hr | ⟨q, hlt, hq, hr⟩
    · rw [hr] at ha
      exact absurd rfl ha
    · exact ⟨q, by rw [hr], hlt, hq⟩

lemma pmmFreePages_eq {p : Pmm} (htot : p.total ≤ pmmMaxPages) (h : p.Counted) :
    p.pmmFreePages = ((Finset.range p.total).filter fun q => p.bitmap q = false).card := by
  have hsplit := Finset.card_filter_add_card_filter_not (s := Finset.range p.total)
    fun q => p.bitmap q = true
  simp only [Bool.not_eq_true, Finset.card_range] at hsplit
  rw [Pmm.Counted, Pmm.setBits] at h
  have hmax : pmmMaxPages = 2048 := rfl
  rw [Pmm.pmmFreePages, h]
  omega

/-- **The books of the page allocator.**  The counter is the number of set bits.  A page that is
handed out was free and is not out already, it lies in 4-8 MB and inside one usable region of the
map, and `pmm_alloc_page` returns 0 only if no managed page is free. -/
theorem booksExact (hmap : ∀ r ∈ map, r.base + r.length + 4095 < 0x10000000000000000)
    (h : Reach step (· = start map) s) :
    s.pmm.used = s.pmm.setBits ∧
      s.pmm.pmmFreePages =
        ((Finset.range s.pmm.total).filter fun q => s.pmm.bitmap q = false).card ∧
      (∀ a, Hands s a → a ≠ 0 → a % pageSize = 0 ∧ s.pmm.bitmap (a / pageSize) = false ∧
        a ∉ s.out ∧ 0x400000 ≤ a ∧ a + pageSize ≤ 0x800000 ∧
        (map ≠ [] → ∃ r ∈ map, r.type = Pmm.bootMemUsable ∧ r.base ≤ a ∧
          a + pageSize ≤ r.base + r.length)) ∧
      (s.pmm.pmmAllocPage.1 = 0 → ∀ q < s.pmm.total, s.pmm.bitmap q = true) := by
  have hinv : Inv map s := h.invariant (I := Inv map)
    (by
      rintro _ rfl
      exact inv_start hmap)
    fun s c t hi _ hs => hi.step hs
  refine ⟨hinv.counted, pmmFreePages_eq hinv.managed.total_le hinv.counted, fun a ha h0 => ?_,
    fun h0 => Pmm.pmmAllocPage_zero hinv.managed (t := s.pmm.pmmAllocPage.2) (Prod.ext h0 rfl)⟩
  obtain ⟨q, rfl, -, hq⟩ := ha.free h0
  obtain ⟨hlow, hlt, husable, hnew⟩ := hinv.fit hq
  have htot := hinv.managed.total_le
  have hmax : pmmMaxPages = 2048 := rfl
  have hdiv : q * pageSize / pageSize = q := Nat.mul_div_cancel q (by decide)
  refine ⟨Nat.mul_mod_left q pageSize, by rwa [hdiv], hnew, ?_, ?_, fun hne => ?_⟩
  · simp only [pageSize]
    omega
  · simp only [pageSize]
    omega
  · obtain ⟨r, hr, htype, hbase, hend⟩ := husable hne
    exact ⟨r, hr, htype, hbase, by rwa [← Nat.add_one_mul]⟩

/-- Two usable pages at 4 MB: the first one is handed out, and then the second one is reserved. -/
theorem booksExact_twoPages : ∃ s, Reach step (· = start [⟨0x400000, 0x2000, 1⟩]) s ∧
    s.out = [0x400000] ∧ s.pmm.pmmFreePages = 0 ∧ s.pmm.used = s.pmm.setBits := by
  have hrun : (run step (start [⟨0x400000, 0x2000, 1⟩]) [.allocPage, .markUsed 0x401000 1]).map
      (fun s => (s.out, s.pmm.pmmFreePages)) = some ([0x400000], 0) := by
    decide +kernel
  obtain ⟨s, hs, hproj⟩ := Option.map_eq_some_iff.mp hrun
  obtain ⟨hout, hfree⟩ := Prod.mk.inj hproj
  have hreach : Reach step (· = start [⟨0x400000, 0x2000, 1⟩]) s := .of_run rfl hs
  exact ⟨s, hreach, hout, hfree, (booksExact (by decide) hreach).1⟩

end PmmUse

end NullOS.Memory
