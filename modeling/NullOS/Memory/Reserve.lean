import NullOS.Memory.PmmRun

/-!
# Reserved ranges

`pmm_mark_used` rounds the start down to a page and rounds the size up to pages, each on its own, so
that a range that is not page-aligned may end in a page after the last one that is marked.  The
range is safe from every later allocation exactly if what lies after the marked pages was not free
(`PmmUse.reserved_iff`).
-/

namespace NullOS.Memory.PmmUse

open Lib

variable {s t : PmmUse} {c : PmmCall} {q a : Nat} {addr size : UInt32}

/-- Page `q` and the range `[addr, addr + size)` have a byte in common. -/
def Overlaps (q addr size : Nat) : Prop :=
  ∃ b, q * pageSize ≤ b ∧ b < (q + 1) * pageSize ∧ addr ≤ b ∧ b < addr + size

def OutPage (s : PmmUse) (q : Nat) : Prop := ∃ b ∈ s.out, b / pageSize = q

/-- Page `q` is not for allocation: it is not managed or its bit is set, and nobody who may free
it has it. -/
structure Stays (q : Nat) (s : PmmUse) : Prop where
  taken : q < s.pmm.total → s.pmm.bitmap q = true
  kept : ¬ s.OutPage q

lemma Stays.take (h : Stays q s) {q' : Nat} (hlt : q' < s.pmm.total)
    (hfree : s.pmm.bitmap q' = false) : Stays q (s.handOut (q' * pageSize, s.pmm.take q')) := by
  have hne : q ≠ q' := by
    rintro rfl
    exact absurd (hfree.symm.trans (h.taken hlt)) (by simp)
  refine ⟨fun hq => ?_, ?_⟩
  · show (s.pmm.take q').bitmap q = true
    rw [Pmm.take_bitmap_of_ne hne]
    exact h.taken hq
  · rintro ⟨b, hb, hdiv⟩
    simp only [handOut] at hb
    split at hb
    · exact h.kept ⟨b, hb, hdiv⟩
    · rcases List.mem_cons.mp hb with rfl | hb
      · rw [Nat.mul_div_cancel q' (by decide)] at hdiv
        exact hne hdiv.symm
      · exact h.kept ⟨b, hb, hdiv⟩

lemma Stays.free_page (h : Stays q s) (ha : a ∈ s.out) :
    Stays q { pmm := s.pmm.pmmFreePage a, out := s.out.erase a } := by
  have hne : q ≠ a / pageSize := fun heq => h.kept ⟨a, ha, heq.symm⟩
  refine ⟨?_, fun ⟨b, hb, hdiv⟩ => h.kept ⟨b, List.mem_of_mem_erase hb, hdiv⟩⟩
  show q < (s.pmm.pmmFreePage a).total → (s.pmm.pmmFreePage a).bitmap q = true
  rw [Pmm.pmmFreePage]
  split
  · exact h.taken
  · rw [Pmm.drop_total, Pmm.drop_bitmap_of_ne hne]
    exact h.taken

/-- **No call gives a reserved page away.** -/
lemma Stays.step (h : Stays q s) (hs : s.step c = some t) : Stays q t := by
  have hfail : s.handOut (0, s.pmm) = s := rfl
  cases c with
  | markUsed addr size =>
    cases hs
    refine ⟨fun hq => ?_, h.kept⟩
    have hq' : q < (s.pmm.pmmMarkUsed addr.toNat size.toNat).total := hq
    rw [Pmm.pmmMarkUsed, Pmm.markUsedFrom_total] at hq'
    exact Pmm.markUsedFrom_of_used (h.taken hq')
  | allocPage =>
    cases hs
    rcases s.pmm.pmmAllocPage_cases with hr | ⟨q', hlt, hfree, hr⟩
    · rw [hr, hfail]
      exact h
    · rw [hr]
      exact h.take hlt hfree
  | allocPageAt addr =>
    cases hs
    rcases pmmAllocPageAt_cases s.pmm addr.toNat with hr | ⟨q', hlt, hfree, hr⟩
    · rw [hr, hfail]
      exact h
    · rw [hr]
      exact h.take hlt hfree
  | freePage addr =>
    rw [PmmUse.step] at hs
    split at hs
    case isTrue hmem =>
      cases hs
      exact h.free_page hmem
    case isFalse => simp at hs

lemma Stays.run (h : Stays q s) (hreach : Reach PmmUse.step (· = s) t) : Stays q t :=
  hreach.invariant (I := Stays q) (by
    rintro _ rfl
    exact h) fun _ _ _ hi _ hs => hi.step hs

lemma Stays.not_handed (h : Stays q s) (ha : Hands s (q * pageSize)) (h0 : q * pageSize ≠ 0) :
    False := by
  obtain ⟨q', heq, hlt, hfree⟩ := ha.free h0
  obtain rfl : q = q' := Nat.eq_of_mul_eq_mul_right (by decide) heq
  exact absurd (hfree.symm.trans (h.taken hlt)) (by simp)

lemma hands_of_free (hlt : q < s.pmm.total) (hfree : s.pmm.bitmap q = false)
    (haddr : q * pageSize < 2 ^ 32) : Hands s (q * pageSize) := by
  refine .inr ⟨UInt32.ofNat (q * pageSize), ?_⟩
  rw [UInt32.toNat_ofNat_of_lt' haddr, Pmm.pmmAllocPageAt, Nat.mul_div_cancel q (by decide),
    if_neg (by simp [Nat.mul_mod_left]), if_neg]
  rw [not_or, not_le, hfree]
  exact ⟨hlt, by simp⟩

def reserve (s : PmmUse) (addr size : UInt32) : PmmUse :=
  { s with pmm := s.pmm.pmmMarkUsed addr.toNat size.toNat }

/-- The pages that `pmm_mark_used(addr, size)` does not look at. -/
def Missed (q addr size : Nat) : Prop :=
  q < addr / pageSize ∨ addr / pageSize + Pmm.pagesOf size ≤ q

lemma reserve_total : (s.reserve addr size).pmm.total = s.pmm.total := by
  rw [reserve, Pmm.pmmMarkUsed, Pmm.markUsedFrom_total]

lemma reserve_stays (hq : ¬ s.OutPage q)
    (h : Missed q addr.toNat size.toNat → q < s.pmm.total → s.pmm.bitmap q = true) :
    Stays q (s.reserve addr size) := by
  refine ⟨fun hlt => ?_, hq⟩
  rw [reserve_total] at hlt
  by_cases hmiss : Missed q addr.toNat size.toNat
  · exact Pmm.markUsedFrom_of_used (h hmiss hlt)
  · rw [Missed, not_or, not_lt, not_le] at hmiss
    exact Pmm.markUsedFrom_of_mem hmiss.1 hmiss.2 hlt

/-- No page of a range is missed that starts on a page boundary, as long as its size is rounded up
to pages without a wrap. -/
lemma not_missed_of_aligned {q addr size : Nat} (haddr : addr % pageSize = 0)
    (hsize : size + 0xFFF < 2 ^ 32) (hover : Overlaps q addr size) : ¬ Missed q addr size := by
  obtain ⟨b, hlo, hhi, hlo', hhi'⟩ := hover
  simp only [Missed, Pmm.pagesOf, pageSize] at *
  omega

/-- **When a reserved range is safe.**  After `pmm_mark_used(addr, size)` no run of calls gets a
page of the range, exactly if the pages of the range that the call did not look at were used, or not
managed, to begin with.  (A returned 0 is a failure, so that page 0 does not count.) -/
theorem reserved_iff (s : PmmUse) (addr size : UInt32)
    (hrange : addr.toNat + size.toNat ≤ 2 ^ 32) :
    (∀ t, Reach step (· = s.reserve addr size) t → ∀ q, Hands t (q * pageSize) → q ≠ 0 →
        Overlaps q addr.toNat size.toNat → s.OutPage q) ↔
      ∀ q, q ≠ 0 → Overlaps q addr.toNat size.toNat → Missed q addr.toNat size.toNat →
        ¬ s.OutPage q → q < s.pmm.total → s.pmm.bitmap q = true := by
  have hzero : ∀ {q}, q ≠ 0 → q * pageSize ≠ 0 := fun hq => Nat.mul_ne_zero hq (by decide)
  constructor
  · intro hsafe q h0 hover hmiss hout hlt
    by_contra hfree
    rw [Bool.not_eq_true] at hfree
    refine hout (hsafe _ (.start rfl) q (hands_of_free ?_ ?_ ?_) h0 hover)
    · rwa [reserve_total]
    · rw [← hfree]
      exact Pmm.markUsedFrom_of_not_mem hmiss
    · obtain ⟨b, hlo, -, -, hhi⟩ := hover
      omega
  · intro hused t hreach q hands h0 hover
    by_contra hout
    have hstays : Stays q (s.reserve addr size) :=
      reserve_stays hout fun hmiss hlt => hused q h0 hover hmiss hout hlt
    exact (hstays.run hreach).not_handed hands (hzero h0)

/-- A module of one and a half pages at 4 MB, page-aligned: its second page is out of reach, and the
page after it is the first that is handed out. -/
theorem reserved_iff_aligned :
    ((start [⟨0x400000, 0x3000, 1⟩]).reserve 0x400000 0x1800).pmm.pmmAllocPage.1 = 0x402000 ∧
      ¬ Hands ((start [⟨0x400000, 0x3000, 1⟩]).reserve 0x400000 0x1800) (0x401 * pageSize) := by
  refine ⟨by decide +kernel, fun hands => ?_⟩
  have hsafe := (reserved_iff (start [⟨0x400000, 0x3000, 1⟩]) 0x400000 0x1800 (by decide)).mpr
    fun _ _ hover hmiss => absurd hmiss (not_missed_of_aligned (by decide) (by decide) hover)
  obtain ⟨b, hb, -⟩ := hsafe _ (.start rfl) 0x401 hands (by decide) ⟨0x401000, by decide⟩
  exact absurd hb List.not_mem_nil

/-- Two bytes at `0x400FFF` lie in two pages.  One is marked, and the other is the first page that
`pmm_alloc_page` then returns. -/
theorem reserved_lost : ∃ t,
    Reach step (· = (start [⟨0x400000, 0x2000, 1⟩]).reserve 0x400FFF 2) t ∧
      t.pmm.pmmAllocPage.1 = 0x401000 ∧ Overlaps 0x401 0x400FFF 2 ∧
      ¬ (start [⟨0x400000, 0x2000, 1⟩]).OutPage 0x401 :=
  ⟨_, .start rfl, by decide +kernel, ⟨0x401000, by decide⟩, by
    rintro ⟨b, hb, -⟩
    exact absurd hb (List.not_mem_nil)⟩

end NullOS.Memory.PmmUse
