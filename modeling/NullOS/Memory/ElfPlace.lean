import NullOS.Memory.ElfSpace

/-!
# Where `elf_load` puts a program

`vmm_get_phys_from_dir` already adds the offset in the page, and the copy loop adds it once more: a
segment that does not start on a page boundary ends up in the wrong place (`misplacedSegment`).  And
a page that two segments share is mapped anew for the second one.  Outside these two cases every
byte of every segment shows what the file says.
-/

namespace NullOS.Memory

open Lib

def segmentsAt (img : List UInt8) (h : Ehdr) (is : List Nat) : List Phdr :=
  (is.filterMap (readPhdr img h)).filter Phdr.loads

/-- The program headers that are loaded. -/
def segments (img : List UInt8) : List Phdr :=
  match readEhdr img with
  | none => []
  | some h => segmentsAt img h (List.range h.phnum)

/-- The program headers whose file data the loop over the headers gets to copy: memory does not run
out before. -/
def copiedAt (cr3 : Nat) (img : List UInt8) (h : Ehdr) : Phys → List Nat → List Phdr
  | _, [] => []
  | s, i :: is =>
      match readPhdr img h i with
      | none => []
      | some ph =>
          if ph.loads then
            if (mapPages s cr3 (ph.firstPage * pageSize) (ph.endPage - ph.firstPage)).1 then
              ph :: copiedAt cr3 img h (loadSegment s cr3 img ph).2 is
            else []
          else copiedAt cr3 img h s is

/-- The program headers whose file data `elf_load` gets to copy: none if it refuses the file. -/
def copied (s : Phys) (cr3 : Nat) (img : List UInt8) : List Phdr :=
  match readEhdr img with
  | none => []
  | some h =>
      if ehdrOk img.length h ∧ checkPhdrs img h (List.range h.phnum) = none then
        copiedAt cr3 img h s (List.range h.phnum)
      else []

/-- A directory as `vmm_create_directory` leaves it: a frame marked used, with no user
table. -/
structure NewDir (s : Phys) (pd : Nat) : Prop where
  aligned : pd % pageSize = 0
  used : pd / pageSize < s.pmm.total ∧ s.pmm.bitmap (pd / pageSize) = true
  empty : ∀ di, 2 ≤ di → di < 1024 → ¬ Present (pde s.mem pd di)

/-- The address is mapped, and shows `b`. -/
def Shows (s : Phys) (pd a : Nat) (b : UInt8) : Prop :=
  vmmGetPhysFromDir s.mem pd a ≠ 0 ∧ s.mem (vmmGetPhysFromDir s.mem pd a) = b

/-- The segment is where the file wants it. -/
def Placed (img : List UInt8) (t : Phys) (pd : Nat) (ph : Phdr) : Prop :=
  (∀ o < ph.filesz, Shows t pd (ph.vaddr + o) (bytesOf img (ph.offset + o))) ∧
    ∀ o, ph.filesz ≤ o → o < ph.memsz → Shows t pd (ph.vaddr + o) 0

/-- Only the directory and frames taken from the allocator in between were written. -/
def Confined (s t : Phys) (pd : Nat) : Prop :=
  ∀ a, t.mem a ≠ s.mem a → a / pageSize = pd / pageSize ∨
    (s.pmm.bitmap (a / pageSize) = false ∧ t.pmm.bitmap (a / pageSize) = true)

def Phdr.Disjoint (p q : Phdr) : Prop :=
  p.vaddr + p.memsz ≤ q.vaddr ∨ q.vaddr + q.memsz ≤ p.vaddr

/-- No page with file data of `p` is a page of `q`. -/
def Phdr.PagesApart (p q : Phdr) : Prop :=
  ∀ o < p.filesz, ∀ o' < q.memsz, (p.vaddr + o) / pageSize ≠ (q.vaddr + o') / pageSize

def Phdr.Aligned (ph : Phdr) : Prop := ph.filesz ≠ 0 → ph.vaddr % pageSize = 0

/-! ## One segment -/

variable {s t : Phys} {m m' : Mem} {own own' : Own} {pd vp q f a n entry : Nat} {r : Role}
  {img : List UInt8} {ph : Phdr} {h : Ehdr} {is : List Nat}

/-- What an address shows after a segment has been loaded over `b`. -/
def Phdr.place (img : List UInt8) (a : Nat) (b : Option UInt8) (ph : Phdr) : Option UInt8 :=
  if ph.vaddr ≤ a ∧ a < ph.vaddr + ph.filesz then some (bytesOf img (ph.offset + (a - ph.vaddr)))
  else if ph.firstPage ≤ a / pageSize ∧ a / pageSize < ph.endPage then some 0
  else b

def Role.Of (pd : Nat) (r : Role) : Prop := r.Paging pd ∨ ∃ vp, r = .user pd vp

lemma Phdr.endPage_eq (hok : phdrOk n ph = true) :
    ph.endPage = (ph.vaddr + ph.memsz + 0xFFF) / pageSize := by
  rw [phdrOk_iff, elfUserLimit] at hok
  rw [Phdr.endPage, Nat.mod_eq_of_lt (by omega)]

/-- The addresses are in frames that are in use and have no role. -/
def ApartFrom (A : Nat → Prop) (s : Phys) (own : Own) : Prop :=
  ∀ a, A a → s.pmm.bitmap (a / pageSize) = true ∧ own (a / pageSize) = none

lemma ApartFrom.grows {A : Nat → Prop} {W : Role → Prop} (hA : ApartFrom A s own)
    (hg : Grows W s t own own') : ApartFrom A t own' ∧ ∀ a, A a → t.mem a = s.mem a := by
  refine ⟨fun a ha => ⟨hg.bits _ (hA a ha).1, ?_⟩, fun a ha => ?_⟩
  · by_contra hne
    exact absurd (hg.fresh _ (hA a ha).2 hne) (by simp [(hA a ha).1])
  · by_contra hne
    rcases hg.writes a hne with hfree | ⟨r, hr, -⟩
    · simp [(hA a ha).1] at hfree
    · simp [(hA a ha).2] at hr

/-- **One segment is loaded**, or memory runs out. -/
lemma loadSegment_spec (hsp : Space s.mem own pd) (hmk : Marked s.pmm own) (hman : Managed s.pmm)
    (hok : phdrOk img.length ph = true)
    (hal : (mapPages s pd (ph.firstPage * pageSize) (ph.endPage - ph.firstPage)).1 = true →
      ph.Aligned) :
    ∃ r t own', loadSegment s pd img ph = (r, t) ∧ Grows (Role.Of pd) s t own own' ∧
      Marked t.pmm own' ∧ Space t.mem own' pd ∧ (r = none ∨ r = some .fail) ∧
      MapsOnly (fun k => ph.firstPage ≤ k ∧ k < ph.endPage) s t pd ∧
      (∀ A, ApartFrom A s own → SegmentAvoids A pd img s ph) ∧
      (r = none → Tidy s t own' ∧ ∀ a, UserAddr a →
        peek t.mem pd a = ph.place img a (peek s.mem pd a)) := by
  have hend := Phdr.endPage_eq hok
  rw [phdrOk_iff, elfUserLimit] at hok
  obtain ⟨hfm, himg, hlo, hhi⟩ := hok
  have hfirst : ph.firstPage = ph.vaddr / pageSize := rfl
  have hn : ph.firstPage + (ph.endPage - ph.firstPage) = ph.endPage := by
    rw [hend, hfirst]
    simp only [pageSize]
    omega
  obtain ⟨ok, t, own₁, hmap, hg, hmk₁, hsp₁, hmaps, hpeek⟩ :=
    mapPages_spec (ph.endPage - ph.firstPage) hsp hmk hman
      (show 2048 ≤ ph.firstPage by rw [hfirst]; simp only [pageSize]; omega)
      (by rw [hn, hend]; simp only [pageSize]; omega)
  have hg₁ : Grows (Role.Of pd) s t own own₁ := hg.mono fun _ hp => .inl hp
  rw [hn] at hmaps
  rw [loadSegment, hmap]
  cases ok with
  | false =>
    refine ⟨some .fail, t, own₁, rfl, hg₁, hmk₁, hsp₁, .inr rfl, hmaps, fun A hA => ?_, by simp⟩
    rw [SegmentAvoids, hmap]
    exact ⟨(hA.grows hg).2, by simp⟩
  | true =>
    obtain ⟨htidy, hpeek⟩ := hpeek rfl
    have hwalk : ∀ k, ph.vaddr / pageSize ≤ k → k * pageSize < ph.vaddr + ph.filesz →
        walk t.mem pd k ≠ none := by
      intro k hk hk' hnone
      have hdiv : k * pageSize / pageSize = k := Nat.mul_div_cancel _ (by decide)
      have hzero := hpeek (k * pageSize) (by
        rw [UserAddr, hdiv]
        simp only [pageSize] at hk hk' ⊢
        omega)
      rw [hdiv, hn, if_pos ⟨by rw [hfirst]; exact hk, by
        rw [hend]
        simp only [pageSize] at hk' ⊢
        omega⟩, peek, hdiv, hnone] at hzero
      simp at hzero
    have hcopies := fun A => copySegment_spec (A := A) ph.filesz hsp₁ hlo (by omega)
      himg hwalk (Nat.zero_le _) (by omega) fun hpos => by
        rw [Nat.add_zero]
        exact hal (by rw [hmap]) (by omega)
    obtain ⟨m', hcopy, -, hsp₂, hwrite, hpeek₂⟩ := hcopies (fun _ => False) (by simp)
    dsimp only
    rw [hcopy]
    have hg₂ : Grows (Role.Of pd) t { t with mem := m' } own₁ own₁ := by
      refine .of_pmm_eq rfl fun a ha => ?_
      obtain ⟨k, hk⟩ := hwrite a ha
      exact ⟨_, hk, .inr ⟨k, rfl⟩, trivial⟩
    refine ⟨none, _, own₁, rfl, hg₁.trans hg₂, hmk₁, hsp₂, .inl rfl,
      hmaps.trans (hsp₁.mapsOnly _ fun a r hr hp => ?_), fun A hA => ?_, fun _ =>
      ⟨htidy.trans (fun a ha => ?_) fun _ _ => rfl, fun a ha => ?_⟩⟩
    · by_contra ha
      obtain ⟨k, hk⟩ := hwrite a ha
      rw [hr] at hk
      cases hk
      exact not_paging_user pd pd k hp
    · obtain ⟨hA₁, hsame⟩ := hA.grows hg
      obtain ⟨-, -, havoid, -⟩ := hcopies A fun a vp ha => by simp [(hA₁ a ha).2]
      rw [SegmentAvoids, hmap]
      exact ⟨hsame, fun _ => havoid⟩
    · obtain ⟨k, hk⟩ := hwrite a ha
      simp [hk]
    · rw [hpeek₂ a ha, hpeek a ha, hn, Nat.add_zero]
      rfl

lemma mapPages_of_loadSegment (heq : loadSegment s pd img ph = (none, t)) :
    (mapPages s pd (ph.firstPage * pageSize) (ph.endPage - ph.firstPage)).1 = true := by
  rw [loadSegment] at heq
  split at heq
  · exact absurd (Prod.mk.inj heq).1 (by simp)
  case h_2 hmap => rw [hmap]

/-! ## All segments -/

lemma checkPhdrs_none (hc : checkPhdrs img h is = none) :
    ∀ i ∈ is, ∃ ph, readPhdr img h i = some ph ∧
      (ph.loads = true → phdrOk img.length ph = true) := by
  induction is with
  | nil => simp
  | cons i is ih =>
    rw [checkPhdrs] at hc
    split at hc
    · simp at hc
    case h_2 ph hph =>
      split_ifs at hc with hbad
      intro k hk
      rcases List.mem_cons.mp hk with rfl | hk
      · refine ⟨ph, hph, fun hl => ?_⟩
        by_contra hno
        exact hbad ⟨hl, hno⟩
      · exact ih hc k hk

lemma checkPhdrs_some {r : ElfResult} (hc : checkPhdrs img h is = some r) :
    r = .fail ∨ r = .fault := by
  induction is with
  | nil => simp [checkPhdrs] at hc
  | cons i is ih =>
    rw [checkPhdrs] at hc
    split at hc
    · exact .inr (Option.some.inj hc).symm
    · split_ifs at hc
      · exact .inl (Option.some.inj hc).symm
      · exact ih hc

/-- Either `elf_load` refuses the file before it has done anything, or every header is good and
the segments are loaded. -/
lemma elfLoad_cases (s : Phys) (pd : Nat) (img : List UInt8) :
    (∃ r, (r = .fail ∨ r = .fault) ∧ elfLoad s pd img = (r, s)) ∨
      ∃ h, readEhdr img = some h ∧
        (∀ i ∈ List.range h.phnum, ∃ ph, readPhdr img h i = some ph ∧
          (ph.loads = true → phdrOk img.length ph = true)) ∧
        copied s pd img = copiedAt pd img h s (List.range h.phnum) ∧
        elfLoad s pd img = ((loadPhdrs pd img h s (List.range h.phnum)).1.getD (.ok h.entry),
          (loadPhdrs pd img h s (List.range h.phnum)).2) := by
  by_cases hshort : img.length < ehdrSize
  · exact .inl ⟨.fail, .inl rfl, by rw [elfLoad, if_pos hshort]⟩
  · rw [elfLoad, if_neg hshort]
    cases hh : readEhdr img with
    | none => exact .inl ⟨.fault, .inr rfl, rfl⟩
    | some h =>
      dsimp only
      by_cases hok : ehdrOk img.length h = true
      · rw [if_pos hok]
        cases hc : checkPhdrs img h (List.range h.phnum) with
        | some r => exact .inl ⟨r, checkPhdrs_some hc, rfl⟩
        | none =>
          refine .inr ⟨h, rfl, checkPhdrs_none hc, ?_, ?_⟩
          · rw [copied, hh]
            exact if_pos ⟨hok, hc⟩
          rcases hload : loadPhdrs pd img h s (List.range h.phnum) with ⟨_ | r, t⟩
          · rfl
          · rfl
      · exact .inl ⟨.fail, .inl rfl, by rw [if_neg hok]⟩

lemma segmentsAt_cons_loads {i : Nat} (hph : readPhdr img h i = some ph) (hl : ph.loads = true) :
    segmentsAt img h (i :: is) = ph :: segmentsAt img h is := by
  simp [segmentsAt, hph, hl]

lemma segmentsAt_cons_skip {i : Nat} (hph : readPhdr img h i = some ph) (hl : ph.loads = false) :
    segmentsAt img h (i :: is) = segmentsAt img h is := by
  simp [segmentsAt, hph, hl]

lemma copiedAt_subset : copiedAt pd img h s is ⊆ segmentsAt img h is := by
  induction is generalizing s with
  | nil => exact List.Subset.refl _
  | cons i is ih =>
    rw [copiedAt]
    split
    · exact List.nil_subset _
    case h_2 ph hph =>
      cases hl : ph.loads with
      | false =>
        rw [segmentsAt_cons_skip hph hl]
        simpa using ih
      | true =>
        rw [segmentsAt_cons_loads hph hl, if_pos rfl]
        split
        · exact List.cons_subset_cons _ ih
        · exact List.nil_subset _

lemma copied_subset : copied s pd img ⊆ segments img := by
  rw [copied, segments]
  split
  · exact List.Subset.refl _
  · split
    · exact copiedAt_subset
    · exact List.nil_subset _

/-- **The loop over the headers**, when each of them was found good and those copied are aligned. -/
lemma loadPhdrs_spec (hsp : Space s.mem own pd) (hmk : Marked s.pmm own) (hman : Managed s.pmm)
    (hgood : ∀ i ∈ is, ∃ ph, readPhdr img h i = some ph ∧
      (ph.loads = true → phdrOk img.length ph = true))
    (hal : ∀ ph ∈ copiedAt pd img h s is, ph.Aligned) :
    ∃ r t own', loadPhdrs pd img h s is = (r, t) ∧ Grows (Role.Of pd) s t own own' ∧
      Marked t.pmm own' ∧ Space t.mem own' pd ∧ (r = none ∨ r = some .fail) ∧
      MapsOnly (fun k => ∃ ph ∈ segmentsAt img h is, ph.firstPage ≤ k ∧ k < ph.endPage) s t pd ∧
      (∀ A, ApartFrom A s own → LoadAvoids A pd img h s is) ∧
      (r = none → Tidy s t own' ∧ ∀ a, UserAddr a →
        peek t.mem pd a = (segmentsAt img h is).foldl (Phdr.place img a) (peek s.mem pd a)) := by
  induction is generalizing s own with
  | nil =>
    exact ⟨none, s, own, rfl, .refl _ s own, hmk, hsp, .inl rfl, .refl _ s pd, fun _ _ => trivial,
      fun _ => ⟨fun _ ha => absurd rfl ha, fun _ _ => rfl⟩⟩
  | cons i is ih =>
    obtain ⟨ph, hph, hok⟩ := hgood i (by simp)
    have hgood' := fun k (hk : k ∈ is) => hgood k (List.mem_cons_of_mem _ hk)
    rw [copiedAt, hph] at hal
    rw [loadPhdrs, hph]
    cases hl : ph.loads with
    | false =>
      rw [segmentsAt_cons_skip hph hl]
      simp only [hl, Bool.false_eq_true, if_false] at hal ⊢
      obtain ⟨r, t, own', heq, hg, hmk', hsp', hr, hmaps, havoid, hdone⟩ :=
        ih hsp hmk hman hgood' hal
      refine ⟨r, t, own', heq, hg, hmk', hsp', hr, hmaps, fun A hA ph' hph' => ?_, hdone⟩
      obtain rfl := Option.some.inj (hph.symm.trans hph')
      rw [if_neg (by simp [hl])]
      exact havoid A hA
    | true =>
      rw [segmentsAt_cons_loads hph hl]
      simp only [hl, if_true] at hal ⊢
      obtain ⟨r, t, own₁, heq, hg, hmk₁, hsp₁, hr, hmaps, havoid, hdone⟩ :=
        loadSegment_spec hsp hmk hman (hok hl) fun hmap => hal ph (by simp [hmap])
      have hmaps₁ : MapsOnly
          (fun k => ∃ q ∈ ph :: segmentsAt img h is, q.firstPage ≤ k ∧ k < q.endPage) s t pd :=
        hmaps.mono fun k hk => ⟨ph, List.mem_cons_self, hk⟩
      rw [heq]
      cases r with
      | some r =>
        refine ⟨some r, t, own₁, rfl, hg, hmk₁, hsp₁, hr, hmaps₁, fun A hA ph' hph' => ?_, by simp⟩
        obtain rfl := Option.some.inj (hph.symm.trans hph')
        rw [if_pos hl]
        exact ⟨havoid A hA, fun t' ht' => by simp [heq] at ht'⟩
      | none =>
        obtain ⟨htidy, hpeek⟩ := hdone rfl
        have hal' : ∀ q ∈ copiedAt pd img h t is, q.Aligned := fun q hq => hal q (by
          rw [if_pos (mapPages_of_loadSegment heq), heq]
          exact List.mem_cons_of_mem _ hq)
        obtain ⟨r', t', own₂, heq', hg', hmk₂, hsp₂, hr', hmaps', havoid', hdone'⟩ :=
          ih hsp₁ hmk₁ (hg.managed hman) hgood' hal'
        refine ⟨r', t', own₂, heq', hg.trans hg', hmk₂, hsp₂, hr', hmaps₁.trans
          (hmaps'.mono fun k ⟨q, hq, hk⟩ => ⟨q, List.mem_cons_of_mem _ hq, hk⟩),
          fun A hA ph' hph' => ?_, fun hnone =>
          ⟨htidy.trans (hdone' hnone).1 hg'.keeps, fun a ha => ?_⟩⟩
        · obtain rfl := Option.some.inj (hph.symm.trans hph')
          rw [if_pos hl]
          refine ⟨havoid A hA, fun u hu => ?_⟩
          rw [heq] at hu
          obtain rfl := (Prod.mk.inj hu).2
          exact havoid' A (hA.grows hg).1
        · rw [(hdone' hnone).2 a ha, hpeek a ha]
          rfl

/-- **`elf_load`**, wherever it stops. -/
lemma elfLoad_grows (hsp : Space s.mem own pd) (hmk : Marked s.pmm own)
    (hman : Managed s.pmm) (hal : ∀ ph ∈ copied s pd img, ph.Aligned) :
    ∃ own', Grows (Role.Of pd) s (elfLoad s pd img).2 own own' ∧
      Marked (elfLoad s pd img).2.pmm own' ∧ Space (elfLoad s pd img).2.mem own' pd := by
  obtain ⟨r, -, heq⟩ | ⟨h, hh, hgood, hcopied, heq⟩ := elfLoad_cases s pd img
  · rw [heq]
    exact ⟨own, .refl _ _ _, hmk, hsp⟩
  · rw [hcopied] at hal
    obtain ⟨r, t, own', hload, hg, hmk', hsp', -⟩ := loadPhdrs_spec hsp hmk hman hgood hal
    rw [heq, hload]
    exact ⟨own', hg, hmk', hsp'⟩

lemma NewDir.space (hd : NewDir s pd) :
    let own : Own := Function.update (fun _ => none) (pd / pageSize) (some (.dir pd))
    Space s.mem own pd ∧ Marked s.pmm own := by
  intro own
  refine ⟨⟨hd.aligned, Function.update_self _ _ _, fun di hlo hhi hp => ?_,
    fun vp f hlo hhi hw => ?_⟩, fun q hq => ?_⟩
  · exact absurd hp (hd.empty di hlo hhi)
  · exact absurd (walk_some hw).1 (hd.empty _ (by omega) (by omega))
  · by_cases hqd : q = pd / pageSize
    · rw [hqd]
      exact hd.used
    · exact absurd (Function.update_of_ne hqd _ _) hq

/-- **What `elf_load` leaves** when it succeeds: the directory shows the segments laid one over
the other, and only new frames and the directory were written. -/
lemma elfLoad_spec (hman : Managed s.pmm) (hd : NewDir s pd)
    (hok : elfLoad s pd img = (.ok entry, t)) (hal : ∀ ph ∈ segments img, ph.Aligned) :
    Confined s t pd ∧ (∀ ph ∈ segments img, phdrOk img.length ph = true ∧ ph.memsz ≠ 0) ∧
      ∀ a, UserAddr a → peek t.mem pd a = (segments img).foldl (Phdr.place img a) none ∧
        ∀ f, walk t.mem pd (a / pageSize) = some f → f ≠ 0 := by
  obtain ⟨hsp, hmk⟩ := hd.space
  obtain ⟨r, hr, heq⟩ | ⟨h, hh, hgood, -, heq⟩ := elfLoad_cases s pd img
  · rw [heq] at hok
    obtain rfl | rfl := hr
    all_goals exact absurd (Prod.mk.inj hok).1 (by simp)
  · have hseg : segments img = segmentsAt img h (List.range h.phnum) := by rw [segments, hh]
    rw [hseg] at hal ⊢
    obtain ⟨r, t', own', hload, hg, hmk', hsp', hr, -, -, hdone⟩ :=
      loadPhdrs_spec hsp hmk hman hgood fun ph hph => hal ph (copiedAt_subset hph)
    rw [heq, hload] at hok
    obtain ⟨hres, rfl⟩ := Prod.mk.inj hok
    have hnone : r = none := by
      obtain rfl | rfl := hr
      · rfl
      · simp at hres
    obtain ⟨htidy, hpeek⟩ := hdone hnone
    refine ⟨fun a ha => ?_, fun ph hph => ?_, fun a ha => ?_⟩
    · have hused := (hmk' _ (htidy a ha)).2
      obtain hfree | ⟨r', hr', -⟩ := hg.writes a ha
      · exact .inr ⟨hfree, hused⟩
      · left
        by_contra hne
        rw [Function.update_of_ne hne] at hr'
        simp at hr'
    · obtain ⟨hmem, hl⟩ := List.mem_filter.mp hph
      obtain ⟨i, hi, hread⟩ := List.mem_filterMap.mp hmem
      obtain ⟨ph', hread', hok'⟩ := hgood i hi
      rw [hread'] at hread
      cases hread
      exact ⟨hok' hl, (Phdr.loads_iff.mp hl).2⟩
    · have hunmapped : peek s.mem pd a = none := by
        rw [peek, walk, if_neg fun hp => hd.empty _ ?_ ?_ hp.1]
        · rfl
        · have := ha.1
          omega
        · have := ha.2
          omega
      refine ⟨by rw [hpeek a ha, hunmapped], fun f hf => ?_⟩
      -- the frame was free before, so it is not the first one
      have hrole := hsp'.page _ f ha.1 ha.2 hf
      rintro rfl
      by_cases hpd : 0 = pd / pageSize
      · rw [hg.keeps 0 (by simp [hpd]), hpd, Function.update_self] at hrole
        simp at hrole
      · have hfree := hg.fresh 0 (Function.update_of_ne hpd _ _) (by simp [hrole])
        rw [hman.low 0 (by omega)] at hfree
        simp at hfree

/-! ## Segments that stay apart -/

lemma foldl_place_of_keeps {b : Option UInt8} {l : List Phdr}
    (hk : ∀ q ∈ l, Phdr.place img a b q = b) : l.foldl (Phdr.place img a) b = b := by
  induction l with
  | nil => rfl
  | cons q l ih =>
    rw [List.foldl_cons, hk q (by simp)]
    exact ih fun p hp => hk p (List.mem_cons_of_mem _ hp)

lemma Phdr.exists_offset (hok : phdrOk n ph = true) (hl : ph.memsz ≠ 0)
    (hpage : ph.firstPage ≤ a / pageSize ∧ a / pageSize < ph.endPage) :
    ∃ o < ph.memsz, (ph.vaddr + o) / pageSize = a / pageSize := by
  rw [Phdr.endPage_eq hok, Phdr.firstPage] at hpage
  simp only [pageSize] at hpage ⊢
  by_cases heq : ph.vaddr / 4096 = a / 4096
  · exact ⟨0, by omega, by omega⟩
  · exact ⟨a / 4096 * 4096 - ph.vaddr, by omega, by omega⟩

lemma foldl_place_of_apart {pre post : List Phdr} {b : Option UInt8}
    (hok : ∀ q ∈ post, phdrOk n q = true ∧ q.memsz ≠ 0)
    (hdis : ∀ q ∈ post, Phdr.Disjoint ph q) (hap : ∀ q ∈ post, Phdr.PagesApart ph q)
    (hph : phdrOk n ph = true) {o : Nat} (ho : o < ph.memsz) :
    (pre ++ ph :: post).foldl (Phdr.place img (ph.vaddr + o)) b =
      some (if o < ph.filesz then bytesOf img (ph.offset + o) else 0) := by
  have hself : ∀ c, Phdr.place img (ph.vaddr + o) c ph =
      some (if o < ph.filesz then bytesOf img (ph.offset + o) else 0) := by
    intro c
    rw [Phdr.place]
    by_cases hof : o < ph.filesz
    · rw [if_pos (by omega), if_pos hof, Nat.add_sub_cancel_left]
    · rw [if_neg (by omega), if_neg hof, if_pos]
      rw [Phdr.endPage_eq hph, Phdr.firstPage]
      simp only [pageSize]
      omega
  rw [List.foldl_append, List.foldl_cons, hself]
  refine foldl_place_of_keeps fun q hq => ?_
  obtain ⟨hqok, hql⟩ := hok q hq
  have hqfm := (phdrOk_iff.mp hqok).1
  have hqdis := hdis q hq
  rw [Phdr.Disjoint] at hqdis
  rw [Phdr.place, if_neg (by omega)]
  split
  case isFalse => rfl
  case isTrue hpage =>
    -- a shared page: no file data of `ph` is on it
    obtain ⟨o', ho', hsame⟩ := Phdr.exists_offset hqok hql hpage
    rw [if_neg fun hof => hap q hq o hof o' ho' hsame.symm]

lemma shows_of_peek {b : UInt8} (hp : peek t.mem pd a = some b)
    (hf : ∀ f, walk t.mem pd (a / pageSize) = some f → f ≠ 0) : Shows t pd a b := by
  obtain ⟨f, hw, hb⟩ := Option.map_eq_some_iff.mp hp
  have hphys : vmmGetPhysFromDir t.mem pd a = f * pageSize + a % pageSize := by
    rw [vmmGetPhysFromDir_eq, hw]
  have hne := hf f hw
  constructor
  · rw [hphys]
    simp only [pageSize]
    omega
  · rw [hphys]
    exact hb

/-- **`elf_load` puts every byte where the file wants it**, and writes nowhere else, when file
data starts on page boundaries and no page with file data is mapped again for a later
segment. -/
theorem elfLoad_placed (hman : Managed s.pmm) (hd : NewDir s pd)
    (hok : elfLoad s pd img = (.ok entry, t)) (hdis : (segments img).Pairwise Phdr.Disjoint)
    (hal : ∀ ph ∈ segments img, ph.Aligned) (hap : (segments img).Pairwise Phdr.PagesApart) :
    (∀ ph ∈ segments img, Placed img t pd ph) ∧ Confined s t pd := by
  obtain ⟨hconf, hgood, hpeek⟩ := elfLoad_spec hman hd hok hal
  refine ⟨fun ph hph => ?_, hconf⟩
  obtain ⟨pre, post, hsplit⟩ := List.append_of_mem hph
  obtain ⟨hphok, -⟩ := hgood ph hph
  have hbyte : ∀ o < ph.memsz, Shows t pd (ph.vaddr + o)
      (if o < ph.filesz then bytesOf img (ph.offset + o) else 0) := by
    intro o ho
    have huser : UserAddr (ph.vaddr + o) := by
      have hrange := phdrOk_iff.mp hphok
      simp only [UserAddr, elfUserLimit, pageSize] at hrange ⊢
      omega
    obtain ⟨hp, hf⟩ := hpeek _ huser
    refine shows_of_peek ?_ hf
    rw [hp, hsplit]
    rw [hsplit] at hgood hdis hap
    have hdis' := (List.pairwise_cons.mp (List.pairwise_append.mp hdis).2.1).1
    have hap' := (List.pairwise_cons.mp (List.pairwise_append.mp hap).2.1).1
    exact foldl_place_of_apart (fun q hq => hgood q (by simp [hq])) hdis' hap' hphok ho
  refine ⟨fun o ho => ?_, fun o ho ho' => ?_⟩
  · have hb := hbyte o (lt_of_lt_of_le ho (phdrOk_iff.mp hphok).1)
    rwa [if_pos ho] at hb
  · have hb := hbyte o ho'
    rwa [if_neg (not_lt.mpr ho)] at hb

/-! ## Two files -/

instance (p q : Phdr) : Decidable (p.Disjoint q) := inferInstanceAs (Decidable (_ ∨ _))
instance (p q : Phdr) : Decidable (p.PagesApart q) :=
  inferInstanceAs (Decidable (∀ o < p.filesz, ∀ o' < q.memsz, _ ≠ _))
instance (ph : Phdr) : Decidable ph.Aligned := inferInstanceAs (Decidable (_ → _))

def leBytes (n w : Nat) : List UInt8 := (List.range n).map (Mem.byteOf w)

def execHeader (phnum : Nat) : List UInt8 :=
  [0x7F, 0x45, 0x4C, 0x46, 1, 1] ++ List.replicate 10 0 ++ leBytes 2 2 ++ leBytes 2 3 ++
    leBytes 4 1 ++ leBytes 4 0x800000 ++ leBytes 4 ehdrSize ++ leBytes 8 0 ++
    leBytes 2 ehdrSize ++ leBytes 2 phdrSize ++ leBytes 2 phnum ++ List.replicate 6 0

def loadHeader (ph : Phdr) : List UInt8 :=
  leBytes 4 ph.type ++ leBytes 4 ph.offset ++ leBytes 4 ph.vaddr ++ leBytes 4 ph.vaddr ++
    leBytes 4 ph.filesz ++ leBytes 4 ph.memsz ++ leBytes 4 5 ++ leBytes 4 pageSize

/-- Everything from 4 MB on is free but for an empty directory at 4 MB. -/
def freshMachine : Phys :=
  { mem := fun _ => 0
    pmm := { total := pmmMaxPages, used := 1025, bitmap := fun q => decide (q ≤ 1024) }
    ptNext := pageTableStart }

lemma elfLoad_eq_of_fst {res : ElfResult} (hres : (elfLoad s pd img).1 = res) :
    elfLoad s pd img = (res, (elfLoad s pd img).2) := by
  rw [← hres]

lemma freshMachine_managed : Managed freshMachine.pmm :=
  ⟨le_refl _, fun q hq => by simp only [freshMachine, decide_eq_true_eq]; omega⟩

lemma freshMachine_newDir : NewDir freshMachine 0x400000 := by
  refine ⟨by decide, by decide, fun di _ _ => ?_⟩
  have hzero : pde freshMachine.mem 0x400000 di = 0 := rfl
  rw [hzero]
  decide

/-- Two segments on pages of their own: four bytes of data with four zero bytes after them, and
two bytes. -/
def alignedFile : List UInt8 :=
  execHeader 2 ++ loadHeader ⟨1, 116, 0x800000, 4, 8⟩ ++ loadHeader ⟨1, 120, 0x801000, 2, 2⟩ ++
    [0x44, 0x41, 0x54, 0x41, 0x21, 0x3F]

theorem elfLoad_alignedFile :
    (elfLoad freshMachine 0x400000 alignedFile).1 = .ok 0x800000 ∧
      (segments alignedFile).length = 2 ∧
      ∀ ph ∈ segments alignedFile,
        Placed alignedFile (elfLoad freshMachine 0x400000 alignedFile).2 0x400000 ph := by
  have hres : (elfLoad freshMachine 0x400000 alignedFile).1 = .ok 0x800000 := by decide +kernel
  refine ⟨hres, by decide +kernel, ?_⟩
  exact (elfLoad_placed freshMachine_managed freshMachine_newDir (elfLoad_eq_of_fst hres)
    (by decide +kernel) (by decide +kernel) (by decide +kernel)).1

def unalignedFile : List UInt8 :=
  execHeader 1 ++ loadHeader ⟨1, 84, 0x800010, 4, 4⟩ ++ [0x44, 0x41, 0x54, 0x41]

theorem misplacedSegment :
    ¬ ∀ s pd img entry t, Managed s.pmm → NewDir s pd → elfLoad s pd img = (.ok entry, t) →
      (segments img).Pairwise Phdr.Disjoint →
        (∀ ph ∈ segments img, Placed img t pd ph) ∧ Confined s t pd := by
  intro hall
  have hres : (elfLoad freshMachine 0x400000 unalignedFile).1 = .ok 0x800000 := by decide +kernel
  have hplaced := (hall _ _ _ _ _ freshMachine_managed freshMachine_newDir (elfLoad_eq_of_fst hres)
    (by decide +kernel)).1 ⟨1, 84, 0x800010, 4, 4⟩ (by decide +kernel)
  have hbyte := (hplaced.1 0 (by decide)).2
  exact absurd hbyte (by decide +kernel)

end NullOS.Memory
