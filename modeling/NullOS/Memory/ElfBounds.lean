import NullOS.Memory.ElfPlace

/-!
# What `elf_load` reads and where it maps

The image is whatever a user wrote to the disk.  Nothing outside it is read, and `vmm_map_user_page`
is called for addresses in `[0x00800000, 0x02000000)` only.  That is not enough to confine the
program (`spillingFile_escapes`): the data of a segment that does not start on a page boundary
spills into the next frame, and if that is the page table it decides where the rest of the data
goes.
-/

namespace NullOS.Memory

open Lib

variable {s t : Phys} {m m' : Mem} {cr3 va n v addr size : Nat} {img : List UInt8} {h : Ehdr}
  {ph : Phdr} {is : List Nat} {r : ElfResult}

/-! ## The documented conditions -/

/-- The conditions on the ELF header and on the table of program headers. -/
structure Ehdr.Acceptable (size : Nat) (h : Ehdr) : Prop where
  magic : h.magic = [0x7F, 0x45, 0x4C, 0x46]
  kind : h.elfClass = 1 ∧ h.elfData = 1 ∧ h.type = 2 ∧ h.machine = 3
  count : h.phnum ≤ 64
  table : h.phnum ≠ 0 → 32 ≤ h.phentsize ∧ h.phoff + h.phnum * h.phentsize ≤ size

/-- The conditions on a segment that is loaded. -/
structure Phdr.Acceptable (size : Nat) (ph : Phdr) : Prop where
  data_le : ph.filesz ≤ ph.memsz
  data_inside : 0 < ph.filesz → ph.offset + ph.filesz ≤ size
  low : 0x00800000 ≤ ph.vaddr
  high : ph.vaddr + ph.memsz ≤ 0x02000000

def Acceptable (img : List UInt8) : Prop :=
  ∃ h, readEhdr img = some h ∧ h.Acceptable img.length ∧
    ∀ i < h.phnum, ∃ ph, readPhdr img h i = some ph ∧
      (ph.type = ptLoad → 0 < ph.memsz → ph.Acceptable img.length)

lemma ehdrOk_iff : ehdrOk size h = true ↔ h.Acceptable size := by
  constructor
  · intro hok
    obtain ⟨hmagic, hclass, hdata, htype, hmachine, hnum, htable⟩ := of_decide_eq_true hok
    exact ⟨hmagic, ⟨hclass, hdata, htype, hmachine⟩, hnum, htable⟩
  · rintro ⟨hmagic, ⟨hclass, hdata, htype, hmachine⟩, hnum, htable⟩
    exact decide_eq_true ⟨hmagic, hclass, hdata, htype, hmachine, hnum, htable⟩

lemma phdrOk_iff_acceptable : phdrOk size ph = true ↔ ph.Acceptable size := by
  rw [phdrOk_iff]
  constructor
  · rintro ⟨hle, hin, hlo, hhi⟩
    exact ⟨hle, fun hpos => hin hpos.ne', hlo, hhi⟩
  · rintro ⟨hle, hin, hlo, hhi⟩
    exact ⟨hle, fun hne => hin (Nat.pos_of_ne_zero hne), hlo, hhi⟩

/-! ## Reads -/

lemma readEhdr_some (hsize : ehdrSize ≤ img.length) : ∃ h, readEhdr img = some h := by
  rw [readEhdr, if_pos (by simpa [inImage] using hsize)]
  exact ⟨_, rfl⟩

lemma readPhdr_some (hok : h.Acceptable img.length) {i : Nat} (hi : i < h.phnum) :
    ∃ ph, readPhdr img h i = some ph := by
  obtain ⟨hent, hend⟩ := hok.table (by omega)
  have hstride : (i + 1) * h.phentsize ≤ h.phnum * h.phentsize := Nat.mul_le_mul_right _ hi
  rw [Nat.add_one_mul] at hstride
  have hin : inImage img (h.phoff + i * h.phentsize) phdrSize = true :=
    decide_eq_true (show h.phoff + i * h.phentsize + 32 ≤ img.length by omega)
  rw [readPhdr, if_pos hin]
  exact ⟨_, rfl⟩

lemma checkPhdrs_cases (hread : ∀ i ∈ is, ∃ ph, readPhdr img h i = some ph) :
    checkPhdrs img h is = some .fail ∨
      checkPhdrs img h is = none ∧ ∀ i ∈ is, ∃ ph, readPhdr img h i = some ph ∧
        (ph.loads = true → ph.Acceptable img.length) := by
  induction is with
  | nil => exact .inr ⟨rfl, by simp⟩
  | cons i is ih =>
    obtain ⟨ph, hph⟩ := hread i List.mem_cons_self
    rw [checkPhdrs, hph]
    dsimp only
    split
    case isTrue => exact .inl rfl
    case isFalse hok =>
      rw [not_and, not_not] at hok
      refine (ih fun j hj => hread j (List.mem_cons_of_mem _ hj)).imp_right fun hand => ?_
      obtain ⟨hnone, hrest⟩ := hand
      refine ⟨hnone, fun j hj => ?_⟩
      rcases List.mem_cons.mp hj with rfl | hj
      · exact ⟨ph, hph, fun hl => phdrOk_iff_acceptable.mp (hok hl)⟩
      · exact hrest j hj

lemma checkPhdrs_ne_fail (hgood : ∀ i ∈ is, ∃ ph, readPhdr img h i = some ph ∧
    (ph.loads = true → ph.Acceptable img.length)) : checkPhdrs img h is ≠ some .fail := by
  induction is with
  | nil => simp [checkPhdrs]
  | cons i is ih =>
    obtain ⟨ph, hph, hok⟩ := hgood i List.mem_cons_self
    rw [checkPhdrs, hph]
    dsimp only
    rw [if_neg]
    · exact ih fun j hj => hgood j (List.mem_cons_of_mem _ hj)
    · rintro ⟨hl, hbad⟩
      exact hbad (phdrOk_iff_acceptable.mpr (hok hl))

/-! ## The calls of `vmm_map_user_page` -/

lemma mapPagesCalls_snd (s : Phys) (cr3 va n : Nat) :
    (mapPagesCalls s cr3 va n).2 = mapPages s cr3 va n := by
  induction n generalizing s va with
  | zero => rfl
  | succ n ih =>
    rw [mapPagesCalls, mapPages]
    dsimp only
    split
    · rfl
    · generalize vmmMapUserPage _ cr3 va _ = r
      obtain ⟨result, t⟩ := r
      cases result with
      | ok => exact ih _ _
      | _ => rfl

lemma mem_mapPagesCalls (hv : v ∈ (mapPagesCalls s cr3 va n).1) :
    ∃ i < n, v = va + i * pageSize := by
  induction n generalizing s va with
  | zero => simp [mapPagesCalls] at hv
  | succ n ih =>
    rw [mapPagesCalls] at hv
    dsimp only at hv
    split at hv
    · simp at hv
    · split at hv
      · rcases List.mem_cons.mp hv with rfl | hv
        · exact ⟨0, by omega, by simp⟩
        · obtain ⟨i, hi, rfl⟩ := ih hv
          exact ⟨i + 1, by omega, by rw [Nat.add_one_mul]; omega⟩
      · exact ⟨0, by omega, by simpa using hv⟩

def UserPage (va : Nat) : Prop :=
  va % pageSize = 0 ∧ 0x00800000 ≤ va ∧ va + pageSize ≤ 0x02000000

lemma userPage_call (hok : ph.Acceptable size)
    (hv : v ∈ (mapPagesCalls s cr3 (ph.firstPage * pageSize) (ph.endPage - ph.firstPage)).1) :
    UserPage v := by
  have hend := Phdr.endPage_eq (phdrOk_iff_acceptable.mpr hok)
  have hlo := hok.low
  have hhi := hok.high
  obtain ⟨i, hi, rfl⟩ := mem_mapPagesCalls hv
  rw [hend] at hi
  simp only [UserPage, Phdr.firstPage, pageSize] at hi ⊢
  omega

/-! ## An image that stays as it is -/

def Inside (addr size a : Nat) : Prop := addr ≤ a ∧ a < addr + size

lemma length_imageAt : (imageAt m addr size).length = size := by
  rw [imageAt, List.length_map, List.length_range]

lemma imageAt_congr (h : ∀ a, Inside addr size a → m' a = m a) :
    imageAt m' addr size = imageAt m addr size :=
  List.map_congr_left fun i hi => h _ ⟨by omega, by have := List.mem_range.mp hi; omega⟩

lemma bytesOf_imageAt {i : Nat} (hi : i < size) :
    bytesOf (imageAt m addr size) i = m (addr + i) := by
  simp [bytesOf, imageAt, List.getD_eq_getElem?_getD, hi]

lemma memcpy8_eq {dst off len : Nat} (hdst : ∀ i < len, ¬ Inside addr size (dst + i))
    (hsrc : off + len ≤ size) : memcpy8 m dst (addr + off) len =
      m.blit dst len fun i => bytesOf (imageAt m addr size) (off + i) := by
  induction len with
  | zero => exact Mem.blit_zero.symm
  | succ len ih =>
    rw [memcpy8, Mem.blit_succ, ih (fun i hi => hdst i (by omega)) (by omega)]
    rw [bytesOf_imageAt (by omega), Mem.blit_of_not_mem, Nat.add_assoc]
    by_contra hin
    obtain ⟨k, hk⟩ := Nat.exists_eq_add_of_le (show dst ≤ addr + off + len by omega)
    refine hdst k (by omega) ?_
    rw [← hk]
    exact ⟨by omega, by omega⟩

lemma copySegmentAt_eq {fuel copied : Nat} (hsize : size < 0x100000000)
    (himg : imageAt m addr size = img) (hok : ph.Acceptable size)
    (hav : CopyAvoids (Inside addr size) cr3 img ph fuel m copied) :
    ∃ m', copySegmentAt addr size cr3 ph ph.offset fuel m copied = some m' ∧
      copySegment img cr3 ph fuel m copied = some m' ∧ imageAt m' addr size = img := by
  have hlen : img.length = size := by rw [← himg, length_imageAt]
  induction fuel generalizing m copied with
  | zero => exact ⟨m, rfl, rfl, himg⟩
  | succ fuel ih =>
    rw [copySegmentAt, copySegment]
    split
    case isFalse => exact ⟨m, rfl, rfl, himg⟩
    case isTrue hlt =>
      obtain ⟨hdst, hav⟩ := hav hlt
      have hend := hok.data_inside (by omega)
      have hmod : (ph.offset + copied) % 0x100000000 = ph.offset + copied :=
        Nat.mod_eq_of_lt (by omega)
      have hin : inImage img (ph.offset + copied)
          (min (pageSize - (ph.vaddr + copied) % pageSize) (ph.filesz - copied)) = true :=
        decide_eq_true (by omega)
      dsimp only at hdst hav ⊢
      rw [hmod, if_pos (by omega), if_pos hin, memcpy8_eq hdst (by omega), himg]
      refine ih ?_ hav
      rw [← himg]
      refine imageAt_congr fun a ha => Mem.blit_of_not_mem ?_
      by_contra hin
      obtain ⟨k, rfl⟩ := Nat.exists_eq_add_of_le (Nat.not_lt.mp fun hlt => hin (.inl hlt))
      exact hdst k (by omega) ha

lemma phdrAt_eq {i : Nat} (hsize : size < 0x100000000) (hok : h.Acceptable size)
    (hi : i < h.phnum) : phdrAt m addr size h i = readPhdr (imageAt m addr size) h i := by
  obtain ⟨-, hend⟩ := hok.table (by omega)
  have hstride := Nat.mul_le_mul_right h.phentsize hi.le
  have hmod : (h.phoff + i * h.phentsize) % 0x100000000 = h.phoff + i * h.phentsize :=
    Nat.mod_eq_of_lt (by omega)
  rw [phdrAt, readPhdr, readPhdr]
  dsimp only
  rw [hmod, Nat.zero_mul, Nat.add_zero]

section Unspilled

variable (hsize : size < 0x100000000) (himg : imageAt s.mem addr size = img)

include hsize himg

lemma loadSegmentAt_eq {i : Nat} (hh : h.Acceptable size) (hi : i < h.phnum)
    (hph : readPhdr img h i = some ph) (hok : ph.Acceptable size)
    (hav : SegmentAvoids (Inside addr size) cr3 img s ph) :
    (loadSegmentAt s cr3 addr size h i ph).2 = loadSegment s cr3 img ph ∧
      (loadSegment s cr3 img ph).1 ≠ some .fault ∧
      ((loadSegment s cr3 img ph).1 = none →
        imageAt (loadSegment s cr3 img ph).2.mem addr size = img) ∧
      ∀ v ∈ (loadSegmentAt s cr3 addr size h i ph).1, UserPage v := by
  have hcalls : ∀ v ∈ (mapPagesCalls s cr3 (ph.firstPage * pageSize)
      (ph.endPage - ph.firstPage)).1, UserPage v := fun _ => userPage_call hok
  obtain ⟨hkept, hcopy⟩ := hav
  rw [loadSegmentAt, loadSegment]
  rw [← mapPagesCalls_snd] at hkept hcopy ⊢
  rcases hmap : mapPagesCalls s cr3 (ph.firstPage * pageSize) (ph.endPage - ph.firstPage) with
    ⟨calls, _ | _, t⟩
  all_goals rw [hmap] at hcalls hkept hcopy
  · exact ⟨rfl, by simp, by simp, hcalls⟩
  · have himg' : imageAt t.mem addr size = img := (imageAt_congr hkept).trans himg
    obtain ⟨m', hat, hlist, hm'⟩ := copySegmentAt_eq hsize himg' hok (hcopy rfl)
    dsimp only at hat hlist ⊢
    rw [phdrAt_eq hsize hh hi, himg', hph]
    dsimp only
    rw [hat, hlist]
    exact ⟨rfl, by simp, fun _ => hm', hcalls⟩

lemma loadPhdrsAt_eq {fuel i n : Nat} (hh : readEhdr img = some h) (hok : h.Acceptable size)
    (hgood : ∀ i < h.phnum, ∃ ph, readPhdr img h i = some ph ∧
      (ph.loads = true → ph.Acceptable size))
    (hav : LoadAvoids (Inside addr size) cr3 img h s (List.range' i n)) (hn : i + n = h.phnum)
    (hfuel : n < fuel) :
    (loadPhdrsAt cr3 addr size fuel s i).2 = loadPhdrs cr3 img h s (List.range' i n) ∧
      (loadPhdrs cr3 img h s (List.range' i n)).1 ≠ some .fault ∧
      ((loadPhdrs cr3 img h s (List.range' i n)).1 = none →
        imageAt (loadPhdrs cr3 img h s (List.range' i n)).2.mem addr size = img) ∧
      ∀ v ∈ (loadPhdrsAt cr3 addr size fuel s i).1, UserPage v := by
  induction fuel generalizing s i n with
  | zero => exact absurd hfuel (Nat.not_lt_zero _)
  | succ fuel ih =>
    rw [loadPhdrsAt, himg, hh]
    dsimp only
    cases n with
    | zero =>
      rw [if_neg (by omega)]
      exact ⟨rfl, by simp [loadPhdrs], fun _ => himg, by simp⟩
    | succ n =>
      obtain ⟨ph, hph, hload⟩ := hgood i (by omega)
      have hstep := hav ph hph
      rw [List.range'_succ, if_pos (by omega), phdrAt_eq hsize hok (by omega), himg, loadPhdrs, hph]
      dsimp only
      split
      case isFalse hl =>
        rw [if_neg hl] at hstep
        exact ih himg hstep (by omega) (by omega)
      case isTrue hl =>
        rw [if_pos hl] at hstep
        obtain ⟨hseg, hrest⟩ := hstep
        obtain ⟨heq, hfault, hkept, hcalls⟩ :=
          loadSegmentAt_eq hsize himg hok (by omega) hph (hload hl) hseg
        rw [← heq] at hfault hkept hrest ⊢
        rcases hrun : loadSegmentAt s cr3 addr size h i ph with ⟨calls, _ | r, t⟩
        · rw [hrun] at hkept hcalls hrest
          obtain ⟨heq', hfault', hkept', hcalls'⟩ :=
            ih (hkept rfl) (hrest t rfl) (by omega) (by omega)
          refine ⟨heq', hfault', hkept', fun v hv => ?_⟩
          rcases List.mem_append.mp hv with hv | hv
          · exact hcalls v hv
          · exact hcalls' v hv
        · rw [hrun] at hfault hcalls
          exact ⟨rfl, hfault, by simp, hcalls⟩

end Unspilled

/-! ## The first pass -/

lemma acceptable_of (hh : readEhdr img = some h) (hok : h.Acceptable img.length)
    (hgood : ∀ i < h.phnum, ∃ ph, readPhdr img h i = some ph ∧
      (ph.loads = true → ph.Acceptable img.length)) : Acceptable img := by
  refine ⟨h, hh, hok, fun i hi => ?_⟩
  obtain ⟨ph, hph, hl⟩ := hgood i hi
  exact ⟨ph, hph, fun htype hpos => hl (Phdr.loads_iff.mpr ⟨htype, hpos.ne'⟩)⟩

lemma firstPass (img : List UInt8) :
    ¬ Acceptable img ∧ (img.length < ehdrSize ∨ ehdrSize ≤ img.length ∧ ∃ h, readEhdr img = some h ∧
        (ehdrOk img.length h = false ∨ ehdrOk img.length h = true ∧
          checkPhdrs img h (List.range h.phnum) = some .fail)) ∨
      ehdrSize ≤ img.length ∧ ∃ h, readEhdr img = some h ∧ h.Acceptable img.length ∧
        checkPhdrs img h (List.range h.phnum) = none ∧
        ∀ i < h.phnum, ∃ ph, readPhdr img h i = some ph ∧
          (ph.loads = true → ph.Acceptable img.length) := by
  by_cases hsize : img.length < ehdrSize
  · refine .inl ⟨?_, .inl hsize⟩
    rintro ⟨h, hh, -⟩
    rw [readEhdr, if_neg (by simpa [inImage] using hsize)] at hh
    simp at hh
  obtain ⟨h, hh⟩ := readEhdr_some (not_lt.mp hsize)
  have hsame : ∀ {h'}, readEhdr img = some h' → h' = h := fun hh' =>
    Option.some.inj (hh'.symm.trans hh)
  by_cases hok : ehdrOk img.length h = true
  case neg =>
    refine .inl ⟨?_, .inr ⟨not_lt.mp hsize, h, hh, .inl (by simpa using hok)⟩⟩
    rintro ⟨h', hh', hacc, -⟩
    exact hok (ehdrOk_iff.mpr (hsame hh' ▸ hacc))
  have hread : ∀ i ∈ List.range h.phnum, ∃ ph, readPhdr img h i = some ph := fun i hi =>
    readPhdr_some (ehdrOk_iff.mp hok) (List.mem_range.mp hi)
  rcases checkPhdrs_cases hread with hfail | ⟨hnone, hgood⟩
  · refine .inl ⟨?_, .inr ⟨not_lt.mp hsize, h, hh, .inr ⟨hok, hfail⟩⟩⟩
    rintro ⟨h', hh', -, hall⟩
    obtain rfl := hsame hh'
    refine absurd hfail (checkPhdrs_ne_fail fun i hi => ?_)
    obtain ⟨ph, hph, hacc⟩ := hall i (List.mem_range.mp hi)
    refine ⟨ph, hph, fun hl => hacc (Phdr.loads_iff.mp hl).1 ?_⟩
    exact Nat.pos_of_ne_zero (Phdr.loads_iff.mp hl).2
  · exact .inr ⟨not_lt.mp hsize, h, hh, ehdrOk_iff.mp hok, hnone, fun i hi =>
      hgood i (List.mem_range.mpr hi)⟩

lemma elfLoadAt_refused (hbad : ¬ Acceptable (imageAt s.mem addr size)) :
    elfLoadAt s cr3 addr size = ([], .fail, s) := by
  rw [elfLoadAt]
  split
  · rfl
  case isFalse hlen =>
  rcases firstPass (imageAt s.mem addr size) with ⟨-, hcase⟩ | ⟨-, h, hh, hok, -, hgood⟩
  · rw [length_imageAt] at hcase
    rcases hcase with hshort | ⟨-, h, hh, hcase⟩
    · exact absurd (.inr hshort) hlen
    · rw [hh]
      dsimp only
      rcases hcase with hbad | ⟨hok, hfail⟩
      · rw [if_neg (by simp [hbad])]
      · rw [if_pos hok, hfail]
  · exact absurd (acceptable_of hh hok hgood) hbad

/-! ## The whole load -/

/-- Nothing that the load of the image writes, if it is not refused, goes to the image. -/
def Unspilled (s : Phys) (cr3 addr size : Nat) : Prop :=
  Acceptable (imageAt s.mem addr size) → ∀ h, readEhdr (imageAt s.mem addr size) = some h →
    LoadAvoids (Inside addr size) cr3 (imageAt s.mem addr size) h s (List.range h.phnum)

lemma elfLoadAt_eq (haddr : addr ≠ 0) (hsize : size < 0x100000000)
    (hun : Unspilled s cr3 addr size) :
    (elfLoadAt s cr3 addr size).2 = elfLoad s cr3 (imageAt s.mem addr size) ∧
      (elfLoadAt s cr3 addr size).2.1 ≠ .fault ∧
      ∀ va ∈ (elfLoadAt s cr3 addr size).1, UserPage va := by
  obtain ⟨img, himg⟩ : ∃ img, imageAt s.mem addr size = img := ⟨_, rfl⟩
  have hlen : img.length = size := by rw [← himg, length_imageAt]
  rw [Unspilled, himg] at hun
  rcases firstPass img with ⟨hbad, hcase⟩ | ⟨hlong, h, hh, hok, hnone, hgood⟩
  · rw [elfLoadAt_refused (himg ▸ hbad), himg, elfLoad]
    refine ⟨?_, by simp, by simp⟩
    rcases hcase with hshort | ⟨hlong, h, hh, hcase⟩
    · rw [if_pos hshort]
    · rw [if_neg (by omega), hh]
      dsimp only
      rcases hcase with hbad | ⟨hok, hfail⟩
      · rw [if_neg (by simp [hbad])]
      · rw [if_pos hok, hfail]
  · have hav := hun (acceptable_of hh hok hgood) h hh
    have hphnum : h.phnum < 0x10000 := by
      have := hok.count
      omega
    rw [hlen] at hok hgood hlong
    rw [List.range_eq_range'] at hav hnone
    obtain ⟨heq, hfault, hkept, hcalls⟩ :=
      loadPhdrsAt_eq hsize himg hh hok hgood hav (Nat.zero_add _) hphnum
    rw [elfLoadAt, elfLoad, himg, hlen, if_neg (by omega), if_neg (by omega), hh]
    dsimp only
    simp only [ehdrOk_iff.mpr hok, ↓reduceIte]
    rw [List.range_eq_range', hnone]
    dsimp only
    rw [← heq] at hfault hkept ⊢
    rcases hrun : loadPhdrsAt cr3 addr size 0x10000 s 0 with ⟨calls, _ | r, t⟩
    · rw [hrun] at hkept hcalls
      dsimp only at hkept ⊢
      rw [hkept rfl, hh]
      exact ⟨rfl, by simp, hcalls⟩
    · rw [hrun] at hfault hcalls
      exact ⟨rfl, by simpa using hfault, hcalls⟩

lemma userPage_of_segment (hok : ph.Acceptable size) {k : Nat} (hlo : ph.firstPage ≤ k)
    (hhi : k < ph.endPage) : UserPage (k * pageSize) := by
  rw [Phdr.endPage_eq (phdrOk_iff_acceptable.mpr hok)] at hhi
  have hlow := hok.low
  have hhigh := hok.high
  simp only [UserPage, Phdr.firstPage, pageSize] at hlo hhi ⊢
  omega

/-- The image is in frames that are in use, and not in that of the directory. -/
def ImageApart (s : Phys) (cr3 addr size : Nat) : Prop :=
  ∀ a, Inside addr size a → s.pmm.bitmap (a / pageSize) = true ∧ a / pageSize ≠ cr3 / pageSize

/-- Where the file data starts on page boundaries, nothing spills, and the pages of the directory
are those that were mapped. -/
lemma elfLoadAt_aligned (haddr : addr ≠ 0) (hsize : size < 0x100000000) (hman : Managed s.pmm)
    (hd : NewDir s cr3) (hap : ImageApart s cr3 addr size)
    (hal : ∀ ph ∈ copied s cr3 (imageAt s.mem addr size), ph.Aligned) :
    Unspilled s cr3 addr size ∧ ∀ k f, 2048 ≤ k → k < 0x100000 →
      walk (elfLoadAt s cr3 addr size).2.2.mem cr3 k = some f → UserPage (k * pageSize) := by
  obtain ⟨hsp, hmk⟩ := hd.space
  have hapart : ApartFrom (Inside addr size) s
      (Function.update (fun _ => none) (cr3 / pageSize) (some (.dir cr3))) := fun a ha =>
    ⟨(hap a ha).1, Function.update_of_ne (hap a ha).2 _ _⟩
  have hnone : ∀ k, 2048 ≤ k → k < 0x100000 → walk s.mem cr3 k = none := fun k hlo hhi =>
    if_neg fun hp => hd.empty _ (by omega) (by omega) hp.1
  rcases firstPass (imageAt s.mem addr size) with ⟨hbad, -⟩ | ⟨hlong, h, hh, hok, hchecked, hgood⟩
  · refine ⟨fun hacc => absurd hacc hbad, fun k f hlo hhi hw => ?_⟩
    rw [elfLoadAt_refused hbad, hnone k hlo hhi] at hw
    simp at hw
  rw [copied, hh] at hal
  dsimp only at hal
  rw [if_pos ⟨ehdrOk_iff.mpr hok, hchecked⟩] at hal
  obtain ⟨r, t, own', hload, -, -, -, -, hmaps, havoid, -⟩ := loadPhdrs_spec hsp hmk hman
    (fun i hi => (hgood i (List.mem_range.mp hi)).imp fun ph hph =>
      ⟨hph.1, fun hl => phdrOk_iff_acceptable.mpr (hph.2 hl)⟩) hal
  have hun : Unspilled s cr3 addr size := by
    rintro - h' hh'
    obtain rfl := Option.some.inj (hh.symm.trans hh')
    exact havoid _ hapart
  refine ⟨hun, fun k f hlo hhi hw => ?_⟩
  have hstate : (elfLoad s cr3 (imageAt s.mem addr size)).2 = t := by
    rw [elfLoad, if_neg (by omega), hh]
    dsimp only
    rw [if_pos (ehdrOk_iff.mpr hok), hchecked, hload]
    cases r <;> rfl
  rw [(elfLoadAt_eq haddr hsize hun).1, hstate] at hw
  obtain hold | ⟨ph, hph, hfirst, hend⟩ := hmaps k hlo hhi (by simp [hw])
  · exact absurd (hnone k hlo hhi) hold
  · obtain ⟨hmem, hl⟩ := List.mem_filter.mp hph
    obtain ⟨i, hi, hread⟩ := List.mem_filterMap.mp hmem
    obtain ⟨ph', hread', hok'⟩ := hgood i (List.mem_range.mp hi)
    rw [hread'] at hread
    cases hread
    exact userPage_of_segment (hok' hl) hfirst hend

/-- **The loader does not trust the file.**  An image that is not acceptable is refused with -1,
with nothing changed.  As long as nothing spills on the image, no byte outside it is read, and every
page for which `vmm_map_user_page` is called lies in `[0x00800000, 0x02000000)`.  If the file data
starts on page boundaries, nothing spills, and these are all the user pages that a new directory has
afterwards. -/
theorem elfLoadAt_checked (s : Phys) (cr3 : Nat) (haddr : addr ≠ 0) (hsize : size < 0x100000000) :
    (¬ Acceptable (imageAt s.mem addr size) → elfLoadAt s cr3 addr size = ([], .fail, s)) ∧
      (Unspilled s cr3 addr size → (elfLoadAt s cr3 addr size).2.1 ≠ .fault ∧
        ∀ va ∈ (elfLoadAt s cr3 addr size).1, UserPage va) ∧
      (Managed s.pmm → NewDir s cr3 → ImageApart s cr3 addr size →
        (∀ ph ∈ copied s cr3 (imageAt s.mem addr size), ph.Aligned) →
        Unspilled s cr3 addr size ∧ ∀ k f, 2048 ≤ k → k < 0x100000 →
          UserMapped (elfLoadAt s cr3 addr size).2.2.mem cr3 k f → UserPage (k * pageSize)) := by
  refine ⟨elfLoadAt_refused, fun hun => (elfLoadAt_eq haddr hsize hun).2, fun hman hd hap hal => ?_⟩
  obtain ⟨hun, hmaps⟩ := elfLoadAt_aligned haddr hsize hman hd hap hal
  exact ⟨hun, fun k f hlo hhi hm => hmaps k f hlo hhi hm.1⟩

def withImage (img : List UInt8) : Phys :=
  { freshMachine with mem := freshMachine.mem.blit 0x300000 img.length (bytesOf img) }

lemma withImage_newDir (hsize : img.length ≤ 0x100000) : NewDir (withImage img) 0x400000 := by
  refine ⟨by decide, freshMachine_newDir.used, fun di hlo hhi => ?_⟩
  have hpde : pde (withImage img).mem 0x400000 di = pde freshMachine.mem 0x400000 di :=
    Mem.load32_blit_of_disjoint (.inr (by omega))
  rw [hpde]
  exact freshMachine_newDir.empty di hlo hhi

/-- The file with two segments: loaded, with its two pages where they belong. -/
theorem elfLoadAt_checked_alignedFile :
    (elfLoadAt (withImage alignedFile) 0x400000 0x300000 122).1 = [0x800000, 0x801000] ∧
      (elfLoadAt (withImage alignedFile) 0x400000 0x300000 122).2.1 = .ok 0x800000 ∧
      ¬ ∃ f, UserMapped (elfLoadAt (withImage alignedFile) 0x400000 0x300000 122).2.2.mem
        0x400000 0x27F9 f := by
  refine ⟨by decide +kernel, by decide +kernel, ?_⟩
  rintro ⟨f, hf⟩
  have hap : ImageApart (withImage alignedFile) 0x400000 0x300000 122 := by
    rintro a ⟨hlo, hhi⟩
    have hdiv : a / pageSize = 768 := by
      simp only [pageSize]
      omega
    rw [hdiv]
    decide
  obtain ⟨-, -, hpages⟩ := elfLoadAt_checked (withImage alignedFile) 0x400000
    (by decide : 0x300000 ≠ 0) (by decide : 122 < 0x100000000)
  obtain ⟨-, hmaps⟩ := hpages freshMachine_managed (withImage_newDir (by decide)) hap
    (by decide +kernel)
  exact absurd (hmaps 0x27F9 f (by decide) (by decide) hf).2.2 (by decide)

/-! ## A file that gets out -/

/-- One segment at `0xBF8FF0`.  Its first 16 bytes spill into the frame after the first page, which
is the page table, and make the second page the directory itself. -/
def spillingFile : List UInt8 :=
  execHeader 1 ++ loadHeader ⟨1, 84, 0xBF8FF0, 56, 56⟩ ++
    leBytes 4 0 ++ leBytes 4 0x400007 ++ leBytes 8 0 ++ List.replicate 36 0 ++ leBytes 4 0x402007

/-- **Mapping in the right place does not confine the program.**  The file passes every check, both
pages are mapped in the documented range, and after the load the new directory has a user page above
it, which is the directory. -/
theorem spillingFile_escapes : Managed (withImage spillingFile).pmm ∧
    NewDir (withImage spillingFile) 0x400000 ∧
    imageAt (withImage spillingFile).mem 0x300000 140 = spillingFile ∧
    (elfLoadAt (withImage spillingFile) 0x400000 0x300000 140).1 = [0xBF8000, 0xBF9000] ∧
    (elfLoadAt (withImage spillingFile) 0x400000 0x300000 140).2.1 = .ok 0x800000 ∧
    UserMapped (elfLoadAt (withImage spillingFile) 0x400000 0x300000 140).2.2.mem
      0x400000 0x27F9 0x400 ∧ ¬ UserPage (0x27F9 * pageSize) := by
  refine ⟨freshMachine_managed, withImage_newDir (by decide +kernel), by decide +kernel,
    by decide +kernel, by decide +kernel, ?_, fun hpage => absurd hpage.2.2 (by decide)⟩
  rw [UserMapped]
  decide +kernel

end NullOS.Memory
