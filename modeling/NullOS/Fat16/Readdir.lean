import NullOS.Fat16.Listing
import NullOS.Fat16.OneFile

/-!
# Listing and lookup

`fat16_readdir` and `dir_lookup` go through the same slots in the same order up to the end mark:
what is listed at index `i` is the `i`-th slot that counts, and what is looked up is the first of
these slots with the name.
-/

namespace NullOS.Fat16

open Lib

variable {g : Geo} {v : Vol} {s : St} {n d idx found lba last : Nat} {L cs : List Nat}
  {disk : Nat → Mem} {it : DirIter} {name : List UInt8} {x : Slot} {l : List Slot}

/-- An entry that `fat16_readdir` does not skip. -/
def Dirent.Shown (e : Dirent) : Prop := ¬ e.Deleted ∧ ¬ e.VolumeId ∧ e.byte0 ≠ 0x2E

instance : DecidablePred Dirent.Shown := fun _ => inferInstanceAs (Decidable (_ ∧ _ ∧ _))

/-- The slots that count: those before the end mark that are not skipped. -/
def visible (disk : Nat → Mem) (l : List Slot) : List Slot :=
  (l.takeWhile fun x => ¬ (entryAt disk x).Empty).filter fun x => (entryAt disk x).Shown

lemma visible_cons : visible disk (x :: l) =
    if (entryAt disk x).Empty then []
    else if (entryAt disk x).Shown then x :: visible disk l else visible disk l := by
  rw [visible]
  split
  case isTrue h => rw [List.takeWhile_cons_of_neg (by simpa using h), List.filter_nil]
  case isFalse h =>
    rw [List.takeWhile_cons_of_pos (by simpa using h)]
    split
    case isTrue h' =>
      rw [List.filter_cons_of_pos (by simpa using h')]
      rfl
    case isFalse h' =>
      rw [List.filter_cons_of_neg (by simpa using h')]
      rfl

/-! ## Listing -/

lemma readdirIn_spec (disk : Nat → Mem) (lba : Nat) (is : List Nat) (l : List Slot)
    (hfound : found ≤ idx) :
    match readdirIn idx (disk lba) found is with
    | .stop => (visible disk ((is.map fun i => (lba, i)) ++ l))[idx - found]? = none
    | .entry i => (visible disk ((is.map fun i => (lba, i)) ++ l))[idx - found]? = some (lba, i)
    | .more found' => found' ≤ idx ∧
        (visible disk ((is.map fun i => (lba, i)) ++ l))[idx - found]? =
          (visible disk l)[idx - found']? := by
  induction is generalizing found with
  | nil => exact ⟨hfound, rfl⟩
  | cons i is ih =>
    have hentry : entryAt disk (lba, i) = dirent (disk lba) i := rfl
    rw [readdirIn, List.map_cons, List.cons_append, visible_cons, hentry]
    by_cases hempty : (dirent (disk lba) i).Empty
    · rw [if_pos hempty, if_pos hempty]
      rfl
    rw [if_neg hempty, if_neg hempty]
    by_cases hdel : (dirent (disk lba) i).Deleted
    · rw [if_pos hdel, if_neg fun h => h.1 hdel]
      exact ih hfound
    rw [if_neg hdel]
    by_cases hvol : (dirent (disk lba) i).VolumeId
    · rw [if_pos hvol, if_neg fun h => h.2.1 hvol]
      exact ih hfound
    rw [if_neg hvol]
    by_cases hdot : (dirent (disk lba) i).byte0 = 0x2E
    · rw [if_pos hdot, if_neg fun h => h.2.2 hdot]
      exact ih hfound
    have hshown : (dirent (disk lba) i).Shown := ⟨hdel, hvol, hdot⟩
    rw [if_neg hdot, if_pos hshown]
    by_cases hidx : found = idx
    · rw [if_pos hidx, hidx, Nat.sub_self]
      rfl
    · have hnext : idx - found = idx - (found + 1) + 1 := by omega
      rw [if_neg hidx, hnext, List.getElem?_cons_succ]
      exact ih (by omega)

lemma readdirLoop_spec (h : Rest g s.vol.fat it L last) (hn : L.length < n) (hio : s.io = working)
    (hfound : found ≤ idx) :
    Ends (readdirLoop g idx n it found) s fun r t => Reads s t ∧
      r = ((visible s.vol.disk (slotsOf L))[idx - found]?).map (entryAt s.vol.disk) := by
  induction n generalizing it L s found with
  | zero => exact absurd hn (by omega)
  | succ n ih =>
    rw [readdirLoop]
    refine (dirIterNextSector_spec h).seq ?_
    rintro ⟨r, it'⟩ t ⟨hreads, hnext⟩
    cases r with
    | error => exact absurd hio (hnext.error rfl)
    | done =>
      obtain ⟨rfl, -⟩ := hnext.done rfl
      exact .pure ⟨hreads, rfl⟩
    | sector lba buf =>
      obtain ⟨L', rfl, rfl, hrest, -⟩ := hnext.sector lba buf rfl
      have hin := readdirIn_spec s.vol.disk lba (List.range 16) (slotsOf L') hfound
      rw [← slotsOf_cons] at hin
      dsimp only at hrest ⊢
      generalize readdirIn idx (s.vol.disk lba) found (List.range 16) = res at hin
      cases res with
      | stop =>
        refine .pure ⟨hreads, ?_⟩
        rw [show _ = none from hin]
        rfl
      | entry i =>
        refine .pure ⟨hreads, ?_⟩
        rw [show _ = some (lba, i) from hin]
        rfl
      | more found' =>
        obtain ⟨hle, heq⟩ := hin
        rw [← hreads.vol] at hrest
        have hloop := ih hrest (by simpa using hn) (hreads.io hio) hle
        rw [hreads.vol] at hloop
        refine hloop.mono ?_
        rintro r u ⟨hreads', rfl⟩
        exact ⟨hreads.trans hreads', by rw [heq]⟩

def Dirent.info (e : Dirent) : DirInfo where
  name := direntDisplayName e
  size := e.size
  isDir := decide e.Directory

lemma fat16Readdir_spec (h : DirChain g s.vol.fat d cs) (hn : Enough g n)
    (hready : s.vol.ready = true) (hio : s.io = working) :
    Ends (fat16Readdir g n d idx) s fun r t => Reads s t ∧
      r = ((visible s.vol.disk (slotsOf (dirSectors g d cs)))[idx]?).map fun x =>
        (entryAt s.vol.disk x).info := by
  obtain ⟨last, hrest, -⟩ := h.rest_init
  refine ready_rule hready ?_
  refine (readdirLoop_spec hrest (h.length_sectors_lt hn) hio (Nat.zero_le idx)).seq ?_
  rintro _ t ⟨hreads, rfl⟩
  refine .pure ⟨hreads, ?_⟩
  rw [Nat.sub_zero, Option.map_map]
  rfl

/-! ## Lookup -/

lemma lookupSlot_eq_find (hdot : name.headD 0 ≠ 0x2E) : lookupSlot disk name l =
    (visible disk l).find? fun x => (entryAt disk x).name = name := by
  induction l with
  | nil => rfl
  | cons x l ih =>
    rw [lookupSlot, visible_cons]
    by_cases hempty : (entryAt disk x).Empty
    · rw [if_pos hempty, if_pos hempty]
      rfl
    rw [if_neg hempty, if_neg hempty, ih]
    by_cases hname : (entryAt disk x).name = name
    · have hbyte : (entryAt disk x).byte0 ≠ 0x2E := by rwa [Dirent.byte0, hname]
      by_cases hlive : (entryAt disk x).Live
      · rw [if_pos ⟨hlive, hname⟩, if_pos ⟨hlive.2.1, hlive.2.2, hbyte⟩,
          List.find?_cons_of_pos (by simpa using hname)]
      · rw [if_neg fun h => hlive h.1, if_neg fun h => hlive ⟨hempty, h.1, h.2.1⟩]
    · rw [if_neg fun h => hname h.2]
      split
      · rw [List.find?_cons_of_neg (by simpa using hname)]
      · rfl

/-- **Listing and lookup agree**, for every name that does not begin with a dot. -/
theorem readdir_lookup (h : DirChain g v.fat d cs) (hn : Enough g n) (hready : v.ready = true) :
    (∀ idx, ∃ t, fat16Readdir g n d idx v.start =
      .ok (((visible v.disk (slotsOf (dirSectors g d cs)))[idx]?).map fun x =>
        (entryAt v.disk x).info) t) ∧
    ∀ name : List UInt8, name.headD 0 ≠ 0x2E →
      ∃ r t, dirLookup g n d name v.start = .ok r t ∧
        ((∃ hit, r = .found hit) ↔
          ∃ x ∈ visible v.disk (slotsOf (dirSectors g d cs)), (entryAt v.disk x).name = name) ∧
        ∀ hit, r = .found hit → hit.entry = entryAt v.disk (hit.lba, hit.index) ∧
          (visible v.disk (slotsOf (dirSectors g d cs))).find?
            (fun x => (entryAt v.disk x).name = name) = some (hit.lba, hit.index) := by
  refine ⟨fun idx => ?_, fun name hdot => ?_⟩
  · have hends : Ends (fat16Readdir g n d idx) v.start _ :=
      fat16Readdir_spec (s := v.start) h hn hready rfl
    obtain ⟨_, t, hrun, -, rfl⟩ := hends
    exact ⟨t, hrun⟩
  · have hends : Ends (dirLookup g n d name) v.start _ := DirChain.dirLookup_spec
      (s := v.start) h hn
    obtain ⟨r, t, hrun, -, hlook⟩ := hends
    have hfind : ∀ hit, r = .found hit → hit.entry = entryAt v.disk (hit.lba, hit.index) ∧
        (visible v.disk (slotsOf (dirSectors g d cs))).find?
          (fun x => (entryAt v.disk x).name = name) = some (hit.lba, hit.index) := by
      intro hit hr
      obtain ⟨hslot, hentry, -⟩ := hlook.found hit hr
      rw [lookupSlot_eq_find hdot] at hslot
      exact ⟨hentry, hslot⟩
    refine ⟨r, t, hrun, ⟨?_, ?_⟩, hfind⟩
    · rintro ⟨hit, hr⟩
      have hslot := (hfind hit hr).2
      exact ⟨_, List.mem_of_find?_eq_some hslot, by simpa using List.find?_some hslot⟩
    · rintro ⟨x, hx, hname⟩
      cases r with
      | found hit => exact ⟨hit, rfl⟩
      | ioError => exact absurd rfl (hlook.ioError rfl)
      | missing =>
        have hnone := hlook.missing rfl
        rw [lookupSlot_eq_find hdot, List.find?_eq_none] at hnone
        exact absurd (decide_eq_true hname) (hnone x hx)

def mixedVol : Vol :=
  let entries := [newFile (to83 (ascii "a")), newFile (0xE5 :: (to83 (ascii "ab")).tail),
    newDirectory (to83 (ascii "d")) 2, newFile (to83 (ascii "f"))]
  { blankVol with
    disk := Function.update blankVol.disk 4
      (entries.zipIdx.foldl (fun m p => putDirent m p.2 p.1) zeroSector) }

/-- The deleted entry is passed over, and the directory is listed where it is found. -/
theorem readdir_lookup_mixed : ∃ t t' hit u,
    fat16Readdir smallGeo 0x10002 0 1 mixedVol.start =
      .ok (some { name := ascii "D", size := 0, isDir := true }) t ∧
    fat16Readdir smallGeo 0x10002 0 3 mixedVol.start = .ok none t' ∧
    dirLookup smallGeo 0x10002 0 (to83 (ascii "d")) mixedVol.start = .ok (.found hit) u ∧
    (hit.lba, hit.index) = (4, 2) := by
  have hvisible : visible mixedVol.disk (slotsOf (dirSectors smallGeo 0 [])) =
      [(4, 0), (4, 2), (4, 3)] := by
    decide +kernel
  have hinfo : (entryAt mixedVol.disk (4, 2)).info =
      { name := ascii "D", size := 0, isDir := true } := by
    decide +kernel
  have hname : (entryAt mixedVol.disk (4, 2)).name = to83 (ascii "d") := by decide +kernel
  have hfirst : (entryAt mixedVol.disk (4, 0)).name ≠ to83 (ascii "d") := by decide +kernel
  have hroot : DirChain smallGeo mixedVol.fat 0 [] := .inl rfl
  have hagree := readdir_lookup hroot smallGeo_enough rfl
  rw [hvisible] at hagree
  obtain ⟨hlist, hlook⟩ := hagree
  obtain ⟨t, hrun⟩ := hlist 1
  obtain ⟨t', hrun'⟩ := hlist 3
  obtain ⟨r, u, hrun₂, hfound, hat⟩ := hlook (to83 (ascii "d")) (by decide)
  obtain ⟨hit, rfl⟩ := hfound.mpr ⟨(4, 2), by simp, hname⟩
  refine ⟨t, t', hit, u, hrun.trans ?_, hrun', hrun₂, ?_⟩
  · rw [← hinfo]
    rfl
  · have hslot := (hat hit rfl).2
    rw [List.find?_cons_of_neg (by simpa using hfirst),
      List.find?_cons_of_pos (by simpa using hname)] at hslot
    exact (Option.some.inj hslot).symm

end NullOS.Fat16
