import NullOS.Fat16.Calls

/-!
# Entries and their chains

Every live entry has a chain of its own, except for `.` and `..`.  This is the well-formedness of a
volume told by its entries, where `Sound` tells it by directories and files.
-/

namespace NullOS.Fat16

open Lib

variable {g : Geo} {v v' : Vol} {d : Nat} {x : Slot} {cs : List Nat} {o : Owner}

def DotSlot (g : Geo) (d : Nat) (x : Slot) : Prop :=
  d ≠ 0 ∧ x.1 = clusterSector g d 0 ∧ x.2 < 2

/-- The directories that entries lead to, other than `.` and `..`. -/
inductive LiveDir (g : Geo) (v : Vol) : Nat → Prop
  | root : LiveDir g v 0
  | sub {d : Nat} {x : Slot} : LiveDir g v d → SlotOf g v d x → ¬ DotSlot g d x →
      (entryAt v.disk x).Live → (entryAt v.disk x).Directory →
      LiveDir g v (entryAt v.disk x).first

structure Entry (g : Geo) (v : Vol) (x : Slot) : Prop where
  place : ∃ d, LiveDir g v d ∧ SlotOf g v d x ∧ ¬ DotSlot g d x
  live : (entryAt v.disk x).Live

/-- The clusters of an entry: at least one for a directory, maybe none for a file. -/
def Dirent.Chained (g : Geo) (fat : Nat → Nat) (e : Dirent) (cs : List Nat) : Prop :=
  if e.Directory then Chain g fat e.first cs else FileChain g fat e.first cs

/-- Every entry has a chain of its own, and `.` and `..` lead to directories. -/
structure Owned (g : Geo) (v : Vol) : Prop where
  ready : v.ready = true
  fits : g.Fits
  chain : ∀ x, Entry g v x → ∃ cs, (entryAt v.disk x).Chained g v.fat cs
  apart : ∀ x y cs cs', Entry g v x → Entry g v y → (entryAt v.disk x).Chained g v.fat cs →
    (entryAt v.disk y).Chained g v.fat cs' → x ≠ y → ∀ c ∈ cs, c ∉ cs'
  dots : ∀ d x, LiveDir g v d → DotSlot g d x → (entryAt v.disk x).Live ∧
    (entryAt v.disk x).Directory ∧ LiveDir g v (entryAt v.disk x).first

namespace Owned

lemma liveDir (h : Owned g v) (hd : IsDir g v d) : LiveDir g v d := by
  induction hd with
  | root => exact .root
  | @sub d x _ hslot hl hdir ih =>
    by_cases hdot : DotSlot g d x
    · exact (h.dots d x ih hdot).2.2
    · exact .sub ih hslot hdot hl hdir

lemma entry_of_owns (h : Owned g v) (ho : Owns g v o cs) : cs = [] ∨ ∃ x, Entry g v x ∧
    (entryAt v.disk x).Chained g v.fat cs ∧
      o = if (entryAt v.disk x).Directory then .dir (entryAt v.disk x).first else .file x := by
  cases o with
  | dir d =>
    obtain ⟨hd, hwalk⟩ := ho
    cases h.liveDir hd with
    | root => exact .inl (hwalk.unique (.inl (by decide) : Walk _ Stop 0 []))
    | @sub p x hp hslot hdot hl hdir =>
      have hx : Entry g v x := ⟨⟨p, hp, hslot, hdot⟩, hl⟩
      obtain ⟨cs', hcs⟩ := h.chain x hx
      have hchain := hcs
      rw [Dirent.Chained, if_pos hdir] at hchain
      obtain rfl := hwalk.unique (hchain.walk_stop h.fits)
      exact .inr ⟨x, hx, hcs, (if_pos hdir).symm⟩
  | file x =>
    obtain ⟨⟨⟨d, hd, hslot⟩, hl, hdir⟩, hwalk⟩ := ho
    have hlive := h.liveDir hd
    have hx : Entry g v x := ⟨⟨d, hlive, hslot, fun hdot => hdir (h.dots d x hlive hdot).2.1⟩, hl⟩
    obtain ⟨cs', hcs⟩ := h.chain x hx
    have hchain := hcs
    rw [Dirent.Chained, if_neg hdir] at hchain
    rcases hchain with ⟨rfl, hfirst⟩ | hchain
    · rw [hfirst] at hwalk
      exact .inl (hwalk.unique (.inl (by decide) : Walk _ Stop 0 []))
    · obtain rfl := hwalk.unique (hchain.walk_stop h.fits)
      exact .inr ⟨x, hx, hcs, (if_neg hdir).symm⟩

/-- **A volume whose entries have chains of their own is sound.** -/
lemma sound (h : Owned g v) : Sound g v := by
  refine ⟨h.ready, h.fits, fun d hd h0 => ?_, ?_, ?_⟩
  · cases h.liveDir hd with
    | root => exact absurd rfl h0
    | @sub p x hp hslot hdot hl hdir =>
      obtain ⟨cs, hcs⟩ := h.chain x ⟨⟨p, hp, hslot, hdot⟩, hl⟩
      rw [Dirent.Chained, if_pos hdir] at hcs
      exact ⟨cs, hcs⟩
  · rintro x ⟨⟨d, hd, hslot⟩, hl, hdir⟩
    have hlive := h.liveDir hd
    obtain ⟨cs, hcs⟩ := h.chain x
      ⟨⟨d, hlive, hslot, fun hdot => hdir (h.dots d x hlive hdot).2.1⟩, hl⟩
    rw [Dirent.Chained, if_neg hdir] at hcs
    exact ⟨cs, hcs⟩
  · intro o o' cs cs' ho ho' hne c hc hc'
    rcases h.entry_of_owns ho with rfl | ⟨x, hx, hcs, rfl⟩
    · exact absurd hc List.not_mem_nil
    rcases h.entry_of_owns ho' with rfl | ⟨y, hy, hcs', rfl⟩
    · exact absurd hc' List.not_mem_nil
    refine h.apart x y cs cs' hx hy hcs hcs' ?_ c hc hc'
    rintro rfl
    exact hne rfl

end Owned

lemma LiveDir.isDir (h : LiveDir g v d) : IsDir g v d := by
  induction h with
  | root => exact .root
  | sub _ hslot _ hl hdir ih => exact .sub ih hslot hl hdir

lemma DotSlot.slotOf (h : Owned g v) (hd : LiveDir g v d) (hx : DotSlot g d x) :
    SlotOf g v d x := by
  obtain ⟨h0, hlba, hi⟩ := hx
  obtain ⟨cs, hcs⟩ := h.sound.dirs d hd.isDir h0
  refine ⟨cs, hcs.walk_stop h.fits, mem_slotsOf.mpr ⟨?_, by omega⟩⟩
  rw [dirSectors, if_neg h0, hlba]
  exact List.mem_flatMap.mpr ⟨d, hcs.head_mem, firstSector_mem g d⟩

/-! ## Changes outside of the directories -/

section Congr

variable (hfat : v'.fat = v.fat)
  (hentry : ∀ d x, IsDir g v d → SlotOf g v d x → entryAt v'.disk x = entryAt v.disk x)

include hfat hentry

lemma liveDir_congr : LiveDir g v' d ↔ LiveDir g v d := by
  have hslots : ∀ d x, SlotOf g v' d x ↔ SlotOf g v d x := by
    intro d x
    rw [SlotOf, hfat, SlotOf]
  constructor
  · intro h
    induction h with
    | root => exact .root
    | @sub d x _ hslot hdot hl hdir ih =>
      rw [hslots] at hslot
      rw [hentry d x ih.isDir hslot] at hl hdir ⊢
      exact .sub ih hslot hdot hl hdir
  · intro h
    induction h with
    | root => exact .root
    | @sub d x hd hslot hdot hl hdir ih =>
      rw [← hentry d x hd.isDir hslot] at hl hdir ⊢
      exact .sub ih ((hslots d x).mpr hslot) hdot hl hdir

lemma entry_congr (h : Entry g v' x) : Entry g v x ∧ entryAt v'.disk x = entryAt v.disk x := by
  obtain ⟨d, hd, hslot, hdot⟩ := h.place
  rw [liveDir_congr hfat hentry] at hd
  rw [SlotOf, hfat] at hslot
  have hsame := hentry d x hd.isDir hslot
  have hl := h.live
  rw [hsame] at hl
  exact ⟨⟨⟨d, hd, hslot, hdot⟩, hl⟩, hsame⟩

end Congr

lemma Owned.congr (h : Owned g v) (hready : v'.ready = v.ready) (hfat : v'.fat = v.fat)
    (hentry : ∀ d x, IsDir g v d → SlotOf g v d x → entryAt v'.disk x = entryAt v.disk x) :
    Owned g v' := by
  refine ⟨hready.trans h.ready, h.fits, fun x hx => ?_, fun x y cs cs' hx hy => ?_,
    fun d x hd hdot => ?_⟩
  · obtain ⟨hx, hsame⟩ := entry_congr hfat hentry hx
    rw [hsame, hfat]
    exact h.chain x hx
  · obtain ⟨hx, hsame⟩ := entry_congr hfat hentry hx
    obtain ⟨hy, hsame'⟩ := entry_congr hfat hentry hy
    rw [hsame, hsame', hfat]
    exact h.apart x y cs cs' hx hy
  · rw [liveDir_congr hfat hentry] at hd
    rw [hentry d x hd.isDir (hdot.slotOf h hd), liveDir_congr hfat hentry]
    exact h.dots d x hd hdot

lemma blankVol_owned (hg : g.Fits) : Owned g blankVol := by
  refine ⟨rfl, hg, fun x hx => absurd hx.live blankVol_not_live,
    fun x _ _ _ hx => absurd hx.live blankVol_not_live, fun d x hd hdot => ?_⟩
  cases hd with
  | root => exact absurd rfl hdot.1
  | sub _ _ _ hl => exact absurd hl blankVol_not_live

end NullOS.Fat16
