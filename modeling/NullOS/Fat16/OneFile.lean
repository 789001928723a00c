import NullOS.Fat16.Calls

/-!
# A call that changes one file

What is said about a file that a call reads or writes: where its entry is found, what its content
is, and that every other file and every directory is as it was.
-/

namespace NullOS.Fat16

open Lib

variable {g : Geo} {v v' : Vol} {lay : Layout} {disk disk' : Nat → Mem} {fat : Nat → Nat}
  {n P c k first size : Nat} {x y : Slot} {name : List UInt8} {cs : List Nat} {l : List Slot}

/-! ## The content of a file -/

lemma FileChain.unique {cs' : List Nat} (hg : g.Fits) (h : FileChain g fat first cs)
    (h' : FileChain g fat first cs') : cs = cs' := by
  rcases h with ⟨rfl, h0⟩ | h
  · rcases h' with ⟨rfl, -⟩ | h'
    · rfl
    · exact absurd h0 h'.start_ne_zero
  · rcases h' with ⟨rfl, h0⟩ | h'
    · exact absurd h0 h.start_ne_zero
    · exact (h.walk_stop hg).unique (h'.walk_stop hg)

lemma HasContent.layout {C : List UInt8} (h : HasContent g v x C) (hv : Valid g v lay)
    (hchain : FileChain g v.fat (entryAt v.disk x).first (lay.chain (.file x))) :
    (entryAt v.disk x).size ≤ (lay.chain (.file x)).length * g.bytesPerCluster ∧
      C = contentOf g v.disk (lay.chain (.file x)) (entryAt v.disk x).size := by
  obtain ⟨cs, hcs, hsize, rfl⟩ := h
  obtain rfl := hcs.unique hv.fits hchain
  exact ⟨hsize, rfl⟩

lemma HasContent.unique {C C' : List UInt8} (h : HasContent g v x C) (h' : HasContent g v x C')
    (hg : g.Fits) : C = C' := by
  obtain ⟨cs, hcs, -, rfl⟩ := h
  obtain ⟨cs', hcs', -, rfl⟩ := h'
  rw [hcs.unique hg hcs']

lemma IsFile.place (hv : Valid g v lay) (h : IsFile g v y) :
    ∃ d, lay.isDir d ∧ y ∈ lay.slots g d ∧
      FileChain g v.fat (entryAt v.disk y).first (lay.chain (.file y)) := by
  obtain ⟨⟨d, hd, hslot⟩, hl, hdir⟩ := h
  have hd' := hv.walkable.isDir hd
  have hy := (hv.walkable.slots_iff hd').mp hslot
  exact ⟨d, hd', hy, hv.file d hd' y hy hl hdir⟩

/-! ## Looking up a file -/

def Finds (g : Geo) (n : Nat) (v : Vol) (P : Nat) (name : List UInt8) (x : Slot) : Prop :=
  ∃ hit u, dirLookup g n P (to83 name) v.start = .ok (.found hit) u ∧ (hit.lba, hit.index) = x

lemma Finds.found (h : Finds g n v P name x) (hv : Valid g v lay) (hP : lay.isDir P)
    (hn : Enough g n) (hdir : ¬ (entryAt v.disk x).Directory) : Found g lay P (to83 name) v x := by
  obtain ⟨hit, u, hrun, rfl⟩ := h
  have hspec : Ends (dirLookup g n P (to83 name)) v.start _ := dirLookup_spec hv.walkable hP hn
  obtain ⟨-, hlook⟩ := hspec.result hrun
  exact ⟨(hlook.found hit rfl).1, hdir⟩

lemma Finds.unique (h : Finds g n v P name x) (h' : Finds g n v P name y) : x = y := by
  obtain ⟨hit, u, hrun, rfl⟩ := h
  obtain ⟨hit', u', hrun', rfl⟩ := h'
  obtain rfl := Search.found.inj (EStateM.Result.ok.inj (hrun.symm.trans hrun')).1
  rfl

lemma Found.isFile (h : Sound g v) (hP : IsDir g v P) (hx : Found g h.layout P name v x) :
    IsFile g v x :=
  ⟨⟨P, hP, (h.valid.walkable.slots_iff hP).mpr hx.mem⟩, hx.live, hx.not_directory⟩

lemma finds_of_lookup (hv : Valid g v lay) (hP : lay.isDir P) (hn : Enough g n)
    (hx : lookupSlot v.disk (to83 name) (lay.slots g P) = some x) :
    ∃ hit u, dirLookup g n P (to83 name) v.start = .ok (.found hit) u ∧
      (hit.lba, hit.index) = x ∧ hit.entry = entryAt v.disk x := by
  have hspec : Ends (dirLookup g n P (to83 name)) v.start _ := dirLookup_spec hv.walkable hP hn
  obtain ⟨r, u, hrun, -, hlook⟩ := hspec
  cases r with
  | missing => exact nomatch (hlook.missing rfl).symm.trans hx
  | ioError => exact absurd rfl (hlook.ioError rfl)
  | found hit =>
    obtain ⟨hslot, hentry, -⟩ := hlook.found hit rfl
    obtain rfl := Option.some.inj (hslot.symm.trans hx)
    exact ⟨hit, u, hrun, rfl, hentry⟩

def foundAt : EStateM.Result Fault St (Search Hit) → Option Slot
  | .ok (.found hit) _ => some (hit.lba, hit.index)
  | _ => none

lemma finds_of_foundAt (h : foundAt (dirLookup g n P (to83 name) v.start) = some x) :
    Finds g n v P name x := by
  generalize hrun : dirLookup g n P (to83 name) v.start = r at h
  cases r with
  | error => exact absurd h nofun
  | ok a u =>
    cases a with
    | found hit => exact ⟨hit, u, hrun, Option.some.inj h⟩
    | missing => exact absurd h nofun
    | ioError => exact absurd h nofun

lemma oneFile_finds : Finds smallGeo 0x10002 (oneFile 4 (to83 (ascii "a"))) 0 (ascii "a") (4, 0) :=
  finds_of_foundAt (by decide +kernel)

lemma oneFile_hasContent (hname : name.length = 11) :
    HasContent smallGeo (oneFile 4 name) (4, 0) [] := by
  rw [HasContent, oneFile_entry hname]
  exact ⟨[], .inl ⟨rfl, rfl⟩, Nat.le_refl _, rfl⟩

lemma hasContent_single (hg : g.Fits) (hc : g.Cluster c)
    (hfirst : (entryAt v.disk x).first = c) (hsize : (entryAt v.disk x).size = size)
    (hend : v.fat c = 0xFFFF) (hle : size ≤ g.bytesPerCluster) :
    HasContent g v x (contentOf g v.disk [c] size) := by
  have hnot : ¬ EndMark c := fun h => not_stop_of_cluster hg hc (.inr h)
  have hwalk : Walk v.fat EndMark c [c] := ⟨rfl, hnot, show 0xFFF8 ≤ v.fat c by omega⟩
  refine ⟨[c], ?_, ?_, ?_⟩
  · rw [hfirst]
    refine .inr ⟨List.cons_ne_nil _ _, hwalk, fun b hb => ?_⟩
    rwa [List.mem_singleton.mp hb]
  · rwa [hsize, List.length_singleton, Nat.one_mul]
  · rw [hsize]

lemma oneCluster_not_directory {lba : Nat} (hname : name.length = 11) (hlt : size < 0x100000000) :
    ¬ (entryAt (oneCluster lba name size).disk (lba, 0)).Directory := by
  rw [oneCluster_entry hname hlt]
  exact (newFile_not_directory : ¬ (newFile name).Directory)

lemma oneCluster_hasContent {lba : Nat} (hg : g.Fits) (hc : g.Cluster 2) (hname : name.length = 11)
    (hlt : size < 0x100000000) (hle : size ≤ g.bytesPerCluster) :
    HasContent g (oneCluster lba name size) (lba, 0)
      (contentOf g (oneCluster lba name size).disk [2] size) := by
  have hentry : entryAt (oneCluster lba name size).disk (lba, 0) = _ := oneCluster_entry hname hlt
  exact hasContent_single hg hc (congrArg Dirent.first hentry) (congrArg Dirent.size hentry) rfl hle

def someBytes : Vol := oneCluster 4 (to83 (ascii "a")) 500

lemma someBytes_sound : Sound smallGeo someBytes :=
  oneCluster_sound smallGeo_fits ⟨by decide, by decide⟩ (by decide) (by decide)

lemma someBytes_finds : Finds smallGeo 0x10002 someBytes 0 (ascii "a") (4, 0) :=
  finds_of_foundAt (by decide +kernel)

lemma someBytes_not_directory : ¬ (entryAt someBytes.disk (4, 0)).Directory :=
  oneCluster_not_directory (by decide) (by decide)

lemma someBytes_entry : entryAt someBytes.disk (4, 0) =
    { newFile (to83 (ascii "a")) with first := 2, size := 500 } :=
  oneCluster_entry (by decide) (by decide)

lemma someBytes_chain :
    FileChain smallGeo someBytes.fat (entryAt someBytes.disk (4, 0)).first [2] := by
  rw [someBytes_entry]
  exact .inr (oneCluster_chain ⟨by decide, by decide⟩)

lemma someBytes_hasContent :
    HasContent smallGeo someBytes (4, 0) (contentOf smallGeo someBytes.disk [2] 500) :=
  oneCluster_hasContent smallGeo_fits ⟨by decide, by decide⟩ (by decide) (by decide) (by decide)

lemma someBytes_free : 2 ≤ smallGeo.free someBytes.fat := by decide +kernel

/-- The file in slot `x` is found under the name, and has the content `C`. -/
structure FileAt (g : Geo) (lay : Layout) (P : Nat) (name : List UInt8) (v : Vol) (x : Slot)
    (C : List UInt8) : Prop where
  valid : Valid g v lay
  dir : lay.isDir P
  found : Found g lay P name v x
  covers : (entryAt v.disk x).size ≤ (lay.chain (.file x)).length * g.bytesPerCluster
  content : C = contentOf g v.disk (lay.chain (.file x)) (entryAt v.disk x).size

namespace FileAt

variable {C : List UInt8} (h : FileAt g lay P name v x C)

include h

lemma chain : FileChain g v.fat (entryAt v.disk x).first (lay.chain (.file x)) :=
  h.found.chain h.valid h.dir

lemma hasContent : HasContent g v x C := ⟨_, h.chain, h.covers, h.content⟩

lemma length : C.length = (entryAt v.disk x).size := by
  rw [h.content, length_contentOf]

end FileAt

lemma Sound.fileAt {C : List UInt8} (h : Sound g v) (hn : Enough g n) (hP : IsDir g v P)
    (hx : Finds g n v P name x) (hdir : ¬ (entryAt v.disk x).Directory) (hC : HasContent g v x C) :
    FileAt g h.layout P (to83 name) v x C := by
  have hfound := hx.found h.valid hP hn hdir
  obtain ⟨hcovers, hcontent⟩ := hC.layout h.valid (hfound.chain h.valid hP)
  exact ⟨h.valid, hP, hfound, hcovers, hcontent⟩

/-! ## Everything else -/

/-- The directories with their entries and the files are as they were, except for the file with
its entry in slot `x`. -/
structure SameElse (g : Geo) (v : Vol) (x : Slot) (v' : Vol) : Prop where
  dirs : ∀ d, IsDir g v' d ↔ IsDir g v d
  slots : ∀ d, IsDir g v d → ∀ y, SlotOf g v' d y ↔ SlotOf g v d y
  entries : ∀ d, IsDir g v d → ∀ y, SlotOf g v d y → y ≠ x → entryAt v'.disk y = entryAt v.disk y
  files : ∀ y C, IsFile g v y → y ≠ x → HasContent g v y C → HasContent g v' y C

lemma SameElse.refl (g : Geo) (v : Vol) (x : Slot) : SameElse g v x v :=
  ⟨fun _ => .rfl, fun _ _ _ => .rfl, fun _ _ _ _ _ => rfl, fun _ _ _ _ h => h⟩

lemma SameElse.isFile {v' : Vol} {y : Slot} (h : SameElse g v x v') (hne : y ≠ x)
    (hy : IsFile g v y) : IsFile g v' y := by
  obtain ⟨⟨d, hd, hslot⟩, hl, hdir⟩ := hy
  have hentry := h.entries d hd y hslot hne
  rw [← hentry] at hl hdir
  exact ⟨⟨d, (h.dirs d).mpr hd, (h.slots d hd y).mpr hslot⟩, hl, hdir⟩

lemma SameElse.trans {v' v'' : Vol} (h : SameElse g v x v') (h' : SameElse g v' x v'') :
    SameElse g v x v'' := by
  refine ⟨fun d => (h'.dirs d).trans (h.dirs d), fun d hd y => ?_, fun d hd y hy hne => ?_,
    fun y C hy hne hC => h'.files y C (h.isFile hne hy) hne (h.files y C hy hne hC)⟩
  · exact (h'.slots d ((h.dirs d).mpr hd) y).trans (h.slots d hd y)
  · exact (h'.entries d ((h.dirs d).mpr hd) y ((h.slots d hd y).mpr hy) hne).trans
      (h.entries d hd y hy hne)

lemma lookupSlot_of_same
    (h : ∀ y ∈ l, ∃ f z, entryAt disk' y = { entryAt disk y with first := f, size := z }) :
    lookupSlot disk' name l = lookupSlot disk name l := by
  induction l with
  | nil => rfl
  | cons y l ih =>
    obtain ⟨f, z, hy⟩ := h y List.mem_cons_self
    rw [lookupSlot, lookupSlot, ih fun y hy => h y (List.mem_cons_of_mem _ hy), hy]
    rfl

namespace Rewritten

variable (hv : Valid g v lay) (h : Rewritten g lay x first size cs v v')

include h

lemma slot_iff (hv : Valid g v lay) {d : Nat} (hd : lay.isDir d) :
    SlotOf g v' d y ↔ SlotOf g v d y := by
  rw [(h.valid hv).walkable.slots_iff hd, hv.walkable.slots_iff hd, Layout.setFile_slots]

lemma found (hx : Found g lay P name v x) : Found g (lay.setFile x cs) P name v' x := by
  refine ⟨?_, ?_⟩
  · rw [Layout.setFile_slots, lookupSlot_of_same fun y hy => h.same hy]
    exact hx.lookup
  · rw [h.directory_iff hx.mem]
    exact hx.not_directory

include hv

lemma isDir_iff (hlay : lay.isDir = IsDir g v) (d : Nat) : IsDir g v' d ↔ IsDir g v d := by
  constructor
  · intro hd
    have hd' := (h.valid hv).walkable.isDir hd
    rwa [Layout.setFile_isDir, hlay] at hd'
  · intro hd
    induction hd with
    | root => exact .root
    | @sub d y hd hy hl hdir ih =>
      have hd' : lay.isDir d := by rwa [hlay]
      have hmem := (hv.walkable.slots_iff hd').mp hy
      have hsame := h.other_of_directory hmem hdir
      rw [← hsame] at hl hdir ⊢
      exact .sub ih ((h.slot_iff hv hd').mpr hy) hl hdir

/-- **Only the one file has changed.** -/
lemma sameElse (hlay : lay.isDir = IsDir g v) (hx : Found g lay P name v x) :
    SameElse g v x v' := by
  refine ⟨h.isDir_iff hv hlay, fun d hd y => h.slot_iff hv (by rwa [hlay]), fun d hd y hy hne => ?_,
    fun y C hy hne hC => ?_⟩
  · have hd' : lay.isDir d := by rwa [hlay]
    exact h.other y hne d ((hv.walkable.slots_iff hd').mp hy)
  · obtain ⟨d, hd, hslot, hchain⟩ := hy.place hv
    obtain ⟨hsize, rfl⟩ := hC.layout hv hchain
    have hne' : Owner.file y ≠ .file x := fun h => hne (Owner.file.inj h)
    refine ⟨lay.chain (.file y), ?_, ?_, ?_⟩
    · rw [h.other y hne d hslot]
      exact hchain.congr fun c hc => h.fat _ hne' c hc
    · rwa [h.other y hne d hslot]
    · rw [h.other y hne d hslot]
      refine (contentOf_congr fun i hi => fileByte_congr (by omega) fun c hc lba hlba => ?_).symm
      refine h.disk _ hne' c hc lba hlba ?_
      rintro rfl
      exact (Draft.start hv hchain).not_mem_of_sector hv (mem_slotsOf.mp hx.mem).1 hc hlba

end Rewritten

end NullOS.Fat16
