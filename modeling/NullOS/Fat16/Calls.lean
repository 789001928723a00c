import NullOS.Fat16.WriteAt
import NullOS.Lib.Text
import NullOS.Lib.Run

/-!
# Sequences of calls

The calls that change a volume, and the volumes that they lead to when all block operations succeed.
-/

namespace NullOS.Fat16

open Lib

inductive Call
  | create (dir : Nat) (path : CStr)
  | mkdir (dir : Nat) (path : CStr)
  | writeFile (dir : Nat) (name : CStr) (buf : List UInt8)
  | writeAt (dir : Nat) (name : CStr) (pos : Nat) (buf : List UInt8)

namespace Call

def dir : Call → Nat
  | create d _ => d
  | mkdir d _ => d
  | writeFile d _ _ => d
  | writeAt d _ _ _ => d

def path : Call → CStr
  | create _ path => path
  | mkdir _ path => path
  | writeFile _ name _ => name
  | writeAt _ name _ _ => name

def Creates : Call → Prop
  | create _ _ => True
  | mkdir _ _ => True
  | _ => False

def Sized : Call → Prop
  | create _ _ => True
  | mkdir _ _ => True
  | writeFile _ _ buf => buf.length < 0x100000000
  | writeAt _ _ pos buf => pos < 0x100000000 ∧ buf.length < 0x100000000

def exec (g : Geo) (n : Nat) : Call → Fs Bool
  | create d path => do
      let r ← fat16Create g n d path.bytes
      pure r.isSome
  | mkdir d path => fat16Mkdir g n d path.bytes
  | writeFile d name buf => fat16WriteFile g n d name.bytes buf
  | writeAt d name pos buf => do
      let r ← fat16WriteAt g n d name.bytes pos buf
      pure r.isSome

end Call

structure Possible (g : Geo) (v : Vol) (c : Call) : Prop where
  dir : IsDir g v c.dir
  sized : c.Sized

def callStep (g : Geo) (n : Nat) (v : Vol) (c : Call) : Option Vol :=
  match c.exec g n v.start with
  | .ok _ t => some t.vol
  | .error _ _ => none

variable {g : Geo} {n : Nat} {v v' : Vol} {c : Call} {Q : Bool → St → Prop}

lemma callStep_of_ends (h : Ends (c.exec g n) v.start Q) (hstep : callStep g n v c = some v') :
    ∃ r t, Q r t ∧ t.vol = v' := by
  obtain ⟨r, t, hexec, hq⟩ := h
  rw [callStep, hexec] at hstep
  exact ⟨r, t, hq, Option.some.inj hstep⟩

lemma callStep_ne_none (h : Ends (c.exec g n) v.start Q) : callStep g n v c ≠ none := by
  obtain ⟨r, t, hexec, -⟩ := h
  rw [callStep, hexec]
  exact Option.some_ne_none _

lemma exec_moves {lay : Layout} (hv : Valid g v lay) (hn : Enough g n) (hd : lay.isDir c.dir)
    (hc : c.Creates) : Ends (c.exec g n) v.start fun _ t =>
      ∃ lay', Moves g (FromPath g v lay c.dir c.path.bytes) (v, lay) (t.vol, lay') := by
  cases c with
  | create d path =>
    refine (fat16Create_spec (s := v.start) hv hd hn path.noNul).seq ?_
    rintro r t ⟨-, ⟨lay', hcr⟩, -⟩
    exact .pure ⟨lay', hcr.moves⟩
  | mkdir d path =>
    refine (fat16Mkdir_spec (s := v.start) hv hd hn path.noNul).mono ?_
    rintro r t ⟨-, ⟨lay', hcr⟩ | ⟨hio, -⟩⟩
    · exact ⟨lay', hcr.moves⟩
    · exact absurd rfl hio
  | writeFile => exact hc.elim
  | writeAt => exact hc.elim

lemma Sound.exec_moves (h : Sound g v) (hn : Enough g n) (hp : Possible g v c) (hc : c.Creates) :
    Ends (c.exec g n) v.start fun _ t => ∃ lay',
      Moves g (FromPath g v h.layout c.dir c.path.bytes) (v, h.layout) (t.vol, lay') :=
  Fat16.exec_moves h.valid hn hp.dir hc

/-! ## A blank volume -/

def smallGeo : Geo where
  fatStartLba := 2
  numFats := 2
  fatSizeSectors := 1
  rootSectorCount := 1
  sectorsPerCluster := 1
  totalClusters := 16
  fatStartLba_lt := by decide
  numFats_lt := by decide
  fatSizeSectors_lt := by decide
  rootSectorCount_le := by decide
  sectorsPerCluster_pos := by decide
  sectorsPerCluster_lt := by decide

lemma smallGeo_fits : smallGeo.Fits := ⟨by decide, by decide⟩

lemma smallGeo_enough : Enough smallGeo 0x10002 := by
  show 0x10000 * 1 + 1 < 0x10002
  decide

def blankVol : Vol := { ready := true, fat := fun _ => 0, disk := fun _ => zeroSector }

lemma blankVol_not_live {x : Slot} : ¬ (entryAt blankVol.disk x).Live :=
  Dirent.Empty.not_live dirent_zeroSector_empty

lemma blankVol_isDir {d : Nat} (h : IsDir g blankVol d) : d = 0 := by
  cases h with
  | root => rfl
  | sub _ _ hl _ => exact absurd hl blankVol_not_live

lemma blankVol_sound (hg : g.Fits) : Sound g blankVol := by
  have hroot : ∀ {o cs}, Owns g blankVol o cs → o = .dir 0 := by
    intro o cs ho
    cases o with
    | dir d => rw [blankVol_isDir ho.1]
    | file x => exact absurd ho.1.2.1 blankVol_not_live
  refine ⟨rfl, hg, fun d hd h0 => absurd (blankVol_isDir hd) h0,
    fun x hx => absurd hx.2.1 blankVol_not_live, fun o o' cs cs' ho ho' hne => ?_⟩
  exact absurd ((hroot ho).trans (hroot ho').symm) hne

lemma blankVol_copies : Copies g blankVol := by
  intro f _ k _ b _
  show (0 : UInt8) = .ofNat (0 / _)
  rw [Nat.zero_div]
  rfl

lemma slot_root {v : Vol} {x : Slot} (hx : SlotOf smallGeo v 0 x) : x.1 = 4 ∧ x.2 < 16 := by
  obtain ⟨cs, -, hx⟩ := hx
  obtain ⟨hlba, hi⟩ := mem_slotsOf.mp hx
  exact ⟨List.mem_singleton.mp hlba, hi⟩

/-! ## Volumes with one file -/

section OneEntry

variable {e : Dirent} {x : Slot} {v : Vol} {lba d : Nat}

/-- All directory sectors are blank, but for the first slot of sector `lba`. -/
def oneEntry (lba : Nat) (e : Dirent) : Nat → Mem :=
  Function.update blankVol.disk lba (putDirent zeroSector 0 e)

lemma oneEntry_self (he : e.Fits) : entryAt (oneEntry lba e) (lba, 0) = e := by
  rw [oneEntry, entryAt_update_self, dirent_putDirent_self he]

lemma oneEntry_eq_of_live (hl : (entryAt (oneEntry lba e) x).Live) : x = (lba, 0) := by
  by_contra hne
  have hsame : entryAt (oneEntry lba e) x = entryAt blankVol.disk x :=
    entryAt_update_of_ne hne fun j hj => dirent_putDirent_of_ne hj
  rw [hsame] at hl
  exact blankVol_not_live hl

lemma oneEntry_isDir (hv : v.disk = oneEntry lba e) (he : e.Fits) (hdir : ¬ e.Directory)
    (hd : IsDir g v d) : d = 0 := by
  induction hd with
  | root => rfl
  | sub _ _ hl hdir' _ =>
    rw [hv] at hl hdir'
    rw [oneEntry_eq_of_live hl, oneEntry_self he] at hdir'
    exact absurd hdir' hdir

end OneEntry

def nameA : CStr := ⟨ascii "a", by decide⟩

def nameD : CStr := ⟨ascii "d", by decide⟩

def oneFile (lba : Nat) (name : List UInt8) : Vol :=
  { blankVol with
    disk := Function.update blankVol.disk lba (putDirent zeroSector 0 (newFile name)) }

def oneCluster (lba : Nat) (name : List UInt8) (size : Nat) : Vol where
  ready := true
  fat := fun c => if c = 2 then 0xFFFF else 0
  disk := oneEntry lba { newFile name with first := 2, size }

section OneFile

variable {name : List UInt8} {x : Slot} {d lba size : Nat}

lemma newFile_fits (hname : name.length = 11) : (newFile name).Fits :=
  ⟨hname, Nat.zero_lt_succ _, Nat.zero_lt_succ _⟩

lemma oneFile_entry (hname : name.length = 11) :
    entryAt (oneFile lba name).disk (lba, 0) = newFile name :=
  oneEntry_self (newFile_fits hname)

lemma oneFile_eq_of_live (hl : (entryAt (oneFile lba name).disk x).Live) : x = (lba, 0) :=
  oneEntry_eq_of_live hl

lemma oneFile_not_directory (hname : name.length = 11) :
    ¬ (entryAt (oneFile lba name).disk (lba, 0)).Directory := by
  rw [oneFile_entry hname]
  exact newFile_not_directory

lemma oneFile_isDir (hname : name.length = 11) (hd : IsDir g (oneFile lba name) d) : d = 0 :=
  oneEntry_isDir rfl (newFile_fits hname) newFile_not_directory hd

lemma oneFile_sound (hg : g.Fits) (hname : name.length = 11) : Sound g (oneFile lba name) := by
  refine ⟨rfl, hg, fun d hd h0 => absurd (oneFile_isDir hname hd) h0, fun x hx => ?_,
    fun o o' cs cs' ho _ _ c hc => ?_⟩
  · rw [oneFile_eq_of_live hx.2.1, oneFile_entry hname]
    exact ⟨[], .inl ⟨rfl, rfl⟩⟩
  · -- nothing has a cluster
    have hwalk : Walk (oneFile lba name).fat Stop 0 cs := by
      cases o with
      | dir d =>
        obtain rfl := oneFile_isDir hname ho.1
        exact ho.2
      | file x =>
        have hfirst := ho.2
        rw [oneFile_eq_of_live ho.1.2.1, oneFile_entry hname] at hfirst
        exact hfirst
    obtain rfl : cs = [] := hwalk.unique (.inl (by decide) : Walk _ Stop 0 [])
    exact absurd hc List.not_mem_nil

lemma oneCluster_fits (hname : name.length = 11) (hsize : size < 0x100000000) :
    Dirent.Fits { newFile name with first := 2, size } :=
  ⟨hname, (by decide : 2 < 0x10000), hsize⟩

lemma oneCluster_entry (hname : name.length = 11) (hsize : size < 0x100000000) :
    entryAt (oneCluster lba name size).disk (lba, 0) = { newFile name with first := 2, size } :=
  oneEntry_self (oneCluster_fits hname hsize)

lemma oneCluster_chain (hc : g.Cluster 2) : Chain g (oneCluster lba name size).fat 2 [2] :=
  ⟨nofun, ⟨rfl, (by decide : ¬ 0xFFF8 ≤ 2), (by decide : 0xFFF8 ≤ 0xFFFF)⟩, by simpa using hc⟩

lemma oneCluster_sound (hg : g.Fits) (hc : g.Cluster 2) (hname : name.length = 11)
    (hsize : size < 0x100000000) : Sound g (oneCluster lba name size) := by
  have hplain : ¬ (newFile name).Directory := newFile_not_directory
  have hroot : ∀ {d}, IsDir g (oneCluster lba name size) d → d = 0 :=
    oneEntry_isDir rfl (oneCluster_fits hname hsize) hplain
  have hdir : ∀ {d cs}, Owns g (oneCluster lba name size) (.dir d) cs → d = 0 ∧ cs = [] := by
    intro d cs ho
    obtain rfl := hroot ho.1
    exact ⟨rfl, ho.2.unique (.inl (by decide) : Walk _ Stop 0 [])⟩
  have hfile : ∀ {y cs}, Owns g (oneCluster lba name size) (.file y) cs → y = (lba, 0) :=
    fun ho => oneEntry_eq_of_live ho.1.2.1
  refine ⟨rfl, hg, fun d hd h0 => absurd (hroot hd) h0, fun x hx => ?_,
    fun o o' cs cs' ho ho' hne c hc hc' => ?_⟩
  · rw [oneEntry_eq_of_live hx.2.1, oneCluster_entry hname hsize]
    exact ⟨[2], .inr (oneCluster_chain hc)⟩
  · -- one of the two is the root directory, which has no cluster
    cases o with
    | dir d => exact absurd hc (by rw [(hdir ho).2]; exact List.not_mem_nil)
    | file y =>
      cases o' with
      | dir d => exact absurd hc' (by rw [(hdir ho').2]; exact List.not_mem_nil)
      | file y' => exact hne (by rw [hfile ho, hfile ho'])

lemma oneFile_copies (hlba : g.rootStartLba ≤ lba) : Copies g (oneFile lba name) :=
  blankVol_copies.congr rfl fun b hb => by
    refine Function.update_of_ne ?_ _ _
    rintro rfl
    exact absurd hb (Nat.not_lt.mpr hlba)

end OneFile

end NullOS.Fat16
