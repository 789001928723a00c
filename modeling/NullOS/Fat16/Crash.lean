import NullOS.Fat16.OneFile
import Mathlib.Data.List.Chain
import Mathlib.Data.List.Iterate

/-!
# What a crash leaves

`fat16_write_at` writes the data, then the FAT, then the entry.  Whatever block operations fail,
and wherever the power is lost, a file read back from the disk alone, with the entry and the first
copy of the FAT that are there, is the old file with some of the new bytes in it.
-/

namespace NullOS.Fat16

open Lib

variable {g : Geo} {v v' : Vol} {lay : Layout} {disk disk' : Nat → Mem} {fat fat' : Nat → Nat}
  {s t : St} {n P c c' k pos first size w : Nat} {x y : Slot} {name buf : List UInt8}
  {cs : List Nat}

/-! ## Reading from the disk alone -/

def diskFat (g : Geo) (disk : Nat → Mem) (c : Nat) : Nat :=
  (disk (g.fatStartLba + c / 256)).load16 (2 * (c % 256))

instance : DecidablePred g.Cluster := fun _ => inferInstanceAs (Decidable (_ ∧ _))

/-- The clusters that a file of this size has, as the disk has them. -/
def diskChain (g : Geo) (disk : Nat → Mem) (first size : Nat) : List Nat :=
  List.iterate (diskFat g disk) first (g.clustersFor size)

/-- The content of the file with its entry in slot `x`, as the disk has it; `none` if the chain
does not cover the recorded size. -/
def diskFile (g : Geo) (disk : Nat → Mem) (x : Slot) : Option (List UInt8) :=
  if ∀ c ∈ diskChain g disk (entryAt disk x).first (entryAt disk x).size, g.Cluster c then
    some (contentOf g disk (diskChain g disk (entryAt disk x).first (entryAt disk x).size)
      (entryAt disk x).size)
  else none

lemma load16_fatSector (fat : Nat → Nat) (k r : Nat) :
    (fatSector fat k).load16 (2 * r) = fat (256 * k + r) % 0x10000 := by
  have hlow : (2 * r) / 2 = r ∧ (2 * r) % 2 = 0 := by omega
  have hhigh : (2 * r + 1) / 2 = r ∧ (2 * r + 1) % 2 = 1 := by omega
  rw [Mem.load16, fatSector, hlow.1, hlow.2, fatSector, hhigh.1, hhigh.2, Mem.byteOf, Mem.byteOf,
    UInt8.toNat_ofNat', UInt8.toNat_ofNat']
  omega

lemma diskFat_of_sector
    (h : ∀ b < 512, disk (g.fatStartLba + c / 256) b = fatSector fat (c / 256) b) :
    diskFat g disk c = fat c % 0x10000 := by
  have hload := load16_fatSector fat (c / 256) (c % 256)
  rw [Nat.div_add_mod] at hload
  rw [diskFat, ← hload]
  exact Mem.load16_congr fun i hi => h _ (by omega)

lemma Copies.diskFat (h : Copies g v) (hfats : 0 < g.numFats) (hc : c < g.fatEntries) :
    diskFat g v.disk c = v.fat c % 0x10000 := by
  refine diskFat_of_sector fun b hb => ?_
  have hk : c / 256 < g.fatSizeSectors := Nat.div_lt_of_lt_mul hc
  have hcopy := h 0 hfats (c / 256) hk b hb
  rwa [Nat.zero_mul, Nat.add_zero] at hcopy

lemma Mixed.diskFat (h : Mixed g v v') (hcopies : Copies g v) (hfats : 0 < g.numFats)
    (hc : c < g.fatEntries) :
    diskFat g v'.disk c = v.fat c % 0x10000 ∨ diskFat g v'.disk c = v'.fat c % 0x10000 := by
  have hk : c / 256 < g.fatSizeSectors := Nat.div_lt_of_lt_mul hc
  have hlt := fatLba_lt (g := g) hfats hk
  rw [Nat.zero_mul, Nat.add_zero] at hlt
  rcases h _ hlt with hsame | ⟨f, -, k, hk', hlba, hsector⟩
  · refine .inl ?_
    rw [← hcopies.diskFat hfats hc, Fat16.diskFat, hsame, Fat16.diskFat]
  · refine .inr (diskFat_of_sector fun b _ => ?_)
    have hf : f = 0 := by
      by_contra hf
      have hmul := Nat.mul_le_mul_right g.fatSizeSectors (Nat.one_le_iff_ne_zero.mpr hf)
      omega
    subst hf
    rw [hsector]
    congr 1
    omega

def Links (next : Nat → Nat) (cs : List Nat) : Prop := cs.IsChain fun c c' => next c = c'

lemma Links.iterate {first : Nat} (h : Links fat cs) (hfirst : ∀ c, cs.head? = some c → c = first)
    (hk : k ≤ cs.length) : List.iterate fat first k = cs.take k := by
  induction k generalizing cs first with
  | zero => rfl
  | succ k ih =>
    cases cs with
    | nil => simp at hk
    | cons c cs =>
      obtain rfl := hfirst c rfl
      have hhead : ∀ b, cs.head? = some b → b = fat c := by
        intro b hb
        cases cs with
        | nil => simp at hb
        | cons b' cs =>
          obtain rfl := Option.some.inj hb
          exact (List.isChain_cons_cons.mp h).1.symm
      have htail : Links fat cs := List.IsChain.tail h
      rw [List.iterate, List.take_succ_cons, ih htail hhead (Nat.le_of_succ_le_succ hk)]

lemma links_of_walk {stop : Nat → Prop} (h : Walk fat stop first cs) : Links fat cs := by
  induction cs generalizing first with
  | nil => exact .nil
  | cons c cs ih =>
    obtain ⟨rfl, -, hrest⟩ := h
    cases cs with
    | nil => exact .singleton _
    | cons b cs => exact .cons_cons hrest.1 (ih hrest)

lemma FileChain.links (h : FileChain g fat first cs) : Links fat cs := by
  rcases h with ⟨rfl, -⟩ | hch
  · exact .nil
  · exact links_of_walk hch.walk

lemma FileChain.head (h : FileChain g fat first cs) (hc : cs.head? = some c) : c = first := by
  rcases h with ⟨rfl, -⟩ | hch
  · simp at hc
  · obtain ⟨rest, rfl⟩ := hch.head_eq
    exact (Option.some.inj hc).symm

lemma Links.on_disk (hg : g.Fits) (hcs : ∀ c ∈ cs, g.Cluster c) (h : Links fat cs)
    (h' : Links fat' cs) (hdisk : ∀ c ∈ cs, diskFat g disk c = fat c % 0x10000 ∨
      diskFat g disk c = fat' c % 0x10000) : Links (diskFat g disk) cs := by
  induction cs with
  | nil => exact .nil
  | cons c cs ih =>
    cases cs with
    | nil => exact .singleton _
    | cons b cs =>
      obtain ⟨hcb, htail⟩ := List.isChain_cons_cons.mp h
      obtain ⟨hcb', htail'⟩ := List.isChain_cons_cons.mp h'
      have hb : b % 0x10000 = b :=
        Nat.mod_eq_of_lt (hg.lt (hcs b (List.mem_cons_of_mem _ List.mem_cons_self)))
      refine .cons_cons ?_ (ih (fun c hc => hcs c (List.mem_cons_of_mem _ hc)) htail htail'
        fun c hc => hdisk c (List.mem_cons_of_mem _ hc))
      rcases hdisk c List.mem_cons_self with heq | heq
      · rw [heq, hcb, hb]
      · rw [heq, hcb', hb]

lemma diskFile_eq (hlinks : Links (diskFat g disk) cs) (hcs : ∀ c ∈ cs, g.Cluster c)
    (hfirst : ∀ c, cs.head? = some c → c = (entryAt disk x).first)
    (hsize : (entryAt disk x).size ≤ cs.length * g.bytesPerCluster) :
    diskFile g disk x = some (contentOf g disk cs (entryAt disk x).size) := by
  have hk := clustersFor_le_iff.mpr hsize
  have hchain : diskChain g disk (entryAt disk x).first (entryAt disk x).size =
      cs.take (g.clustersFor (entryAt disk x).size) := hlinks.iterate hfirst hk
  rw [diskFile, hchain, if_pos fun c hc => hcs c (List.mem_of_mem_take hc)]
  refine congrArg some (contentOf_congr fun i hi => ?_)
  refine (fileByte_of_isPrefix (List.take_prefix _ _) ?_).symm
  rw [List.length_take, Nat.min_eq_left hk]
  exact Nat.lt_of_lt_of_le hi (clustersFor_le_iff.mp (Nat.le_refl _))

lemma diskFile_of_mixed (hg : g.Fits) (hfats : 0 < g.numFats) (hcopies : Copies g v)
    (hmixed : Mixed g v v') (hchain : FileChain g v.fat (entryAt v'.disk x).first cs)
    (hlinks : Links v'.fat cs)
    (hsize : (entryAt v'.disk x).size ≤ cs.length * g.bytesPerCluster) :
    diskFile g v'.disk x = some (contentOf g v'.disk cs (entryAt v'.disk x).size) := by
  have hcs : ∀ c ∈ cs, g.Cluster c := fun c hc => FileChain.cluster (v := v) hchain hc
  refine diskFile_eq (hchain.links.on_disk hg hcs hlinks fun c hc => ?_) hcs
    (fun c hc => hchain.head hc) hsize
  exact hmixed.diskFat hcopies hfats (Nat.lt_of_lt_of_le (hcs c hc).2 hg.entries)

lemma diskFile_of_copies (hg : g.Fits) (hfats : 0 < g.numFats) (hcopies : Copies g v)
    (hchain : FileChain g v.fat (entryAt v.disk x).first cs)
    (hsize : (entryAt v.disk x).size ≤ cs.length * g.bytesPerCluster) :
    diskFile g v.disk x = some (contentOf g v.disk cs (entryAt v.disk x).size) :=
  diskFile_of_mixed hg hfats hcopies (fun _ _ => .inl rfl) hchain hchain.links hsize

lemma HasContent.diskFile {C : List UInt8} (h : HasContent g v x C) (hg : g.Fits)
    (hfats : 0 < g.numFats) (hcopies : Copies g v) : diskFile g v.disk x = some C := by
  obtain ⟨cs, hchain, hsize, rfl⟩ := h
  exact diskFile_of_copies hg hfats hcopies hchain hsize

/-! ## The file that is written -/

/-- What may be read back after `fat16_write_at` was called for a file with the content `C`. -/
structure Survived (pos : Nat) (buf C C' : List UInt8) : Prop where
  length : C.length ≤ C'.length
  kept : ∀ i < C.length, i < pos ∨ pos + buf.length ≤ i → C'[i]? = C[i]?
  grown : C.length < C'.length → ∃ w ≤ buf.length, C'.length = pos + w ∧
    ∀ i < w, C'[pos + i]? = buf[i]?

lemma Survived.refl (pos : Nat) (buf C : List UInt8) : Survived pos buf C C :=
  ⟨Nat.le_refl _, fun _ _ _ => rfl, fun h => absurd h (Nat.lt_irrefl _)⟩

lemma Links.of_append {cs' : List Nat} (h : Links fat (cs ++ cs')) : Links fat cs :=
  List.IsChain.left_of_append h

lemma Payload.survived (hp : Payload g lay x v pos buf cs w disk)
    (hold : lay.chain (.file x) <+: cs) (hw : w ≤ buf.length)
    (hsize : size ≤ (lay.chain (.file x)).length * g.bytesPerCluster) {size' : Nat}
    (hsize' : size' = size ∨ size' = max size (pos + w)) :
    Survived pos buf (contentOf g v.disk (lay.chain (.file x)) size)
      (contentOf g disk cs size') := by
  refine ⟨?_, fun i hi hout => ?_, fun hlt => ⟨w, hw, ?_, fun i hi => ?_⟩⟩
  · rw [length_contentOf, length_contentOf]
    omega
  · rw [length_contentOf] at hi
    rw [getElem?_contentOf (by omega), getElem?_contentOf hi,
      fileByte_of_isPrefix hold (by omega), hp.kept i (by omega) (by omega)]
  · rw [length_contentOf, length_contentOf] at hlt
    rw [length_contentOf]
    omega
  · rw [length_contentOf, length_contentOf] at hlt
    rw [getElem?_contentOf (by omega), hp.new i hi, List.getD_eq_getElem?_getD,
      List.getElem?_eq_getElem (by omega), Option.getD_some]

lemma WroteAt.left {r : Option WriteOut} (hv : Valid g s.vol lay)
    (hchain : FileChain g s.vol.fat (entryAt s.vol.disk x).first (lay.chain (.file x)))
    (h : WroteAt g lay x pos buf s r t) : ∃ first cs w, w ≤ buf.length ∧
      lay.chain (.file x) <+: cs ∧ Payload g lay x s.vol pos buf cs w t.vol.disk ∧
        (Draft g lay x first cs s.vol t.vol ∧ Mixed g s.vol t.vol ∨
          pos + w ≤ cs.length * g.bytesPerCluster ∧
          Rewritten g lay x first (max (entryAt s.vol.disk x).size (pos + w)) cs s.vol t.vol ∧
          (Copies g s.vol → Copies g t.vol)) := by
  cases h with
  | full _ hfail _ =>
    refine ⟨_, _, 0, Nat.zero_le _, hfail.old, .start fun c hc lba hlba => hfail.data lba ?_,
      .inl ⟨hfail.draft, hfail.mixed⟩⟩
    exact Nat.le_trans (rootStartLba_le g) (dataStartLba_le hv.fits (hchain.cluster hc) hlba)
  | stopped _ _ hw hold hpay hdraft hmixed =>
    exact ⟨_, _, _, hw, hold, hpay, .inl ⟨hdraft, hmixed⟩⟩
  | done _ hw _ _ hold hreach _ hpay hre hcop =>
    exact ⟨_, _, _, hw, hold, hpay, .inr ⟨hreach, hre, hcop⟩⟩

section Left

variable {r : Option WriteOut} {C : List UInt8} (hv : Valid g s.vol lay) (hfats : 0 < g.numFats)
  (hcopies : Copies g s.vol) (hleft : WriteAtLeft g lay P name pos buf s r t)

include hv hfats hcopies hleft

lemma WriteAtLeft.survived (hP : lay.isDir P) (hx : Found g lay P name s.vol x)
    (hC : HasContent g s.vol x C) :
    ∃ C', diskFile g t.vol.disk x = some C' ∧ Survived pos buf C C' := by
  rcases hleft with ⟨hvol, -⟩ | ⟨x', hx', -, hwrote⟩
  · rw [hvol]
    exact ⟨C, hC.diskFile hv.fits hfats hcopies, .refl _ _ _⟩
  obtain rfl : x = x' := Option.some.inj (hx.lookup.symm.trans hx'.lookup)
  obtain ⟨hsize, rfl⟩ := hC.layout hv (hx.chain hv hP)
  obtain ⟨first, cs, w, hw, hold, hpay, hcase⟩ := hwrote.left hv (hx.chain hv hP)
  rcases hcase with ⟨hdraft, hmixed⟩ | ⟨hreach, hre, hcop⟩
  · -- the entry is the old one
    have hentry := hdraft.slot_eq hv hx.mem
    have hlinks := hdraft.chain.links
    have hsurvived := hpay.survived hold hw hsize (.inl rfl)
    rw [contentOf_congr fun i hi => fileByte_of_isPrefix hold (by omega)] at hsurvived
    refine ⟨_, ?_, hsurvived⟩
    obtain ⟨rest, rfl⟩ := hold
    rw [← hentry] at hsize ⊢
    refine diskFile_of_mixed hv.fits hfats hcopies hmixed ?_ hlinks.of_append hsize
    rw [hentry]
    exact hx.chain hv hP
  · -- the FAT and the entry are on the disk
    have hentry := hre.entry
    have hlen := hold.length_le
    have hmul := Nat.mul_le_mul_right g.bytesPerCluster hlen
    refine ⟨contentOf g t.vol.disk cs (max (entryAt s.vol.disk x).size (pos + w)), ?_,
      hpay.survived hold hw hsize (.inr rfl)⟩
    have hfile : diskFile g t.vol.disk x = some (contentOf g t.vol.disk cs
      (entryAt t.vol.disk x).size) := by
      refine diskFile_of_copies hv.fits hfats (hcop hcopies) ?_ ?_
      · rw [hentry]
        exact hre.chain
      · rw [hentry]
        dsimp only
        omega
    rw [hfile, hentry]

lemma WriteAtLeft.other (hP : lay.isDir P) (hx : Found g lay P name s.vol x) (hy : IsFile g s.vol y)
    (hne : y ≠ x) (hC : HasContent g s.vol y C) : diskFile g t.vol.disk y = some C := by
  rcases hleft with ⟨hvol, -⟩ | ⟨x', hx', -, hwrote⟩
  · rw [hvol]
    exact hC.diskFile hv.fits hfats hcopies
  obtain rfl : x = x' := Option.some.inj (hx.lookup.symm.trans hx'.lookup)
  obtain ⟨d, hd, hslot, hchain⟩ := hy.place hv
  obtain ⟨hsize, rfl⟩ := hC.layout hv hchain
  have hne' : Owner.file y ≠ .file x := fun h => hne (Owner.file.inj h)
  obtain ⟨first, cs, w, -, -, -, hcase⟩ := hwrote.left hv (hx.chain hv hP)
  rcases hcase with ⟨hdraft, hmixed⟩ | ⟨-, hre, hcop⟩
  · have hentry := hdraft.slot_eq hv hslot
    have hdata : contentOf g t.vol.disk (lay.chain (.file y)) (entryAt s.vol.disk y).size =
        contentOf g s.vol.disk (lay.chain (.file y)) (entryAt s.vol.disk y).size :=
      contentOf_congr fun i hi => fileByte_congr (by omega) fun c hc lba hlba =>
        hdraft.disk_eq hv hne' hc hlba
    rw [← hdata]
    rw [← hentry] at hsize hchain ⊢
    exact diskFile_of_mixed hv.fits hfats hcopies hmixed hchain
      (hchain.congr fun c hc => hdraft.fat _ hne' c hc).links hsize
  · have hentry := hre.other y hne d hslot
    have hdata : contentOf g t.vol.disk (lay.chain (.file y)) (entryAt s.vol.disk y).size =
        contentOf g s.vol.disk (lay.chain (.file y)) (entryAt s.vol.disk y).size := by
      refine contentOf_congr fun i hi => fileByte_congr (by omega) fun c hc lba hlba =>
        hre.disk _ hne' c hc lba hlba ?_
      rintro rfl
      exact (Draft.start hv hchain).not_mem_of_sector hv (mem_slotsOf.mp hx.mem).1 hc hlba
    rw [← hdata]
    rw [← hentry] at hsize hchain ⊢
    exact diskFile_of_copies hv.fits hfats (hcop hcopies)
      (hchain.congr fun c hc => hre.fat _ hne' c hc) hsize

end Left

/-! ## Failures and power loss -/

/-- The block operations that have an effect: those that succeed before the power is lost. -/
def effective (io : Nat → Bool) : Option Nat → Nat → Bool
  | none => io
  | some m => fun k => decide (k < m) && io k

/-- **A crash of `fat16_write_at`.**  Whatever block operations fail and wherever the power is
lost, the file is read back from the disk as `Survived` says, and every other file as it was. -/
theorem writeAt_crash {C : List UInt8} (h : Sound g v) (hfats : 0 < g.numFats)
    (hcopies : Copies g v) (hn : Enough g n) (hP : IsDir g v P) (hx : Finds g n v P name x)
    (hdir : ¬ (entryAt v.disk x).Directory) (hC : HasContent g v x C) (pos : Nat) (buf : List UInt8)
    (io : Nat → Bool) (loss : Option Nat) :
    ∃ r t, fat16WriteAt g n P name pos buf (v.startOn (effective io loss)) = .ok r t ∧
      (∃ C', diskFile g t.vol.disk x = some C' ∧ Survived pos buf C C') ∧
      ∀ y Cy, IsFile g v y → y ≠ x → HasContent g v y Cy → diskFile g t.vol.disk y = some Cy := by
  have hv := h.valid
  have hfound := hx.found hv hP hn hdir
  have hends : Ends (fat16WriteAt g n P name pos buf) (v.startOn (effective io loss)) _ :=
    fat16WriteAt_left hv hP hn
  obtain ⟨r, t, hrun, -, hleft⟩ := hends
  exact ⟨r, t, hrun, hleft.survived hv hfats hcopies hP hfound hC,
    fun y Cy hy hne hCy => hleft.other hv hfats hcopies hP hfound hy hne hCy⟩

/-- Three bytes are written to an empty file, and the power is lost before the third block
operation. -/
theorem writeAt_crash_empty : ∃ r t C',
    fat16WriteAt smallGeo 0x10002 0 (ascii "a") 0 (ascii "xyz")
      ((oneFile 4 (to83 (ascii "a"))).startOn (effective working (some 2))) = .ok r t ∧
    diskFile smallGeo t.vol.disk (4, 0) = some C' ∧ Survived 0 (ascii "xyz") [] C' := by
  have hname : (to83 (ascii "a")).length = 11 := by decide
  obtain ⟨r, t, hrun, ⟨C', hfile, hsurvived⟩, -⟩ := writeAt_crash
    (oneFile_sound smallGeo_fits hname) (by decide)
    (oneFile_copies (Nat.le_refl 4)) smallGeo_enough .root oneFile_finds
    (oneFile_not_directory hname) (oneFile_hasContent hname) 0 (ascii "xyz") working (some 2)
  exact ⟨r, t, C', hrun, hfile, hsurvived⟩

end NullOS.Fat16
