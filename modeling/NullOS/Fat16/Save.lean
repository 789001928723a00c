import NullOS.Fat16.OneFile
import NullOS.Fat16.ReadAt

/-!
# Saving a file

`fat16_write_file` gives back the chain of the file and takes a new one.  A call on a device that
works can only fail when there are not enough clusters; the clusters of the file are then given back
already, and its entry still has them.
-/

namespace NullOS.Fat16

open Lib

variable {g : Geo} {v : Vol} {lay : Layout} {s : St} {n P : Nat} {x : Slot} {name buf : List UInt8}

/-- The value that `fat16_read_at` returns: `(int)read`, or -1. -/
def readReturn : Option (List UInt8) → Int
  | none => -1
  | some bytes => (BitVec.ofNat 32 bytes.length).toInt

lemma readReturn_some {bytes : List UInt8} (h : bytes.length < 0x80000000) :
    readReturn (some bytes) = bytes.length := by
  rw [readReturn, BitVec.toInt_eq_toNat_of_lt, BitVec.toNat_ofNat, Nat.mod_eq_of_lt (by omega)]
  rw [BitVec.toNat_ofNat, Nat.mod_eq_of_lt (by omega)]
  omega

/-- What is there after a call that has returned 0, on a device that works. -/
structure Saved (g : Geo) (n P : Nat) (name : List UInt8) (x : Slot) (buf : List UInt8)
    (v v' : Vol) : Prop where
  entry : ∃ first, entryAt v'.disk x = { entryAt v.disk x with first, size := buf.length }
  lookup : ∃ hit u, dirLookup g n P (to83 name) v'.start = .ok (.found hit) u ∧
    (hit.lba, hit.index) = x ∧ hit.entry = entryAt v'.disk x
  read : ∀ pos len, pos < buf.length → 0 < len → pos + len < 0x100000000 → ∃ u,
    fat16ReadAt g (entryAt v'.disk x).first pos len buf.length v'.start =
      .ok (some ((buf.drop pos).take (min len (buf.length - pos)))) u
  frame : SameElse g v x v'

lemma fat16WriteFile_saved (name buf : List UInt8) (h : Sound g v) (hn : Enough g n)
    (hP : IsDir g v P) (hx : Found g h.layout P (to83 name) v x) (hbuf : buf.length < 0x100000000) :
    Ends (fat16WriteFile g n P name buf) v.start fun r t =>
      (r = true → Saved g n P name x buf v t.vol) ∧
      (r = false → (h.layout.chain (.file x)).length + g.free v.fat < g.clustersFor buf.length) ∧
      (r = false → h.layout.chain (.file x) = [] → g.free v.fat = 0 → t.vol = v) := by
  refine (fat16WriteFile_left (s := v.start) h.valid hP hn hbuf).mono ?_
  rintro r t ⟨-, hleft⟩
  refine ⟨fun hr => ?_, fun hr => hleft.full rfl hr x hx, fun hr => hleft.none_free rfl hr x hx⟩
  obtain ⟨y, first, cs, hy, hre, hexact, hstored⟩ := hleft.success hr
  obtain rfl := hx.unique hy
  have hv := hre.valid h.valid
  refine ⟨⟨first, hre.entry⟩, finds_of_lookup hv hP hn (hre.found hx).lookup,
    fun pos len hpos hlen hwrap => ?_, hre.sameElse h.valid rfl hx⟩
  have hread : Ends (fat16ReadAt g first pos len buf.length) t.vol.start _ :=
    fat16ReadAt_spec (s := t.vol.start) hv.fits rfl hv.ready hre.chain
      (clustersFor_le_iff.mp hexact.ge) hpos hlen hwrap
  obtain ⟨_, u, hrun, -, rfl⟩ := hread
  rw [hre.entry]
  refine ⟨u, hrun.trans ?_⟩
  rw [← slice_eq_drop_take hstored (by omega)]
  rfl

/-- **What was saved is read back**, and a save that fits does not fail. -/
theorem writeFile_read (h : Sound g v) (hn : Enough g n) (hP : IsDir g v P)
    (hx : Finds g n v P name x) (hdir : ¬ (entryAt v.disk x).Directory)
    (hbuf : buf.length < 0x100000000) :
    ∃ r t, fat16WriteFile g n P name buf v.start = .ok r t ∧
      (r = true → ∃ hit u first, dirLookup g n P (to83 name) t.vol.start = .ok (.found hit) u ∧
        (hit.lba, hit.index) = x ∧
        hit.entry = { entryAt v.disk x with first, size := buf.length } ∧
        (∀ pos len, pos < buf.length → 0 < len → pos + len < 0x100000000 → ∃ out u',
          fat16ReadAt g first pos len buf.length t.vol.start = .ok (some out) u' ∧
          out = (buf.drop pos).take (min len (buf.length - pos)) ∧
          (min len (buf.length - pos) < 0x80000000 →
            readReturn (some out) = (min len (buf.length - pos) : Nat))) ∧
        SameElse g v x t.vol) ∧
      ∀ cs, FileChain g v.fat (entryAt v.disk x).first cs →
        g.clustersFor buf.length ≤ g.free v.fat + cs.length → r = true := by
  have hfound := hx.found h.valid hP hn hdir
  have hends := fat16WriteFile_saved name buf h hn hP hfound hbuf
  obtain ⟨r, t, hrun, hsaved, hfull, -⟩ := hends
  refine ⟨r, t, hrun, fun hr => ?_, fun cs hcs hfits => ?_⟩
  · obtain ⟨⟨first, hentry⟩, ⟨hit, u, hlook, hat, hhit⟩, hread, hframe⟩ := hsaved hr
    rw [hentry] at hread hhit
    refine ⟨hit, u, first, hlook, hat, hhit, fun pos len hpos hlen hwrap => ?_, hframe⟩
    obtain ⟨u', hrun'⟩ := hread pos len hpos hlen hwrap
    refine ⟨_, u', hrun', rfl, fun hsmall => ?_⟩
    have hlength : ((buf.drop pos).take (min len (buf.length - pos))).length =
        min len (buf.length - pos) := by
      rw [List.length_take, List.length_drop]
      omega
    rw [readReturn_some (by omega), hlength]
  · obtain rfl := hcs.unique h.fits (hfound.chain h.valid hP)
    by_contra hr
    have hlt := hfull (Bool.eq_false_iff.mpr hr)
    omega

def moreBytes : List UInt8 := List.replicate 511 1 ++ List.replicate 89 2

/-- The file of 500 bytes is saved with 600, and what lies across the two clusters is read. -/
theorem writeFile_read_grown : ∃ t first hit u u',
    fat16WriteFile smallGeo 0x10002 0 (ascii "a") moreBytes someBytes.start = .ok true t ∧
    dirLookup smallGeo 0x10002 0 (to83 (ascii "a")) t.vol.start = .ok (.found hit) u ∧
    hit.entry.first = first ∧
    fat16ReadAt smallGeo first 509 4 600 t.vol.start = .ok (some [1, 1, 2, 2]) u' ∧
    SameElse smallGeo someBytes (4, 0) t.vol := by
  have hlength : moreBytes.length = 600 := by decide +kernel
  have hslice : (moreBytes.drop 509).take 4 = [1, 1, 2, 2] := by decide +kernel
  obtain ⟨r, t, hrun, hsaved, hfits⟩ := writeFile_read someBytes_sound smallGeo_enough .root
    someBytes_finds someBytes_not_directory (by rw [hlength]; decide)
  have hfree := someBytes_free
  have hclusters : smallGeo.clustersFor 600 = 2 := by decide
  obtain rfl := hfits [2] someBytes_chain (by rw [hlength, hclusters]; omega)
  obtain ⟨hit, u, first, hlook, hat, hentry, hread, hsame⟩ := hsaved rfl
  rw [hlength] at hread
  obtain ⟨out, u', hrun', hout, -⟩ := hread 509 4 (by decide) (by decide) (by decide)
  obtain rfl := hout.trans hslice
  exact ⟨t, first, hit, u, u', hrun, hlook, by rw [hentry], hrun', hsame⟩

/-! ## A large file -/

def largeGeo : Geo where
  fatStartLba := 1
  numFats := 2
  fatSizeSectors := 256
  rootSectorCount := 32
  sectorsPerCluster := 128
  totalClusters := 0xFFF0
  fatStartLba_lt := smallGeo.fatSizeSectors_lt
  numFats_lt := smallGeo.numFats_lt
  fatSizeSectors_lt := by decide
  rootSectorCount_le := by decide
  sectorsPerCluster_pos := by decide
  sectorsPerCluster_lt := by decide

lemma largeGeo_fits : largeGeo.Fits := ⟨by decide, by decide⟩

lemma largeGeo_enough : Enough largeGeo 0x1000000 := by
  show 0x10000 * 128 + 32 < 0x1000000
  decide

lemma largeGeo_free : largeGeo.free (fun _ => 0) = 65518 := by
  rw [Geo.free, count, Finset.filter_true_of_mem fun _ _ => rfl, Nat.card_Ico]
  rfl

lemma largeGeo_finds :
    Finds largeGeo 0x1000000 (oneFile 513 (to83 (ascii "a"))) 0 (ascii "a") (513, 0) :=
  finds_of_foundAt (by decide +kernel)

lemma readReturn_large {bytes : List UInt8} (h : bytes.length = 0x80000000) :
    readReturn (some bytes) = -0x80000000 := by
  rw [readReturn, h]
  decide

/-- **The result of a read of 2 GiB is negative**, although all bytes were read. -/
theorem readAt_negative : ∃ v buf hit t u u',
    Sound largeGeo v ∧ Copies largeGeo v ∧ Enough largeGeo 0x1000000 ∧
    Finds largeGeo 0x1000000 v 0 (ascii "a") (513, 0) ∧
    fat16WriteFile largeGeo 0x1000000 0 (ascii "a") buf v.start = .ok true t ∧
    dirLookup largeGeo 0x1000000 0 (to83 (ascii "a")) t.vol.start = .ok (.found hit) u ∧
    buf.length = 0x80000000 ∧
    fat16ReadAt largeGeo hit.entry.first 0 0x80000000 0x80000000 t.vol.start = .ok (some buf) u' ∧
    readReturn (some buf) = -0x80000000 := by
  have hname : (to83 (ascii "a")).length = 11 := by decide
  obtain ⟨buf, hbuf⟩ : ∃ buf : List UInt8, buf.length = 0x80000000 :=
    ⟨List.replicate _ 0, List.length_replicate⟩
  have hsound : Sound largeGeo (oneFile 513 (to83 (ascii "a"))) := oneFile_sound largeGeo_fits hname
  have hfound := largeGeo_finds.found hsound.valid .root largeGeo_enough
    (oneFile_not_directory hname)
  obtain ⟨r, t, hrun, hsaved, hfull, -⟩ := fat16WriteFile_saved (ascii "a") buf hsound
    largeGeo_enough .root hfound (by rw [hbuf]; decide)
  cases r with
  | false =>
    have hlt := hfull rfl
    have hfree : largeGeo.free (oneFile 513 (to83 (ascii "a"))).fat = 65518 := largeGeo_free
    have hneed : largeGeo.clustersFor 0x80000000 = 0x8000 := by decide
    rw [hbuf, hfree, hneed] at hlt
    omega
  | true =>
    obtain ⟨-, ⟨hit, u, hlook, -, hhit⟩, hread, -⟩ := hsaved rfl
    obtain ⟨u', hrun'⟩ := hread 0 0x80000000 (by rw [hbuf]; decide) (by decide) (by decide)
    rw [hbuf, List.drop_zero, Nat.sub_zero, Nat.min_self, ← hbuf, List.take_length] at hrun'
    refine ⟨_, buf, hit, t, u, u', hsound, oneFile_copies (by decide), largeGeo_enough,
      largeGeo_finds, hrun, hlook, hbuf, ?_, readReturn_large hbuf⟩
    rw [hhit, ← hbuf]
    exact hrun'

/-! ## A save that fails -/

/-- **A failed save has changed nothing**, if there are enough clusters (it does not fail then), or
if the file is empty and no cluster is free. -/
theorem writeFile_failed {cs : List Nat} (h : Sound g v) (hn : Enough g n) (hP : IsDir g v P)
    (hx : Finds g n v P name x) (hdir : ¬ (entryAt v.disk x).Directory)
    (hbuf : buf.length < 0x100000000) (hcs : FileChain g v.fat (entryAt v.disk x).first cs)
    (hroom : g.clustersFor buf.length ≤ g.free v.fat + cs.length ∨ cs = [] ∧ g.free v.fat = 0) :
    ∃ r t, fat16WriteFile g n P name buf v.start = .ok r t ∧ (r = false → t.vol = v) := by
  have hfound := hx.found h.valid hP hn hdir
  obtain rfl := hcs.unique h.fits (hfound.chain h.valid hP)
  obtain ⟨r, t, hrun, -, hfull, hnone⟩ := fat16WriteFile_saved name buf h hn hP hfound hbuf
  refine ⟨r, t, hrun, fun hr => ?_⟩
  rcases hroom with hfits | ⟨hnil, h0⟩
  · have hlt := hfull hr
    omega
  · exact hnone hr hnil h0

def fullGeo : Geo := { smallGeo with totalClusters := 2 }

/-- Three bytes cannot be saved in an empty file, and the volume is as before. -/
theorem writeFile_failed_full : ∃ t,
    fat16WriteFile fullGeo 0x10002 0 (ascii "a") (ascii "xyz")
      (oneFile 4 (to83 (ascii "a"))).start = .ok false t ∧
    t.vol = oneFile 4 (to83 (ascii "a")) := by
  have hname : (to83 (ascii "a")).length = 11 := by decide
  have hchain : FileChain fullGeo (oneFile 4 (to83 (ascii "a"))).fat
      (entryAt (oneFile 4 (to83 (ascii "a"))).disk (4, 0)).first [] := by
    rw [oneFile_entry hname]
    exact .inl ⟨rfl, rfl⟩
  have hfinds : Finds fullGeo 0x10002 (oneFile 4 (to83 (ascii "a"))) 0 (ascii "a") (4, 0) :=
    finds_of_foundAt (by decide +kernel)
  have hsound : Sound fullGeo (oneFile 4 (to83 (ascii "a"))) :=
    oneFile_sound ⟨by decide, by decide⟩ hname
  have henough : Enough fullGeo 0x10002 := smallGeo_enough
  obtain ⟨r, t, hrun, hkept⟩ := writeFile_failed hsound henough .root hfinds
    (oneFile_not_directory hname) (by decide : (ascii "xyz").length < 0x100000000) hchain
    (.inr ⟨rfl, by decide +kernel⟩)
  have hfail : Ends (fat16WriteFile fullGeo 0x10002 0 (ascii "a") (ascii "xyz"))
      (oneFile 4 (to83 (ascii "a"))).start fun r _ => r = false := by
    decide +kernel
  obtain rfl := hfail.result hrun
  exact ⟨t, hrun, hkept rfl⟩

def tinyGeo : Geo := { smallGeo with totalClusters := 3 }

lemma tinyGeo_enough : Enough tinyGeo 0x10002 := smallGeo_enough

lemma tinyGeo_finds : Finds tinyGeo 0x10002 (oneFile 4 (to83 (ascii "a"))) 0 (ascii "a") (4, 0) :=
  finds_of_foundAt (by decide +kernel)

def ThreeBytes (v : Vol) (bytes : List UInt8) : Prop :=
  (entryAt v.disk (4, 0)).first = 2 ∧ (entryAt v.disk (4, 0)).size = 3 ∧ v.fat 2 = 0xFFFF ∧
    contentOf tinyGeo v.disk [2] 3 = bytes

instance (v : Vol) (bytes : List UInt8) : Decidable (ThreeBytes v bytes) :=
  inferInstanceAs (Decidable (_ ∧ _))

lemma ThreeBytes.hasContent {bytes : List UInt8} (h : ThreeBytes v bytes) :
    HasContent tinyGeo v (4, 0) bytes := by
  obtain ⟨hfirst, hsize, hend, rfl⟩ := h
  exact hasContent_single ⟨by decide, by decide⟩ ⟨by decide, by decide⟩ hfirst hsize hend
    (by decide)

/-- **The content is lost.**  Two sectors are saved over a file of three bytes where there is only
one cluster: the call fails, and the file begins with the new data. -/
theorem writeFile_lost : ∃ v t,
    Sound tinyGeo v ∧ Copies tinyGeo v ∧ Enough tinyGeo 0x10002 ∧
    Finds tinyGeo 0x10002 v 0 (ascii "a") (4, 0) ∧ HasContent tinyGeo v (4, 0) (ascii "xyz") ∧
    fat16WriteFile tinyGeo 0x10002 0 (ascii "a") (List.replicate 513 0x62) v.start = .ok false t ∧
    HasContent tinyGeo t.vol (4, 0) (ascii "bbb") := by
  have hname : (to83 (ascii "a")).length = 11 := by decide
  have hsound : Sound tinyGeo (oneFile 4 (to83 (ascii "a"))) :=
    oneFile_sound ⟨by decide, by decide⟩ hname
  have hruns : Ends (fat16WriteFile tinyGeo 0x10002 0 (ascii "a") (ascii "xyz"))
      (oneFile 4 (to83 (ascii "a"))).start fun r t => r = true ∧ ThreeBytes t.vol (ascii "xyz") ∧
        Ends (fat16WriteFile tinyGeo 0x10002 0 (ascii "a") (List.replicate 513 0x62)) t.vol.start
          fun r t => r = false ∧ ThreeBytes t.vol (ascii "bbb") := by
    decide +kernel
  obtain ⟨_, t, hwrite, rfl, hold, _, t', hfail, rfl, hnew⟩ := hruns
  have hspec : Ends (fat16WriteFile tinyGeo 0x10002 0 (ascii "a") (ascii "xyz"))
      (oneFile 4 (to83 (ascii "a"))).start _ :=
    fat16WriteFile_spec hsound.valid .root tinyGeo_enough (by decide)
  obtain ⟨x, first, cs, hx, hre, -, hcopies⟩ := (hspec.result hwrite).success rfl
  have hv := hre.valid hsound.valid
  obtain rfl : (4, 0) = x :=
    (tinyGeo_finds.found hsound.valid .root tinyGeo_enough (oneFile_not_directory hname)).unique hx
  obtain ⟨hit, u, hlook, hat, -⟩ := finds_of_lookup hv .root tinyGeo_enough (hre.found hx).lookup
  exact ⟨t.vol, t', hv.sound, hcopies, tinyGeo_enough, ⟨hit, u, hlook, hat⟩,
    hold.hasContent, hfail, hnew.hasContent⟩

end NullOS.Fat16
