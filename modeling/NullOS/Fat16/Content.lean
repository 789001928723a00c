import NullOS.Fat16.Volume
import Mathlib.Data.List.Infix

/-!
# The bytes of a file

Byte `i` of a file is byte `i % 512` of sector `i / 512`, and the sectors of a file are those of the
clusters of its chain.  No sector comes twice.
-/

namespace NullOS.Fat16

open Lib

variable {g : Geo} {disk disk' : Nat → Mem} {i j k q q' lba : Nat} {cs cs' : List Nat} {new : Mem}

def sectorAt (g : Geo) (cs : List Nat) (q : Nat) : Nat :=
  clusterSector g (cs.getD (q / g.sectorsPerCluster) 0) (q % g.sectorsPerCluster)

def fileByte (g : Geo) (disk : Nat → Mem) (cs : List Nat) (i : Nat) : UInt8 :=
  disk (sectorAt g cs (i / 512)) (i % 512)

lemma index_lt_length (h : q < cs.length * g.sectorsPerCluster) :
    q / g.sectorsPerCluster < cs.length :=
  Nat.div_lt_of_lt_mul (by rwa [Nat.mul_comm])

lemma sector_lt (h : i < cs.length * g.bytesPerCluster) :
    i / 512 < cs.length * g.sectorsPerCluster := by
  rw [Geo.bytesPerCluster, ← Nat.mul_assoc] at h
  omega

lemma exists_clusterAt (h : q < cs.length * g.sectorsPerCluster) :
    ∃ c, cs[q / g.sectorsPerCluster]? = some c ∧
      sectorAt g cs q = clusterSector g c (q % g.sectorsPerCluster) := by
  refine ⟨_, List.getElem?_eq_getElem (index_lt_length h), ?_⟩
  rw [sectorAt, List.getD_eq_getElem?_getD, List.getElem?_eq_getElem (index_lt_length h),
    Option.getD_some]

lemma sectorAt_mem (h : q < cs.length * g.sectorsPerCluster) :
    ∃ c ∈ cs, sectorAt g cs q ∈ clusterLbas g c := by
  obtain ⟨c, hc, hsec⟩ := exists_clusterAt h
  refine ⟨c, List.mem_of_getElem? hc, mem_clusterLbas.mpr ⟨_, ?_, hsec.symm⟩⟩
  exact Nat.mod_lt _ g.sectorsPerCluster_pos

lemma sectorAt_of_getElem? {c : Nat} (hc : cs[i]? = some c) (hk : k < g.sectorsPerCluster) :
    sectorAt g cs (i * g.sectorsPerCluster + k) = clusterSector g c k := by
  rw [sectorAt, Nat.mul_comm, Nat.mul_add_div g.sectorsPerCluster_pos, Nat.div_eq_of_lt hk,
    Nat.add_zero, Nat.mul_add_mod, Nat.mod_eq_of_lt hk, List.getD_eq_getElem?_getD, hc,
    Option.getD_some]

section Distinct

variable (hg : g.Fits) (hnodup : cs.Nodup) (hcs : ∀ c ∈ cs, g.Cluster c)

include hg hnodup hcs

lemma sectorAt_inj (hq : q < cs.length * g.sectorsPerCluster)
    (hq' : q' < cs.length * g.sectorsPerCluster) (h : sectorAt g cs q = sectorAt g cs q') :
    q = q' := by
  obtain ⟨c, hc, hsec⟩ := exists_clusterAt hq
  obtain ⟨c', hc', hsec'⟩ := exists_clusterAt hq'
  have hcl := hcs c (List.mem_of_getElem? hc)
  have hcl' := hcs c' (List.mem_of_getElem? hc')
  rw [hsec, hsec'] at h
  have hpos := g.sectorsPerCluster_pos
  obtain ⟨rfl, hmod⟩ := clusterSector_inj hcl.1 (hg.lt hcl) (Nat.mod_lt _ hpos) hcl'.1 (hg.lt hcl')
    (Nat.mod_lt _ hpos) h
  have hdiv : q / g.sectorsPerCluster = q' / g.sectorsPerCluster :=
    (List.getElem?_inj (index_lt_length hq) hnodup).mp (hc.trans hc'.symm)
  rw [← Nat.div_add_mod q g.sectorsPerCluster, ← Nat.div_add_mod q' g.sectorsPerCluster, hdiv, hmod]

lemma fileByte_update (hq : q < cs.length * g.sectorsPerCluster)
    (hi : i < cs.length * g.bytesPerCluster) :
    fileByte g (Function.update disk (sectorAt g cs q) new) cs i =
      if i / 512 = q then new (i % 512) else fileByte g disk cs i := by
  rw [fileByte]
  split
  case isTrue h => rw [h, Function.update_self]
  case isFalse h =>
    rw [Function.update_of_ne, fileByte]
    exact fun heq => h (sectorAt_inj hg hnodup hcs (sector_lt hi) hq heq)

end Distinct

lemma fileByte_congr (hi : i < cs.length * g.bytesPerCluster)
    (h : ∀ c ∈ cs, ∀ lba ∈ clusterLbas g c, disk' lba = disk lba) :
    fileByte g disk' cs i = fileByte g disk cs i := by
  obtain ⟨c, hc, hlba⟩ := sectorAt_mem (sector_lt hi)
  rw [fileByte, h c hc _ hlba, fileByte]

lemma fileByte_of_isPrefix (h : List.IsPrefix cs cs') (hi : i < cs.length * g.bytesPerCluster) :
    fileByte g disk cs' i = fileByte g disk cs i := by
  obtain ⟨rest, rfl⟩ := h
  have hlt := index_lt_length (sector_lt hi)
  rw [fileByte, fileByte, sectorAt, sectorAt, List.getD_eq_getElem?_getD,
    List.getElem?_append_left hlt, List.getD_eq_getElem?_getD]

def contentOf (g : Geo) (disk : Nat → Mem) (cs : List Nat) (size : Nat) : List UInt8 :=
  (List.range size).map (fileByte g disk cs)

@[simp] lemma length_contentOf (g : Geo) (disk : Nat → Mem) (cs : List Nat) (size : Nat) :
    (contentOf g disk cs size).length = size := by
  rw [contentOf, List.length_map, List.length_range]

lemma getElem?_contentOf {size : Nat} (hi : i < size) :
    (contentOf g disk cs size)[i]? = some (fileByte g disk cs i) := by
  rw [contentOf, List.getElem?_map, List.getElem?_range hi, Option.map_some]

lemma contentOf_congr {size : Nat}
    (h : ∀ i < size, fileByte g disk' cs' i = fileByte g disk cs i) :
    contentOf g disk' cs' size = contentOf g disk cs size :=
  List.map_congr_left fun i hi => h i (List.mem_range.mp hi)

/-- The file with its entry in slot `x` has the content `C`, which its chain covers. -/
def HasContent (g : Geo) (v : Vol) (x : Slot) (C : List UInt8) : Prop :=
  ∃ cs, FileChain g v.fat (entryAt v.disk x).first cs ∧
    (entryAt v.disk x).size ≤ cs.length * g.bytesPerCluster ∧
    C = contentOf g v.disk cs (entryAt v.disk x).size

end NullOS.Fat16
