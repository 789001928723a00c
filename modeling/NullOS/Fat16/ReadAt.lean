import NullOS.Fat16.FileWrite
import NullOS.Lib.Outcome

/-!
# Reading a file

`fat16_read_at` goes through the chain of the file, from the cluster of the first byte on.  On a
device that works it returns the bytes of the file from `pos` on, as many as are asked for and as
the file has.
-/

namespace NullOS.Fat16

open Lib

variable {g : Geo} {s : St} {i k m c pos len first size : Nat} {cs : List Nat} {F : Nat → UInt8}

/-! ## Slices -/

/-- `m` bytes of a file from `pos` on. -/
def slice (F : Nat → UInt8) (pos m : Nat) : List UInt8 := (List.range m).map fun j => F (pos + j)

@[simp] lemma length_slice : (slice F pos m).length = m := by
  rw [slice, List.length_map, List.length_range]

lemma slice_add : slice F pos (m + k) = slice F pos m ++ slice F (pos + m) k := by
  rw [slice, List.range_add, List.map_append, List.map_map]
  refine congrArg _ (List.map_congr_left fun j _ => ?_)
  rw [Function.comp_apply, Nat.add_assoc]

lemma slice_eq_drop_take {l : List UInt8} (hF : ∀ j < l.length, F j = l.getD j 0)
    (h : pos + m ≤ l.length) : slice F pos m = (l.drop pos).take m := by
  refine List.ext_getElem? fun j => ?_
  by_cases hj : j < m
  · rw [slice, List.getElem?_map, List.getElem?_range hj, Option.map_some,
      List.getElem?_take_of_lt hj, List.getElem?_drop, hF _ (by omega), List.getD_eq_getElem?_getD,
      List.getElem?_eq_getElem (by omega), Option.getD_some]
  · rw [List.getElem?_eq_none (by rw [length_slice]; omega),
      List.getElem?_eq_none (by rw [List.length_take]; omega)]

/-! ## The loops -/

lemma Geo.Cluster.lt_stop (hc : g.Cluster c) (hg : g.Fits) : c < 0xFFF8 := by
  have hends := hg.ends
  have hlt := hc.2
  omega

section Loops

variable (hg : g.Fits) (hio : s.io = working)

include hio

/-- The sectors of cluster `i` of the chain are read to the end of the cluster, or until there are
`len` bytes. -/
lemma readSectors_spec {secIdx secOff : Nat} (hi : cs[i]? = some c)
    (hk : secIdx + k = g.sectorsPerCluster) (hoff : secOff < 512) (hlast : k = 0 → secOff = 0)
    (hm : m ≤ len) (hend : pos + m ≤ i * g.bytesPerCluster + g.bytesPerCluster)
    (hat : m < len → pos + m = i * g.bytesPerCluster + secIdx * 512 + secOff) :
    Ends (readSectors (fat16ClusterToLba g c) len k secIdx secOff
        (slice (fileByte g s.vol.disk cs) pos m)) s fun r t => Reads s t ∧
      r = (true, slice (fileByte g s.vol.disk cs) pos
        (min len (i * g.bytesPerCluster + g.bytesPerCluster - pos))) := by
  induction k generalizing secIdx secOff m s with
  | zero =>
    rw [readSectors]
    refine .pure ⟨.refl s, ?_⟩
    have hbpc : g.bytesPerCluster = secIdx * 512 := by rw [Geo.bytesPerCluster, ← hk, Nat.add_zero]
    have hm' : m = min len (i * g.bytesPerCluster + g.bytesPerCluster - pos) := by
      have h0 := hlast rfl
      omega
    rw [← hm']
  | succ k ih =>
    rw [readSectors, length_slice]
    split
    case isFalse hfull =>
      refine .pure ⟨.refl s, ?_⟩
      have hm' : m = min len (i * g.bytesPerCluster + g.bytesPerCluster - pos) := by omega
      rw [← hm']
    case isTrue hmore =>
      have hpos := hat hmore
      have hbpc : (secIdx + 1) * 512 ≤ g.bytesPerCluster := by
        rw [Geo.bytesPerCluster]
        exact Nat.mul_le_mul_right 512 (by omega)
      have hmul := Nat.add_one_mul secIdx 512
      refine (blockReadSector_spec s _).seq ?_
      rintro r t ⟨hreads, ⟨-, hbad⟩ | rfl⟩
      · exact absurd hio hbad
      -- the bytes of this sector
      have hsector : (List.range (min (len - m) (512 - secOff))).map (fun j =>
          s.vol.disk ((fat16ClusterToLba g c + secIdx) % 0x100000000) (secOff + j)) =
          slice (fileByte g s.vol.disk cs) (pos + m) (min (len - m) (512 - secOff)) := by
        refine List.map_congr_left fun j hj => ?_
        have hj := List.mem_range.mp hj
        have hsize : i * g.bytesPerCluster = i * g.sectorsPerCluster * 512 :=
          (Nat.mul_assoc _ _ _).symm
        have hq : (pos + m + j) / 512 = i * g.sectorsPerCluster + secIdx := by omega
        have hb : (pos + m + j) % 512 = secOff + j := by omega
        rw [fileByte, hq, hb, sectorAt_of_getElem? hi (by omega)]
        rfl
      dsimp only
      rw [hsector, ← slice_add]
      have hrest : Ends (readSectors (fat16ClusterToLba g c) len k (secIdx + 1) 0
          (slice (fileByte g t.vol.disk cs) pos (m + min (len - m) (512 - secOff)))) t _ :=
        ih (hreads.io hio) (by omega) (by omega) (fun _ => rfl) (by omega) (by omega) (by omega)
      rw [hreads.vol] at hrest
      refine hrest.mono ?_
      rintro r u ⟨hreads', rfl⟩
      exact ⟨hreads.trans hreads', rfl⟩

include hg

lemma readLoop_spec {off : Nat} (hch : FileChain g s.vol.fat first cs) (hm : m ≤ len)
    (hcover : pos + len ≤ cs.length * g.bytesPerCluster) (hk : len ≤ m + k)
    (hi : m < len → cs[i]? = some c) (hoff : off < g.bytesPerCluster)
    (hat : m < len → pos + m = i * g.bytesPerCluster + off) :
    Ends (readLoop g len k c off (slice (fileByte g s.vol.disk cs) pos m)) s fun r t =>
      Reads s t ∧ r = slice (fileByte g s.vol.disk cs) pos len := by
  induction k generalizing i c off m s with
  | zero =>
    obtain rfl : m = len := by omega
    exact .pure ⟨.refl s, rfl⟩
  | succ k ih =>
    rw [readLoop, length_slice]
    split
    case isFalse hend =>
      refine .pure ⟨.refl s, ?_⟩
      have hm' : m = len := by
        by_contra hne
        have hcl := hch.cluster (List.mem_of_getElem? (hi (by omega)))
        exact hend ⟨by omega, hcl.lt_stop hg⟩
      rw [hm']
    case isTrue hmore =>
      obtain ⟨hlt, -⟩ := hmore
      have hci := hi hlt
      have hpos := hat hlt
      have hcl := hch.cluster (List.mem_of_getElem? hci)
      have hsec : off / 512 < g.sectorsPerCluster := by
        rw [Geo.bytesPerCluster] at hoff
        omega
      refine (readSectors_spec hio hci (k := g.sectorsPerCluster - off / 512) (by omega)
        (Nat.mod_lt _ (by decide)) (by omega) hm (by omega) (fun _ => by omega)).seq ?_
      rintro _ t ⟨hreads, rfl⟩
      dsimp only
      rw [length_slice]
      split
      case isFalse hfull =>
        refine .pure ⟨hreads, ?_⟩
        rw [Nat.min_eq_left (by omega)]
      case isTrue hleft =>
        have hstep : min len (i * g.bytesPerCluster + g.bytesPerCluster - pos) =
            i * g.bytesPerCluster + g.bytesPerCluster - pos := by omega
        rw [hstep] at hleft ⊢
        have hnext : cs[i + 1]? = some (s.vol.fat c) := by
          refine ((hch.walk_stop hg).succ hci).resolve_left fun hend => ?_
          rw [← hend.1, Nat.add_one_mul] at hcover
          omega
        have hmul := Nat.add_one_mul i g.bytesPerCluster
        have h2 := hcl.1
        rw [fat16NextCluster, if_neg (by omega)]
        refine (getFat_spec (Nat.lt_of_lt_of_le hcl.2 hg.entries)).seq ?_
        rintro _ t ⟨rfl, rfl⟩
        have hrest : Ends (readLoop g len k (t.vol.fat c) 0 (slice (fileByte g t.vol.disk cs) pos
            (i * g.bytesPerCluster + g.bytesPerCluster - pos))) t _ :=
          ih (i := i + 1) (hreads.io hio) (by rw [hreads.vol]; exact hch) (by omega) (by omega)
            (fun _ => by rw [hreads.vol]; exact hnext) (by omega) (fun _ => by omega)
        rw [hreads.vol] at hrest ⊢
        refine hrest.mono ?_
        rintro r u ⟨hreads', rfl⟩
        exact ⟨hreads.trans hreads', rfl⟩

omit hio in
lemma readSeek_spec (hch : FileChain g s.vol.fat first cs) (hi : cs[i]? = some c)
    (hk : i + k < cs.length) :
    Ends (readSeek g k c) s fun r t => t = s ∧ ∃ b, r = some b ∧ cs[i + k]? = some b := by
  induction k generalizing i c with
  | zero => exact .pure ⟨rfl, c, rfl, hi⟩
  | succ k ih =>
    have hcl := hch.cluster (List.mem_of_getElem? hi)
    have hnext : cs[i + 1]? = some (s.vol.fat c) :=
      ((hch.walk_stop hg).succ hi).resolve_left fun ⟨hlen, _⟩ => by omega
    have h2 := hcl.1
    have hlt := (hch.cluster (List.mem_of_getElem? hnext)).lt_stop hg
    rw [readSeek, fat16NextCluster, if_neg (by omega)]
    refine (getFat_spec (Nat.lt_of_lt_of_le hcl.2 hg.entries)).seq ?_
    rintro _ _ ⟨rfl, rfl⟩
    rw [if_neg (by omega)]
    have hrest := ih hnext (by omega)
    rwa [Nat.add_right_comm] at hrest

/-- **`fat16_read_at`** on a file with this chain. -/
lemma fat16ReadAt_spec (hready : s.vol.ready = true) (hch : FileChain g s.vol.fat first cs)
    (hcover : size ≤ cs.length * g.bytesPerCluster) (hpos : pos < size) (hlen : 0 < len)
    (hwrap : pos + len < 0x100000000) :
    Ends (fat16ReadAt g first pos len size) s fun r t => Reads s t ∧
      r = some (slice (fileByte g s.vol.disk cs) pos (min len (size - pos))) := by
  have hbpc := bytesPerCluster_pos g
  have hidx : pos / g.bytesPerCluster < cs.length :=
    (Nat.div_lt_iff_lt_mul hbpc).mpr (by omega)
  obtain ⟨rest, hcs⟩ : ∃ rest, cs = first :: rest := by
    rcases hch with ⟨rfl, -⟩ | hch
    · exact absurd hidx (Nat.not_lt_zero _)
    · exact hch.head_eq
  have hmin : (if size < (pos + len) % 0x100000000 then size - pos else len) =
      min len (size - pos) := by
    rw [Nat.mod_eq_of_lt hwrap]
    split <;> omega
  show Ends (if s.vol.ready = true ∧ len ≠ 0 then _ else _) s _
  rw [if_pos ⟨hready, by omega⟩, if_neg (by omega)]
  dsimp only
  rw [hmin]
  refine (readSeek_spec hg hch (i := 0) (by rw [hcs]; rfl) (by omega)).seq ?_
  rintro _ _ ⟨rfl, c, rfl, hc⟩
  rw [Nat.zero_add] at hc
  have hread : Ends (readLoop g (min len (size - pos)) (min len (size - pos)) c
      (pos % g.bytesPerCluster) (slice (fileByte g _ cs) pos 0)) _ _ :=
    readLoop_spec (i := pos / g.bytesPerCluster) hg hio hch (Nat.zero_le _) (by omega) (by omega)
      (fun _ => hc) (Nat.mod_lt _ hbpc)
      (fun _ => by rw [Nat.add_zero, Nat.mul_comm, Nat.div_add_mod])
  refine hread.seq ?_
  rintro _ t ⟨hreads, rfl⟩
  exact .pure ⟨hreads, rfl⟩

end Loops

/-! ## On any device -/

lemma readSectors_length (lba : Nat) {secIdx secOff : Nat} {acc : List UInt8}
    (hacc : acc.length ≤ len) :
    Outcome (readSectors lba len k secIdx secOff acc) s (fun r _ => r.2.length ≤ len)
      fun _ _ => True := by
  induction k generalizing s secIdx secOff acc with
  | zero => exact .of_ok rfl hacc
  | succ k ih =>
    rw [readSectors]
    split
    · refine .bind (.of_ok rfl ?_)
      split
      · exact .of_ok rfl hacc
      · refine ih ?_
        rw [List.length_append, List.length_map, List.length_range]
        omega
    · exact .of_ok rfl hacc

lemma readLoop_length {off : Nat} {acc : List UInt8} (hacc : acc.length ≤ len) :
    Outcome (readLoop g len k c off acc) s (fun r _ => r.length ≤ len) fun _ _ => True := by
  induction k generalizing s c off acc with
  | zero => exact .of_ok rfl hacc
  | succ k ih =>
    rw [readLoop]
    split
    · refine .bind ((readSectors_length _ hacc).mono (fun r t hr => ?_) fun _ _ h => h)
      obtain ⟨_ | _, acc'⟩ := r
      · exact .of_ok rfl hr
      · dsimp only
        split
        · exact .after_any fun next u => ih hr
        · exact .of_ok rfl hr
    · exact .of_ok rfl hacc

/-- **`fat16_read_at` returns no more than it is asked for**, whatever the device does. -/
lemma fat16ReadAt_length : Outcome (fat16ReadAt g first pos len size) s
    (fun r _ => ∀ bytes ∈ r, bytes.length ≤ len) fun _ _ => True := by
  rw [fat16ReadAt]
  refine .after_any fun s t => ?_
  split
  case isFalse => exact .of_ok rfl (by simp)
  case isTrue =>
    split
    case isTrue => exact .of_ok rfl (by simp)
    case isFalse hpos =>
      refine .after_any fun start u => ?_
      cases start with
      | none => exact .of_ok rfl (by simp)
      | some cluster =>
        refine .bind ((readLoop_length (Nat.zero_le _)).mono (fun r v hr => ?_) fun _ _ h => h)
        refine .of_ok rfl fun bytes hbytes => ?_
        cases hbytes
        refine hr.trans ?_
        split <;> omega

end NullOS.Fat16
