import NullOS.Fat16.Content
import NullOS.Fat16.Create
import NullOS.Fat16.File

/-!
# Writing files

`fat16_write_file` and `fat16_write_at` build the chain of one file in the FAT cache and write to
its clusters, and at the end they write the entry and flush the FAT.  Nothing else is touched.
-/

namespace NullOS.Fat16

open Lib

variable {g : Geo} {v v' : Vol} {lay lay' : Layout} {s t : St}
  {n d P c c' i k lba last first size : Nat}
  {e : Dirent} {x y : Slot} {o : Owner} {name buf : List UInt8} {cs : List Nat} {cur : Cursor}

/-! ## A file that has changed -/

/-- The file with its entry in the slot `x` has the clusters `cs` now, and its entry says so. -/
structure Rewritten (g : Geo) (lay : Layout) (x : Slot) (first size : Nat) (cs : List Nat)
    (v v' : Vol) : Prop where
  ready : v'.ready = v.ready
  live : (entryAt v.disk x).Live
  not_directory : ¬ (entryAt v.disk x).Directory
  chain : FileChain g v'.fat first cs
  own : ∀ c ∈ cs, ∀ o, o ≠ .file x → c ∉ lay.chain o
  fat : ∀ o, o ≠ .file x → ∀ c ∈ lay.chain o, v'.fat c = v.fat c
  entry : entryAt v'.disk x = { entryAt v.disk x with first, size }
  other : ∀ y : Slot, y ≠ x → ∀ d, y ∈ lay.slots g d → entryAt v'.disk y = entryAt v.disk y
  disk : ∀ o, o ≠ .file x → ∀ c ∈ lay.chain o, ∀ lba ∈ clusterLbas g c, lba ≠ x.1 →
    v'.disk lba = v.disk lba

namespace Rewritten

lemma same (h : Rewritten g lay x first size cs v v') (hy : y ∈ lay.slots g d) :
    ∃ f z, entryAt v'.disk y = { entryAt v.disk y with first := f, size := z } := by
  by_cases hyx : y = x
  · subst hyx
    exact ⟨first, size, h.entry⟩
  · exact ⟨_, _, h.other y hyx d hy⟩

lemma live_iff (h : Rewritten g lay x first size cs v v') (hy : y ∈ lay.slots g d) :
    (entryAt v'.disk y).Live ↔ (entryAt v.disk y).Live := by
  obtain ⟨f, z, heq⟩ := h.same hy
  rw [heq]
  rfl

lemma directory_iff (h : Rewritten g lay x first size cs v v') (hy : y ∈ lay.slots g d) :
    (entryAt v'.disk y).Directory ↔ (entryAt v.disk y).Directory := by
  obtain ⟨f, z, heq⟩ := h.same hy
  rw [heq]
  rfl

lemma empty_iff (h : Rewritten g lay x first size cs v v') (hy : y ∈ lay.slots g d) :
    (entryAt v'.disk y).Empty ↔ (entryAt v.disk y).Empty := by
  obtain ⟨f, z, heq⟩ := h.same hy
  rw [heq]
  rfl

lemma name_eq (h : Rewritten g lay x first size cs v v') (hy : y ∈ lay.slots g d) :
    (entryAt v'.disk y).name = (entryAt v.disk y).name := by
  obtain ⟨f, z, heq⟩ := h.same hy
  rw [heq]

lemma other_of_directory (h : Rewritten g lay x first size cs v v') (hy : y ∈ lay.slots g d)
    (hdir : (entryAt v.disk y).Directory) : entryAt v'.disk y = entryAt v.disk y := by
  refine h.other y ?_ d hy
  rintro rfl
  exact h.not_directory hdir

lemma mem_setFile (hc : c ∈ (lay.setFile x cs).chain o) :
    o = .file x ∧ c ∈ cs ∨ o ≠ .file x ∧ c ∈ lay.chain o := by
  by_cases ho : o = .file x
  · subst ho
    rw [Layout.setFile_chain_self] at hc
    exact .inl ⟨rfl, hc⟩
  · rw [Layout.setFile_chain_of_ne ho] at hc
    exact .inr ⟨ho, hc⟩

lemma valid (hv : Valid g v lay) (h : Rewritten g lay x first size cs v v') :
    Valid g v' (lay.setFile x cs) := by
  refine ⟨h.ready.trans hv.ready, hv.fits, hv.root, ?_, fun d hd h0 => ?_, ?_, ?_, ?_, ?_⟩
  · rw [Layout.setFile_chain_of_ne (by simp)]
    exact hv.rootChain
  · rw [Layout.setFile_chain_of_ne (by simp)]
    exact (hv.dir d hd h0).congr fun c hc => h.fat _ (by simp) c hc
  · intro d hd y hy hl hdir
    rw [Layout.setFile_slots] at hy
    rw [h.live_iff hy] at hl
    rw [h.directory_iff hy] at hdir
    rw [h.other_of_directory hy hdir]
    exact hv.closed d hd y hy hl hdir
  · intro d hd y hy hl hdir
    rw [Layout.setFile_slots] at hy
    by_cases hyx : y = x
    · subst hyx
      rw [Layout.setFile_chain_self, h.entry]
      exact h.chain
    · have ho : Owner.file y ≠ .file x := fun ho => hyx (Owner.file.inj ho)
      have heq := h.other y hyx d hy
      rw [heq] at hl hdir ⊢
      rw [Layout.setFile_chain_of_ne ho]
      exact (hv.file d hd y hy hl hdir).congr fun c hc => h.fat _ ho c hc
  · intro o c hc
    rcases mem_setFile hc with ⟨rfl, hmem⟩ | ⟨ho, hmem⟩
    · rcases h.chain with ⟨rfl, -⟩ | hch
      · simp at hmem
      · exact ⟨hch.cluster c hmem, hch.fat_ne_zero hmem⟩
    · rw [h.fat o ho c hmem]
      exact hv.used o c hmem
  · intro o o' hne c hc hc'
    rcases mem_setFile hc with ⟨rfl, hmem⟩ | ⟨ho, hmem⟩
    · rcases mem_setFile hc' with ⟨rfl, -⟩ | ⟨ho', hmem'⟩
      · exact hne rfl
      · exact h.own c hmem o' ho' hmem'
    · rcases mem_setFile hc' with ⟨rfl, hmem'⟩ | ⟨-, hmem'⟩
      · exact h.own c hmem' o ho hmem
      · exact hv.disjoint o o' hne c hmem hmem'

lemma flush (hv : Valid g v lay) (hx : x ∈ lay.slots g P)
    (h : Rewritten g lay x first size cs v s.vol) (hw : Writes (· < g.rootStartLba) s t) :
    Rewritten g lay x first size cs v t.vol := by
  have hused : ∀ {lba}, lay.Used g lba → t.vol.disk lba = s.vol.disk lba := fun hu =>
    hw.disk _ (by have hle := hv.rootStartLba_le_of_used hu; omega)
  refine ⟨hw.ready.trans h.ready, h.live, h.not_directory, ?_, h.own, ?_, ?_, ?_, ?_⟩
  · rw [hw.fat]
    exact h.chain
  · rw [hw.fat]
    exact h.fat
  · rw [entryAt_congr (hused (used_of_mem_slots hx))]
    exact h.entry
  · intro y hyx d hy
    rw [entryAt_congr (hused (used_of_mem_slots hy))]
    exact h.other y hyx d hy
  · intro o ho c hc lba hlba hne
    rw [hused (.inr ⟨o, c, hc, hlba⟩)]
    exact h.disk o ho c hc lba hlba hne

end Rewritten

/-! ## The chain before the entry is written -/

/-- The FAT cache has the chain `cs` for the file with its entry in the slot `x`, and only the
clusters of that chain were written to. -/
structure Draft (g : Geo) (lay : Layout) (x : Slot) (first : Nat) (cs : List Nat) (v v' : Vol) :
    Prop where
  ready : v'.ready = v.ready
  chain : FileChain g v'.fat first cs
  own : ∀ c ∈ cs, ∀ o, o ≠ .file x → c ∉ lay.chain o
  fat : ∀ o, o ≠ .file x → ∀ c ∈ lay.chain o, v'.fat c = v.fat c
  disk : ∀ lba, g.rootStartLba ≤ lba → (∀ c ∈ cs, lba ∉ clusterLbas g c) →
    v'.disk lba = v.disk lba

lemma FileChain.cluster (h : FileChain g v.fat first cs) (hc : c ∈ cs) : g.Cluster c := by
  rcases h with ⟨rfl, -⟩ | h
  · simp at hc
  · exact h.cluster c hc

lemma FileChain.fat_ne_zero (h : FileChain g v.fat first cs) (hc : c ∈ cs) : v.fat c ≠ 0 := by
  rcases h with ⟨rfl, -⟩ | h
  · simp at hc
  · exact h.fat_ne_zero hc

lemma FileChain.walk_stop (hg : g.Fits) (h : FileChain g v.fat first cs) :
    Walk v.fat Stop first cs := by
  rcases h with ⟨rfl, rfl⟩ | h
  · exact .inl (by omega)
  · exact h.walk_stop hg

lemma FileChain.first_cases (h : FileChain g v.fat first cs) :
    first = 0 ∧ cs = [] ∨ 2 ≤ first ∧ Chain g v.fat first cs := by
  rcases h with ⟨hnil, h0⟩ | h
  · exact .inl ⟨h0, hnil⟩
  · exact .inr ⟨h.start_cluster.1, h⟩

namespace Draft

lemma fresh (hv : Valid g v lay) (h : Draft g lay x first cs v v') (hc : v'.fat c = 0) :
    c ∉ cs ∧ ∀ o, o ≠ .file x → c ∉ lay.chain o := by
  refine ⟨fun hmem => h.chain.fat_ne_zero hmem hc, fun o ho hmem => ?_⟩
  refine (hv.used o c hmem).2 ?_
  rw [← h.fat o ho c hmem]
  exact hc

/-- The clusters of the file are neither those of another file nor those of a directory. -/
lemma not_mem_clusterLbas (hv : Valid g v lay) (h : Draft g lay x first cs v v') (ho : o ≠ .file x)
    (hc : c ∈ lay.chain o) (hlba : lba ∈ clusterLbas g c) (hb : c' ∈ cs) :
    lba ∉ clusterLbas g c' := by
  intro hmem
  have heq := clusterLbas_disjoint hv.fits (h.chain.cluster hb) (hv.used o c hc).1 hmem hlba
  exact h.own c' hb o ho (heq ▸ hc)

lemma disk_eq (hv : Valid g v lay) (h : Draft g lay x first cs v v') (ho : o ≠ .file x)
    (hc : c ∈ lay.chain o) (hlba : lba ∈ clusterLbas g c) : v'.disk lba = v.disk lba :=
  h.disk lba
    (Nat.le_trans (rootStartLba_le g) (dataStartLba_le hv.fits (hv.used o c hc).1 hlba))
    fun _ hb => h.not_mem_clusterLbas hv ho hc hlba hb

lemma not_mem_of_sector (hv : Valid g v lay) (h : Draft g lay x first cs v v')
    (hlba : lba ∈ lay.sectors g d) (hb : c' ∈ cs) : lba ∉ clusterLbas g c' := by
  by_cases hd : d = 0
  · subst hd
    obtain ⟨-, hlt⟩ := mem_rootSectors hlba
    intro hmem
    have hge := dataStartLba_le hv.fits (h.chain.cluster hb) hmem
    omega
  · obtain ⟨c, hc, hmem⟩ := (mem_sectors_iff hd).mp hlba
    exact h.not_mem_clusterLbas hv (o := .dir d) (by simp) hc hmem hb

lemma sector_eq (hv : Valid g v lay) (h : Draft g lay x first cs v v')
    (hlba : lba ∈ lay.sectors g d) : v'.disk lba = v.disk lba := by
  refine h.disk lba ?_ fun _ hb => h.not_mem_of_sector hv hlba hb
  by_cases hd : d = 0
  · subst hd
    exact (mem_rootSectors hlba).1
  · obtain ⟨c, hc, hmem⟩ := (mem_sectors_iff hd).mp hlba
    exact Nat.le_trans (rootStartLba_le g) (dataStartLba_le hv.fits (hv.used _ c hc).1 hmem)

lemma slot_eq (hv : Valid g v lay) (h : Draft g lay x first cs v v') (hy : y ∈ lay.slots g d) :
    entryAt v'.disk y = entryAt v.disk y :=
  entryAt_congr (h.sector_eq hv (mem_slotsOf.mp hy).1)

lemma walkable (hv : Valid g v lay) (h : Draft g lay x first cs v v') : Walkable g v' lay := by
  have hw := hv.walkable
  refine ⟨hw.fits, hw.root, fun d hd => (hw.walk d hd).congr fun c hc => h.fat _ (by simp) c hc,
    hw.cluster, hw.ne_nil, ?_⟩
  intro d hd y hy
  rw [h.slot_eq hv hy]
  exact hw.closed d hd y hy

lemma start (hv : Valid g v lay)
    (hfile : FileChain g v.fat first (lay.chain (.file x))) :
    Draft g lay x first (lay.chain (.file x)) v v :=
  ⟨rfl, hfile, fun c hc o ho hc' => hv.disjoint o (.file x) ho c hc' hc, fun _ _ _ _ => rfl,
    fun _ _ _ => rfl⟩

lemma write (h : Draft g lay x first cs v s.vol) {A : Nat → Prop} (hw : Writes A s t)
    (hA : ∀ lba, A lba → ∃ c ∈ cs, lba ∈ clusterLbas g c) : Draft g lay x first cs v t.vol := by
  refine ⟨hw.ready.trans h.ready, ?_, h.own, ?_, fun lba hle hout => ?_⟩
  · rw [hw.fat]
    exact h.chain
  · rw [hw.fat]
    exact h.fat
  · rw [hw.disk lba, h.disk lba hle hout]
    intro ha
    obtain ⟨c, hc, hmem⟩ := hA lba ha
    exact hout c hc hmem

lemma flush (h : Draft g lay x first cs v s.vol) (hw : Writes (· < g.rootStartLba) s t) :
    Draft g lay x first cs v t.vol := by
  refine ⟨hw.ready.trans h.ready, ?_, h.own, ?_, fun lba hle hout => ?_⟩
  · rw [hw.fat]
    exact h.chain
  · rw [hw.fat]
    exact h.fat
  · rw [hw.disk lba (by omega), h.disk lba hle hout]

lemma begin (hv : Valid g v lay) (h : Draft g lay x first [] v v') (hc : g.Cluster c)
    (hfree : v'.fat c = 0) {fat : Nat → Nat} (hfat : fat = Function.update v'.fat c 0xFFFF) :
    Draft g lay x c [c] v { v' with fat } := by
  obtain ⟨-, hother⟩ := h.fresh hv hfree
  refine ⟨h.ready, .inr ⟨by simp, ⟨rfl, fun hend => ?_, ?_⟩, fun b hb => ?_⟩, fun b hb o ho => ?_,
    fun o ho b hb => ?_, fun lba hle _ => h.disk lba hle (by simp)⟩
  · exact not_stop_of_cluster hv.fits hc (.inr hend)
  · show 0xFFF8 ≤ fat c
    rw [hfat, Function.update_self]
    exact Nat.le_of_ble_eq_true rfl
  · rw [List.mem_singleton.mp hb]
    exact hc
  · rw [List.mem_singleton.mp hb]
    exact hother o ho
  · have hbc : b ≠ c := by
      rintro rfl
      exact hother o ho hb
    show fat b = _
    rw [hfat, Function.update_of_ne hbc]
    exact h.fat o ho b hb

lemma extend (hv : Valid g v lay) (h : Draft g lay x first (cs ++ [last]) v v') (hc : g.Cluster c)
    (hfree : v'.fat c = 0) {fat : Nat → Nat}
    (hfat : ∀ b, fat b = if b = last then c else if b = c then 0xFFFF else v'.fat b) :
    Draft g lay x first (cs ++ [last] ++ [c]) v { v' with fat } := by
  obtain ⟨hnew, hother⟩ := h.fresh hv hfree
  have hch : Chain g v'.fat first (cs ++ [last]) := by
    rcases h.chain with ⟨hnil, -⟩ | hch
    · simp at hnil
    · exact hch
  have hlast : last ≠ c := by
    rintro rfl
    exact hnew (by simp)
  have hkeep : ∀ b, b ≠ last → b ≠ c → fat b = v'.fat b := fun b hbl hbc => by
    rw [hfat, if_neg hbl, if_neg hbc]
  refine ⟨h.ready, .inr (hch.append (fun b hb => hkeep b ?_ ?_) ?_ hc (fun hend => ?_) ?_),
    fun b hb o ho => ?_, fun o ho b hb => ?_, fun lba hle hout => ?_⟩
  · rintro rfl
    exact (List.nodup_append.mp hch.walk.nodup).2.2 b hb b (by simp) rfl
  · rintro rfl
    exact hnew (List.mem_append_left _ hb)
  · exact (hfat last).trans (if_pos rfl)
  · exact not_stop_of_cluster hv.fits hc (.inr hend)
  · show 0xFFF8 ≤ fat c
    rw [hfat, if_neg hlast.symm, if_pos rfl]
    exact Nat.le_of_ble_eq_true rfl
  · rcases List.mem_append.mp hb with hb | hb
    · exact h.own b hb o ho
    · rw [List.mem_singleton.mp hb]
      exact hother o ho
  · refine (hkeep b ?_ ?_).trans (h.fat o ho b hb)
    · rintro rfl
      exact h.own b (by simp) o ho hb
    · rintro rfl
      exact hother o ho hb
  · exact h.disk lba hle fun b hb => hout b (List.mem_append_left _ hb)

lemma commit (hv : Valid g v lay) (h : Draft g lay x first cs v s.vol) (hx : x ∈ lay.slots g P)
    (hl : (entryAt v.disk x).Live) (hdir : ¬ (entryAt v.disk x).Directory)
    (hfirst : first < 0x10000) (hsize : size < 0x100000000)
    (ht : t.vol = { s.vol with
      disk := Function.update s.vol.disk x.1 (updateDirent (v.disk x.1) x.2 first size) }) :
    Rewritten g lay x first size cs v t.vol := by
  have hsec := h.sector_eq hv (mem_slotsOf.mp hx).1
  have hfat : t.vol.fat = s.vol.fat := by rw [ht]
  have hdisk : t.vol.disk =
      Function.update s.vol.disk x.1 (updateDirent (v.disk x.1) x.2 first size) := by rw [ht]
  refine ⟨?_, hl, hdir, ?_, h.own, ?_, ?_, ?_, ?_⟩
  · rw [ht]
    exact h.ready
  · rw [hfat]
    exact h.chain
  · rw [hfat]
    exact h.fat
  · rw [hdisk]
    exact entryAt_update_self.trans (dirent_updateDirent_self hfirst hsize)
  · intro y hyx d hy
    rw [hdisk, entryAt_update_of_ne hyx fun j hj => ?_, h.slot_eq hv hy]
    rw [dirent_updateDirent_of_ne hj, hsec]
  · intro o ho c hc lba hlba hne
    rw [hdisk, Function.update_of_ne hne, h.disk_eq hv ho hc hlba]

lemma keep (hv : Valid g v lay) (h : Draft g lay x first cs v v') (hx : x ∈ lay.slots g P)
    (hl : (entryAt v.disk x).Live) (hdir : ¬ (entryAt v.disk x).Directory)
    (hfirst : first = (entryAt v.disk x).first) (hsize : size = (entryAt v.disk x).size) :
    Rewritten g lay x first size cs v v' := by
  refine ⟨h.ready, hl, hdir, h.chain, h.own, h.fat, ?_, fun y _ d hy => h.slot_eq hv hy,
    fun o ho c hc lba hlba _ => h.disk_eq hv ho hc hlba⟩
  rw [h.slot_eq hv hx, hfirst, hsize]

end Draft
/-! ## Files -/

/-- The number of clusters that a file of this size has. -/
def Geo.clustersFor (g : Geo) (size : Nat) : Nat :=
  (size + g.bytesPerCluster - 1) / g.bytesPerCluster

lemma bytesPerCluster_pos (g : Geo) : 0 < g.bytesPerCluster := by
  have hpos := g.sectorsPerCluster_pos
  rw [Geo.bytesPerCluster]
  omega

@[simp] lemma clustersFor_zero (g : Geo) : g.clustersFor 0 = 0 := by
  have hpos := bytesPerCluster_pos g
  exact Nat.div_eq_of_lt (by omega)

lemma clustersFor_eq (hlo : i * g.bytesPerCluster < size)
    (hhi : size ≤ i * g.bytesPerCluster + g.bytesPerCluster) : g.clustersFor size = i + 1 := by
  have hpos := bytesPerCluster_pos g
  have hmul := Nat.add_one_mul i g.bytesPerCluster
  rw [Geo.clustersFor, Nat.div_eq_iff hpos]
  constructor
  · omega
  · omega

lemma clustersFor_le_iff : g.clustersFor size ≤ k ↔ size ≤ k * g.bytesPerCluster := by
  have hpos := bytesPerCluster_pos g
  rw [Geo.clustersFor, ← Nat.lt_add_one_iff, Nat.div_lt_iff_lt_mul hpos, Nat.add_one_mul]
  omega

lemma clustersFor_max {a b : Nat} :
    g.clustersFor (max a b) = max (g.clustersFor a) (g.clustersFor b) := by
  have hmono : ∀ {a b}, a ≤ b → g.clustersFor a ≤ g.clustersFor b := fun hle =>
    Nat.div_le_div_right (by omega)
  rcases Nat.le_total a b with hle | hle
  · rw [Nat.max_eq_right hle, Nat.max_eq_right (hmono hle)]
  · rw [Nat.max_eq_left hle, Nat.max_eq_left (hmono hle)]

/-- The file has as many clusters as its size needs. -/
def Exact (g : Geo) (size : Nat) (cs : List Nat) : Prop := cs.length = g.clustersFor size

structure Found (g : Geo) (lay : Layout) (P : Nat) (name : List UInt8) (v : Vol) (x : Slot) :
    Prop where
  lookup : lookupSlot v.disk name (lay.slots g P) = some x
  not_directory : ¬ (entryAt v.disk x).Directory

lemma Found.mem (h : Found g lay P name v x) : x ∈ lay.slots g P := (lookupSlot_some h.lookup).1

lemma Found.live (h : Found g lay P name v x) : (entryAt v.disk x).Live :=
  (lookupSlot_some h.lookup).2.1

lemma Found.chain (hv : Valid g v lay) (hP : lay.isDir P) (h : Found g lay P name v x) :
    FileChain g v.fat (entryAt v.disk x).first (lay.chain (.file x)) :=
  hv.file P hP x h.mem h.live h.not_directory

/-! ## `fat16_write_file` -/

def LastOf (cs : List Nat) (last : Nat) : Prop := cs = [] ∧ last = 0 ∨ ∃ pre, cs = pre ++ [last]

lemma linkCluster_spec (hv : Valid g v lay) (h : Draft g lay x first cs v s.vol)
    (hlast : LastOf cs last) (hc : g.Cluster c) (hfree : s.vol.fat c = 0) :
    Ends (linkCluster g last c) (s.alloc c) fun _ t => t.io = s.io ∧ t.vol.disk = s.vol.disk ∧
      g.free t.vol.fat + 1 = g.free s.vol.fat ∧
      Draft g lay x (if last = 0 then c else first) (cs ++ [c]) v t.vol := by
  have hc' : c < g.fatEntries := Nat.lt_of_lt_of_le hc.2 hv.fits.entries
  rw [linkCluster]
  rcases hlast with ⟨rfl, rfl⟩ | ⟨pre, rfl⟩
  · rw [if_pos rfl, if_pos rfl]
    refine (setFat_spec hc').mono ?_
    rintro _ _ rfl
    refine ⟨rfl, rfl, ?_, h.begin hv hc hfree (Function.update_idem _ _ _)⟩
    rw [St.alloc, St.withFat, St.withFat, Function.update_idem]
    exact free_take hc hfree (by decide)
  · have hcl := h.chain.cluster (c := last) (by simp)
    have hne := (h.fresh hv hfree).1
    have h2 := hcl.1
    rw [if_neg (by omega), if_neg (by omega)]
    refine (setFat_spec (Nat.lt_of_lt_of_le hcl.2 hv.fits.entries)).seq ?_
    rintro _ _ rfl
    refine (setFat_spec hc').mono ?_
    rintro _ _ rfl
    have hcl' : last ≠ c := by
      rintro rfl
      exact hne (by simp)
    have hlink : Function.update (Function.update (Function.update s.vol.fat c 0xFFFF) last
        (c % 0x10000)) c (0xFFFF % 0x10000) =
        Function.update (Function.update s.vol.fat c 0xFFFF) last c := by
      rw [Function.update_comm hcl', Function.update_idem, Nat.mod_eq_of_lt (hv.fits.lt hc)]
    have hused : Function.update s.vol.fat c 0xFFFF last ≠ 0 := by
      rw [Function.update_of_ne hcl']
      exact FileChain.fat_ne_zero h.chain (by simp)
    refine ⟨rfl, rfl, ?_, h.extend hv hc hfree fun b => ?_⟩
    · refine Eq.trans (congrArg (g.free · + 1) hlink) ?_
      have hc2 := hc.1
      rw [free_keep hcl hused (by omega)]
      exact free_take hc hfree (by decide)
    · refine (congrFun hlink b).trans ?_
      rw [Function.update_apply, Function.update_apply]

/-- The first `k` bytes of a file with this chain are those of `buf`. -/
def Stored (g : Geo) (buf : List UInt8) (disk : Nat → Mem) (cs : List Nat) (k : Nat) : Prop :=
  ∀ i < k, fileByte g disk cs i = buf.getD i 0

lemma Stored.append {disk disk' : Nat → Mem}
    (h : Stored g buf disk cs (cs.length * g.bytesPerCluster)) (hbuf : buf.length < 0x100000000)
    (hold : ∀ b ∈ cs, ∀ lba ∈ clusterLbas g b, disk' lba = disk lba)
    (hnew : ∀ j < g.sectorsPerCluster, disk' (clusterSector g c j) = fun b =>
      buf.getD ((cs.length * g.bytesPerCluster + 512 * j + b) % 0x100000000) 0) :
    Stored g buf disk' (cs ++ [c])
      (min ((cs ++ [c]).length * g.bytesPerCluster) buf.length) := by
  intro i hi
  rw [List.length_append, List.length_singleton, Nat.add_one_mul] at hi
  by_cases hin : i < cs.length * g.bytesPerCluster
  · rw [fileByte_of_isPrefix (List.prefix_append cs [c]) hin, fileByte_congr hin hold]
    exact h i hin
  · -- byte `i` is in sector `j` of the new cluster
    obtain ⟨off, rfl⟩ := Nat.exists_eq_add_of_le (Nat.le_of_not_lt hin)
    have hsec : off / 512 < g.sectorsPerCluster := by
      rw [Geo.bytesPerCluster] at hi
      omega
    have hsize : cs.length * g.bytesPerCluster = cs.length * g.sectorsPerCluster * 512 :=
      (Nat.mul_assoc _ _ _).symm
    have hq : (cs.length * g.bytesPerCluster + off) / 512 =
        cs.length * g.sectorsPerCluster + off / 512 := by omega
    have hlast : (cs ++ [c])[cs.length]? = some c := List.getElem?_concat_length
    rw [fileByte, hq, sectorAt_of_getElem? hlast hsec, hnew _ hsec]
    have hmod : (cs.length * g.bytesPerCluster + off) % 512 = off % 512 := by omega
    have hbyte : cs.length * g.bytesPerCluster + 512 * (off / 512) + off % 512 =
        cs.length * g.bytesPerCluster + off := by omega
    dsimp only
    rw [hmod, hbyte, Nat.mod_eq_of_lt (by omega)]

lemma payload_spec (hg : g.Fits) (hc : g.Cluster c) (s : St) (written : Nat) :
    Ends (writeSectors (payload g buf c written)) s fun r t =>
      Writes (· ∈ clusterLbas g c) s t ∧ (r = false → s.io ≠ working) ∧
        (r = true → ∀ k < g.sectorsPerCluster, t.vol.disk (clusterSector g c k) = fun b =>
          buf.getD ((written + 512 * k + b) % 0x100000000) 0) := by
  have hmem : ∀ w ∈ payload g buf c written, ∃ k < g.sectorsPerCluster,
      clusterSector g c k = w.1 ∧
        w.2 = fun b => buf.getD ((written + 512 * k + b) % 0x100000000) 0 := by
    intro w hw
    obtain ⟨k, hk, rfl⟩ := List.mem_map.mp hw
    exact ⟨k, List.mem_range.mp hk, rfl, rfl⟩
  refine (writeSectors_spec s _ fun w hw w' hw' heq => ?_).mono ?_
  · obtain ⟨k, hk, hlba, hdata⟩ := hmem w hw
    obtain ⟨k', hk', hlba', hdata'⟩ := hmem w' hw'
    have h16 := hg.lt hc
    obtain ⟨-, rfl⟩ := clusterSector_inj hc.1 h16 hk hc.1 h16 hk'
      (hlba.trans (heq.trans hlba'.symm))
    rw [hdata, hdata']
  · rintro r t ⟨hw, hfail, hdata⟩
    refine ⟨hw.mono ?_, hfail, fun hr k hk => ?_⟩
    · rintro lba ⟨w, hw, rfl⟩
      obtain ⟨k, hk, hlba, -⟩ := hmem w hw
      exact mem_clusterLbas.mpr ⟨k, hk, hlba⟩
    · exact hdata hr _ (List.mem_map.mpr ⟨k, List.mem_range.mpr hk, rfl⟩)

/-- The loop of `fat16_write_file` ends with a chain for all of `buf`, or before it has one; on a
working device only because no cluster is left. -/
structure LoopLeft (g : Geo) (lay : Layout) (x : Slot) (buf : List UInt8) (cs : List Nat) (v : Vol)
    (s : St) (r : Option Nat) (t : St) : Prop where
  io : s.io = working → t.io = working
  success : ∀ first, r = some first → ∃ cs', Draft g lay x first cs' v t.vol ∧
    Exact g buf.length cs' ∧ Stored g buf t.vol.disk cs' buf.length ∧
    cs'.length + g.free t.vol.fat = cs.length + g.free s.vol.fat
  full : s.io = working → r = none → cs.length + g.free s.vol.fat < g.clustersFor buf.length
  none_free : s.io = working → r = none → g.free s.vol.fat = 0 → t = s

lemma writeFileLoop_spec (hv : Valid g v lay) (hbuf : buf.length < 0x100000000) {written : Nat}
    (h : Draft g lay x first cs v s.vol) (hlast : LastOf cs last)
    (hwritten : written = min (cs.length * g.bytesPerCluster) buf.length)
    (hstored : Stored g buf s.vol.disk cs written)
    (hshort : cs.length * g.bytesPerCluster < buf.length + g.bytesPerCluster)
    (hn : 0x10000 < n + cs.length) :
    Ends (writeFileLoop g buf n first last written) s fun r t =>
      LoopLeft g lay x buf cs v s r t := by
  induction n generalizing first cs last written s with
  | zero =>
    have hlen : cs.length ≤ 0x10000 :=
      length_le_of_nodup (h.chain.walk_stop hv.fits).nodup fun c hc => hv.fits.lt
        (h.chain.cluster hc)
    omega
  | succ n ih =>
    rw [writeFileLoop]
    split
    case isFalse hend =>
      refine .pure ⟨id, ?_, nofun, nofun⟩
      rintro _ ⟨⟩
      refine ⟨cs, h, ?_, ?_, rfl⟩
      · cases hcs : cs.length with
        | zero =>
          rw [hcs, Nat.zero_mul, Nat.zero_min] at hwritten
          have h0 : buf.length = 0 := by omega
          rw [Exact, hcs, h0, clustersFor_zero]
        | succ i =>
          have hmul := Nat.add_one_mul i g.bytesPerCluster
          rw [hcs] at hwritten hshort
          rw [Exact, hcs, clustersFor_eq (i := i) (by omega) (by omega)]
      · intro i hi
        exact hstored i (by omega)
    case isTrue hmore =>
      have hall : written = cs.length * g.bytesPerCluster := by omega
      have hlack : cs.length < g.clustersFor buf.length := by
        rw [← Nat.not_le, clustersFor_le_iff]
        omega
      refine (fat16AllocCluster_spec hv.fits).seq ?_
      rintro c _ (⟨rfl, rfl, hused⟩ | ⟨hc, hfree, rfl⟩)
      · rw [if_pos rfl]
        refine .pure ⟨id, nofun, fun _ _ => ?_, fun _ _ _ => rfl⟩
        rwa [free_eq_zero hused, Nat.add_zero]
      have hc2 := hc.1
      rw [if_neg (by omega)]
      refine (linkCluster_spec hv h hlast hc hfree).seq ?_
      rintro _ s₁ ⟨hio, hdisk, hcount, hdraft⟩
      refine (payload_spec hv.fits hc s₁ written).seq ?_
      rintro ok s₂ ⟨hw, hfail, hdata⟩
      have hio₂ : s.io = working → s₂.io = working := fun hio' => hw.io (hio.trans hio')
      cases ok with
      | false =>
        have hbad : s.io = working → False := fun h => hfail rfl (hio.trans h)
        exact .pure ⟨hio₂, nofun, fun h => (hbad h).elim, fun h => (hbad h).elim⟩
      | true =>
        have hdraft₂ := hdraft.write hw fun lba hlba => ⟨c, by simp, hlba⟩
        have hmul := Nat.add_one_mul cs.length g.bytesPerCluster
        have hlen : (cs ++ [c]).length = cs.length + 1 := by simp
        have hnew : c ∉ cs := (h.fresh hv hfree).1
        have hstored₂ : Stored g buf s₂.vol.disk (cs ++ [c])
            (min ((cs ++ [c]).length * g.bytesPerCluster) buf.length) := by
          rw [hall] at hstored hdata
          refine hstored.append hbuf (fun b hb lba hlba => ?_) (hdata rfl)
          have hne : lba ∉ clusterLbas g c := fun hlba' => hnew <| by
            rwa [clusterLbas_disjoint hv.fits hc (h.chain.cluster hb) hlba' hlba]
          rw [hw.disk lba hne, hdisk]
        rw [if_pos rfl]
        have hwr : written + min g.bytesPerCluster (buf.length - written) =
            min ((cs ++ [c]).length * g.bytesPerCluster) buf.length := by
          rw [hlen]
          omega
        rw [← hwr] at hstored₂
        have hfree₂ : g.free s₂.vol.fat + 1 = g.free s.vol.fat := by rw [hw.fat, hcount]
        refine (ih hdraft₂ (.inr ⟨cs, rfl⟩) hwr hstored₂ (by rw [hlen]; omega)
          (by rw [hlen]; omega)).mono ?_
        rintro r t ⟨hio', hsome, hfull, -⟩
        refine ⟨fun h => hio' (hio₂ h), fun first' hr => ?_, fun h hr => ?_, fun _ _ h0 => ?_⟩
        · obtain ⟨cs', hdraft', hexact, hst, hbooks⟩ := hsome first' hr
          exact ⟨cs', hdraft', hexact, hst, by omega⟩
        · have hlt := hfull (hio₂ h) hr
          omega
        · omega

def SameData (g : Geo) (cs : List Nat) (v v' : Vol) : Prop :=
  ∀ c ∈ cs, ∀ lba ∈ clusterLbas g c, v'.disk lba = v.disk lba

lemma SameData.trans {v₁ : Vol} (h : SameData g cs v v₁) (h' : SameData g cs v₁ v') :
    SameData g cs v v' :=
  fun c hc lba hlba => (h' c hc lba hlba).trans (h c hc lba hlba)

lemma Draft.sameData_flush (hg : g.Fits) (h : Draft g lay x first cs v s.vol)
    (hw : ∀ lba, g.rootStartLba ≤ lba → t.vol.disk lba = s.vol.disk lba) :
    SameData g cs s.vol t.vol := by
  intro c hc lba hlba
  have hle := dataStartLba_le hg (h.chain.cluster hc) hlba
  exact hw lba (Nat.le_trans (rootStartLba_le g) hle)

lemma Draft.sameData_commit (hv : Valid g v lay) (h : Draft g lay x first cs v s.vol)
    (hsector : x.1 ∈ lay.sectors g P) (hw : Writes (· = x.1) s t) : SameData g cs s.vol t.vol := by
  intro c hc lba hlba
  refine hw.disk lba ?_
  rintro rfl
  exact h.not_mem_of_sector hv hsector hc hlba

structure WriteFileSpec (g : Geo) (lay : Layout) (P : Nat) (name : List UInt8) (len : Nat) (s : St)
    (r : Bool) (t : St) : Prop where
  io : s.io = working → t.io = working
  success : r = true → ∃ x first cs, Found g lay P name s.vol x ∧
    Rewritten g lay x first len cs s.vol t.vol ∧ Exact g len cs ∧ Copies g t.vol

/-- What there is besides after `fat16_write_file`: the bytes of the file, and why a call on a
working device fails. -/
structure WriteFileLeft (g : Geo) (lay : Layout) (P : Nat) (name buf : List UInt8) (s : St)
    (r : Bool) (t : St) : Prop where
  success : r = true → ∃ x first cs, Found g lay P name s.vol x ∧
    Rewritten g lay x first buf.length cs s.vol t.vol ∧ Exact g buf.length cs ∧
    Stored g buf t.vol.disk cs buf.length
  full : s.io = working → r = false → ∀ x, Found g lay P name s.vol x →
    (lay.chain (.file x)).length + g.free s.vol.fat < g.clustersFor buf.length
  none_free : s.io = working → r = false → ∀ x, Found g lay P name s.vol x →
    lay.chain (.file x) = [] → g.free s.vol.fat = 0 → t.vol = s.vol

lemma Found.unique (h : Found g lay P name v x) (h' : Found g lay P name v y) : x = y :=
  Option.some.inj (h.lookup.symm.trans h'.lookup)

lemma fat16WriteFile_left (hv : Valid g s.vol lay) (hP : lay.isDir P) (hn : Enough g n)
    (hbuf : buf.length < 0x100000000) :
    Ends (fat16WriteFile g n P name buf) s fun r t =>
      WriteFileSpec g lay P (to83 name) buf.length s r t ∧
        WriteFileLeft g lay P (to83 name) buf s r t := by
  refine ready_rule hv.ready ?_
  refine (dirLookup_spec hv.walkable hP hn).seq ?_
  rintro r s₁ ⟨hreads, hlook⟩
  have hlost : (s.io = working → ∀ x, ¬ Found g lay P (to83 name) s.vol x) → ∀ t : St,
      WriteFileLeft g lay P (to83 name) buf s false t := fun h t =>
    ⟨nofun, fun hio _ x hx => (h hio x hx).elim, fun hio _ x hx => (h hio x hx).elim⟩
  cases r with
  | missing =>
    exact .pure ⟨⟨hreads.io, nofun⟩,
      hlost (fun _ x hx => nomatch (hlook.missing rfl).symm.trans hx.lookup) _⟩
  | ioError => exact .pure ⟨⟨hreads.io, nofun⟩, hlost (fun hio => (hlook.ioError rfl hio).elim) _⟩
  | found hit =>
  obtain ⟨hslot, hentry, hdata⟩ := hlook.found hit rfl
  dsimp only
  rw [hentry, hdata]
  split
  case isTrue hdir =>
    refine .pure ⟨⟨hreads.io, nofun⟩, hlost (fun _ x hx => ?_) _⟩
    obtain rfl := Option.some.inj (hslot.symm.trans hx.lookup)
    exact hx.not_directory hdir
  case isFalse hdir =>
  have hx : Found g lay P (to83 name) s.vol (hit.lba, hit.index) := ⟨hslot, hdir⟩
  have hfile := hx.chain hv hP
  have hpos := g.sectorsPerCluster_pos
  have hturns : 0x10000 < n := by
    unfold Enough at hn
    omega
  have hnodup := (hfile.walk_stop hv.fits).nodup
  have hlen : (lay.chain (.file (hit.lba, hit.index))).length ≤ 0x10000 :=
    length_le_of_nodup hnodup fun c hc => hv.fits.lt (hfile.cluster hc)
  refine (fat16FreeChain_spec (s := s₁) hv.fits (by rw [hreads.vol]; exact hfile.walk_stop hv.fits)
    (fun c hc => hfile.cluster hc) (by omega)).seq ?_
  rintro _ _ rfl
  have hfreed : Draft g lay (hit.lba, hit.index) 0 [] s.vol (s₁.withFat fun c =>
      if c ∈ lay.chain (.file (hit.lba, hit.index)) then 0 else s₁.vol.fat c).vol := by
    refine ⟨by rw [St.withFat, hreads.vol], .inl ⟨rfl, rfl⟩, by simp, fun o ho c hc => ?_,
      fun lba _ _ => by rw [St.withFat, hreads.vol]⟩
    show (if _ then 0 else s₁.vol.fat c) = _
    rw [if_neg (hv.disjoint o _ ho c hc), hreads.vol]
  have hgiven : g.free (fun c => if c ∈ lay.chain (.file (hit.lba, hit.index)) then 0
      else s₁.vol.fat c) = (lay.chain (.file (hit.lba, hit.index))).length + g.free s.vol.fat := by
    rw [hreads.vol]
    exact free_give hnodup fun c hc => ⟨hfile.cluster hc, hfile.fat_ne_zero hc⟩
  refine (writeFileLoop_spec hv hbuf hfreed (.inl ⟨rfl, rfl⟩) (by simp)
    (fun _ h => absurd h (Nat.not_lt_zero _)) (by
    have hb := bytesPerCluster_pos g
    simp only [List.length_nil, Nat.zero_mul]
    omega) (by simpa using hturns)).seq ?_
  rintro chain s₂ ⟨hio₂, hsome, hfull, hnone⟩
  have hio : s.io = working → s₂.io = working := fun h => hio₂ (hreads.io h)
  cases chain with
  | none =>
    refine .pure ⟨⟨hio, nofun⟩, nofun, fun h _ x hx' => ?_, fun h _ x hx' hnil h0 => ?_⟩
    · obtain rfl := hx.unique hx'
      have hlt := hfull (hreads.io h) rfl
      rw [St.withFat, hgiven] at hlt
      simpa using hlt
    · obtain rfl := hx.unique hx'
      have hsame := hnone (hreads.io h) rfl (by rw [St.withFat, hgiven, hnil, h0]; rfl)
      rw [hsame, St.withFat, hnil, ← hreads.vol]
      simp only [List.not_mem_nil, if_false]
  | some first =>
  obtain ⟨cs, hdraft, hexact, hstored, -⟩ := hsome first rfl
  have hzero : (if buf.length = 0 then 0 else first) = first := by
    split
    case isTrue h0 =>
      rw [Exact, h0, clustersFor_zero, List.length_eq_zero_iff] at hexact
      rw [hexact] at hdraft
      rcases hdraft.chain with ⟨-, hf⟩ | hch
      · exact hf.symm
      · exact absurd rfl hch.ne_nil
    case isFalse => rfl
  have hfirst : first < 0x10000 := by
    rcases hdraft.chain.first_cases with ⟨h0, -⟩ | ⟨-, hch⟩
    · omega
    · exact hv.fits.lt hch.start_cluster
  dsimp only
  rw [hzero]
  have hdead : ∀ {t : St}, s₂.io ≠ working → WriteFileLeft g lay P (to83 name) buf s false t :=
    fun h => ⟨nofun, fun hw => (h (hio hw)).elim, fun hw => (h (hio hw)).elim⟩
  refine (blockWriteSector_spec s₂ _ _).seq ?_
  rintro ok s₃ ⟨hw, ⟨rfl, hbad, -⟩ | ⟨rfl, hvol⟩⟩
  · exact .pure ⟨⟨fun h => hw.io (hio h), nofun⟩, hdead hbad⟩
  rw [if_pos rfl]
  have hre := hdraft.commit hv hx.mem hx.live hdir hfirst hbuf hvol
  refine (fat16FlushFat_spec s₃).mono ?_
  rintro r t ⟨hwt, hfail, hcopies⟩
  refine ⟨⟨fun h => hwt.io (hw.io (hio h)), fun hr =>
    ⟨_, first, cs, hx, hre.flush hv hx.mem hwt, hexact, hcopies hr⟩⟩, ?_⟩
  cases r with
  | false => exact hdead fun h => hfail rfl (hw.io h)
  | true =>
    have hdata : SameData g cs s₂.vol t.vol :=
      (hdraft.sameData_commit hv (mem_slotsOf.mp hx.mem).1 hw).trans fun c hc lba hlba =>
        hwt.disk lba (Nat.not_lt.mpr ((rootStartLba_le g).trans
          (dataStartLba_le hv.fits (hdraft.chain.cluster hc) hlba)))
    refine ⟨fun _ => ⟨_, first, cs, hx, hre.flush hv hx.mem hwt, hexact, fun i hi => ?_⟩,
      by simp, by simp⟩
    rw [← hstored i hi]
    exact fileByte_congr (Nat.lt_of_lt_of_le hi (clustersFor_le_iff.mp hexact.ge)) hdata

lemma fat16WriteFile_spec (hv : Valid g s.vol lay) (hP : lay.isDir P) (hn : Enough g n)
    (hbuf : buf.length < 0x100000000) :
    Ends (fat16WriteFile g n P name buf) s fun r t =>
      WriteFileSpec g lay P (to83 name) buf.length s r t :=
  (fat16WriteFile_left hv hP hn hbuf).mono fun _ _ h => h.1

end NullOS.Fat16
