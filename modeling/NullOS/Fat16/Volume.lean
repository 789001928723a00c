import NullOS.Fat16.Basic
import NullOS.Lib.Walk
import Mathlib.Data.List.Flatten
import Mathlib.Tactic.Ring

/-!
# What is on a volume

The slots of a directory, the chains of clusters, and which directories there are: the root, and
whatever a live entry of a directory with `ATTR_DIRECTORY` points to.  A volume is sound when every
directory and every file has a chain of its own.  The proofs work with a layout, which names them.
-/

namespace NullOS.Fat16

open Lib

variable {g : Geo} {v v' : Vol} {disk disk' : Nat → Mem} {fat fat' : Nat → Nat}
  {c c' d k k' i j lba : Nat} {cs cs' L : List Nat} {buf : Mem} {e : Dirent}

/-! ## Regions -/

lemma dataStartLba_lt (g : Geo) : g.dataStartLba < 0x2000000 := by
  have h0 := g.fatStartLba_lt
  have h1 := g.rootSectorCount_le
  have h2 : g.numFats * g.fatSizeSectors ≤ 0xFF * 0xFFFF :=
    Nat.mul_le_mul (Nat.le_of_lt_succ g.numFats_lt) (Nat.le_of_lt_succ g.fatSizeSectors_lt)
  unfold Geo.dataStartLba Geo.rootStartLba
  omega

lemma rootStartLba_le (g : Geo) : g.rootStartLba ≤ g.dataStartLba := Nat.le_add_right _ _

lemma clusterSector_eq (h2 : 2 ≤ c) (hc : c < 0x10000) (hk : k < g.sectorsPerCluster) :
    clusterSector g c k = g.dataStartLba + ((c - 2) * g.sectorsPerCluster + k) := by
  have hd := dataStartLba_lt g
  have hs := g.sectorsPerCluster_lt
  have hm : (c - 2) * g.sectorsPerCluster ≤ 0x10000 * 0xFF :=
    Nat.mul_le_mul (by omega) (by omega)
  rw [clusterSector, fat16ClusterToLba, show (c + 0x100000000 - 2) % 0x100000000 = c - 2 by omega]
  omega

lemma fat16ClusterToLba_eq (h2 : 2 ≤ c) (hc : c < 0x10000) :
    fat16ClusterToLba g c = clusterSector g c 0 := by
  have hd := dataStartLba_lt g
  have hs := g.sectorsPerCluster_lt
  have hm : (c - 2) * g.sectorsPerCluster ≤ 0x10000 * 0xFF :=
    Nat.mul_le_mul (by omega) (by omega)
  rw [clusterSector, fat16ClusterToLba]
  omega

lemma clusterSector_inj (h2 : 2 ≤ c) (hc : c < 0x10000) (hk : k < g.sectorsPerCluster)
    (h2' : 2 ≤ c') (hc' : c' < 0x10000) (hk' : k' < g.sectorsPerCluster)
    (h : clusterSector g c k = clusterSector g c' k') : c = c' ∧ k = k' := by
  have hpos := g.sectorsPerCluster_pos
  rw [clusterSector_eq h2 hc hk, clusterSector_eq h2' hc' hk', Nat.add_left_cancel_iff] at h
  have hdiv : ∀ a b : Nat, b < g.sectorsPerCluster →
      (a * g.sectorsPerCluster + b) / g.sectorsPerCluster = a := by
    intro a b hb
    rw [Nat.mul_comm, Nat.mul_add_div hpos, Nat.div_eq_of_lt hb, Nat.add_zero]
  have hq := congrArg (· / g.sectorsPerCluster) h
  rw [hdiv _ _ hk, hdiv _ _ hk'] at hq
  have hcc : c = c' := by omega
  subst hcc
  exact ⟨rfl, by omega⟩

def clusterLbas (g : Geo) (c : Nat) : List Nat :=
  (List.range g.sectorsPerCluster).map (clusterSector g c)

lemma mem_clusterLbas : lba ∈ clusterLbas g c ↔ ∃ k < g.sectorsPerCluster,
    clusterSector g c k = lba := by
  simp [clusterLbas]

/-- The sectors of a directory with this chain of clusters; the root directory has none. -/
def dirSectors (g : Geo) (d : Nat) (cs : List Nat) : List Nat :=
  if d = 0 then (List.range g.rootSectorCount).map (g.rootStartLba + ·)
  else cs.flatMap (clusterLbas g)

def Geo.Cluster (g : Geo) (c : Nat) : Prop := 2 ≤ c ∧ c < g.totalClusters

structure Geo.Fits (g : Geo) : Prop where
  entries : g.totalClusters ≤ g.fatEntries
  ends : g.totalClusters ≤ 0xFFF0

lemma Geo.Fits.lt (h : g.Fits) (hc : g.Cluster c) : c < 0x10000 := by
  have hends := h.ends
  have hlt := hc.2
  omega

lemma clusterLbas_disjoint (hg : g.Fits) (hc : g.Cluster c) (hc' : g.Cluster c')
    (h : lba ∈ clusterLbas g c) (h' : lba ∈ clusterLbas g c') : c = c' := by
  obtain ⟨k, hk, rfl⟩ := mem_clusterLbas.mp h
  obtain ⟨k', hk', heq⟩ := mem_clusterLbas.mp h'
  exact (clusterSector_inj hc'.1 (hg.lt hc') hk' hc.1 (hg.lt hc) hk heq).1.symm

lemma clusterLbas_nodup (hg : g.Fits) (hc : g.Cluster c) : (clusterLbas g c).Nodup := by
  refine List.Nodup.map_on (fun k hk k' hk' heq => ?_) List.nodup_range
  rw [List.mem_range] at hk hk'
  exact (clusterSector_inj hc.1 (hg.lt hc) hk hc.1 (hg.lt hc) hk' heq).2

lemma dirSectors_nodup (hg : g.Fits) (hcs : cs.Nodup) (hc : ∀ c ∈ cs, g.Cluster c) :
    (dirSectors g d cs).Nodup := by
  rw [dirSectors]
  split
  · exact List.Nodup.map (fun a b hab => Nat.add_left_cancel hab) List.nodup_range
  · refine List.nodup_flatMap.mpr ⟨fun c hcc => clusterLbas_nodup hg (hc c hcc), ?_⟩
    refine hcs.imp_of_mem fun ha hb hne lba hla hlb => ?_
    exact hne (clusterLbas_disjoint hg (hc _ ha) (hc _ hb) hla hlb)

lemma dataStartLba_le (hg : g.Fits) (hc : g.Cluster c) (h : lba ∈ clusterLbas g c) :
    g.dataStartLba ≤ lba := by
  obtain ⟨k, hk, rfl⟩ := mem_clusterLbas.mp h
  rw [clusterSector_eq hc.1 (hg.lt hc) hk]
  exact Nat.le_add_right _ _

/-! ## Entries -/

lemma dirent_congr {buf' : Mem} (h : ∀ b < 32, buf' (32 * i + b) = buf (32 * j + b)) :
    dirent buf' i = dirent buf j := by
  have hname : ((List.range 11).map fun k => buf' (32 * i + k)) =
      (List.range 11).map fun k => buf (32 * j + k) :=
    List.map_congr_left fun k hk => h k (by rw [List.mem_range] at hk; omega)
  have hfirst : buf'.load16 (32 * i + 26) = buf.load16 (32 * j + 26) :=
    Mem.load16_congr fun k hk => by
      rw [Nat.add_assoc, Nat.add_assoc]
      exact h (26 + k) (by omega)
  have hsize : buf'.load32 (32 * i + 28) = buf.load32 (32 * j + 28) :=
    Mem.load32_congr fun k hk => by
      rw [Nat.add_assoc, Nat.add_assoc]
      exact h (28 + k) (by omega)
  rw [dirent, dirent, hname, hfirst, hsize, h 11 (by omega)]

structure Dirent.Fits (e : Dirent) : Prop where
  name : e.name.length = 11
  first : e.first < 0x10000
  size : e.size < 0x100000000

lemma dirent_fits (buf : Mem) (i : Nat) : (dirent buf i).Fits :=
  ⟨by simp [dirent], Mem.load16_lt, Mem.load32_lt⟩

lemma dirent_putDirent_self (h : e.Fits) : dirent (putDirent buf i e) i = e := by
  have hb : ∀ b < 32, putDirent buf i e (32 * i + b) = e.bytes b := fun b hb => by
    rw [putDirent, Mem.blit_of_mem (by omega) (by omega), Nat.add_sub_cancel_left]
  obtain ⟨name, attr, first, size⟩ := e
  obtain ⟨hname, hfirst, hsize⟩ := h
  dsimp only at hname hfirst hsize
  rw [dirent, hb 11 (by omega)]
  have hn : ((List.range 11).map fun k => putDirent buf i ⟨name, attr, first, size⟩ (32 * i + k)) =
      name := by
    refine List.ext_getElem (by simp [hname]) fun k hk hk' => ?_
    rw [List.length_map, List.length_range] at hk
    rw [List.getElem_map, List.getElem_range, hb k (by omega), Dirent.bytes, if_pos hk]
    simp [hk']
  have hf : (putDirent buf i ⟨name, attr, first, size⟩).load16 (32 * i + 26) = first := by
    refine Eq.trans (Mem.load16_congr fun k hk => ?_)
      (Mem.load16_store16 (m := buf) (a := 32 * i + 26) hfirst)
    rw [Nat.add_assoc, hb (26 + k) (by omega), Dirent.bytes, if_neg (by omega), if_neg (by omega),
      if_pos (by omega), Mem.store16, Mem.blit_of_mem (by omega) (by omega)]
    congr 1
    omega
  have hs : (putDirent buf i ⟨name, attr, first, size⟩).load32 (32 * i + 28) = size := by
    refine Eq.trans (Mem.load32_congr fun k hk => ?_)
      (Mem.load32_store32 (m := buf) (a := 32 * i + 28) hsize)
    rw [Nat.add_assoc, hb (28 + k) (by omega), Dirent.bytes, if_neg (by omega), if_neg (by omega),
      if_neg (by omega), if_pos (by omega), Mem.store32, Mem.blit_of_mem (by omega) (by omega)]
    congr 1
    omega
  rw [hn, hf, hs]
  rfl

lemma dirent_putDirent_of_ne (h : j ≠ i) : dirent (putDirent buf i e) j = dirent buf j :=
  dirent_congr fun b hb => Mem.blit_of_not_mem (by omega)

lemma dirent_updateDirent_self {first size : Nat} (hf : first < 0x10000)
    (hs : size < 0x100000000) :
    dirent (updateDirent buf i first size) i = { dirent buf i with first, size } := by
  have hlow : ∀ b < 26, updateDirent buf i first size (32 * i + b) = buf (32 * i + b) :=
    fun b hb => by
      rw [updateDirent, Mem.store32, Mem.blit_of_not_mem (by omega), Mem.store16,
        Mem.blit_of_not_mem (by omega)]
  have hname : ((List.range 11).map fun k => updateDirent buf i first size (32 * i + k)) =
      (List.range 11).map fun k => buf (32 * i + k) :=
    List.map_congr_left fun k hk => hlow k (by rw [List.mem_range] at hk; omega)
  have hfirst : (updateDirent buf i first size).load16 (32 * i + 26) = first := by
    rw [updateDirent, Mem.store32, Mem.load16_blit_of_disjoint (by omega), Mem.load16_store16 hf]
  rw [dirent, hname, hlow 11 (by omega), hfirst, updateDirent, Mem.load32_store32 hs]
  rfl

lemma dirent_updateDirent_of_ne {first size : Nat} (h : j ≠ i) :
    dirent (updateDirent buf i first size) j = dirent buf j :=
  dirent_congr fun b hb => by
    rw [updateDirent, Mem.store32, Mem.blit_of_not_mem (by omega), Mem.store16,
      Mem.blit_of_not_mem (by omega)]

lemma dirent_zeroSector_empty : (dirent zeroSector i).Empty := rfl

lemma Dirent.Empty.not_live (h : e.Empty) : ¬ e.Live := fun hl => hl.1 h

lemma Dirent.Deleted.not_live (h : e.Deleted) : ¬ e.Live := fun hl => hl.2.1 h

abbrev Slot := Nat × Nat

def entryAt (disk : Nat → Mem) (s : Slot) : Dirent := dirent (disk s.1) s.2

def slotsOf (L : List Nat) : List Slot := L.flatMap fun lba => (List.range 16).map fun i => (lba, i)

lemma mem_slotsOf {s : Slot} : s ∈ slotsOf L ↔ s.1 ∈ L ∧ s.2 < 16 := by
  obtain ⟨lba, i⟩ := s
  simp [slotsOf]

lemma slotsOf_cons : slotsOf (lba :: L) = ((List.range 16).map fun i => (lba, i)) ++ slotsOf L :=
  List.flatMap_cons

lemma slotsOf_append {L' : List Nat} : slotsOf (L ++ L') = slotsOf L ++ slotsOf L' :=
  List.flatMap_append

lemma slotsOf_nodup (h : L.Nodup) : (slotsOf L).Nodup := by
  refine List.nodup_flatMap.mpr ⟨fun lba _ => ?_, h.imp fun hne s hs hs' => ?_⟩
  · exact List.Nodup.map (fun i j hij => (Prod.mk.inj hij).2) List.nodup_range
  · obtain ⟨i, -, rfl⟩ := List.mem_map.mp hs
    obtain ⟨j, -, heq⟩ := List.mem_map.mp hs'
    exact hne (Prod.mk.inj heq).1.symm

lemma entryAt_congr {s : Slot} (h : disk' s.1 = disk s.1) : entryAt disk' s = entryAt disk s := by
  rw [entryAt, entryAt, h]

lemma entryAt_update_of_ne {s : Slot} {new : Mem} (h : s ≠ (lba, i))
    (hne : ∀ j ≠ i, dirent new j = dirent (disk lba) j) :
    entryAt (Function.update disk lba new) s = entryAt disk s := by
  by_cases hlba : s.1 = lba
  · rw [entryAt, entryAt, hlba, Function.update_self]
    exact hne s.2 fun hi => h (Prod.ext hlba hi)
  · exact entryAt_congr (Function.update_of_ne hlba _ _)

lemma entryAt_update_self {new : Mem} :
    entryAt (Function.update disk lba new) (lba, i) = dirent new i := by
  rw [entryAt, Function.update_self]

/-! ## Chains -/

/-- A cluster number that marks the end of a chain. -/
def EndMark (x : Nat) : Prop := 0xFFF8 ≤ x

/-- A chain that starts at `x`: clusters of the volume, linked, up to an end mark. -/
structure Chain (g : Geo) (fat : Nat → Nat) (x : Nat) (cs : List Nat) : Prop where
  ne_nil : cs ≠ []
  walk : Walk fat EndMark x cs
  cluster : ∀ c ∈ cs, g.Cluster c

def FileChain (g : Geo) (fat : Nat → Nat) (x : Nat) (cs : List Nat) : Prop :=
  cs = [] ∧ x = 0 ∨ Chain g fat x cs

lemma not_stop_of_cluster (hg : g.Fits) (hc : g.Cluster c) : ¬ Stop c := by
  have hends := hg.ends
  have hlt := hc.2
  rintro (h | h)
  · exact absurd hc.1 (by omega)
  · omega

lemma walk_stop_of_walk (hg : g.Fits) {x : Nat} (h : Walk fat EndMark x cs)
    (hc : ∀ c ∈ cs, g.Cluster c) : Walk fat Stop x cs := by
  induction cs generalizing x with
  | nil => exact .inr h
  | cons c cs ih =>
    obtain ⟨rfl, -, hrest⟩ := h
    exact ⟨rfl, not_stop_of_cluster hg (hc x (by simp)),
      ih hrest fun b hb => hc b (List.mem_cons_of_mem _ hb)⟩

namespace Chain

variable {x : Nat}

lemma walk_stop (hg : g.Fits) (h : Chain g fat x cs) : Walk fat Stop x cs :=
  walk_stop_of_walk hg h.walk h.cluster

lemma head_eq (h : Chain g fat x cs) : ∃ rest, cs = x :: rest := by
  cases cs with
  | nil => exact absurd rfl h.ne_nil
  | cons c cs =>
    obtain ⟨rfl, -⟩ := h.walk
    exact ⟨cs, rfl⟩

lemma head_mem (h : Chain g fat x cs) : x ∈ cs := by
  obtain ⟨rest, rfl⟩ := h.head_eq
  exact List.mem_cons_self

lemma start_cluster (h : Chain g fat x cs) : g.Cluster x := h.cluster x h.head_mem

lemma start_ne_zero (h : Chain g fat x cs) : x ≠ 0 := by
  have h2 := h.start_cluster.1
  omega

lemma fat_ne_zero (h : Chain g fat x cs) (hc : c ∈ cs) : fat c ≠ 0 := by
  obtain ⟨l, l', rfl⟩ := List.append_of_mem hc
  obtain ⟨-, -, hrest⟩ := h.walk.drop
  cases l' with
  | nil =>
    have hend : 0xFFF8 ≤ fat c := hrest
    omega
  | cons b l' =>
    obtain ⟨heq, -⟩ := hrest
    have h2 := (h.cluster b (by simp)).1
    omega

lemma congr (h : Chain g fat x cs) (hf : ∀ c ∈ cs, fat' c = fat c) : Chain g fat' x cs :=
  ⟨h.ne_nil, h.walk.congr hf, h.cluster⟩

lemma append (h : Chain g fat x (cs ++ [c])) (hf : ∀ b ∈ cs, fat' b = fat b) (hc : fat' c = c')
    (hc' : g.Cluster c') (hne : ¬ EndMark c') (hend : EndMark (fat' c')) :
    Chain g fat' x (cs ++ [c] ++ [c']) := by
  refine ⟨by simp, ?_, fun b hb => ?_⟩
  · rw [List.append_assoc]
    exact h.walk.link hf hc ⟨rfl, hne, hend⟩
  · rcases List.mem_append.mp hb with hb | hb
    · exact h.cluster b hb
    · rw [List.mem_singleton.mp hb]
      exact hc'

end Chain

lemma FileChain.congr {x : Nat} (h : FileChain g fat x cs) (hf : ∀ c ∈ cs, fat' c = fat c) :
    FileChain g fat' x cs :=
  h.imp_right fun hc => hc.congr hf

/-! ## Directories -/

/-- A slot of the directory at `d`, as a walk through the FAT cache finds it. -/
def SlotOf (g : Geo) (v : Vol) (d : Nat) (s : Slot) : Prop :=
  ∃ cs, Walk v.fat Stop d cs ∧ s ∈ slotsOf (dirSectors g d cs)

inductive IsDir (g : Geo) (v : Vol) : Nat → Prop
  | root : IsDir g v 0
  | sub {d : Nat} {s : Slot} : IsDir g v d → SlotOf g v d s → (entryAt v.disk s).Live →
      (entryAt v.disk s).Directory → IsDir g v (entryAt v.disk s).first

def IsFile (g : Geo) (v : Vol) (s : Slot) : Prop :=
  (∃ d, IsDir g v d ∧ SlotOf g v d s) ∧ (entryAt v.disk s).Live ∧ ¬ (entryAt v.disk s).Directory

inductive Owner
  | dir (d : Nat)
  | file (s : Slot)
deriving DecidableEq

def Owns (g : Geo) (v : Vol) : Owner → List Nat → Prop
  | .dir d, cs => IsDir g v d ∧ Walk v.fat Stop d cs
  | .file s, cs => IsFile g v s ∧ Walk v.fat Stop (entryAt v.disk s).first cs

/-- A mounted volume with well-formed, pairwise disjoint chains. -/
structure Sound (g : Geo) (v : Vol) : Prop where
  ready : v.ready = true
  fits : g.Fits
  dirs : ∀ d, IsDir g v d → d ≠ 0 → ∃ cs, Chain g v.fat d cs
  files : ∀ s, IsFile g v s → ∃ cs, FileChain g v.fat (entryAt v.disk s).first cs
  disjoint : ∀ o o' cs cs', Owns g v o cs → Owns g v o' cs' → o ≠ o' → ∀ c ∈ cs, c ∉ cs'

/-! ## Layouts -/

/-- Which directories there are, and the clusters of each directory and file. -/
structure Layout where
  isDir : Nat → Prop
  chain : Owner → List Nat

namespace Layout

def sectors (lay : Layout) (g : Geo) (d : Nat) : List Nat := dirSectors g d (lay.chain (.dir d))

def slots (lay : Layout) (g : Geo) (d : Nat) : List Slot := slotsOf (lay.sectors g d)

end Layout

variable {lay : Layout} {o o' : Owner} {s : Slot}

structure Walkable (g : Geo) (v : Vol) (lay : Layout) : Prop where
  fits : g.Fits
  root : lay.isDir 0
  walk : ∀ d, lay.isDir d → Walk v.fat Stop d (lay.chain (.dir d))
  cluster : ∀ d, lay.isDir d → ∀ c ∈ lay.chain (.dir d), g.Cluster c
  ne_nil : ∀ d, lay.isDir d → d ≠ 0 → lay.chain (.dir d) ≠ []
  closed : ∀ d, lay.isDir d → ∀ s ∈ lay.slots g d, (entryAt v.disk s).Live →
    (entryAt v.disk s).Directory → lay.isDir (entryAt v.disk s).first

/-- The layout is that of the volume. -/
structure Valid (g : Geo) (v : Vol) (lay : Layout) : Prop where
  ready : v.ready = true
  fits : g.Fits
  root : lay.isDir 0
  rootChain : lay.chain (.dir 0) = []
  dir : ∀ d, lay.isDir d → d ≠ 0 → Chain g v.fat d (lay.chain (.dir d))
  closed : ∀ d, lay.isDir d → ∀ s ∈ lay.slots g d, (entryAt v.disk s).Live →
    (entryAt v.disk s).Directory → lay.isDir (entryAt v.disk s).first
  file : ∀ d, lay.isDir d → ∀ s ∈ lay.slots g d, (entryAt v.disk s).Live →
    ¬ (entryAt v.disk s).Directory →
      FileChain g v.fat (entryAt v.disk s).first (lay.chain (.file s))
  used : ∀ o, ∀ c ∈ lay.chain o, g.Cluster c ∧ v.fat c ≠ 0
  disjoint : ∀ o o', o ≠ o' → ∀ c ∈ lay.chain o, c ∉ lay.chain o'

namespace Valid

lemma walk (h : Valid g v lay) (hd : lay.isDir d) : Walk v.fat Stop d (lay.chain (.dir d)) := by
  by_cases h0 : d = 0
  · subst h0
    rw [h.rootChain]
    exact .inl (by omega)
  · exact (h.dir d hd h0).walk_stop h.fits

lemma walkable (h : Valid g v lay) : Walkable g v lay :=
  ⟨h.fits, h.root, fun _ hd => h.walk hd, fun d _ c hc => (h.used (.dir d) c hc).1,
    fun d hd h0 => (h.dir d hd h0).ne_nil, h.closed⟩

end Valid

namespace Walkable

lemma slots_iff (h : Walkable g v lay) (hd : lay.isDir d) : SlotOf g v d s ↔ s ∈ lay.slots g d := by
  constructor
  · rintro ⟨cs, hw, hs⟩
    rwa [Layout.slots, Layout.sectors, (h.walk d hd).unique hw]
  · intro hs
    exact ⟨_, h.walk d hd, hs⟩

lemma slots_nodup (h : Walkable g v lay) (hd : lay.isDir d) : (lay.slots g d).Nodup :=
  slotsOf_nodup (dirSectors_nodup h.fits (h.walk d hd).nodup (h.cluster d hd))

lemma isDir (h : Walkable g v lay) (hd : IsDir g v d) : lay.isDir d := by
  induction hd with
  | root => exact h.root
  | sub hd hs hl hdir ih => exact h.closed _ ih _ ((h.slots_iff ih).mp hs) hl hdir

end Walkable

namespace Valid

lemma owns_iff (h : Valid g v lay) (hw : Owns g v o cs) : cs = lay.chain o := by
  cases o with
  | dir d => exact hw.2.unique (h.walk (h.walkable.isDir hw.1))
  | file s =>
    obtain ⟨⟨⟨d, hd, hs⟩, hl, hdir⟩, hcs⟩ := hw
    have hd' := h.walkable.isDir hd
    have hs' := (h.walkable.slots_iff hd').mp hs
    rcases h.file d hd' s hs' hl hdir with ⟨hnil, hx⟩ | hc
    · rw [hx] at hcs
      rw [hnil]
      exact hcs.unique (.inl (by omega))
    · exact hcs.unique (hc.walk_stop h.fits)

/-- **A volume with a valid layout is sound.** -/
lemma sound (h : Valid g v lay) : Sound g v := by
  refine ⟨h.ready, h.fits, fun d hd h0 => ⟨_, h.dir d (h.walkable.isDir hd) h0⟩, ?_, ?_⟩
  · rintro s ⟨⟨d, hd, hs⟩, hl, hdir⟩
    have hd' := h.walkable.isDir hd
    exact ⟨_, h.file d hd' s ((h.walkable.slots_iff hd').mp hs) hl hdir⟩
  · intro o o' cs cs' ho ho' hne
    rw [h.owns_iff ho, h.owns_iff ho']
    exact h.disjoint o o' hne

end Valid

open Classical in
noncomputable def Sound.layout (h : Sound g v) : Layout where
  isDir := IsDir g v
  chain o := match o with
    | .dir d => if hd : IsDir g v d ∧ d ≠ 0 then (h.dirs d hd.1 hd.2).choose else []
    | .file s => if hs : IsFile g v s then (h.files s hs).choose else []

lemma Sound.layout_dir (h : Sound g v) (hd : IsDir g v d) (h0 : d ≠ 0) :
    Chain g v.fat d (h.layout.chain (.dir d)) := by
  rw [show h.layout.chain (.dir d) = _ from dif_pos ⟨hd, h0⟩]
  exact (h.dirs d hd h0).choose_spec

lemma Sound.layout_root (h : Sound g v) : h.layout.chain (.dir 0) = [] := dif_neg (by simp)

lemma Sound.layout_file (h : Sound g v) (hs : IsFile g v s) :
    FileChain g v.fat (entryAt v.disk s).first (h.layout.chain (.file s)) := by
  rw [show h.layout.chain (.file s) = _ from dif_pos hs]
  exact (h.files s hs).choose_spec

lemma Sound.layout_walk (h : Sound g v) (hd : IsDir g v d) :
    Walk v.fat Stop d (h.layout.chain (.dir d)) := by
  by_cases h0 : d = 0
  · subst h0
    rw [h.layout_root]
    exact .inl (by omega)
  · exact (h.layout_dir hd h0).walk_stop h.fits

lemma Sound.layout_owns (h : Sound g v) (hc : c ∈ h.layout.chain o) :
    Owns g v o (h.layout.chain o) ∧ g.Cluster c ∧ v.fat c ≠ 0 := by
  cases o with
  | dir d =>
    by_cases hd : IsDir g v d ∧ d ≠ 0
    · have hch := h.layout_dir hd.1 hd.2
      exact ⟨⟨hd.1, h.layout_walk hd.1⟩, hch.cluster c hc, hch.fat_ne_zero hc⟩
    · rw [show h.layout.chain (.dir d) = [] from dif_neg hd] at hc
      simp at hc
  | file s =>
    by_cases hs : IsFile g v s
    · rcases h.layout_file hs with ⟨hnil, -⟩ | hch
      · rw [hnil] at hc
        simp at hc
      · exact ⟨⟨hs, hch.walk_stop h.fits⟩, hch.cluster c hc, hch.fat_ne_zero hc⟩
    · rw [show h.layout.chain (.file s) = [] from dif_neg hs] at hc
      simp at hc

/-- **A sound volume has a valid layout.** -/
lemma Sound.valid (h : Sound g v) : Valid g v h.layout := by
  have hslot : ∀ {d s}, IsDir g v d → s ∈ h.layout.slots g d → SlotOf g v d s := fun hd hs =>
    ⟨_, h.layout_walk hd, hs⟩
  refine ⟨h.ready, h.fits, .root, h.layout_root, fun d hd h0 => h.layout_dir hd h0, ?_, ?_,
    fun o c hc => (h.layout_owns hc).2, ?_⟩
  · intro d hd s hs hl hdir
    exact .sub hd (hslot hd hs) hl hdir
  · intro d hd s hs hl hdir
    exact h.layout_file ⟨⟨d, hd, hslot hd hs⟩, hl, hdir⟩
  · intro o o' hne c hc hc'
    exact h.disjoint o o' _ _ (h.layout_owns hc).1 (h.layout_owns hc').1 hne c hc hc'

end NullOS.Fat16
