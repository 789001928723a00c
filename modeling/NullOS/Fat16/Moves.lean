import NullOS.Fat16.Scan
import Mathlib.Logic.Relation

/-!
# How the directories change

All that `fat16_create` and `fat16_mkdir` do to a volume is a sequence of three kinds of moves:
changes that no directory or file can see, a full directory that grows by an empty cluster, and a
free slot that gets its entry.  Every invariant of the directories is a fact about these moves.
-/

namespace NullOS.Fat16

open Lib

variable {g : Geo} {v v' : Vol} {lay lay' : Layout} {d P G N c lba : Nat} {x y : Slot}
  {e : Dirent} {o : Owner} {Q : Nat → Dirent → Prop} {name path : List UInt8} {l l' : List Slot}
  {disk disk' : Nat → Mem}

/-! ## Sectors in use -/

def Layout.Used (lay : Layout) (g : Geo) (lba : Nat) : Prop :=
  lba ∈ dirSectors g 0 [] ∨ ∃ o, ∃ c ∈ lay.chain o, lba ∈ clusterLbas g c

lemma mem_rootSectors {cs : List Nat} (h : lba ∈ dirSectors g 0 cs) :
    g.rootStartLba ≤ lba ∧ lba < g.dataStartLba := by
  rw [dirSectors, if_pos rfl] at h
  obtain ⟨k, hk, rfl⟩ := List.mem_map.mp h
  rw [List.mem_range] at hk
  rw [Geo.dataStartLba]
  omega

lemma mem_sectors_iff (hd : d ≠ 0) :
    lba ∈ lay.sectors g d ↔ ∃ c ∈ lay.chain (.dir d), lba ∈ clusterLbas g c := by
  rw [Layout.sectors, dirSectors, if_neg hd, List.mem_flatMap]

lemma used_of_mem_sectors (h : lba ∈ lay.sectors g d) : lay.Used g lba := by
  by_cases hd : d = 0
  · subst hd
    left
    rw [Layout.sectors, dirSectors, if_pos rfl] at h
    rwa [dirSectors, if_pos rfl]
  · obtain ⟨c, hc, hmem⟩ := (mem_sectors_iff hd).mp h
    exact .inr ⟨_, c, hc, hmem⟩

lemma used_of_mem_slots (h : x ∈ lay.slots g d) : lay.Used g x.1 :=
  used_of_mem_sectors (mem_slotsOf.mp h).1

lemma Valid.not_used (h : Valid g v lay) (hc : g.Cluster c) (hfresh : ∀ o, c ∉ lay.chain o)
    (hmem : lba ∈ clusterLbas g c) : ¬ lay.Used g lba := by
  rintro (hroot | ⟨o, c', hc', hmem'⟩)
  · have hlt := (mem_rootSectors hroot).2
    have hle := dataStartLba_le h.fits hc hmem
    omega
  · have heq := clusterLbas_disjoint h.fits hc (h.used o c' hc').1 hmem hmem'
    rw [← heq] at hc'
    exact hfresh o hc'

lemma Valid.sector_unique (h : Valid g v lay) {d' : Nat} (hmem : lba ∈ lay.sectors g d)
    (hmem' : lba ∈ lay.sectors g d') : d = d' := by
  -- the root area and the data area do not overlap
  have hroot : ∀ {d}, d ≠ 0 → lba ∈ lay.sectors g 0 → lba ∈ lay.sectors g d → False := by
    intro d hd h0 hm
    obtain ⟨c, hc, hlba⟩ := (mem_sectors_iff hd).mp hm
    have hlt := (mem_rootSectors h0).2
    have hle := dataStartLba_le h.fits (h.used _ c hc).1 hlba
    omega
  by_cases hd : d = 0
  · subst hd
    by_contra hne
    exact hroot (Ne.symm hne) hmem hmem'
  by_cases hd' : d' = 0
  · subst hd'
    exact (hroot hd hmem' hmem).elim
  obtain ⟨c, hc, hlba⟩ := (mem_sectors_iff hd).mp hmem
  obtain ⟨c', hc', hlba'⟩ := (mem_sectors_iff hd').mp hmem'
  have heq := clusterLbas_disjoint h.fits (h.used _ c hc).1 (h.used _ c' hc').1 hlba hlba'
  rw [← heq] at hc'
  by_contra hne
  exact h.disjoint (.dir d) (.dir d') (fun ho => hne (Owner.dir.inj ho)) c hc hc'

lemma Valid.slot_unique (h : Valid g v lay) {d' : Nat} (hx : x ∈ lay.slots g d)
    (hx' : x ∈ lay.slots g d') : d = d' :=
  h.sector_unique (mem_slotsOf.mp hx).1 (mem_slotsOf.mp hx').1

lemma Valid.not_isDir (h : Valid g v lay) (hc : g.Cluster c) (hfresh : ∀ o, c ∉ lay.chain o) :
    ¬ lay.isDir c := by
  intro hd
  have h0 : c ≠ 0 := by
    have h2 := hc.1
    omega
  exact hfresh _ (h.dir c hd h0).head_mem

lemma Valid.isDir_lt (h : Valid g v lay) (hd : lay.isDir d) : d < 0x10000 := by
  by_cases h0 : d = 0
  · omega
  · exact h.fits.lt (h.dir d hd h0).start_cluster

/-! ## The moves -/

/-- `dir_insert` takes this slot. -/
def Dirent.Free (e : Dirent) : Prop := e.Empty ∨ e.Deleted

instance : DecidablePred Dirent.Free := fun _ => inferInstanceAs (Decidable (_ ∨ _))

lemma Dirent.Free.not_live (h : e.Free) : ¬ e.Live := by
  rcases h with h | h
  · exact h.not_live
  · exact h.not_live

/-- A change that no directory or file can see. -/
structure Hidden (g : Geo) (lay : Layout) (v v' : Vol) : Prop where
  ready : v'.ready = v.ready
  fat : ∀ o, ∀ c ∈ lay.chain o, v'.fat c = v.fat c
  disk : ∀ lba, lay.Used g lba → v'.disk lba = v.disk lba

/-- The full directory `P` gets the cluster `G`, all of whose slots are empty. -/
structure Grown (g : Geo) (lay : Layout) (P G : Nat) (v v' : Vol) : Prop where
  dir : lay.isDir P
  ne_root : P ≠ 0
  full : ∀ x ∈ lay.slots g P, ¬ (entryAt v.disk x).Free
  cluster : g.Cluster G
  fresh : ∀ o, G ∉ lay.chain o
  ready : v'.ready = v.ready
  link : ∃ pre last, lay.chain (.dir P) = pre ++ [last] ∧ v'.fat last = G ∧
    ∀ o, ∀ c ∈ lay.chain o, c ≠ last → v'.fat c = v.fat c
  ends : EndMark (v'.fat G)
  disk : ∀ lba, lay.Used g lba → v'.disk lba = v.disk lba
  empty : ∀ x ∈ slotsOf (clusterLbas g G), (entryAt v'.disk x).Empty

/-- The first free slot of the directory `P`, which has no entry of this name, gets the
entry `e`. -/
structure PutAt (g : Geo) (lay : Layout) (P : Nat) (x : Slot) (e : Dirent) (v v' : Vol) :
    Prop where
  dir : lay.isDir P
  first : ∃ pre post, lay.slots g P = pre ++ x :: post ∧ ∀ y ∈ pre, ¬ (entryAt v.disk y).Free
  free : (entryAt v.disk x).Free
  not_empty : ¬ e.Empty
  absent : lookupSlot v.disk e.name (lay.slots g P) = none
  ready : v'.ready = v.ready
  fat : ∀ o, ∀ c ∈ lay.chain o, v'.fat c = v.fat c
  entry : entryAt v'.disk x = e
  other : ∀ y : Slot, lay.Used g y.1 → y ≠ x → entryAt v'.disk y = entryAt v.disk y
  disk : ∀ lba, lay.Used g lba → lba ≠ x.1 → v'.disk lba = v.disk lba

/-- The cluster `N` holds a new directory below `P`. -/
structure NewDir (g : Geo) (lay : Layout) (N P : Nat) (v : Vol) : Prop where
  cluster : g.Cluster N
  fresh : ∀ o, N ∉ lay.chain o
  ends : EndMark (v.fat N)
  dot : entryAt v.disk (clusterSector g N 0, 0) = newDirectory dot83 N
  dotdot : entryAt v.disk (clusterSector g N 0, 1) = newDirectory dotdot83 P
  rest : ∀ x ∈ slotsOf (clusterLbas g N), x ≠ (clusterSector g N 0, 0) →
    x ≠ (clusterSector g N 0, 1) → (entryAt v.disk x).Empty

def Layout.grow (lay : Layout) (P G : Nat) : Layout :=
  { lay with chain := Function.update lay.chain (.dir P) (lay.chain (.dir P) ++ [G]) }

def Layout.setFile (lay : Layout) (x : Slot) (cs : List Nat) : Layout :=
  { lay with chain := Function.update lay.chain (.file x) cs }

def Layout.addDir (lay : Layout) (N : Nat) : Layout :=
  { isDir := fun d => lay.isDir d ∨ d = N
    chain := Function.update lay.chain (.dir N) [N] }

/-- What the new entry is: one that is not live, because its name starts with the mark of a
deleted slot, an empty file, or a new directory. -/
inductive NewEntry (g : Geo) (v : Vol) (lay : Layout) (P : Nat) (x : Slot) (e : Dirent) :
    Layout → Prop
  | dead : ¬ e.Live → NewEntry g v lay P x e lay
  | file : e.Live → ¬ e.Directory → e.first = 0 → e.size = 0 →
      NewEntry g v lay P x e (lay.setFile x [])
  | dir {N : Nat} : e.Live → e.Directory → e.first = N → NewDir g lay N P v →
      NewEntry g v lay P x e (lay.addDir N)

/-- One change of a volume, with its layout.  `Q` says which entries may be put into which
directories. -/
inductive Move (g : Geo) (Q : Nat → Dirent → Prop) : Vol × Layout → Vol × Layout → Prop
  | hidden {v v' : Vol} {lay : Layout} : Hidden g lay v v' → Move g Q (v, lay) (v', lay)
  | grow {v v' : Vol} {lay : Layout} {P G : Nat} : Grown g lay P G v v' →
      Move g Q (v, lay) (v', lay.grow P G)
  | put {v v' : Vol} {lay lay' : Layout} {P : Nat} {x : Slot} {e : Dirent} : Q P e →
      PutAt g lay P x e v v' → NewEntry g v' lay P x e lay' → Move g Q (v, lay) (v', lay')

/-! ## Hidden changes -/

namespace Hidden

variable {v'' : Vol}

lemma refl (v : Vol) : Hidden g lay v v := ⟨rfl, fun _ _ _ => rfl, fun _ _ => rfl⟩

lemma trans (h : Hidden g lay v v') (h' : Hidden g lay v' v'') : Hidden g lay v v'' :=
  ⟨h'.ready.trans h.ready, fun o c hc => (h'.fat o c hc).trans (h.fat o c hc),
    fun lba hu => (h'.disk lba hu).trans (h.disk lba hu)⟩

lemma entry (h : Hidden g lay v v') (hx : x ∈ lay.slots g d) :
    entryAt v'.disk x = entryAt v.disk x :=
  entryAt_congr (h.disk x.1 (used_of_mem_slots hx))

lemma valid (hv : Valid g v lay) (h : Hidden g lay v v') : Valid g v' lay := by
  refine ⟨h.ready.trans hv.ready, hv.fits, hv.root, hv.rootChain,
    fun d hd h0 => (hv.dir d hd h0).congr fun c hc => h.fat _ c hc, ?_, ?_, ?_, hv.disjoint⟩
  · intro d hd x hx
    rw [h.entry hx]
    exact hv.closed d hd x hx
  · intro d hd x hx
    rw [h.entry hx]
    intro hl hdir
    exact (hv.file d hd x hx hl hdir).congr fun c hc => h.fat _ c hc
  · intro o c hc
    rw [h.fat o c hc]
    exact hv.used o c hc

end Hidden

/-! ## Growth -/

namespace Layout

@[simp] lemma grow_isDir : (lay.grow P G).isDir = lay.isDir := rfl

lemma grow_chain_self : (lay.grow P G).chain (.dir P) = lay.chain (.dir P) ++ [G] :=
  Function.update_self _ _ _

lemma grow_chain_of_ne (h : o ≠ .dir P) : (lay.grow P G).chain o = lay.chain o :=
  Function.update_of_ne h _ _

lemma grow_sectors_self (hP : P ≠ 0) :
    (lay.grow P G).sectors g P = lay.sectors g P ++ clusterLbas g G := by
  rw [sectors, sectors, grow_chain_self, dirSectors, dirSectors, if_neg hP, if_neg hP,
    List.flatMap_append, List.flatMap_cons, List.flatMap_nil, List.append_nil]

lemma grow_slots_self (hP : P ≠ 0) :
    (lay.grow P G).slots g P = lay.slots g P ++ slotsOf (clusterLbas g G) := by
  rw [slots, grow_sectors_self hP, slotsOf_append]
  rfl

lemma grow_slots_of_ne (h : d ≠ P) : (lay.grow P G).slots g d = lay.slots g d := by
  rw [slots, slots, sectors, sectors, grow_chain_of_ne fun ho => h (Owner.dir.inj ho)]

end Layout

namespace Grown

lemma slot_cases (h : Grown g lay P G v v') (hx : x ∈ (lay.grow P G).slots g d) :
    x ∈ lay.slots g d ∧ entryAt v'.disk x = entryAt v.disk x ∨
      d = P ∧ x ∈ slotsOf (clusterLbas g G) ∧ (entryAt v'.disk x).Empty := by
  have hold : ∀ {x}, x ∈ lay.slots g d → entryAt v'.disk x = entryAt v.disk x := fun hx =>
    entryAt_congr (h.disk _ (used_of_mem_slots hx))
  by_cases hd : d = P
  · subst hd
    rw [Layout.grow_slots_self h.ne_root, List.mem_append] at hx
    rcases hx with hx | hx
    · exact .inl ⟨hx, hold hx⟩
    · exact .inr ⟨rfl, hx, h.empty x hx⟩
  · rw [Layout.grow_slots_of_ne hd] at hx
    exact .inl ⟨hx, hold hx⟩

lemma fat_of_ne (hv : Valid g v lay) (h : Grown g lay P G v v') (ho : o ≠ .dir P)
    (hc : c ∈ lay.chain o) : v'.fat c = v.fat c := by
  obtain ⟨pre, last, hchain, -, hsame⟩ := h.link
  refine hsame o c hc ?_
  rintro rfl
  exact hv.disjoint o (.dir P) ho c hc (by rw [hchain]; simp)

lemma chain (hv : Valid g v lay) (h : Grown g lay P G v v') :
    Chain g v'.fat P (lay.chain (.dir P) ++ [G]) := by
  obtain ⟨pre, last, hchain, hlink, hsame⟩ := h.link
  have hch := hv.dir P h.dir h.ne_root
  rw [hchain] at hch ⊢
  have hnd := hch.walk.nodup
  refine hch.append (fun b hb => ?_) hlink h.cluster (fun hend => ?_) h.ends
  · refine hsame (.dir P) b (by rw [hchain]; exact List.mem_append_left _ hb) ?_
    rintro rfl
    exact (List.nodup_append.mp hnd).2.2 b hb b (by simp) rfl
  · exact not_stop_of_cluster hv.fits h.cluster (.inr hend)

lemma valid (hv : Valid g v lay) (h : Grown g lay P G v v') : Valid g v' (lay.grow P G) := by
  have hchain := h.chain hv
  have hmem : ∀ {o c}, c ∈ (lay.grow P G).chain o → c ∈ lay.chain o ∨ o = .dir P ∧ c = G := by
    intro o c hc
    by_cases ho : o = .dir P
    · subst ho
      rw [Layout.grow_chain_self, List.mem_append, List.mem_singleton] at hc
      exact hc.imp_right fun heq => ⟨rfl, heq⟩
    · rw [Layout.grow_chain_of_ne ho] at hc
      exact .inl hc
  refine ⟨h.ready.trans hv.ready, hv.fits, hv.root, ?_, fun d hd h0 => ?_, ?_, ?_, ?_, ?_⟩
  · rw [Layout.grow_chain_of_ne fun ho => h.ne_root (Owner.dir.inj ho).symm]
    exact hv.rootChain
  · by_cases hP : d = P
    · subst hP
      rw [Layout.grow_chain_self]
      exact hchain
    · have ho : Owner.dir d ≠ .dir P := fun ho => hP (Owner.dir.inj ho)
      rw [Layout.grow_chain_of_ne ho]
      exact (hv.dir d hd h0).congr fun c hc => h.fat_of_ne hv ho hc
  · intro d hd x hx hl hdir
    rcases h.slot_cases hx with ⟨hx, heq⟩ | ⟨-, -, hempty⟩
    · rw [heq] at hl hdir ⊢
      exact hv.closed d hd x hx hl hdir
    · exact absurd hl hempty.not_live
  · intro d hd x hx hl hdir
    rcases h.slot_cases hx with ⟨hx, heq⟩ | ⟨-, -, hempty⟩
    · rw [heq] at hl hdir ⊢
      rw [Layout.grow_chain_of_ne (by simp)]
      exact (hv.file d hd x hx hl hdir).congr fun c hc => h.fat_of_ne hv (by simp) hc
    · exact absurd hl hempty.not_live
  · intro o c hc
    rcases hmem hc with hc' | ⟨rfl, rfl⟩
    · refine ⟨(hv.used o c hc').1, ?_⟩
      by_cases ho : o = .dir P
      · subst ho
        exact hchain.fat_ne_zero (List.mem_append_left _ hc')
      · rw [h.fat_of_ne hv ho hc']
        exact (hv.used o c hc').2
    · exact ⟨h.cluster, hchain.fat_ne_zero (by simp)⟩
  · intro o o' hne c hc hc'
    rcases hmem hc with hold | ⟨rfl, rfl⟩
    · rcases hmem hc' with hold' | ⟨rfl, rfl⟩
      · exact hv.disjoint o o' hne c hold hold'
      · exact h.fresh o hold
    · rcases hmem hc' with hold' | ⟨rfl, -⟩
      · exact h.fresh o' hold'
      · exact hne rfl

end Grown

/-! ## A new entry -/

namespace Layout

@[simp] lemma setFile_isDir {cs : List Nat} : (lay.setFile x cs).isDir = lay.isDir := rfl

lemma setFile_chain_self {cs : List Nat} : (lay.setFile x cs).chain (.file x) = cs :=
  Function.update_self _ _ _

lemma setFile_chain_of_ne {cs : List Nat} (h : o ≠ .file x) :
    (lay.setFile x cs).chain o = lay.chain o :=
  Function.update_of_ne h _ _

@[simp] lemma setFile_slots {cs : List Nat} : (lay.setFile x cs).slots g d = lay.slots g d := by
  rw [slots, slots, sectors, sectors, setFile_chain_of_ne (by simp)]

lemma addDir_chain_self : (lay.addDir N).chain (.dir N) = [N] := Function.update_self _ _ _

lemma addDir_chain_of_ne (h : o ≠ .dir N) : (lay.addDir N).chain o = lay.chain o :=
  Function.update_of_ne h _ _

lemma addDir_slots_self (hN : N ≠ 0) : (lay.addDir N).slots g N = slotsOf (clusterLbas g N) := by
  rw [slots, sectors, addDir_chain_self, dirSectors, if_neg hN, List.flatMap_cons,
    List.flatMap_nil, List.append_nil]

lemma addDir_slots_of_ne (h : d ≠ N) : (lay.addDir N).slots g d = lay.slots g d := by
  rw [slots, slots, sectors, sectors, addDir_chain_of_ne fun ho => h (Owner.dir.inj ho)]

end Layout

namespace NewDir

lemma live_cases (h : NewDir g lay N P v) (hx : x ∈ slotsOf (clusterLbas g N))
    (hl : (entryAt v.disk x).Live) :
    x = (clusterSector g N 0, 0) ∧ entryAt v.disk x = newDirectory dot83 N ∨
      x = (clusterSector g N 0, 1) ∧ entryAt v.disk x = newDirectory dotdot83 P := by
  by_cases h0 : x = (clusterSector g N 0, 0)
  · subst h0
    exact .inl ⟨rfl, h.dot⟩
  by_cases h1 : x = (clusterSector g N 0, 1)
  · subst h1
    exact .inr ⟨rfl, h.dotdot⟩
  · exact absurd hl (h.rest x hx h0 h1).not_live

lemma slots_eq (hg : g.Fits) (h : NewDir g lay N P v) : ∃ rest, slotsOf (clusterLbas g N) =
    (clusterSector g N 0, 0) :: (clusterSector g N 0, 1) :: rest ∧
      ∀ y ∈ rest, (entryAt v.disk y).Empty := by
  have hlbas : clusterLbas g N = clusterSector g N 0 :: (clusterLbas g N).drop 1 :=
    clusterLbas_drop g.sectorsPerCluster_pos
  have hslots : slotsOf (clusterLbas g N) = (clusterSector g N 0, 0) :: (clusterSector g N 0, 1) ::
      (((List.range' 2 14).map fun i => (clusterSector g N 0, i)) ++
        slotsOf ((clusterLbas g N).drop 1)) := by
    rw [hlbas, slotsOf_cons]
    rfl
  have hnd := slotsOf_nodup (clusterLbas_nodup hg h.cluster)
  rw [hslots] at hnd
  refine ⟨_, hslots, fun y hy => h.rest y ?_ ?_ ?_⟩
  · rw [hslots]
    exact List.mem_cons_of_mem _ (List.mem_cons_of_mem _ hy)
  · rintro rfl
    exact (List.nodup_cons.mp hnd).1 (List.mem_cons_of_mem _ hy)
  · rintro rfl
    exact (List.nodup_cons.mp (List.nodup_cons.mp hnd).2).1 hy

lemma ne_zero (h : NewDir g lay N P v) : N ≠ 0 := by
  have h2 := h.cluster.1
  omega

lemma chain (hg : g.Fits) (h : NewDir g lay N P v) : Chain g v.fat N [N] :=
  ⟨by simp, ⟨rfl, fun hend => not_stop_of_cluster hg h.cluster (.inr hend), h.ends⟩,
    fun c hc => by rw [List.mem_singleton.mp hc]; exact h.cluster⟩

end NewDir

lemma newDirectory_directory {cluster : Nat} : (newDirectory name cluster).Directory := by
  show (0x10 : UInt8) &&& 0x10 ≠ 0
  decide

namespace PutAt

lemma mem (h : PutAt g lay P x e v v') : x ∈ lay.slots g P := by
  obtain ⟨pre, post, hs, -⟩ := h.first
  rw [hs]
  simp

lemma slot_cases (h : PutAt g lay P x e v v') (hy : y ∈ lay.slots g d) :
    y = x ∧ entryAt v'.disk y = e ∨ y ≠ x ∧ entryAt v'.disk y = entryAt v.disk y := by
  by_cases hyx : y = x
  · subst hyx
    exact .inl ⟨rfl, h.entry⟩
  · exact .inr ⟨hyx, h.other y (used_of_mem_slots hy) hyx⟩

lemma valid_dead (hv : Valid g v lay) (h : PutAt g lay P x e v v') (hl : ¬ e.Live) :
    Valid g v' lay := by
  refine ⟨h.ready.trans hv.ready, hv.fits, hv.root, hv.rootChain,
    fun d hd h0 => (hv.dir d hd h0).congr fun c hc => h.fat _ c hc, ?_, ?_, ?_, hv.disjoint⟩
  · intro d hd y hy hly hdir
    rcases h.slot_cases hy with ⟨-, heq⟩ | ⟨-, heq⟩
    · rw [heq] at hly
      exact absurd hly hl
    · rw [heq] at hly hdir ⊢
      exact hv.closed d hd y hy hly hdir
  · intro d hd y hy hly hdir
    rcases h.slot_cases hy with ⟨-, heq⟩ | ⟨-, heq⟩
    · rw [heq] at hly
      exact absurd hly hl
    · rw [heq] at hly hdir ⊢
      exact (hv.file d hd y hy hly hdir).congr fun c hc => h.fat _ c hc
  · intro o c hc
    rw [h.fat o c hc]
    exact hv.used o c hc

lemma valid_file (hv : Valid g v lay) (h : PutAt g lay P x e v v') (hdir : ¬ e.Directory)
    (hfirst : e.first = 0) : Valid g v' (lay.setFile x []) := by
  have hsub : ∀ {o c}, c ∈ (lay.setFile x []).chain o → c ∈ lay.chain o := by
    intro o c hc
    by_cases ho : o = .file x
    · subst ho
      rw [Layout.setFile_chain_self] at hc
      simp at hc
    · rwa [Layout.setFile_chain_of_ne ho] at hc
  refine ⟨h.ready.trans hv.ready, hv.fits, hv.root, ?_, fun d hd h0 => ?_, ?_, ?_,
    fun o c hc => ?_, fun o o' hne c hc hc' => hv.disjoint o o' hne c (hsub hc) (hsub hc')⟩
  · rw [Layout.setFile_chain_of_ne (by simp)]
    exact hv.rootChain
  · rw [Layout.setFile_chain_of_ne (by simp)]
    exact (hv.dir d hd h0).congr fun c hc => h.fat _ c hc
  · intro d hd y hy hly hdy
    rw [Layout.setFile_slots] at hy
    rcases h.slot_cases hy with ⟨-, heq⟩ | ⟨-, heq⟩
    · rw [heq] at hdy
      exact absurd hdy hdir
    · rw [heq] at hly hdy ⊢
      exact hv.closed d hd y hy hly hdy
  · intro d hd y hy hly hdy
    rw [Layout.setFile_slots] at hy
    rcases h.slot_cases hy with ⟨rfl, heq⟩ | ⟨hyx, heq⟩
    · rw [heq]
      exact .inl ⟨Layout.setFile_chain_self, hfirst⟩
    · rw [heq] at hly hdy ⊢
      rw [Layout.setFile_chain_of_ne fun ho => hyx (Owner.file.inj ho)]
      exact (hv.file d hd y hy hly hdy).congr fun c hc => h.fat _ c hc
  · rw [h.fat o c (hsub hc)]
    exact hv.used o c (hsub hc)

lemma valid_dir (hv : Valid g v lay) (h : PutAt g lay P x e v v') (hdir : e.Directory)
    (hfirst : e.first = N) (hN : NewDir g lay N P v') : Valid g v' (lay.addDir N) := by
  have hnew := hv.not_isDir hN.cluster hN.fresh
  have hne : ∀ {d}, lay.isDir d → d ≠ N := fun hd heq => hnew (heq ▸ hd)
  have hmem : ∀ {o c}, c ∈ (lay.addDir N).chain o → c ∈ lay.chain o ∨ o = .dir N ∧ c = N := by
    intro o c hc
    by_cases ho : o = .dir N
    · subst ho
      rw [Layout.addDir_chain_self, List.mem_singleton] at hc
      exact .inr ⟨rfl, hc⟩
    · rw [Layout.addDir_chain_of_ne ho] at hc
      exact .inl hc
  have hlow : ∀ {d}, lay.isDir d → d % 0x10000 = d := fun hd => Nat.mod_eq_of_lt (hv.isDir_lt hd)
  refine ⟨h.ready.trans hv.ready, hv.fits, .inl hv.root, ?_, ?_, ?_, ?_, ?_, ?_⟩
  · rw [Layout.addDir_chain_of_ne fun ho => hN.ne_zero (Owner.dir.inj ho).symm]
    exact hv.rootChain
  · rintro d (hd | rfl) h0
    · rw [Layout.addDir_chain_of_ne fun ho => hne hd (Owner.dir.inj ho)]
      exact (hv.dir d hd h0).congr fun c hc => h.fat _ c hc
    · rw [Layout.addDir_chain_self]
      exact hN.chain hv.fits
  · rintro d (hd | rfl) y hy hly hdy
    · rw [Layout.addDir_slots_of_ne (hne hd)] at hy
      rcases h.slot_cases hy with ⟨-, heq⟩ | ⟨-, heq⟩
      · rw [heq]
        exact .inr hfirst
      · rw [heq] at hly hdy ⊢
        exact .inl (hv.closed d hd y hy hly hdy)
    · rw [Layout.addDir_slots_self hN.ne_zero] at hy
      rcases hN.live_cases hy hly with ⟨-, heq⟩ | ⟨-, heq⟩
      · rw [heq]
        exact .inr (Nat.mod_eq_of_lt (hv.fits.lt hN.cluster))
      · rw [heq]
        refine .inl ?_
        rw [newDirectory, hlow h.dir]
        exact h.dir
  · rintro d (hd | rfl) y hy hly hdy
    · rw [Layout.addDir_slots_of_ne (hne hd)] at hy
      rcases h.slot_cases hy with ⟨-, heq⟩ | ⟨-, heq⟩
      · rw [heq] at hdy
        exact absurd hdir hdy
      · rw [heq] at hly hdy ⊢
        rw [Layout.addDir_chain_of_ne (by simp)]
        exact (hv.file d hd y hy hly hdy).congr fun c hc => h.fat _ c hc
    · rw [Layout.addDir_slots_self hN.ne_zero] at hy
      rcases hN.live_cases hy hly with ⟨-, heq⟩ | ⟨-, heq⟩
      all_goals
        rw [heq] at hdy
        exact absurd newDirectory_directory hdy
  · intro o c hc
    rcases hmem hc with hc | ⟨rfl, rfl⟩
    · rw [h.fat o c hc]
      exact hv.used o c hc
    · exact ⟨hN.cluster, (hN.chain hv.fits).fat_ne_zero (by simp)⟩
  · intro o o' hne' c hc hc'
    rcases hmem hc with hold | ⟨rfl, rfl⟩
    · rcases hmem hc' with hold' | ⟨rfl, rfl⟩
      · exact hv.disjoint o o' hne' c hold hold'
      · exact hN.fresh o hold
    · rcases hmem hc' with hold' | ⟨rfl, -⟩
      · exact hN.fresh o' hold'
      · exact hne' rfl

end PutAt

/-- **A move keeps the layout valid.** -/
lemma Move.valid {p q : Vol × Layout} (h : Move g Q p q) (hv : Valid g p.1 p.2) :
    Valid g q.1 q.2 := by
  cases h with
  | hidden h => exact Hidden.valid hv h
  | grow h => exact Grown.valid hv h
  | put _ h he =>
    cases he with
    | dead hl => exact h.valid_dead hv hl
    | file _ hdir hfirst _ => exact h.valid_file hv hdir hfirst
    | dir _ hdir hfirst hN => exact h.valid_dir hv hdir hfirst hN

/-! ## What can be found -/

lemma lookupSlot_congr (h : ∀ x ∈ l, entryAt disk' x = entryAt disk x) :
    lookupSlot disk' name l = lookupSlot disk name l := by
  induction l with
  | nil => rfl
  | cons x l ih =>
    rw [lookupSlot, lookupSlot, h x (by simp), ih fun y hy => h y (List.mem_cons_of_mem _ hy)]

lemma lookupSlot_append (h : lookupSlot disk name l = some x) :
    lookupSlot disk name (l ++ l') = some x := by
  induction l with
  | nil => simp [lookupSlot] at h
  | cons y l ih =>
    rw [List.cons_append, lookupSlot]
    rw [lookupSlot] at h
    split at h
    · simp at h
    case isFalse hempty =>
      rw [if_neg hempty]
      split at h
      case isTrue hy => rwa [if_pos hy]
      case isFalse hy =>
        rw [if_neg hy]
        exact ih h

lemma lookupSlot_put (h : lookupSlot disk name l = some y)
    (hother : ∀ z ∈ l, z ≠ x → entryAt disk' z = entryAt disk z)
    (hfree : (entryAt disk x).Free) (hempty : ¬ (entryAt disk' x).Empty)
    (hname : (entryAt disk' x).name ≠ name) : lookupSlot disk' name l = some y := by
  induction l with
  | nil => simp [lookupSlot] at h
  | cons z l ih =>
    have ih' := fun h => ih h fun w hw => hother w (List.mem_cons_of_mem _ hw)
    rw [lookupSlot] at h ⊢
    split at h
    · simp at h
    case isFalse hne =>
      by_cases hzx : z = x
      · subst hzx
        rw [if_neg fun hl => hfree.not_live hl.1] at h
        rw [if_neg hempty, if_neg fun hl => hname hl.2]
        exact ih' h
      · rw [hother z (by simp) hzx, if_neg hne]
        split at h
        case isTrue hz => rwa [if_pos hz]
        case isFalse hz =>
          rw [if_neg hz]
          exact ih' h

lemma lookupSlot_new {pre post : List Slot} (h : lookupSlot disk name (pre ++ x :: post) = none)
    (hpre : ∀ z ∈ pre, ¬ (entryAt disk z).Free)
    (hother : ∀ z ∈ pre, entryAt disk' z = entryAt disk z)
    (hl : (entryAt disk' x).Live) (hname : (entryAt disk' x).name = name) :
    lookupSlot disk' name (pre ++ x :: post) = some x := by
  induction pre with
  | nil => rw [List.nil_append, lookupSlot, if_neg hl.1, if_pos ⟨hl, hname⟩]
  | cons z pre ih =>
    have hz : ¬ (entryAt disk z).Empty := fun he => hpre z (by simp) (.inl he)
    rw [List.cons_append, lookupSlot, if_neg hz] at h
    rw [List.cons_append, lookupSlot, hother z (by simp), if_neg hz]
    split at h
    · simp at h
    case isFalse hne =>
      rw [if_neg hne]
      exact ih h (fun w hw => hpre w (List.mem_cons_of_mem _ hw))
        fun w hw => hother w (List.mem_cons_of_mem _ hw)

namespace NewEntry

lemma slots_eq (hv : Valid g v lay) (h : NewEntry g v' lay P x e lay') (hd : lay.isDir d) :
    lay'.slots g d = lay.slots g d := by
  cases h with
  | dead => rfl
  | file => exact Layout.setFile_slots
  | dir _ _ _ hN =>
    refine Layout.addDir_slots_of_ne ?_
    rintro rfl
    exact hv.not_isDir hN.cluster hN.fresh hd

lemma isDir (h : NewEntry g v' lay P x e lay') (hd : lay.isDir d) : lay'.isDir d := by
  cases h with
  | dead => exact hd
  | file => exact hd
  | dir => exact .inl hd

end NewEntry

namespace Move

variable {p q : Vol × Layout}

lemma isDir (h : Move g Q p q) (hd : p.2.isDir d) : q.2.isDir d := by
  cases h with
  | hidden => exact hd
  | grow => exact hd
  | put _ _ he => exact he.isDir hd

lemma lookup (hv : Valid g p.1 p.2) (h : Move g Q p q) (hd : p.2.isDir d)
    (hx : lookupSlot p.1.disk name (p.2.slots g d) = some x) :
    lookupSlot q.1.disk name (q.2.slots g d) = some x := by
  cases h with
  | hidden h => exact (lookupSlot_congr fun y hy => h.entry hy).trans hx
  | @grow v v' lay P G h =>
    have hold : lookupSlot v'.disk name (lay.slots g d) = some x :=
      (lookupSlot_congr fun y hy => entryAt_congr (h.disk _ (used_of_mem_slots hy))).trans hx
    by_cases hP : d = P
    · subst hP
      rw [Layout.grow_slots_self h.ne_root]
      exact lookupSlot_append hold
    · rw [Layout.grow_slots_of_ne hP]
      exact hold
  | @put v v' lay lay' P y e _ h he =>
    rw [he.slots_eq hv hd]
    by_cases hP : d = P
    · subst hP
      refine lookupSlot_put hx (fun z hz hne => h.other z (used_of_mem_slots hz) hne) h.free ?_ ?_
      · rw [h.entry]
        exact h.not_empty
      · rw [h.entry]
        intro hname
        have habsent := h.absent
        rw [hname, hx] at habsent
        simp at habsent
    · refine (lookupSlot_congr fun z hz => h.other z (used_of_mem_slots hz) ?_).trans hx
      rintro rfl
      exact hP (hv.slot_unique hz h.mem)

lemma entry_eq (hv : Valid g p.1 p.2) (h : Move g Q p q) (hd : p.2.isDir d)
    (hx : x ∈ p.2.slots g d) (hl : (entryAt p.1.disk x).Live) :
    entryAt q.1.disk x = entryAt p.1.disk x := by
  cases h with
  | hidden h => exact h.entry hx
  | grow h => exact entryAt_congr (h.disk _ (used_of_mem_slots hx))
  | put _ h _ =>
    refine h.other x (used_of_mem_slots hx) ?_
    rintro rfl
    exact h.free.not_live hl

lemma resolves {r : Nat × List UInt8} (hv : Valid g p.1 p.2) (h : Move g Q p q) (hd : p.2.isDir d)
    (hr : Resolves g p.1.disk p.2 d path r) : Resolves g q.1.disk q.2 d path r := by
  induction hr with
  | last hlast => exact .last hlast
  | step hmore hx hdir _ ih =>
    obtain ⟨hmem, hlive, -⟩ := lookupSlot_some hx
    have heq := h.entry_eq hv hd hmem hlive
    have hsub := ih (hv.closed _ hd _ hmem hlive hdir)
    rw [← heq] at hdir hsub
    exact .step hmore (h.lookup hv hd hx) hdir hsub

end Move

def Moves (g : Geo) (Q : Nat → Dirent → Prop) : Vol × Layout → Vol × Layout → Prop :=
  Relation.ReflTransGen (Move g Q)

namespace Moves

variable {p q : Vol × Layout}

lemma mono {R : Nat → Dirent → Prop} (h : Moves g Q p q) (hQR : ∀ P e, Q P e → R P e) :
    Moves g R p q := by
  refine Relation.ReflTransGen.mono (fun p q hm => ?_) _ _ h
  cases hm with
  | hidden h => exact .hidden h
  | grow h => exact .grow h
  | put hq h he => exact .put (hQR _ _ hq) h he

/-- **What holds before and is kept by every move holds after all of them.** -/
lemma induct {I : Vol × Layout → Prop} (h : Moves g Q p q) (hv : Valid g p.1 p.2) (hp : I p)
    (hstep : ∀ p q, Valid g p.1 p.2 → Move g Q p q → I p → I q) : Valid g q.1 q.2 ∧ I q := by
  induction h with
  | refl => exact ⟨hv, hp⟩
  | tail _ hm ih => exact ⟨hm.valid ih.1, hstep _ _ ih.1 hm ih.2⟩

lemma valid (h : Moves g Q p q) (hv : Valid g p.1 p.2) : Valid g q.1 q.2 :=
  (h.induct (I := fun _ => True) hv trivial fun _ _ _ _ _ => trivial).1

lemma isDir (h : Moves g Q p q) (hv : Valid g p.1 p.2) (hd : p.2.isDir d) : q.2.isDir d :=
  (h.induct (I := fun r => r.2.isDir d) hv hd fun _ _ _ hm hi => hm.isDir hi).2

lemma resolves {r : Nat × List UInt8} (h : Moves g Q p q) (hv : Valid g p.1 p.2)
    (hd : p.2.isDir d) (hr : Resolves g p.1.disk p.2 d path r) :
    Resolves g q.1.disk q.2 d path r :=
  (h.induct (I := fun u => u.2.isDir d ∧ Resolves g u.1.disk u.2 d path r) hv ⟨hd, hr⟩
    fun _ _ hv hm hi => ⟨hm.isDir hi.1, hm.resolves hv hi.1 hi.2⟩).2.2

end Moves

end NullOS.Fat16
