import NullOS.Fat16.Volume
import Mathlib.Data.List.Perm.Subperm

/-!
# Looking up names

What the loops over a directory find, whatever block operations fail: `dir_lookup` the first slot
with the name before the end mark, and `resolve_path` the directory at the end of a chain of such
lookups.  None of them writes anything.
-/

namespace NullOS.Fat16

open Lib

variable {g : Geo} {v : Vol} {lay : Layout} {s t u : St} {n d lba last : Nat} {L : List Nat}
  {disk : Nat → Mem} {fat : Nat → Nat} {it : DirIter} {name path : List UInt8} {α : Type}
  {pick : Mem → Option α} {x y : Slot} {l l' : List Slot}

/-! ## Reading -/

/-- Nothing was written. -/
structure Reads (s t : St) : Prop where
  vol : t.vol = s.vol
  io : s.io = working → t.io = working
  writes : t.writes = s.writes
  lost : t.lost = s.lost

lemma Reads.refl (s : St) : Reads s s := ⟨rfl, id, rfl, rfl⟩

lemma Reads.trans (h : Reads s t) (h' : Reads t u) : Reads s u :=
  ⟨h'.vol.trans h.vol, h'.io ∘ h.io, h'.writes.trans h.writes,
    h'.lost.trans h.lost⟩

lemma blockReadSector_spec (s : St) (lba : Nat) :
    Ends (blockReadSector lba) s fun r t =>
      Reads s t ∧ (r = none ∧ s.io ≠ working ∨ r = some (s.vol.disk lba)) := by
  refine .of_eq rfl ⟨⟨rfl, fun h => by rw [h]; rfl, rfl, rfl⟩, ?_⟩
  cases h : s.io 0 with
  | true => exact .inr rfl
  | false =>
    refine .inl ⟨rfl, fun hw => ?_⟩
    rw [hw] at h
    simp [working] at h

lemma getFat_spec (hc : d < g.fatEntries) :
    Ends (getFat g d) s fun r t => t = s ∧ r = s.vol.fat d :=
  .of_eq (if_pos (.inl hc)) ⟨rfl, rfl⟩

/-! ## The walk through a directory -/

/-- The chain of a directory: the root directory has none, and every other one has a chain in the
FAT that comes to an end. -/
def DirChain (g : Geo) (fat : Nat → Nat) (d : Nat) (cs : List Nat) : Prop :=
  d = 0 ∨ d ≠ 0 ∧ Walk fat Stop d cs ∧ ∀ c ∈ cs, c < g.fatEntries

lemma Walkable.dirChain (h : Walkable g v lay) (hd : lay.isDir d) :
    DirChain g v.fat d (lay.chain (.dir d)) := by
  by_cases h0 : d = 0
  · exact .inl h0
  · exact .inr ⟨h0, h.walk d hd, fun c hc =>
      Nat.lt_of_lt_of_le (h.cluster d hd c hc).2 h.fits.entries⟩

/-- The sectors that are still to come, and the cluster that the walk ends in. -/
def Rest (g : Geo) (fat : Nat → Nat) (it : DirIter) (L : List Nat) (last : Nat) : Prop :=
  it.dirCluster = 0 ∧
      L = ((List.range g.rootSectorCount).drop it.rootSector).map (g.rootStartLba + ·) ∨
    it.dirCluster ≠ 0 ∧ (Stop it.cluster ∧ it.cluster = last ∧ L = [] ∨
      ∃ cs, Walk fat Stop it.cluster (it.cluster :: cs) ∧
        (∀ c ∈ it.cluster :: cs, c < g.fatEntries) ∧ (∃ pre, it.cluster :: cs = pre ++ [last]) ∧
        L = (clusterLbas g it.cluster).drop it.clusterSector ++ cs.flatMap (clusterLbas g))

lemma DirChain.rest_init {cs : List Nat} (h : DirChain g fat d cs) :
    ∃ last, Rest g fat (dirIterInit d) (dirSectors g d cs) last ∧
      (d ≠ 0 → cs ≠ [] → ∃ pre, cs = pre ++ [last]) := by
  rcases h with h0 | ⟨h0, hw, hcl⟩
  · refine ⟨0, .inl ⟨h0, ?_⟩, fun hne => absurd h0 hne⟩
    rw [dirSectors, if_pos h0]
    rfl
  · rw [dirSectors, if_neg h0]
    cases cs with
    | nil => exact ⟨d, .inr ⟨h0, .inl ⟨hw, rfl, rfl⟩⟩, fun _ hne => absurd rfl hne⟩
    | cons c cs =>
      have hlast : c :: cs = (c :: cs).dropLast ++ [(c :: cs).getLast (by simp)] :=
        (List.dropLast_concat_getLast (by simp)).symm
      obtain ⟨rfl, -⟩ := id hw
      exact ⟨_, .inr ⟨h0, .inr ⟨cs, hw, hcl, ⟨_, hlast⟩, List.flatMap_cons⟩⟩,
        fun _ _ => ⟨_, hlast⟩⟩

lemma clusterLbas_drop {c k : Nat} (hk : k < g.sectorsPerCluster) :
    (clusterLbas g c).drop k = clusterSector g c k :: (clusterLbas g c).drop (k + 1) := by
  rw [clusterLbas, List.drop_eq_getElem_cons (by simpa using hk)]
  simp

structure NextSpec (g : Geo) (s : St) (it : DirIter) (L : List Nat) (last : Nat)
    (r : NextSector × DirIter) : Prop where
  error : r.1 = .error → s.io ≠ working
  done : r.1 = .done → L = [] ∧ (it.dirCluster ≠ 0 → r.2.cluster = last)
  sector : ∀ lba buf, r.1 = .sector lba buf → ∃ L', L = lba :: L' ∧ buf = s.vol.disk lba ∧
    Rest g s.vol.fat r.2 L' last ∧ r.2.dirCluster = it.dirCluster

lemma readStep_spec (it₀ it' : DirIter) (L' : List Nat) (hL : L = lba :: L')
    (hr : Rest g s.vol.fat it' L' last) (hd : it'.dirCluster = it.dirCluster) :
    Ends (do
      let r ← blockReadSector lba
      match r with
      | none => pure (.error, it₀)
      | some buf => pure (.sector lba buf, it')) s fun r t =>
        Reads s t ∧ NextSpec g s it L last r := by
  refine (blockReadSector_spec s lba).seq fun r t ⟨hreads, hcase⟩ => ?_
  rcases hcase with ⟨rfl, hio⟩ | rfl
  · exact .pure ⟨hreads, fun _ => hio, nofun, nofun⟩
  · refine .pure ⟨hreads, nofun, nofun, ?_⟩
    rintro lba' buf ⟨⟩
    exact ⟨L', hL, rfl, hr, hd⟩

lemma iterAdvance_spec {cs : List Nat} (hw : Walk s.vol.fat Stop it.cluster (it.cluster :: cs))
    (hcl : ∀ c ∈ it.cluster :: cs, c < g.fatEntries) :
    Ends (iterAdvance g it) s fun r t => t = s ∧
      (it.clusterSector < g.sectorsPerCluster ∧ r = some it ∨
        g.sectorsPerCluster ≤ it.clusterSector ∧ (cs = [] ∧ r = none ∨
          ∃ c rest, cs = c :: rest ∧ r = some { it with cluster := c, clusterSector := 0 })) := by
  unfold iterAdvance
  split
  case isFalse hlt => exact .pure ⟨rfl, .inl ⟨Nat.not_le.mp hlt, rfl⟩⟩
  case isTrue hge =>
    obtain ⟨-, hgo, hrest⟩ := hw
    rw [fat16NextCluster, if_neg fun h2 => hgo (.inl h2)]
    refine (getFat_spec (hcl it.cluster (by simp))).seq ?_
    rintro _ _ ⟨rfl, rfl⟩
    cases cs with
    | nil =>
      rw [if_pos (show Stop _ from hrest)]
      exact .pure ⟨rfl, .inr ⟨hge, .inl ⟨rfl, rfl⟩⟩⟩
    | cons c rest =>
      obtain ⟨heq, hstop, -⟩ := hrest
      rw [if_neg hstop]
      refine .pure ⟨rfl, .inr ⟨hge, .inr ⟨c, rest, rfl, ?_⟩⟩⟩
      rw [heq]

lemma dirIterNextSector_spec (h : Rest g s.vol.fat it L last) :
    Ends (dirIterNextSector g it) s fun r t => Reads s t ∧ NextSpec g s it L last r := by
  rw [dirIterNextSector]
  rcases h with ⟨h0, hL⟩ | ⟨h0, ⟨hstop, hlast, rfl⟩ | ⟨cs, hw, hcl, ⟨pre, hpre⟩, hL⟩⟩
  · rw [if_pos h0]
    split
    case isTrue hge =>
      refine .pure ⟨.refl s, nofun, fun _ => ⟨?_, fun hne => absurd h0 hne⟩, nofun⟩
      rw [hL, List.drop_eq_nil_of_le (by simpa using hge)]
      rfl
    case isFalse hlt =>
      refine readStep_spec it { it with rootSector := it.rootSector + 1 }
        (((List.range g.rootSectorCount).drop (it.rootSector + 1)).map (g.rootStartLba + ·)) ?_
        (.inl ⟨h0, rfl⟩) rfl
      rw [hL, List.drop_eq_getElem_cons (by simpa using hlt)]
      simp
  · rw [if_neg h0, if_pos hstop]
    exact .pure ⟨.refl s, nofun, fun _ => ⟨rfl, fun _ => hlast⟩, nofun⟩
  · rw [if_neg h0, if_neg hw.2.1]
    refine (iterAdvance_spec hw hcl).seq ?_
    rintro r t ⟨rfl, ⟨hlt, rfl⟩ | ⟨hge, ⟨rfl, rfl⟩ | ⟨c, rest, rfl, rfl⟩⟩⟩
    · -- the next sector of the same cluster
      refine readStep_spec it { it with clusterSector := it.clusterSector + 1 }
        ((clusterLbas g it.cluster).drop (it.clusterSector + 1) ++ cs.flatMap (clusterLbas g)) ?_
        (.inr ⟨h0, .inr ⟨cs, hw, hcl, ⟨pre, hpre⟩, rfl⟩⟩) rfl
      rw [hL, clusterLbas_drop hlt]
      rfl
    · -- the end of the chain
      refine .pure ⟨.refl t, nofun, fun _ => ⟨?_, fun _ => ?_⟩, nofun⟩
      · rw [hL, List.drop_eq_nil_of_le (by simpa [clusterLbas] using hge)]
        rfl
      · have hlast : [] ++ [it.cluster] = pre ++ [last] := hpre
        exact List.singleton_inj.mp (List.append_inj_right' hlast rfl)
    · -- the first sector of the next cluster
      have hpos := g.sectorsPerCluster_pos
      refine readStep_spec { it with cluster := c, clusterSector := 0 }
        { it with cluster := c, clusterSector := 1 }
        ((clusterLbas g c).drop 1 ++ rest.flatMap (clusterLbas g)) ?_
        (.inr ⟨h0, .inr ⟨rest, ?_, fun b hb => hcl b (List.mem_cons_of_mem _ hb), ?_, rfl⟩⟩) rfl
      · rw [hL, List.drop_eq_nil_of_le (by simpa [clusterLbas] using hge), List.nil_append,
          List.flatMap_cons, ← List.drop_zero (l := clusterLbas g c), clusterLbas_drop hpos]
        rfl
      · obtain ⟨-, -, heq, hrest⟩ := hw
        rw [heq] at hrest
        exact ⟨rfl, hrest⟩
      · cases pre with
        | nil => simp at hpre
        | cons b pre => exact ⟨pre, (List.cons.inj hpre).2⟩

structure ScanSpec (s : St) (pick : Mem → Option α) (it : DirIter) (L : List Nat) (last : Nat)
    (r : Scan α) : Prop where
  error : r = .error → s.io ≠ working
  done : ∀ it', r = .done it' → (∀ lba ∈ L, pick (s.vol.disk lba) = none) ∧
    (it.dirCluster ≠ 0 → it'.cluster = last)
  hit : ∀ a lba buf, r = .hit a lba buf → buf = s.vol.disk lba ∧ pick buf = some a ∧
    ∃ pre post, L = pre ++ lba :: post ∧ ∀ b ∈ pre, pick (s.vol.disk b) = none

lemma dirScan_spec (h : Rest g s.vol.fat it L last) (hn : L.length < n) :
    Ends (dirScan g pick n it) s fun r t => Reads s t ∧ ScanSpec s pick it L last r := by
  induction n generalizing it L s with
  | zero => exact absurd hn (by omega)
  | succ n ih =>
    rw [dirScan]
    refine (dirIterNextSector_spec h).seq ?_
    rintro ⟨r, it'⟩ t ⟨hreads, hnext⟩
    cases r with
    | error => exact .pure ⟨hreads, fun _ => hnext.error rfl, nofun, nofun⟩
    | done =>
      obtain ⟨rfl, hlast⟩ := hnext.done rfl
      refine .pure ⟨hreads, nofun, ?_, nofun⟩
      rintro _ ⟨⟩
      exact ⟨by simp, hlast⟩
    | sector lba buf =>
      obtain ⟨L', rfl, rfl, hrest, hdc⟩ := hnext.sector lba buf rfl
      dsimp only at hrest hdc ⊢
      cases hp : pick (s.vol.disk lba) with
      | some a =>
        refine .pure ⟨hreads, nofun, nofun, ?_⟩
        rintro _ _ _ ⟨⟩
        exact ⟨rfl, hp, [], L', rfl, by simp⟩
      | none =>
        rw [← hreads.vol] at hrest
        refine (ih hrest (by simpa using hn)).mono ?_
        rintro r u ⟨hreads', hs⟩
        refine ⟨hreads.trans hreads', fun hr hio => hs.error hr (hreads.io hio), ?_, ?_⟩
        · intro it'' hr
          obtain ⟨hnone, hl⟩ := hs.done it'' hr
          rw [hreads.vol] at hnone
          rw [hdc] at hl
          refine ⟨fun b hb => ?_, hl⟩
          rcases List.mem_cons.mp hb with rfl | hb
          · exact hp
          · exact hnone b hb
        · intro a lba' buf' hr
          obtain ⟨hbuf, hpick, pre, post, rfl, hpre⟩ := hs.hit a lba' buf' hr
          rw [hreads.vol] at hbuf hpre
          refine ⟨hbuf, hpick, lba :: pre, post, rfl, fun b hb => ?_⟩
          rcases List.mem_cons.mp hb with rfl | hb
          · exact hp
          · exact hpre b hb

/-- A number of turns that is enough for every loop on a volume whose chains end. -/
def Enough (g : Geo) (n : Nat) : Prop := 0x10000 * g.sectorsPerCluster + g.rootSectorCount < n

lemma length_le_of_nodup {L : List Nat} {b : Nat} (hnd : L.Nodup) (hb : ∀ c ∈ L, c < b) :
    L.length ≤ b := by
  have hsub : L ⊆ List.range b := fun c hc => List.mem_range.mpr (hb c hc)
  have hlen := (List.subperm_of_subset hnd hsub).length_le
  rwa [List.length_range] at hlen

lemma length_flatMap_clusterLbas (cs : List Nat) :
    (cs.flatMap (clusterLbas g)).length = cs.length * g.sectorsPerCluster := by
  induction cs with
  | nil => simp
  | cons c cs ih =>
    rw [List.flatMap_cons, List.length_append, ih, List.length_cons, Nat.succ_mul, clusterLbas,
      List.length_map, List.length_range, Nat.add_comm]

lemma DirChain.length_sectors_lt {cs : List Nat} (h : DirChain g fat d cs) (hn : Enough g n) :
    (dirSectors g d cs).length < n := by
  unfold Enough at hn
  rw [dirSectors]
  rcases h with h0 | ⟨h0, hw, -⟩
  · rw [if_pos h0, List.length_map, List.length_range]
    omega
  · have hlen : cs.length ≤ 0x10000 := by
      refine length_le_of_nodup hw.nodup fun c hc => ?_
      have hgo := hw.not_stop hc
      simp only [Stop, not_or] at hgo
      omega
    have hmul := Nat.mul_le_mul_right g.sectorsPerCluster hlen
    rw [if_neg h0, length_flatMap_clusterLbas]
    omega

/-! ## Lookup -/

/-- The first slot with the name, before the first empty one. -/
def lookupSlot (disk : Nat → Mem) (name : List UInt8) : List Slot → Option Slot
  | [] => none
  | x :: l =>
      if (entryAt disk x).Empty then none
      else if (entryAt disk x).Live ∧ (entryAt disk x).name = name then some x
      else lookupSlot disk name l

lemma lookupSlot_some (h : lookupSlot disk name l = some x) :
    x ∈ l ∧ (entryAt disk x).Live ∧ (entryAt disk x).name = name := by
  induction l with
  | nil => simp [lookupSlot] at h
  | cons y l ih =>
    rw [lookupSlot] at h
    split at h
    · simp at h
    · split at h
      case isTrue hy =>
        cases h
        exact ⟨List.mem_cons_self, hy⟩
      case isFalse =>
        obtain ⟨hmem, hx⟩ := ih h
        exact ⟨List.mem_cons_of_mem _ hmem, hx⟩

/-- Nothing behind an empty slot counts, so that what is not found is not there. -/
lemma lookupSlot_none (h : lookupSlot disk name l = none)
    (htail : l.Pairwise fun x y => (entryAt disk x).Empty → (entryAt disk y).Empty) (hx : x ∈ l)
    (hl : (entryAt disk x).Live) : (entryAt disk x).name ≠ name := by
  induction l with
  | nil => simp at hx
  | cons y l ih =>
    obtain ⟨hy, hrest⟩ := List.pairwise_cons.mp htail
    rw [lookupSlot] at h
    split at h
    case isTrue hempty =>
      rcases List.mem_cons.mp hx with rfl | hx
      · exact absurd hempty hl.1
      · exact absurd (hy x hx hempty) hl.1
    case isFalse =>
      split at h
      · simp at h
      case isFalse hne =>
        rcases List.mem_cons.mp hx with rfl | hx
        · exact fun hname => hne ⟨hl, hname⟩
        · exact ih h hrest hx

lemma lookupSlot_sector (is : List Nat) (l : List Slot) :
    lookupSlot disk name ((is.map fun i => (lba, i)) ++ l) =
      match lookupIn name (disk lba) is with
      | none => lookupSlot disk name l
      | some none => none
      | some (some i) => some (lba, i) := by
  induction is with
  | nil => rfl
  | cons i is ih =>
    rw [List.map_cons, List.cons_append, lookupSlot, lookupIn]
    show (if (dirent (disk lba) i).Empty then _ else _) = _
    by_cases hempty : (dirent (disk lba) i).Empty
    · rw [if_pos hempty, if_pos hempty]
    rw [if_neg hempty, if_neg hempty]
    by_cases hdel : (dirent (disk lba) i).Deleted
    · rw [if_pos hdel, if_neg fun h => h.1.2.1 hdel, ih]
    rw [if_neg hdel]
    by_cases hvol : (dirent (disk lba) i).VolumeId
    · rw [if_pos hvol, if_neg fun h => h.1.2.2 hvol, ih]
    rw [if_neg hvol]
    by_cases hname : (dirent (disk lba) i).name = name
    · rw [if_pos hname, if_pos ⟨⟨hempty, hdel, hvol⟩, hname⟩]
    · rw [if_neg hname, if_neg fun h => hname h.2, ih]

lemma lookupSlot_skip {pre : List Nat}
    (h : ∀ b ∈ pre, lookupIn name (disk b) (List.range 16) = none) :
    lookupSlot disk name (slotsOf (pre ++ L)) = lookupSlot disk name (slotsOf L) := by
  induction pre with
  | nil => rfl
  | cons b pre ih =>
    rw [List.cons_append, slotsOf_cons, lookupSlot_sector, h b (by simp)]
    exact ih fun b' hb' => h b' (List.mem_cons_of_mem _ hb')

structure LookupSpec (s : St) (name : List UInt8) (l : List Slot) (r : Search Hit) : Prop where
  ioError : r = .ioError → s.io ≠ working
  missing : r = .missing → lookupSlot s.vol.disk name l = none
  found : ∀ h, r = .found h → lookupSlot s.vol.disk name l = some (h.lba, h.index) ∧
    h.entry = entryAt s.vol.disk (h.lba, h.index) ∧ h.buf = s.vol.disk h.lba

lemma DirChain.dirLookup_spec {cs : List Nat} (h : DirChain g s.vol.fat d cs) (hn : Enough g n) :
    Ends (dirLookup g n d name) s fun r t =>
      Reads s t ∧ LookupSpec s name (slotsOf (dirSectors g d cs)) r := by
  obtain ⟨last, hrest, -⟩ := h.rest_init
  refine (dirScan_spec hrest (h.length_sectors_lt hn)).seq ?_
  rintro r t ⟨hreads, hs⟩
  cases r with
  | error => exact .pure ⟨hreads, fun _ => hs.error rfl, nofun, nofun⟩
  | done it =>
    obtain ⟨hnone, -⟩ := hs.done it rfl
    have hskip := lookupSlot_skip (L := []) hnone
    rw [List.append_nil] at hskip
    exact .pure ⟨hreads, nofun, fun _ => hskip, nofun⟩
  | hit a lba buf =>
    obtain ⟨rfl, hpick, pre, post, hL, hpre⟩ := hs.hit a lba buf rfl
    have hskip := lookupSlot_skip (L := lba :: post) hpre
    rw [slotsOf_cons, lookupSlot_sector, hpick, ← hL] at hskip
    cases a with
    | none => exact .pure ⟨hreads, nofun, fun _ => hskip, nofun⟩
    | some i =>
      refine .pure ⟨hreads, nofun, nofun, ?_⟩
      rintro _ ⟨⟩
      exact ⟨hskip, rfl, rfl⟩

lemma dirLookup_spec (h : Walkable g s.vol lay) (hd : lay.isDir d) (hn : Enough g n) :
    Ends (dirLookup g n d name) s fun r t => Reads s t ∧ LookupSpec s name (lay.slots g d) r :=
  (h.dirChain hd).dirLookup_spec hn

/-! ## Paths -/

lemma length_padTo (k : Nat) (bytes : List UInt8) (h : bytes.length ≤ k) :
    (padTo k bytes).length = k := by
  rw [padTo, List.length_append, List.length_replicate]
  omega

lemma length_to83 (name : List UInt8) : (to83 name).length = 11 := by
  rw [to83]
  split
  · rfl
  · split
    · rfl
    · rw [List.length_append, length_padTo _ _ (by simp), length_padTo _ _ (by simp)]

lemma fat16Toupper_ne_zero {c : UInt8} (h : c ≠ 0) : fat16Toupper c ≠ 0 := by
  rw [fat16Toupper]
  split
  case isTrue hc =>
    intro h0
    have hle := UInt8.le_iff_toNat_le.mp hc.1
    have hsub := UInt8.toNat_sub_of_le c 32 (UInt8.le_iff_toNat_le.mpr (by
      have h61 : (0x61 : UInt8).toNat = 97 := rfl
      have h20 : (32 : UInt8).toNat = 32 := rfl
      omega))
    rw [h0] at hsub
    have h61 : (0x61 : UInt8).toNat = 97 := rfl
    have h20 : (32 : UInt8).toNat = 32 := rfl
    have h00 : (0 : UInt8).toNat = 0 := rfl
    omega
  case isFalse => exact h

/-- A stored name never starts with the mark of an empty slot. -/
lemma to83_head (h : (0 : UInt8) ∉ name) : (to83 name).headD 0 ≠ 0 := by
  rw [to83]
  split
  · decide
  · split
    · decide
    · cases hb : (name.takeWhile (· ≠ 0x2E)).take 8 with
      | nil => simp [padTo]
      | cons c rest =>
        have hc : c ∈ name := by
          have hmem : c ∈ (name.takeWhile (· ≠ 0x2E)).take 8 := by
            rw [hb]
            exact List.mem_cons_self
          exact (List.takeWhile_prefix _).subset (List.mem_of_mem_take hmem)
        exact fat16Toupper_ne_zero fun h0 => h (h0 ▸ hc)

/-- The directory at the end of a chain of lookups, and the stored name of the final component. -/
inductive Resolves (g : Geo) (disk : Nat → Mem) (lay : Layout) :
    Nat → List UInt8 → Nat × List UInt8 → Prop
  | last {d : Nat} {path : List UInt8} : (pathNextComponent path).2 = [] →
      Resolves g disk lay d path (d, to83 (pathNextComponent path).1)
  | step {d : Nat} {path : List UInt8} {x : Slot} {r : Nat × List UInt8} :
      (pathNextComponent path).2 ≠ [] →
      lookupSlot disk (to83 (pathNextComponent path).1) (lay.slots g d) = some x →
      (entryAt disk x).Directory →
      Resolves g disk lay (entryAt disk x).first (pathNextComponent path).2 r →
      Resolves g disk lay d path r

lemma length_next_lt (h : path ≠ []) (hs : path.head? ≠ some 0x2F) :
    (pathNextComponent path).2.length < path.length := by
  cases path with
  | nil => exact absurd rfl h
  | cons c path =>
    have hc : c ≠ 0x2F := fun hc => hs (by simp [hc])
    have hle := (List.dropWhile_suffix (· = (0x2F : UInt8))
      (l := (c :: path).drop (pathNextComponent (c :: path)).1.length)).length_le
    have hcomp : 0 < (pathNextComponent (c :: path)).1.length := by
      simp [pathNextComponent, hc]
    rw [List.length_drop, List.length_cons] at hle
    simp only [pathNextComponent] at hle hcomp ⊢
    rw [List.length_cons]
    omega

lemma head_next (h : (pathNextComponent path).2.head? = some 0x2F) : False := by
  have hne := List.head?_dropWhile_not (fun b : UInt8 => decide (b = 0x2F))
    (path.drop (pathNextComponent path).1.length)
  rw [show (path.drop (pathNextComponent path).1.length).dropWhile (fun b => decide (b = 0x2F)) =
    (pathNextComponent path).2 from rfl, h] at hne
  simp at hne

structure ResolveSpec (s : St) (P : Nat × List UInt8 → Prop) (r : Search (Nat × List UInt8)) :
    Prop where
  ioError : r = .ioError → s.io ≠ working
  missing : r = .missing → ∀ p, ¬ P p
  found : ∀ p, r = .found p → P p

lemma resolveLoop_spec (h : Walkable g s.vol lay) (hd : lay.isDir d) (hn : Enough g n) {k : Nat}
    (hk : path.length ≤ k) (hne : path ≠ []) (hs : path.head? ≠ some 0x2F) :
    Ends (resolveLoop g n k d path) s fun r t =>
      Reads s t ∧ ResolveSpec s (Resolves g s.vol.disk lay d path) r := by
  induction k generalizing d path s with
  | zero => exact absurd (List.length_eq_zero_iff.mp (Nat.le_zero.mp hk)) hne
  | succ k ih =>
    rw [resolveLoop]
    split
    case isTrue hlast =>
      refine .pure ⟨.refl s, nofun, nofun, ?_⟩
      rintro _ ⟨⟩
      exact .last hlast
    case isFalse hmore =>
      refine (dirLookup_spec h hd hn).seq ?_
      rintro r t ⟨hreads, hlook⟩
      cases r with
      | ioError => exact .pure ⟨hreads, fun _ => hlook.ioError rfl, nofun, nofun⟩
      | missing =>
        refine .pure ⟨hreads, nofun, fun _ p hp => ?_, nofun⟩
        cases hp with
        | last hlast => exact hmore hlast
        | step _ hx _ _ =>
          rw [hlook.missing rfl] at hx
          simp at hx
      | found hit =>
        obtain ⟨hx, hentry, -⟩ := hlook.found hit rfl
        obtain ⟨hmem, hlive, -⟩ := lookupSlot_some hx
        dsimp only
        rw [hentry]
        split
        case isFalse hdir =>
          refine .pure ⟨hreads, nofun, fun _ p hp => ?_, nofun⟩
          cases hp with
          | last hlast => exact hmore hlast
          | step _ hx' hdir' _ =>
            rw [hx] at hx'
            cases hx'
            exact hdir hdir'
        case isTrue hdir =>
          have hlen := length_next_lt hne hs
          refine (ih (s := t) (d := (entryAt s.vol.disk (hit.lba, hit.index)).first)
            (by rw [hreads.vol]; exact h) (h.closed d hd _ hmem hlive hdir) (by omega) hmore
            head_next).mono ?_
          rintro r u ⟨hreads', hres⟩
          rw [hreads.vol] at hres
          refine ⟨hreads.trans hreads', fun hr hio => hres.ioError hr (hreads.io hio), ?_,
            fun p hp => .step hmore hx hdir (hres.found p hp)⟩
          intro hr p hp
          cases hp with
          | last hlast => exact hmore hlast
          | step _ hx' _ hp =>
            rw [hx] at hx'
            cases hx'
            exact hres.missing hr p hp

def ResolvesPath (g : Geo) (disk : Nat → Mem) (lay : Layout) (cwd : Nat) (path : List UInt8)
    (r : Nat × List UInt8) : Prop :=
  path.dropWhile (· = 0x2F) ≠ [] ∧
    Resolves g disk lay (if path.head? = some 0x2F then 0 else cwd) (path.dropWhile (· = 0x2F)) r

lemma head_dropWhile : (path.dropWhile (· = 0x2F)).head? ≠ some 0x2F := by
  intro hh
  have hnot := List.head?_dropWhile_not (fun b : UInt8 => decide (b = 0x2F)) path
  rw [hh] at hnot
  simp at hnot

lemma resolvePath_spec (h : Walkable g s.vol lay) (hd : lay.isDir d) (hn : Enough g n) :
    Ends (resolvePath g n d path) s fun r t =>
      Reads s t ∧ ResolveSpec s (ResolvesPath g s.vol.disk lay d path) r := by
  rw [resolvePath]
  split
  case isTrue hnil =>
    exact .pure ⟨.refl s, nofun, fun _ p hp => hp.1 hnil, nofun⟩
  case isFalse hne =>
    have hdir : lay.isDir (if path.head? = some 0x2F then 0 else d) := by
      split
      · exact h.root
      · exact hd
    refine (resolveLoop_spec h hdir hn (Nat.le_refl _) hne head_dropWhile).mono ?_
    rintro r t ⟨hreads, hres⟩
    exact ⟨hreads, hres.ioError, fun hr p hp => hres.missing hr p hp.2,
      fun p hp => ⟨hne, hres.found p hp⟩⟩

lemma Resolves.spec {r : Nat × List UInt8} (h : Walkable g v lay) (hd : lay.isDir d)
    (hr : Resolves g v.disk lay d path r) :
    lay.isDir r.1 ∧ r.2.length = 11 ∧ ((0 : UInt8) ∉ path → r.2.headD 0 ≠ 0) := by
  induction hr with
  | last hlast =>
    refine ⟨hd, length_to83 _, fun h0 => to83_head fun hmem => h0 ?_⟩
    exact (List.takeWhile_prefix _).subset (List.mem_of_mem_take hmem)
  | step hmore hx hdir _ ih =>
    obtain ⟨hmem, hlive, -⟩ := lookupSlot_some hx
    obtain ⟨hp, hlen, hhead⟩ := ih (h.closed _ hd _ hmem hlive hdir)
    refine ⟨hp, hlen, fun h0 => hhead fun hmem' => h0 ?_⟩
    exact (List.drop_subset _ _) ((List.dropWhile_suffix _).subset hmem')

lemma ResolvesPath.spec {r : Nat × List UInt8} (h : Walkable g v lay) (hd : lay.isDir d)
    (hr : ResolvesPath g v.disk lay d path r) :
    lay.isDir r.1 ∧ r.2.length = 11 ∧ ((0 : UInt8) ∉ path → r.2.headD 0 ≠ 0) := by
  have hdir : lay.isDir (if path.head? = some 0x2F then 0 else d) := by
    split
    · exact h.root
    · exact hd
  obtain ⟨hp, hlen, hhead⟩ := Resolves.spec h hdir hr.2
  exact ⟨hp, hlen, fun h0 => hhead fun hmem => h0 ((List.dropWhile_suffix _).subset hmem)⟩

section Rule

variable {α : Type} {a b : α} {k : Nat → List UInt8 → Search Hit → Fs α} {R : α → St → Prop}

lemma ready_rule {α : Type} {m e : Fs α} {Q : α → St → Prop} (hr : s.vol.ready = true)
    (h : Ends m s Q) : Ends (do let s ← get; if s.vol.ready then m else e) s Q := by
  show Ends (if s.vol.ready = true then m else e) s Q
  rwa [if_pos hr]

/-- The calls that resolve a path and look up its final component: nothing is written before they
give up or go on with what the lookup has delivered. -/
lemma lookupPath_rule (hwalk : Walkable g s.vol lay) (hd : lay.isDir d) (hn : Enough g n)
    (hmiss : ∀ t, Reads s t → (∀ p, ¬ ResolvesPath g s.vol.disk lay d path p) → R a t)
    (hio : ∀ t, Reads s t → s.io ≠ working → R b t)
    (hlook : ∀ P name r t, Reads s t → ResolvesPath g s.vol.disk lay d path (P, name) →
      LookupSpec s name (lay.slots g P) r → Ends (k P name r) t R) :
    Ends (do
      let r ← resolvePath g n d path
      match r with
      | .missing => pure a
      | .ioError => pure b
      | .found (parent, name83) => do
          let found ← dirLookup g n parent name83
          k parent name83 found) s R := by
  refine (resolvePath_spec hwalk hd hn).seq ?_
  rintro r t ⟨hreads, hres⟩
  cases r with
  | missing => exact .pure (hmiss t hreads (hres.missing rfl))
  | ioError => exact .pure (hio t hreads (hres.ioError rfl))
  | found p =>
    obtain ⟨P, name⟩ := p
    have hresolves := hres.found _ rfl
    obtain ⟨hP, -, -⟩ := ResolvesPath.spec hwalk hd hresolves
    rw [← hreads.vol] at hwalk
    refine (dirLookup_spec hwalk hP hn).seq ?_
    rintro r u ⟨hreads', hfound⟩
    refine hlook P name r u (hreads.trans hreads') hresolves ?_
    refine ⟨fun hr hio => hfound.ioError hr (hreads.io hio), ?_, ?_⟩
    · rw [← hreads.vol]
      exact hfound.missing
    · rw [← hreads.vol]
      exact hfound.found

end Rule

end NullOS.Fat16
