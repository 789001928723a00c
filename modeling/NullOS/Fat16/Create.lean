import NullOS.Fat16.Writes

/-!
# Creating files and directories

`dir_insert` either fails with nothing to be seen, or it puts the entry into the first free slot,
for which a full subdirectory grows first.  What `fat16_create` and `fat16_mkdir` do is a sequence
of moves, with one exception: a `fat16_mkdir` whose last flush inside `dir_insert` fails frees the
cluster of a directory that already has its entry.
-/

namespace NullOS.Fat16

open Lib

variable {g : Geo} {v v' : Vol} {lay lay' : Layout} {s t : St} {n d P N G c lba last : Nat}
  {e : Dirent} {x : Slot} {name path : List UInt8}

/-- Clusters that are allocated but belong to nothing stay as they are. -/
def KeepsSpare (g : Geo) (lay : Layout) (v v' : Vol) : Prop :=
  ∀ c, g.Cluster c → (∀ o, c ∉ lay.chain o) → v.fat c ≠ 0 →
    v'.fat c = v.fat c ∧ ∀ lba ∈ clusterLbas g c, v'.disk lba = v.disk lba

/-- The entry `e` is now in the slot `x` of the directory `P`, which may have grown before. -/
structure Inserted (g : Geo) (lay : Layout) (P : Nat) (e : Dirent) (v v' : Vol) (lay' : Layout)
    (x : Slot) : Prop where
  moves : ∃ w, Moves g (fun _ _ => False) (v, lay) (w, lay') ∧ PutAt g lay' P x e w v'
  spare : KeepsSpare g lay v v'
  fresh : ∀ c, g.Cluster c → (∀ o, c ∉ lay.chain o) → v.fat c ≠ 0 → ∀ o, c ∉ lay'.chain o

structure InsertSpec (g : Geo) (lay : Layout) (P : Nat) (e : Dirent) (s : St) (r : Bool) (t : St) :
    Prop where
  io : s.io = working → t.io = working
  outcome : (r = false ∧ Hidden g lay s.vol t.vol ∧ KeepsSpare g lay s.vol t.vol ∧
      (s.io = working → t.vol = s.vol)) ∨
    (∃ lay' x, Inserted g lay P e s.vol t.vol lay' x) ∧ (r = false → s.io ≠ working) ∧
      (r = true → Copies g s.vol → Copies g t.vol)

/-! ## A free slot -/

lemma slots_split {disk : Nat → Mem} {pre : List Nat} (post : List Nat) {i : Nat}
    (hpre : ∀ b ∈ pre, freeEntry (disk b) = none) (hi : freeEntry (disk lba) = some i) :
    i < 16 ∧ (entryAt disk (lba, i)).Free ∧ ∃ l l', slotsOf (pre ++ lba :: post) =
      l ++ (lba, i) :: l' ∧ ∀ y ∈ l, ¬ (entryAt disk y).Free := by
  obtain ⟨hfree, is, is', hrange, his⟩ := List.find?_eq_some_iff_append.mp hi
  have hmem : i ∈ List.range 16 := by
    rw [hrange]
    simp
  refine ⟨List.mem_range.mp hmem, of_decide_eq_true hfree,
    slotsOf pre ++ is.map fun j => (lba, j), (is'.map fun j => (lba, j)) ++ slotsOf post, ?_, ?_⟩
  · rw [slotsOf_append, slotsOf_cons, hrange]
    simp
  · intro y hy
    rcases List.mem_append.mp hy with hy | hy
    · obtain ⟨hb, hlt⟩ := mem_slotsOf.mp hy
      have hnone := List.find?_eq_none.mp (hpre y.1 hb) y.2 (List.mem_range.mpr hlt)
      exact fun hf => hnone (decide_eq_true hf)
    · obtain ⟨j, hj, rfl⟩ := List.mem_map.mp hy
      have hnot := his j hj
      rw [Bool.not_eq_true', decide_eq_false_iff_not] at hnot
      exact hnot

lemma inserted_slot (hv : Valid g v lay) (hP : lay.isDir P) (hfits : e.Fits) (hne : ¬ e.Empty)
    (habsent : lookupSlot v.disk e.name (lay.slots g P) = none) {pre post : List Nat} {i : Nat}
    (hL : lay.sectors g P = pre ++ lba :: post) (hpre : ∀ b ∈ pre, freeEntry (v.disk b) = none)
    (hi : freeEntry (v.disk lba) = some i) :
    Inserted g lay P e v
      { v with disk := Function.update v.disk lba (putDirent (v.disk lba) i e) } lay (lba, i) := by
  obtain ⟨-, hfree, l, l', hslots, hl⟩ := slots_split post hpre hi
  have hused : lay.Used g lba := used_of_mem_sectors (d := P) (by rw [hL]; simp)
  refine ⟨⟨v, .refl, hP, ⟨l, l', ?_, hl⟩, hfree, hne, habsent, rfl, fun _ _ _ => rfl, ?_, ?_, ?_⟩,
    ?_, fun c _ hfresh _ => hfresh⟩
  · rw [Layout.slots, hL, hslots]
  · exact entryAt_update_self.trans (dirent_putDirent_self hfits)
  · exact fun y _ hy => entryAt_update_of_ne hy fun j hj => dirent_putDirent_of_ne hj
  · intro b _ hb
    exact Function.update_of_ne hb _ _
  · intro c hc hfresh _
    refine ⟨rfl, fun b hb => Function.update_of_ne ?_ _ _⟩
    rintro rfl
    exact hv.not_used hc hfresh hb hused

/-! ## Growth -/

/-- What `dir_insert` has done when it has linked the new cluster `G`. -/
structure GrowthDone (g : Geo) (last G : Nat) (e : Dirent) (v v' : Vol) : Prop where
  ready : v'.ready = v.ready
  link : v'.fat last = G
  ends : EndMark (v'.fat G)
  fat : ∀ c, c ≠ last → c ≠ G → v'.fat c = v.fat c
  disk : ∀ lba, g.rootStartLba ≤ lba → lba ∉ clusterLbas g G → v'.disk lba = v.disk lba
  first : v'.disk (clusterSector g G 0) = putDirent zeroSector 0 e
  zero : ∀ lba ∈ clusterLbas g G, lba ≠ clusterSector g G 0 → v'.disk lba = zeroSector

lemma lookupSlot_append_none {disk : Nat → Mem} {l l' : List Slot}
    (h : lookupSlot disk name l = none) (he : ∀ y ∈ l', (entryAt disk y).Empty) :
    lookupSlot disk name (l ++ l') = none := by
  induction l with
  | nil =>
    cases l' with
    | nil => rfl
    | cons y l' => rw [List.nil_append, lookupSlot, if_pos (he y (by simp))]
  | cons y l ih =>
    rw [List.cons_append, lookupSlot]
    rw [lookupSlot] at h
    split at h
    case isTrue hempty => rw [if_pos hempty]
    case isFalse hempty =>
      rw [if_neg hempty]
      split at h
      · simp at h
      case isFalse hne =>
        rw [if_neg hne]
        exact ih h

namespace GrowthDone

def linked (g : Geo) (G : Nat) (v : Vol) : Vol :=
  { v with disk := Function.update v.disk (clusterSector g G 0) zeroSector }

lemma linked_zero (h : GrowthDone g last G e v v') (hlba : lba ∈ clusterLbas g G) :
    (linked g G v').disk lba = zeroSector := by
  by_cases h0 : lba = clusterSector g G 0
  · rw [h0]
    exact Function.update_self _ _ _
  · exact (Function.update_of_ne h0 _ _).trans (h.zero lba hlba h0)

lemma linked_used (hv : Valid g v lay) (h : GrowthDone g last G e v v') (hG : g.Cluster G)
    (hfresh : ∀ o, G ∉ lay.chain o) (hu : lay.Used g lba) :
    lba ≠ clusterSector g G 0 ∧ v'.disk lba = v.disk lba := by
  have hnot : lba ∉ clusterLbas g G := fun hmem => hv.not_used hG hfresh hmem hu
  refine ⟨?_, h.disk lba (hv.rootStartLba_le_of_used hu) hnot⟩
  rintro rfl
  exact hnot (firstSector_mem g G)

lemma grown (hv : Valid g v lay) (hP : lay.isDir P) (hP0 : P ≠ 0)
    (hfull : ∀ x ∈ lay.slots g P, ¬ (entryAt v.disk x).Free) (hG : g.Cluster G)
    (hfree : v.fat G = 0) {pre : List Nat} (hlast : lay.chain (.dir P) = pre ++ [last])
    (h : GrowthDone g last G e v v') : Grown g lay P G v (linked g G v') := by
  have hfresh := hv.fresh_of_free hfree
  refine ⟨hP, hP0, hfull, hG, hfresh, h.ready, ⟨pre, last, hlast, h.link, fun o c hc hne => ?_⟩,
    h.ends, fun lba hu => ?_, fun y hy => ?_⟩
  · refine h.fat c hne ?_
    rintro rfl
    exact hfresh o hc
  · obtain ⟨hne, heq⟩ := h.linked_used hv hG hfresh hu
    exact (Function.update_of_ne hne _ _).trans heq
  · rw [entryAt, h.linked_zero (mem_slotsOf.mp hy).1]
    exact dirent_zeroSector_empty

lemma inserted (hv : Valid g v lay) (hP : lay.isDir P) (hP0 : P ≠ 0)
    (hfull : ∀ x ∈ lay.slots g P, ¬ (entryAt v.disk x).Free)
    (habsent : lookupSlot v.disk e.name (lay.slots g P) = none) (hfits : e.Fits)
    (hne : ¬ e.Empty) (hG : g.Cluster G) (hfree : v.fat G = 0) {pre : List Nat}
    (hlast : lay.chain (.dir P) = pre ++ [last]) (h : GrowthDone g last G e v v') :
    Inserted g lay P e v v' (lay.grow P G) (clusterSector g G 0, 0) := by
  have hfresh := hv.fresh_of_free hfree
  have hgrown := h.grown hv hP hP0 hfull hG hfree hlast
  have hold : ∀ y ∈ lay.slots g P, entryAt (linked g G v').disk y = entryAt v.disk y := fun y hy =>
    entryAt_congr (hgrown.disk _ (used_of_mem_slots hy))
  have hlbas : clusterLbas g G = clusterSector g G 0 :: (clusterLbas g G).drop 1 :=
    clusterLbas_drop g.sectorsPerCluster_pos
  refine ⟨⟨linked g G v', .single (.grow hgrown), hP, ?_, ?_, hne, ?_, rfl, fun _ _ _ => rfl, ?_,
    ?_, ?_⟩, ?_, ?_⟩
  · -- the first free slot is the first slot of the new cluster
    refine ⟨lay.slots g P, ((List.range' 1 15).map fun i => (clusterSector g G 0, i)) ++
      slotsOf ((clusterLbas g G).drop 1), ?_, fun y hy => ?_⟩
    · rw [Layout.grow_slots_self hP0, hlbas, slotsOf_cons]
      rfl
    · rw [hold y hy]
      exact hfull y hy
  · left
    rw [entryAt, h.linked_zero (firstSector_mem g G)]
    exact dirent_zeroSector_empty
  · rw [Layout.grow_slots_self hP0]
    exact lookupSlot_append_none ((lookupSlot_congr hold).trans habsent) hgrown.empty
  · rw [entryAt, h.first]
    exact dirent_putDirent_self hfits
  · intro y _ hy
    by_cases hlba : y.1 = clusterSector g G 0
    · have hi : y.2 ≠ 0 := fun h0 => hy (Prod.ext hlba h0)
      rw [entryAt, entryAt, hlba, h.first, h.linked_zero (firstSector_mem g G)]
      exact dirent_putDirent_of_ne hi
    · exact entryAt_congr (Function.update_of_ne hlba _ _).symm
  · intro b _ hb
    exact (Function.update_of_ne hb _ _).symm
  · intro c hc hfr hne0
    have hcG : c ≠ G := fun hcG => hne0 (hcG ▸ hfree)
    refine ⟨h.fat c ?_ hcG, fun b hb => h.disk b ?_ fun hmem => ?_⟩
    · rintro rfl
      exact hfr (.dir P) (by rw [hlast]; simp)
    · exact Nat.le_trans (rootStartLba_le g) (dataStartLba_le hv.fits hc hb)
    · exact hcG (clusterLbas_disjoint hv.fits hc hG hb hmem)
  · intro c hc hfr hne0 o hmem
    by_cases ho : o = .dir P
    · subst ho
      rw [Layout.grow_chain_self, List.mem_append, List.mem_singleton] at hmem
      rcases hmem with hmem | rfl
      · exact hfr _ hmem
      · exact hne0 hfree
    · rw [Layout.grow_chain_of_ne ho] at hmem
      exact hfr o hmem

end GrowthDone

lemma hidden_newCluster (hv : Valid g s.vol lay) (hc : g.Cluster c) (hfree : s.vol.fat c = 0)
    (hw : Writes (· ∈ clusterLbas g c) (s.alloc c) t) :
    Hidden g lay s.vol t.vol ∧ KeepsSpare g lay s.vol t.vol := by
  have hfresh := hv.fresh_of_free hfree
  have halloc := hidden_alloc hv hfree
  refine ⟨halloc.trans (hidden_cluster (Hidden.valid hv halloc) hc hfresh hw), ?_⟩
  intro b hb hfr hne
  have hbc : b ≠ c := fun hbc => hne (hbc ▸ hfree)
  refine ⟨?_, fun lba hlba => hw.disk lba fun hmem => ?_⟩
  · rw [hw.fat]
    exact Function.update_of_ne hbc _ _
  · exact hbc (clusterLbas_disjoint hv.fits hb hc hlba hmem)

/-- A new cluster with one sector written and the others zero, that nothing points to yet. -/
structure NewCluster (g : Geo) (sector : Mem) (N : Nat) (s t : St) : Prop where
  cluster : g.Cluster N
  free : s.vol.fat N = 0
  writes : Writes (· ∈ clusterLbas g N) (s.alloc N) t
  lost : t.lost = s.lost
  first : t.vol.disk (clusterSector g N 0) = sector
  zero : ∀ lba ∈ clusterLbas g N, lba ≠ clusterSector g N 0 → t.vol.disk lba = zeroSector

/-- How `dir_insert` and `fat16_mkdir` prepare a new cluster: there is none, a write to it fails, or
they go on with it. -/
lemma newCluster_rule {sector : Nat → Mem} {k : Nat → Fs Bool} {R : Bool → St → Prop}
    (hg : g.Fits) (hfull : R false s)
    (hfail : ∀ N lba t, g.Cluster N → s.vol.fat N = 0 →
      Writes (· ∈ clusterLbas g N) (s.alloc N) t → s.io ≠ working → lba ∈ clusterLbas g N →
      lba ∈ t.lost → R false t)
    (hstored : ∀ N t, NewCluster g (sector N) N s t → Ends (k N) t R) :
    Ends (do
      let newCluster ← fat16AllocCluster g
      if newCluster = 0 then pure false
      else do
        let zeroed ← writeSectors (zeroCluster g newCluster)
        if zeroed then do
          let stored ← blockWriteSector (fat16ClusterToLba g newCluster) (sector newCluster)
          if stored then k newCluster else pure false
        else pure false) s R := by
  refine (fat16AllocCluster_spec hg).seq ?_
  rintro N s₁ (⟨rfl, rfl, -⟩ | ⟨hN, hfree, rfl⟩)
  · rw [if_pos rfl]
    exact .pure hfull
  have hN2 := hN.1
  rw [if_neg (by omega)]
  refine ((zeroCluster_spec (s.alloc N) N).and (zeroCluster_loses _ N)).seq ?_
  rintro _ s₂ ⟨⟨hw₂, hfalse, hzero⟩, ⟨rfl, hlost₂⟩ | ⟨rfl, lba, hlba, hlost₂⟩⟩
  swap
  · exact .pure (hfail N lba s₂ hN hfree hw₂ (hfalse rfl) hlba (hlost₂ ▸ List.mem_cons_self))
  rw [if_pos rfl, fat16ClusterToLba_eq hN2 (hg.lt hN)]
  refine ((blockWriteSector_spec s₂ _ _).and (blockWriteSector_loses s₂ _ _)).seq ?_
  rintro _ s₃ ⟨⟨hw₃, hcase⟩, hlost₃⟩
  have hw := hw₂.trans (hw₃.mono fun lba hlba => by
    rw [hlba]
    exact firstSector_mem g N)
  rcases hcase with ⟨rfl, hio, -⟩ | ⟨rfl, hvol⟩
  · rcases hlost₃ with ⟨hr, -⟩ | ⟨-, lba, rfl, hlost₃⟩
    · simp at hr
    · exact .pure (hfail N _ s₃ hN hfree hw (fun h => hio (hw₂.io h)) (firstSector_mem g N)
        (hlost₃ ▸ List.mem_cons_self))
  · rcases hlost₃ with ⟨-, hlost₃⟩ | ⟨hr, -⟩
    swap
    · simp at hr
    rw [if_pos rfl]
    refine hstored N s₃ ⟨hN, hfree, hw, hlost₃.trans hlost₂, ?_, fun lba hlba hne => ?_⟩
    · rw [hvol]
      exact Function.update_self _ _ _
    · rw [hw₃.disk lba hne]
      exact hzero rfl lba hlba

lemma dirGrow_spec (hv : Valid g s.vol lay) (hP : lay.isDir P) (hP0 : P ≠ 0)
    (hfull : ∀ x ∈ lay.slots g P, ¬ (entryAt s.vol.disk x).Free)
    (habsent : lookupSlot s.vol.disk e.name (lay.slots g P) = none) (hfits : e.Fits)
    (hne : ¬ e.Empty) {pre : List Nat} (hlast : lay.chain (.dir P) = pre ++ [last]) :
    Ends (dirGrow g last e) s fun r t => InsertSpec g lay P e s r t := by
  refine newCluster_rule hv.fits ?_ ?_ ?_
  · exact ⟨id, .inl ⟨rfl, .refl _, fun _ _ _ _ => ⟨rfl, fun _ _ => rfl⟩, fun _ => rfl⟩⟩
  · intro G lba t hG hfree hw hio _ _
    obtain ⟨hhid, hspare⟩ := hidden_newCluster hv hG hfree hw
    exact ⟨hw.io, .inl ⟨rfl, hhid, hspare, fun hio' => absurd hio' hio⟩⟩
  intro G s₁ hnew
  have hG := hnew.cluster
  have hG16 := hv.fits.lt hG
  have hfree := hnew.free
  have hw₁ := hnew.writes
  -- the new cluster is linked, and from here on the entry is in the directory
  have hlastmem : last ∈ lay.chain (.dir P) := by
    rw [hlast]
    simp
  have hlastc := (hv.used _ _ hlastmem).1
  have hentries := hv.fits.entries
  refine (setFat_spec (Nat.lt_of_lt_of_le hlastc.2 hentries)).seq ?_
  rintro _ _ rfl
  refine (setFat_spec (Nat.lt_of_lt_of_le hG.2 hentries)).seq ?_
  rintro _ _ rfl
  refine (fat16FlushFat_spec _).mono ?_
  rintro r t ⟨hw, hfalse', hcopies⟩
  have hfat : t.vol.fat = Function.update (Function.update (Function.update s.vol.fat G 0xFFFF)
      last (G % 0x10000)) G 0xFFFF := by
    rw [hw.fat]
    show Function.update (Function.update s₁.vol.fat last (G % 0x10000)) G (0xFFFF % 0x10000) = _
    rw [hw₁.fat]
    rfl
  have hne' : last ≠ G := by
    rintro rfl
    exact hv.fresh_of_free hfree _ hlastmem
  have hdisk : ∀ lba, g.rootStartLba ≤ lba → t.vol.disk lba = s₁.vol.disk lba := fun lba hle =>
    hw.disk lba (by omega)
  have hdata : ∀ lba ∈ clusterLbas g G, g.rootStartLba ≤ lba := fun lba hlba =>
    Nat.le_trans (rootStartLba_le g) (dataStartLba_le hv.fits hG hlba)
  have hdone : GrowthDone g last G e s.vol t.vol := by
    refine ⟨hw.ready.trans hw₁.ready, ?_, ?_, fun c hcl hcG => ?_, fun lba hle hmem => ?_, ?_,
      fun lba hlba hne0 => ?_⟩
    · rw [hfat, Function.update_of_ne hne', Function.update_self, Nat.mod_eq_of_lt hG16]
    · rw [hfat, Function.update_self]
      exact Nat.le_of_ble_eq_true rfl
    · rw [hfat, Function.update_of_ne hcG, Function.update_of_ne hcl, Function.update_of_ne hcG]
    · rw [hdisk lba hle]
      exact hw₁.disk lba hmem
    · rw [hdisk _ (hdata _ (firstSector_mem g G)), hnew.first]
    · rw [hdisk lba (hdata lba hlba)]
      exact hnew.zero lba hlba hne0
  refine ⟨fun hio => hw.io (hw₁.io hio), .inr ⟨⟨_, _, hdone.inserted hv hP hP0 hfull habsent hfits
    hne hG hfree hlast⟩, fun hr hio => hfalse' hr (hw₁.io hio), fun hr _ => hcopies hr⟩⟩

/-! ## The insertion -/

lemma dirInsert_spec (hv : Valid g s.vol lay) (hP : lay.isDir P) (hn : Enough g n)
    (habsent : lookupSlot s.vol.disk e.name (lay.slots g P) = none) (hfits : e.Fits)
    (hne : ¬ e.Empty) :
    Ends (dirInsert g n P e) s fun r t => InsertSpec g lay P e s r t := by
  have hwalk := hv.walkable
  obtain ⟨last, (hrest : Rest g _ _ (lay.sectors g P) last), hlast⟩ :=
    (hwalk.dirChain hP).rest_init
  refine (dirScan_spec hrest ((hwalk.dirChain hP).length_sectors_lt hn)).seq ?_
  rintro r s₁ ⟨hreads, hscan⟩
  -- nothing has happened yet
  have hsame : ∀ {r t}, InsertSpec g lay P e s₁ r t → InsertSpec g lay P e s r t := by
    intro r t h
    refine ⟨fun hio => h.io (hreads.io hio), ?_⟩
    have hout := h.outcome
    rw [hreads.vol] at hout
    rcases hout with ⟨hr, hhid, hspare, hio⟩ | ⟨hins, hfalse, hcopies⟩
    · exact .inl ⟨hr, hhid, hspare, hio ∘ hreads.io⟩
    · exact .inr ⟨hins, fun hr hio => hfalse hr (hreads.io hio), hcopies⟩
  have hfail : InsertSpec g lay P e s₁ false s₁ :=
    ⟨id, .inl ⟨rfl, .refl _, fun _ _ _ _ => ⟨rfl, fun _ _ => rfl⟩, fun _ => rfl⟩⟩
  cases r with
  | error => exact .pure (hsame hfail)
  | hit i lba buf =>
    obtain ⟨rfl, hi, pre, post, hL, hpre⟩ := hscan.hit i lba buf rfl
    refine (blockWriteSector_spec s₁ _ _).mono ?_
    rintro r t ⟨hw, ⟨rfl, hio, hvol⟩ | ⟨rfl, hvol⟩⟩
    · refine hsame ⟨hw.io, .inl ⟨rfl, ?_, ?_, fun _ => hvol⟩⟩
      · rw [hvol]
        exact .refl _
      · rw [hvol]
        exact fun _ _ _ _ => ⟨rfl, fun _ _ => rfl⟩
    · have hins := inserted_slot hv hP hfits hne habsent hL hpre hi
      rw [← hreads.vol] at hins
      refine hsame ⟨hw.io, .inr ⟨⟨lay, (lba, i), ?_⟩, nofun, fun _ hcopies => ?_⟩⟩
      · rw [hvol, hreads.vol]
        rw [hreads.vol] at hins
        exact hins
      · refine hcopies.congr hw.fat fun b hb => hw.disk b ?_
        rintro rfl
        have hmem : b ∈ lay.sectors g P := by
          rw [hL]
          simp
        have hle := hv.rootStartLba_le_of_used (used_of_mem_sectors hmem)
        omega
  | done it =>
    obtain ⟨hnone, hcluster⟩ := hscan.done it rfl
    by_cases hP0 : P = 0
    · dsimp only
      rw [if_pos hP0]
      exact .pure (hsame hfail)
    · dsimp only
      rw [if_neg hP0, hcluster hP0]
      obtain ⟨pre, hpre⟩ := hlast hP0 (hv.walkable.ne_nil P hP hP0)
      have hfull : ∀ y ∈ lay.slots g P, ¬ (entryAt s.vol.disk y).Free := by
        intro y hy hfree
        obtain ⟨hb, hlt⟩ := mem_slotsOf.mp hy
        have hnot := List.find?_eq_none.mp (hnone y.1 hb) y.2 (List.mem_range.mpr hlt)
        exact hnot (decide_eq_true hfree)
      rw [← hreads.vol] at hv hfull habsent
      exact (dirGrow_spec hv hP hP0 hfull habsent hfits hne hpre).mono fun r t h => hsame h

/-! ## `fat16_create` -/

lemma newFile_not_directory : ¬ (newFile name).Directory := by
  show ¬ (0x20 : UInt8) &&& 0x10 ≠ 0
  decide

lemma newFile_entry (g : Geo) (v : Vol) (lay : Layout) (P : Nat) (x : Slot) (name : List UInt8) :
    ∃ lay', NewEntry g v lay P x (newFile name) lay' := by
  by_cases hl : (newFile name).Live
  · exact ⟨_, .file hl newFile_not_directory rfl rfl⟩
  · exact ⟨_, .dead hl⟩

def FromPath (g : Geo) (v : Vol) (lay : Layout) (d : Nat) (path : List UInt8) (P : Nat)
    (e : Dirent) : Prop :=
  ResolvesPath g v.disk lay d path (P, e.name)

/-- What a call that succeeds or fails with nothing left behind has done. -/
structure Created (g : Geo) (lay : Layout) (d : Nat) (path : List UInt8) (s t : St)
    (lay' : Layout) : Prop where
  moves : Moves g (FromPath g s.vol lay d path) (s.vol, lay) (t.vol, lay')
  copies : s.io = working → Copies g s.vol → Copies g t.vol

lemma Created.of_same (h : t.vol = s.vol) : Created g lay d path s t lay := by
  refine ⟨?_, fun _ hc => ?_⟩
  · rw [h]
    exact .refl
  · rw [h]
    exact hc

lemma Inserted.moves_put {Q : Nat → Dirent → Prop} {lay₁ : Layout}
    (h : Inserted g lay P e v v' lay₁ x) (hq : Q P e) (he : NewEntry g v' lay₁ P x e lay') :
    Moves g Q (v, lay) (v', lay') := by
  obtain ⟨w, hmoves, hput⟩ := h.moves
  exact (hmoves.mono fun _ _ hf => hf.elim).tail (.put hq hput he)

/-- **What `fat16_create` does**, whatever block operations fail. -/
lemma fat16Create_spec (hv : Valid g s.vol lay) (hd : lay.isDir d) (hn : Enough g n)
    (hpath : (0 : UInt8) ∉ path) :
    Ends (fat16Create g n d path) s fun r t => (s.io = working → t.io = working) ∧
      (∃ lay', Created g lay d path s t lay') ∧
      ∀ P, r = some P → ∃ name, ResolvesPath g s.vol.disk lay d path (P, name) := by
  refine ready_rule hv.ready ?_
  have hgiveUp : ∀ t, Reads s t → (s.io = working → t.io = working) ∧
      (∃ lay', Created g lay d path s t lay') ∧
      ∀ P, (none : Option Nat) = some P → ∃ name, ResolvesPath g s.vol.disk lay d path (P, name) :=
    fun t hreads => ⟨hreads.io, ⟨lay, .of_same hreads.vol⟩, nofun⟩
  refine lookupPath_rule hv.walkable hd hn (fun t hreads _ => hgiveUp t hreads)
    (fun t hreads _ => hgiveUp t hreads) ?_
  intro P name r s₁ hreads hresolves hlook
  cases r with
  | ioError => exact .pure (hgiveUp s₁ hreads)
  | found hit =>
    dsimp only
    split
    · exact .pure (hgiveUp s₁ hreads)
    · refine .pure ⟨hreads.io, ⟨lay, .of_same hreads.vol⟩, ?_⟩
      rintro _ ⟨⟩
      exact ⟨name, hresolves⟩
  | missing =>
    have habsent := hlook.missing rfl
    obtain ⟨hP, hlen, hhead⟩ := ResolvesPath.spec hv.walkable hd hresolves
    have hv₁ := hv
    rw [← hreads.vol] at habsent hv₁
    refine (dirInsert_spec (e := newFile name) hv₁ hP hn habsent
      ⟨hlen, Nat.zero_lt_succ _, Nat.zero_lt_succ _⟩ (hhead hpath)).seq ?_
    rintro ok t hins
    have hio : s.io = working → t.io = working := fun hio => hins.io (hreads.io hio)
    have hcreated : ∃ lay', Created g lay d path s t lay' := by
      rcases hins.outcome with ⟨-, hhid, -, hsame⟩ | ⟨⟨lay₁, x, hin⟩, hfalse, hcopies⟩
      · rw [hreads.vol] at hhid hsame
        refine ⟨lay, .single (.hidden hhid), fun hio hc => ?_⟩
        rw [hsame (hreads.io hio)]
        exact hc
      · obtain ⟨lay', he⟩ := newFile_entry g t.vol lay₁ P x name
        rw [hreads.vol] at hin hcopies
        refine ⟨lay', hin.moves_put hresolves he, fun hio hc => hcopies ?_ hc⟩
        by_contra hok
        exact hfalse (by simpa using hok) (hreads.io hio)
    split
    · refine .pure ⟨hio, hcreated, ?_⟩
      rintro _ ⟨⟩
      exact ⟨name, hresolves⟩
    · exact .pure ⟨hio, hcreated, nofun⟩

/-! ## `fat16_mkdir` -/

/-- The new directory `N` has its entry, in the slot `x` of `P`, but its cluster has been freed:
the last flush inside `dir_insert` has failed. -/
def Broken (g : Geo) (lay : Layout) (P : Nat) (name : List UInt8) (v v' : Vol) : Prop :=
  ∃ w lay' x N, Moves g (fun P' e => P' = P ∧ e.name = name) (v, lay) (w, lay') ∧
    lookupSlot w.disk name (lay'.slots g P) = some x ∧ (entryAt w.disk x).Directory ∧
    Chain g w.fat N [N] ∧ v' = { w with fat := fun c => if c ∈ [N] then 0 else w.fat c }

structure MakeSpec (g : Geo) (lay : Layout) (P : Nat) (name : List UInt8) (s t : St) : Prop where
  io : s.io = working → t.io = working
  outcome : (∃ lay', Moves g (fun P' e => P' = P ∧ e.name = name) (s.vol, lay) (t.vol, lay') ∧
      (s.io = working → Copies g s.vol → Copies g t.vol)) ∨
    s.io ≠ working ∧ Broken g lay P name s.vol t.vol

structure Prepared (g : Geo) (lay : Layout) (N P : Nat) (v v' : Vol) : Prop where
  cluster : g.Cluster N
  free : v.fat N = 0
  hidden : Hidden g lay v v'
  fat : v'.fat = Function.update v.fat N 0xFFFF
  disk : ∀ lba, lba ∉ clusterLbas g N → v'.disk lba = v.disk lba
  first : v'.disk (clusterSector g N 0) = dotSector N P
  zero : ∀ lba ∈ clusterLbas g N, lba ≠ clusterSector g N 0 → v'.disk lba = zeroSector

lemma NewCluster.prepared (hv : Valid g s.vol lay) (h : NewCluster g (dotSector N P) N s t) :
    Prepared g lay N P s.vol t.vol :=
  ⟨h.cluster, h.free, (hidden_newCluster hv h.cluster h.free h.writes).1, h.writes.fat,
    fun lba hmem => h.writes.disk lba hmem, h.first, h.zero⟩

lemma newDirectory_fits {cluster : Nat} (h : name.length = 11) : (newDirectory name cluster).Fits :=
  ⟨h, Nat.mod_lt _ (by omega), Nat.zero_lt_succ _⟩

lemma dirent_dotSector_zero : dirent (dotSector N P) 0 = newDirectory dot83 N := by
  rw [dotSector, dirent_putDirent_of_ne (by omega), dirent_putDirent_self (newDirectory_fits rfl)]

lemma dirent_dotSector_one : dirent (dotSector N P) 1 = newDirectory dotdot83 P :=
  dirent_putDirent_self (newDirectory_fits rfl)

lemma dirent_dotSector_rest {i : Nat} (h0 : i ≠ 0) (h1 : i ≠ 1) :
    (dirent (dotSector N P) i).Empty := by
  rw [dotSector, dirent_putDirent_of_ne h1, dirent_putDirent_of_ne h0]
  exact dirent_zeroSector_empty

namespace Prepared

variable {w : Vol} {lay₁ : Layout}

lemma fat_ne_zero (h : Prepared g lay N P v v') : v'.fat N ≠ 0 := by
  rw [h.fat, Function.update_self]
  decide

lemma newDir (hv : Valid g v lay) (h : Prepared g lay N P v v')
    (hin : Inserted g lay P e v' w lay₁ x) : NewDir g lay₁ N P w := by
  have hfresh := hv.fresh_of_free h.free
  obtain ⟨hfat, hdisk⟩ := hin.spare N h.cluster hfresh h.fat_ne_zero
  have hfirst := (hdisk _ (firstSector_mem g N)).trans h.first
  refine ⟨h.cluster, hin.fresh N h.cluster hfresh h.fat_ne_zero, ?_, ?_, ?_, fun y hy h0 h1 => ?_⟩
  · rw [hfat, h.fat, Function.update_self]
    exact Nat.le_of_ble_eq_true rfl
  · rw [entryAt, hfirst]
    exact dirent_dotSector_zero
  · rw [entryAt, hfirst]
    exact dirent_dotSector_one
  · have hy' := (mem_slotsOf.mp hy).1
    rw [entryAt, hdisk _ hy']
    by_cases hlba : y.1 = clusterSector g N 0
    · rw [hlba, h.first]
      exact dirent_dotSector_rest (fun hi => h0 (Prod.ext hlba hi)) fun hi => h1 (Prod.ext hlba hi)
    · rw [h.zero _ hy' hlba]
      exact dirent_zeroSector_empty

lemma newEntry (hv : Valid g v lay) (h : Prepared g lay N P v v')
    (hin : Inserted g lay P (newDirectory name N) v' w lay₁ x) :
    ∃ lay', NewEntry g w lay₁ P x (newDirectory name N) lay' := by
  by_cases hl : (newDirectory name N).Live
  · exact ⟨_, .dir hl newDirectory_directory (Nat.mod_eq_of_lt (hv.fits.lt h.cluster))
      (h.newDir hv hin)⟩
  · exact ⟨_, .dead hl⟩

lemma free_hidden (hv : Valid g v lay) (h : Prepared g lay N P v v') (hhid : Hidden g lay v' w) :
    Hidden g lay v { w with fat := fun c => if c ∈ [N] then 0 else w.fat c } := by
  have hfresh := hv.fresh_of_free h.free
  have hall := h.hidden.trans hhid
  refine ⟨hall.ready, fun o c hc => ?_, hall.disk⟩
  have hcN : c ≠ N := by
    rintro rfl
    exact hfresh o hc
  simp only [List.mem_singleton, hcN, if_false]
  exact hall.fat o c hc

end Prepared

lemma PutAt.lookup {w : Vol} (h : PutAt g lay P x e w v') (hl : e.Live) :
    lookupSlot v'.disk e.name (lay.slots g P) = some x := by
  obtain ⟨pre, post, hslots, hpre⟩ := h.first
  have habsent := h.absent
  rw [hslots] at habsent ⊢
  refine lookupSlot_new habsent hpre (fun y hy => ?_) (by rw [h.entry]; exact hl) (by rw [h.entry])
  have hmem : y ∈ lay.slots g P := by
    rw [hslots]
    exact List.mem_append_left _ hy
  refine h.other y (used_of_mem_slots hmem) ?_
  rintro rfl
  exact hpre y hy h.free

lemma InsertSpec.spare {r : Bool} (h : InsertSpec g lay P e s r t) :
    KeepsSpare g lay s.vol t.vol := by
  rcases h.outcome with ⟨-, -, hspare, -⟩ | ⟨⟨lay₁, x, hin⟩, -⟩
  · exact hspare
  · exact hin.spare

lemma Prepared.end_mark {r : Bool} (hv : Valid g v lay) (h : Prepared g lay N P v s.vol)
    (hins : InsertSpec g lay P e s r t) : t.vol.fat N = 0xFFFF := by
  rw [(hins.spare N h.cluster (hv.fresh_of_free h.free) h.fat_ne_zero).1, h.fat,
    Function.update_self]

lemma chain_single {fat : Nat → Nat} (hg : g.Fits) (hN : g.Cluster N) (hend : fat N = 0xFFFF) :
    Chain g fat N [N] :=
  ⟨by simp, ⟨rfl, fun h => not_stop_of_cluster hg hN (.inr h), by
    rw [hend]
    exact Nat.le_of_ble_eq_true rfl⟩, fun c hc => by
    rw [List.mem_singleton.mp hc]
    exact hN⟩

lemma freeSingle_spec (hg : g.Fits) (hn : Enough g n) (hN : g.Cluster N)
    (hend : s.vol.fat N = 0xFFFF) : Ends (fat16FreeChain g n N) s fun _ t =>
      t = s.withFat fun c => if c ∈ [N] then 0 else s.vol.fat c := by
  have hchain := chain_single hg hN hend
  refine fat16FreeChain_spec hg (hchain.walk_stop hg) hchain.cluster ?_
  have hpos := g.sectorsPerCluster_pos
  unfold Enough at hn
  rw [List.length_singleton]
  omega

lemma freePrepared_spec (hv : Valid g s.vol lay) (hn : Enough g n) (hP : lay.isDir P) {s₁ s₂ : St}
    (hprep : Prepared g lay N P s.vol s₁.vol) (hio₁ : s.io = working → s₁.io = working)
    (hins : InsertSpec g lay P (newDirectory name N) s₁ false s₂) :
    Ends (do
      fat16FreeChain g n N
      pure false) s₂ fun _ t => MakeSpec g lay P name s t := by
  have hfresh := hv.fresh_of_free hprep.free
  have hN := hprep.end_mark hv hins
  have hchain := chain_single hv.fits hprep.cluster hN
  refine (freeSingle_spec hv.fits hn hprep.cluster hN).seq ?_
  rintro _ _ rfl
  refine .pure ⟨fun hio => hins.io (hio₁ hio), ?_⟩
  rcases hins.outcome with ⟨-, hhid, -, hsame⟩ | ⟨⟨lay₁, x, hin⟩, hfalse, -⟩
  · refine .inl ⟨lay, .single (.hidden (hprep.free_hidden hv hhid)), fun hio hc => ?_⟩
    refine hc.congr (funext fun c => ?_) fun lba hlt => ?_
    · show (if c ∈ [N] then 0 else s₂.vol.fat c) = s.vol.fat c
      rw [hsame (hio₁ hio), hprep.fat]
      by_cases hcN : c = N
      · rw [if_pos (List.mem_singleton.mpr hcN), hcN, hprep.free]
      · rw [if_neg (mt List.mem_singleton.mp hcN), Function.update_of_ne hcN]
    · show s₂.vol.disk lba = s.vol.disk lba
      rw [hsame (hio₁ hio)]
      refine hprep.disk lba fun hmem => ?_
      have hle := dataStartLba_le hv.fits hprep.cluster hmem
      have hroot := rootStartLba_le g
      omega
  · have hmoves : ∀ {lay'}, NewEntry g s₂.vol lay₁ P x (newDirectory name N) lay' →
        Moves g (fun P' e => P' = P ∧ e.name = name) (s.vol, lay) (s₂.vol, lay') := fun he =>
      .head (.hidden hprep.hidden) (hin.moves_put ⟨rfl, rfl⟩ he)
    by_cases hl : (newDirectory name N).Live
    · -- the entry is there, and now its cluster is gone
      refine .inr ⟨fun hio => hfalse rfl (hio₁ hio), ?_⟩
      have hfirst : (newDirectory name N).first = N := Nat.mod_eq_of_lt (hv.fits.lt hprep.cluster)
      obtain ⟨w, -, hput⟩ := hin.moves
      have hPN : P ≠ N := by
        rintro rfl
        exact hv.not_isDir hprep.cluster hfresh hP
      refine ⟨s₂.vol, lay₁.addDir N, x, N,
        hmoves (.dir hl newDirectory_directory hfirst (hprep.newDir hv hin)), ?_, ?_, hchain, rfl⟩
      · rw [Layout.addDir_slots_of_ne hPN]
        exact hput.lookup hl
      · rw [hput.entry]
        exact newDirectory_directory
    · -- the entry counts as deleted, and nothing points to the cluster
      refine .inl ⟨lay₁, .tail (hmoves (.dead hl)) (.hidden ⟨rfl, fun o c hc => ?_,
        fun _ _ => rfl⟩), fun hio => absurd (hio₁ hio) (hfalse rfl)⟩
      have hcN : c ≠ N := by
        rintro rfl
        exact hin.fresh c hprep.cluster hfresh hprep.fat_ne_zero o hc
      show (if c ∈ [N] then 0 else s₂.vol.fat c) = _
      exact if_neg (mt List.mem_singleton.mp hcN)

lemma makeDirectory_spec (hv : Valid g s.vol lay) (hP : lay.isDir P) (hn : Enough g n)
    (habsent : lookupSlot s.vol.disk name (lay.slots g P) = none) (hlen : name.length = 11)
    (hhead : name.headD 0 ≠ 0) :
    Ends (makeDirectory g n P name) s fun _ t => MakeSpec g lay P name s t := by
  refine newCluster_rule hv.fits ⟨id, .inl ⟨lay, .refl, fun _ hc => hc⟩⟩ ?_ ?_
  · intro N lba t hN hfree hw hio _ _
    exact ⟨hw.io, .inl ⟨lay, .single (.hidden (hidden_newCluster hv hN hfree hw).1),
      fun hio' => absurd hio' hio⟩⟩
  intro N s₃ hnew
  have hw := hnew.writes
  have hprep := hnew.prepared hv
  have hv₃ := Hidden.valid hv hprep.hidden
  have habsent₃ : lookupSlot s₃.vol.disk name (lay.slots g P) = none :=
    (lookupSlot_congr fun y hy => hprep.hidden.entry hy).trans habsent
  refine (dirInsert_spec (e := newDirectory name N) hv₃ hP hn habsent₃ (newDirectory_fits hlen)
    hhead).seq ?_
  rintro ok s₄ hins
  cases ok with
  | false => exact freePrepared_spec hv hn hP hprep hw.io hins
  | true =>
    rw [if_pos rfl]
    rcases hins.outcome with ⟨hr, -⟩ | ⟨⟨lay₁, x, hin⟩, -, -⟩
    · simp at hr
    obtain ⟨lay', he⟩ := hprep.newEntry hv hin
    have hmoves : Moves g (fun P' e => P' = P ∧ e.name = name) (s.vol, lay) (s₄.vol, lay') :=
      .head (.hidden hprep.hidden) (hin.moves_put ⟨rfl, rfl⟩ he)
    refine (fat16FlushFat_spec s₄).mono ?_
    rintro r t ⟨hwf, hff, hcf⟩
    refine ⟨fun hio => hwf.io (hins.io (hw.io hio)), .inl ⟨lay',
      hmoves.tail (.hidden (hidden_flush (hmoves.valid hv) hwf)), fun hio _ => hcf ?_⟩⟩
    by_contra hr
    exact hff (by simpa using hr) (hins.io (hw.io hio))

structure MkdirSpec (g : Geo) (lay : Layout) (d : Nat) (path : List UInt8) (s t : St) : Prop where
  io : s.io = working → t.io = working
  outcome : (∃ lay', Created g lay d path s t lay') ∨ s.io ≠ working ∧ ∃ P name,
    ResolvesPath g s.vol.disk lay d path (P, name) ∧ Broken g lay P name s.vol t.vol

/-- **What `fat16_mkdir` does**, whatever block operations fail. -/
lemma fat16Mkdir_spec (hv : Valid g s.vol lay) (hd : lay.isDir d) (hn : Enough g n)
    (hpath : (0 : UInt8) ∉ path) :
    Ends (fat16Mkdir g n d path) s fun _ t => MkdirSpec g lay d path s t := by
  refine ready_rule hv.ready ?_
  have hgiveUp : ∀ t, Reads s t → MkdirSpec g lay d path s t := fun t hreads =>
    ⟨hreads.io, .inl ⟨lay, .of_same hreads.vol⟩⟩
  refine lookupPath_rule hv.walkable hd hn (fun t hreads _ => hgiveUp t hreads)
    (fun t hreads _ => hgiveUp t hreads) ?_
  intro P name r s₁ hreads hresolves hlook
  cases r with
  | ioError => exact .pure (hgiveUp s₁ hreads)
  | found hit =>
    dsimp only
    split
    all_goals exact .pure (hgiveUp s₁ hreads)
  | missing =>
    have habsent := hlook.missing rfl
    obtain ⟨hP, hlen, hhead⟩ := ResolvesPath.spec hv.walkable hd hresolves
    have hv₁ := hv
    rw [← hreads.vol] at habsent hv₁
    refine (makeDirectory_spec hv₁ hP hn habsent hlen (hhead hpath)).mono ?_
    rintro r t hmake
    refine ⟨fun hio => hmake.io (hreads.io hio), ?_⟩
    have hout := hmake.outcome
    rw [hreads.vol] at hout
    rcases hout with ⟨lay', hmoves, hcopies⟩ | ⟨hio, hbroken⟩
    · refine .inl ⟨lay', hmoves.mono ?_, fun hio => hcopies (hreads.io hio)⟩
      rintro P' e ⟨rfl, rfl⟩
      exact hresolves
    · exact .inr ⟨fun hio' => hio (hreads.io hio'), P, name, hresolves, hbroken⟩

end NullOS.Fat16
