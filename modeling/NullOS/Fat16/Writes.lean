import NullOS.Fat16.Moves
import NullOS.Lib.Count
import Mathlib.Order.Interval.Finset.Nat

/-!
# Writing sectors and the FAT

What the writing parts of the driver do, whatever block operations fail, and which of it no
directory or file can see: allocating a free cluster, writing to a cluster that belongs to
nothing, and flushing the FAT.
-/

namespace NullOS.Fat16

open Lib

variable {g : Geo} {v v' : Vol} {lay : Layout} {s t u : St} {n d P N c lba : Nat} {e : Dirent}
  {x : Slot} {r : Bool} {name path : List UInt8} {A B : Nat → Prop} {ws : List (Nat × Mem)}

/-! ## Writing sectors -/

/-- Only sectors in `A` were written. -/
structure Writes (A : Nat → Prop) (s t : St) : Prop where
  ready : t.vol.ready = s.vol.ready
  fat : t.vol.fat = s.vol.fat
  disk : ∀ lba, ¬ A lba → t.vol.disk lba = s.vol.disk lba
  io : s.io = working → t.io = working

lemma Writes.refl (s : St) : Writes A s s := ⟨rfl, rfl, fun _ _ => rfl, id⟩

lemma Writes.trans (h : Writes A s t) (h' : Writes A t u) : Writes A s u :=
  ⟨h'.ready.trans h.ready, h'.fat.trans h.fat,
    fun lba hA => (h'.disk lba hA).trans (h.disk lba hA), h'.io ∘ h.io⟩

lemma Writes.mono (h : Writes A s t) (hAB : ∀ lba, A lba → B lba) : Writes B s t :=
  ⟨h.ready, h.fat, fun lba hB => h.disk lba fun hA => hB (hAB lba hA), h.io⟩

lemma Reads.writes' (h : Reads s t) : Writes A s t :=
  ⟨by rw [h.vol], by rw [h.vol], fun _ _ => by rw [h.vol], h.io⟩

lemma blockWriteSector_spec (s : St) (lba : Nat) (buf : Mem) :
    Ends (blockWriteSector lba buf) s fun r t => Writes (· = lba) s t ∧
      (r = false ∧ s.io ≠ working ∧ t.vol = s.vol ∨
        r = true ∧ t.vol = { s.vol with disk := Function.update s.vol.disk lba buf }) := by
  refine .of_eq rfl ⟨⟨rfl, rfl, fun b hb => ?_, fun h => by rw [h]; rfl⟩, ?_⟩
  · dsimp only
    split
    · exact Function.update_of_ne hb _ _
    · rfl
  · cases h : s.io 0 with
    | true => exact .inr ⟨rfl, rfl⟩
    | false =>
      refine .inl ⟨rfl, fun hw => ?_, rfl⟩
      rw [hw] at h
      simp [working] at h

lemma writeSectors_spec (s : St) (ws : List (Nat × Mem))
    (hfun : ∀ w ∈ ws, ∀ w' ∈ ws, w.1 = w'.1 → w.2 = w'.2) :
    Ends (writeSectors ws) s fun r t => Writes (fun lba => ∃ w ∈ ws, w.1 = lba) s t ∧
      (r = false → s.io ≠ working) ∧ (r = true → ∀ w ∈ ws, t.vol.disk w.1 = w.2) := by
  induction ws generalizing s with
  | nil => exact .pure ⟨.refl s, nofun, fun _ => by simp⟩
  | cons w ws ih =>
    refine (blockWriteSector_spec s w.1 w.2).seq ?_
    rintro r t ⟨hw, hcase⟩
    have hw' : Writes (fun lba => ∃ w' ∈ w :: ws, w'.1 = lba) s t :=
      hw.mono fun lba hlba => ⟨w, by simp, hlba.symm⟩
    rcases hcase with ⟨rfl, hio, -⟩ | ⟨rfl, hvol⟩
    · exact .pure ⟨hw', fun _ => hio, nofun⟩
    · refine (ih t fun a ha b hb => hfun a (List.mem_cons_of_mem _ ha) b
        (List.mem_cons_of_mem _ hb)).mono ?_
      rintro r u ⟨hu, hfalse, htrue⟩
      refine ⟨hw'.trans (hu.mono ?_), fun hr hio => hfalse hr (hw.io hio), fun hr a ha => ?_⟩
      · rintro lba ⟨a, ha, rfl⟩
        exact ⟨a, List.mem_cons_of_mem _ ha, rfl⟩
      · rcases List.mem_cons.mp ha with rfl | ha
        · by_cases hb : ∃ b ∈ ws, b.1 = a.1
          · obtain ⟨b, hb, heq⟩ := hb
            rw [← heq, htrue hr b hb]
            exact (hfun a (by simp) b (List.mem_cons_of_mem _ hb) heq.symm).symm
          · rw [hu.disk a.1 hb, hvol]
            exact Function.update_self _ _ _
        · exact htrue hr a ha

lemma writeSectors_mixed (s : St) (ws : List (Nat × Mem)) :
    Ends (writeSectors ws) s fun _ t => ∀ lba, t.vol.disk lba = s.vol.disk lba ∨
      ∃ w ∈ ws, w.1 = lba ∧ t.vol.disk lba = w.2 := by
  induction ws generalizing s with
  | nil => exact .pure fun _ => .inl rfl
  | cons w ws ih =>
    refine (blockWriteSector_spec s w.1 w.2).seq ?_
    rintro r t ⟨hw, ⟨rfl, -, hvol⟩ | ⟨rfl, hvol⟩⟩
    · refine .pure fun lba => .inl ?_
      rw [hvol]
    · refine (ih t).mono fun _ u hmixed lba => ?_
      rcases hmixed lba with hsame | ⟨w', hw', hlba⟩
      · by_cases hlba : lba = w.1
        · refine .inr ⟨w, List.mem_cons_self, hlba.symm, ?_⟩
          rw [hsame, hvol, hlba]
          exact Function.update_self _ _ _
        · exact .inl (hsame.trans (hw.disk lba hlba))
      · exact .inr ⟨w', List.mem_cons_of_mem _ hw', hlba⟩

lemma zeroCluster_spec (s : St) (c : Nat) :
    Ends (writeSectors (zeroCluster g c)) s fun r t => Writes (· ∈ clusterLbas g c) s t ∧
      (r = false → s.io ≠ working) ∧
      (r = true → ∀ lba ∈ clusterLbas g c, t.vol.disk lba = zeroSector) := by
  have hzero : ∀ w ∈ zeroCluster g c, w.1 ∈ clusterLbas g c ∧ w.2 = zeroSector := by
    intro w hw
    obtain ⟨k, hk, rfl⟩ := List.mem_map.mp hw
    exact ⟨List.mem_map_of_mem hk, rfl⟩
  refine (writeSectors_spec s _ fun w hw w' hw' _ => ?_).mono ?_
  · rw [(hzero w hw).2, (hzero w' hw').2]
  · rintro r t ⟨hwr, hfalse, htrue⟩
    refine ⟨hwr.mono ?_, hfalse, fun hr lba hlba => ?_⟩
    · rintro lba ⟨w, hw, rfl⟩
      exact (hzero w hw).1
    · obtain ⟨k, hk, rfl⟩ := mem_clusterLbas.mp hlba
      exact htrue hr (clusterSector g c k, zeroSector)
        (List.mem_map_of_mem (List.mem_range.mpr hk))

/-- Writes to sectors in `A` have succeeded, or one has failed. -/
def Loses (A : Nat → Prop) (s : St) (r : Bool) (t : St) : Prop :=
  r = true ∧ t.lost = s.lost ∨ r = false ∧ ∃ lba, A lba ∧ t.lost = lba :: s.lost

lemma Loses.mono (h : Loses A s r t) (hAB : ∀ lba, A lba → B lba) :
    Loses B s r t := by
  refine h.imp_right ?_
  rintro ⟨hr, lba, hA, hlost⟩
  exact ⟨hr, lba, hAB lba hA, hlost⟩

lemma blockWriteSector_loses (s : St) (lba : Nat) (buf : Mem) :
    Ends (blockWriteSector lba buf) s (Loses (· = lba) s) := by
  refine .of_eq rfl ?_
  cases h : s.io 0 with
  | true => exact .inl ⟨rfl, rfl⟩
  | false => exact .inr ⟨rfl, lba, rfl, rfl⟩

lemma writeSectors_loses (s : St) (ws : List (Nat × Mem)) :
    Ends (writeSectors ws) s (Loses (fun lba => ∃ w ∈ ws, w.1 = lba) s) := by
  induction ws generalizing s with
  | nil => exact .pure (.inl ⟨rfl, rfl⟩)
  | cons w ws ih =>
    refine (blockWriteSector_loses s w.1 w.2).seq ?_
    rintro r t (⟨rfl, hlost⟩ | ⟨rfl, lba, rfl, hlost⟩)
    · refine (ih t).mono ?_
      rintro r u (⟨hr, hlost'⟩ | ⟨hr, lba, ⟨a, ha, hlba⟩, hlost'⟩)
      · exact .inl ⟨hr, hlost'.trans hlost⟩
      · exact .inr ⟨hr, lba, ⟨a, List.mem_cons_of_mem _ ha, hlba⟩, by rw [hlost', hlost]⟩
    · exact .pure (.inr ⟨rfl, w.1, ⟨w, List.mem_cons_self, rfl⟩, hlost⟩)

lemma zeroCluster_loses (s : St) (c : Nat) :
    Ends (writeSectors (zeroCluster g c)) s (Loses (· ∈ clusterLbas g c) s) := by
  refine (writeSectors_loses s _).mono fun r t h => h.mono ?_
  rintro lba ⟨w, hw, rfl⟩
  obtain ⟨k, hk, rfl⟩ := List.mem_map.mp hw
  exact List.mem_map_of_mem hk

/-! ## The FAT -/

/-- Every copy of the FAT on the disk equals the cache. -/
def Copies (g : Geo) (v : Vol) : Prop :=
  ∀ f < g.numFats, ∀ k < g.fatSizeSectors, ∀ b < 512,
    v.disk (g.fatStartLba + f * g.fatSizeSectors + k) b = fatSector v.fat k b

lemma fatLba_lt {f k : Nat} (hf : f < g.numFats) (hk : k < g.fatSizeSectors) :
    g.fatStartLba + f * g.fatSizeSectors + k < g.rootStartLba := by
  have hmul : (f + 1) * g.fatSizeSectors ≤ g.numFats * g.fatSizeSectors :=
    Nat.mul_le_mul_right _ hf
  rw [Nat.succ_mul] at hmul
  rw [Geo.rootStartLba]
  omega

lemma Copies.congr (h : Copies g v) (hfat : v'.fat = v.fat)
    (hdisk : ∀ lba < g.rootStartLba, v'.disk lba = v.disk lba) : Copies g v' := by
  intro f hf k hk b hb
  rw [hdisk _ (fatLba_lt hf hk), hfat]
  exact h f hf k hk b hb

lemma mem_fatImage {fat : Nat → Nat} {w : Nat × Mem} :
    w ∈ fatImage g fat ↔ ∃ f < g.numFats, ∃ k < g.fatSizeSectors,
      (g.fatStartLba + f * g.fatSizeSectors + k, fatSector fat k) = w := by
  simp [fatImage]

lemma fat16FlushFat_spec (s : St) :
    Ends (fat16FlushFat g) s fun r t => Writes (· < g.rootStartLba) s t ∧
      (r = false → s.io ≠ working) ∧ (r = true → Copies g t.vol) := by
  have hfun : ∀ w ∈ fatImage g s.vol.fat, ∀ w' ∈ fatImage g s.vol.fat, w.1 = w'.1 → w.2 = w'.2 := by
    intro w hw w' hw' heq
    obtain ⟨f, -, k, hk, rfl⟩ := mem_fatImage.mp hw
    obtain ⟨f', -, k', hk', rfl⟩ := mem_fatImage.mp hw'
    have hmod : ∀ f k : Nat, k < g.fatSizeSectors →
        (f * g.fatSizeSectors + k) % g.fatSizeSectors = k := by
      intro f k hk
      rw [Nat.mul_comm, Nat.mul_add_mod, Nat.mod_eq_of_lt hk]
    have hkk : k = k' := by
      rw [← hmod f k hk, ← hmod f' k' hk']
      congr 1
      dsimp only at heq
      omega
    rw [hkk]
  refine (writeSectors_spec s _ hfun).mono ?_
  rintro r t ⟨hw, hfalse, htrue⟩
  refine ⟨hw.mono ?_, hfalse, fun hr f hf k hk b _ => ?_⟩
  · rintro lba ⟨w, hmem, rfl⟩
    obtain ⟨f, hf, k, hk, rfl⟩ := mem_fatImage.mp hmem
    exact fatLba_lt hf hk
  · rw [hw.fat, htrue hr _ (mem_fatImage.mpr ⟨f, hf, k, hk, rfl⟩)]

lemma fat16FlushFat_loses (s : St) :
    Ends (fat16FlushFat g) s (Loses (· < g.rootStartLba) s) := by
  refine (writeSectors_loses s (fatImage g s.vol.fat)).mono fun r t h => h.mono ?_
  rintro lba ⟨w, hw, rfl⟩
  obtain ⟨f, hf, k, hk, rfl⟩ := mem_fatImage.mp hw
  exact fatLba_lt hf hk

/-- Every sector before the root directory is as it was on `v`, or a sector of the FAT as the cache
has it. -/
def Mixed (g : Geo) (v v' : Vol) : Prop :=
  ∀ lba < g.rootStartLba, v'.disk lba = v.disk lba ∨
    ∃ f < g.numFats, ∃ k < g.fatSizeSectors, g.fatStartLba + f * g.fatSizeSectors + k = lba ∧
      v'.disk lba = fatSector v'.fat k

lemma fat16FlushFat_mixed (harea : ∀ lba < g.rootStartLba, s.vol.disk lba = v.disk lba) :
    Ends (fat16FlushFat g) s fun _ t => t.vol.fat = s.vol.fat → Mixed g v t.vol := by
  refine (writeSectors_mixed s (fatImage g s.vol.fat)).mono fun _ t hmixed hfat lba hlba => ?_
  rcases hmixed lba with hsame | ⟨w, hw, rfl, hdisk⟩
  · exact .inl (hsame.trans (harea lba hlba))
  · obtain ⟨f, hf, k, hk, rfl⟩ := mem_fatImage.mp hw
    refine .inr ⟨f, hf, k, hk, rfl, ?_⟩
    rw [hdisk, hfat]

def St.withFat (s : St) (fat : Nat → Nat) : St := { s with vol := { s.vol with fat } }

lemma setFat_spec {x : Nat} (hc : c < g.fatEntries) :
    Ends (setFat g c x) s fun _ t =>
      t = s.withFat (Function.update s.vol.fat c (x % 0x10000)) :=
  .of_eq (if_pos (.inl hc)) rfl

def St.alloc (s : St) (c : Nat) : St := s.withFat (Function.update s.vol.fat c 0xFFFF)

lemma allocFrom_spec (hg : g.Fits) {k : Nat} (h2 : 2 ≤ c) (hk : c + k ≤ g.totalClusters) :
    Ends (allocFrom g k c) s fun r t =>
      r = 0 ∧ t = s ∧ (∀ b, c ≤ b → b < c + k → s.vol.fat b ≠ 0) ∨
        g.Cluster r ∧ s.vol.fat r = 0 ∧ t = s.alloc r := by
  induction k generalizing c with
  | zero => exact .pure (.inl ⟨rfl, rfl, fun b hb hb' => by omega⟩)
  | succ k ih =>
    have hentries := hg.entries
    rw [allocFrom]
    refine (getFat_spec (by omega)).seq ?_
    rintro _ _ ⟨rfl, rfl⟩
    split
    case isTrue hfree =>
      refine (setFat_spec (by omega)).seq ?_
      rintro _ _ rfl
      exact .pure (.inr ⟨⟨h2, by omega⟩, hfree, rfl⟩)
    case isFalse hused =>
      refine (ih (by omega) (by omega)).mono ?_
      rintro r t (⟨rfl, rfl, hnone⟩ | hr)
      · refine .inl ⟨rfl, rfl, fun b hb hb' => ?_⟩
        by_cases hbc : b = c
        · rw [hbc]
          exact hused
        · exact hnone b (by omega) (by omega)
      · exact .inr hr

lemma fat16AllocCluster_spec (hg : g.Fits) :
    Ends (fat16AllocCluster g) s fun c t =>
      c = 0 ∧ t = s ∧ (∀ b, g.Cluster b → s.vol.fat b ≠ 0) ∨
        g.Cluster c ∧ s.vol.fat c = 0 ∧ t = s.alloc c := by
  by_cases h2 : 2 ≤ g.totalClusters
  · refine (allocFrom_spec hg (Nat.le_refl 2) (by omega)).mono ?_
    rintro c t (⟨hc, ht, hnone⟩ | hc)
    · exact .inl ⟨hc, ht, fun b hb => hnone b hb.1 (by have := hb.2; omega)⟩
    · exact .inr hc
  · rw [fat16AllocCluster, show g.totalClusters - 2 = 0 by omega]
    refine .pure (.inl ⟨rfl, rfl, fun b hb => ?_⟩)
    have h1 := hb.1
    have h3 := hb.2
    omega

lemma fat16FreeChain_spec (hg : g.Fits) {y : Nat} {cs : List Nat} (hw : Walk s.vol.fat Stop y cs)
    (hc : ∀ c ∈ cs, g.Cluster c) (hn : cs.length < n) :
    Ends (fat16FreeChain g n y) s fun _ t =>
      t = s.withFat fun c => if c ∈ cs then 0 else s.vol.fat c := by
  induction n generalizing y cs s with
  | zero => exact absurd hn (by omega)
  | succ n ih =>
    rw [fat16FreeChain]
    cases cs with
    | nil =>
      rw [if_pos (show Stop y from hw)]
      exact .pure (by simp [St.withFat])
    | cons c cs =>
      have hnd := hw.nodup
      obtain ⟨rfl, hstop, hrest⟩ := hw
      have hcy := hc y (by simp)
      have hlt : y < g.fatEntries := Nat.lt_of_lt_of_le hcy.2 hg.entries
      rw [if_neg hstop]
      refine (getFat_spec hlt).seq ?_
      rintro _ t ⟨rfl, rfl⟩
      refine (setFat_spec hlt).seq ?_
      rintro _ _ rfl
      have hy : ∀ b ∈ cs, b ≠ y := by
        rintro b hb rfl
        exact (List.nodup_cons.mp hnd).1 hb
      have hrest' : Walk (Function.update t.vol.fat y (0 % 0x10000)) Stop (t.vol.fat y) cs :=
        hrest.congr fun b hb => Function.update_of_ne (hy b hb) _ _
      refine (ih hrest' (fun b hb => hc b (List.mem_cons_of_mem _ hb)) (by simpa using hn)).mono ?_
      rintro _ _ rfl
      refine congrArg (St.withFat _) (funext fun b => ?_)
      by_cases hby : b = y
      · subst hby
        simp [St.withFat]
      · simp [St.withFat, hby]

def Geo.free (g : Geo) (fat : Nat → Nat) : Nat := count (Finset.Ico 2 g.totalClusters) fat (· = 0)

lemma free_take {fat : Nat → Nat} {x : Nat} (hc : g.Cluster c) (hfree : fat c = 0) (hx : x ≠ 0) :
    g.free (Function.update fat c x) + 1 = g.free fat := by
  have hcount := count_update (p := (· = 0)) (f := fat) (Finset.mem_Ico.mpr hc) x
  rwa [if_pos hfree, if_neg hx, Nat.add_zero] at hcount

lemma free_keep {fat : Nat → Nat} {x : Nat} (hc : g.Cluster c) (hused : fat c ≠ 0) (hx : x ≠ 0) :
    g.free (Function.update fat c x) = g.free fat := by
  have hcount := count_update (p := (· = 0)) (f := fat) (Finset.mem_Ico.mpr hc) x
  rwa [if_neg hused, if_neg hx] at hcount

lemma free_eq_zero {fat : Nat → Nat} (h : ∀ b, g.Cluster b → fat b ≠ 0) : g.free fat = 0 :=
  count_eq_zero fun b hb => h b (Finset.mem_Ico.mp hb)

lemma free_give {fat : Nat → Nat} {cs : List Nat} (hnodup : cs.Nodup)
    (hcs : ∀ c ∈ cs, g.Cluster c ∧ fat c ≠ 0) :
    g.free (fun c => if c ∈ cs then 0 else fat c) = cs.length + g.free fat := by
  have hsplit : (Finset.Ico 2 g.totalClusters).filter (fun c => (if c ∈ cs then 0 else fat c) = 0) =
      cs.toFinset ∪ (Finset.Ico 2 g.totalClusters).filter (fun c => fat c = 0) := by
    ext c
    rw [Finset.mem_union, Finset.mem_filter, Finset.mem_filter, List.mem_toFinset]
    by_cases hc : c ∈ cs
    · rw [if_pos hc]
      exact ⟨fun _ => .inl hc, fun _ => ⟨Finset.mem_Ico.mpr (hcs c hc).1, rfl⟩⟩
    · rw [if_neg hc]
      exact ⟨.inr, fun h => h.resolve_left hc⟩
  have hdisjoint : Disjoint cs.toFinset
      ((Finset.Ico 2 g.totalClusters).filter fun c => fat c = 0) := by
    rw [Finset.disjoint_left]
    intro c hc hfree
    exact (hcs c (List.mem_toFinset.mp hc)).2 (Finset.mem_filter.mp hfree).2
  rw [Geo.free, count, hsplit, Finset.card_union_of_disjoint hdisjoint,
    List.toFinset_card_of_nodup hnodup]
  rfl

/-! ## Hidden changes -/

lemma Valid.fresh_of_free (h : Valid g v lay) (hc : v.fat c = 0) (o : Owner) : c ∉ lay.chain o :=
  fun hmem => (h.used o c hmem).2 hc

lemma hidden_alloc (h : Valid g s.vol lay) (hc : s.vol.fat c = 0) :
    Hidden g lay s.vol (s.alloc c).vol := by
  refine ⟨rfl, fun o b hb => ?_, fun _ _ => rfl⟩
  refine Function.update_of_ne ?_ _ _
  rintro rfl
  exact h.fresh_of_free hc o hb

lemma hidden_cluster (h : Valid g s.vol lay) (hc : g.Cluster c) (hfresh : ∀ o, c ∉ lay.chain o)
    (hw : Writes (· ∈ clusterLbas g c) s t) : Hidden g lay s.vol t.vol := by
  refine ⟨hw.ready, fun o b _ => by rw [hw.fat], fun lba hu => hw.disk lba fun hmem => ?_⟩
  exact h.not_used hc hfresh hmem hu

lemma Valid.rootStartLba_le_of_used (h : Valid g v lay) (hu : lay.Used g lba) :
    g.rootStartLba ≤ lba := by
  rcases hu with hroot | ⟨o, c, hc, hmem⟩
  · exact (mem_rootSectors hroot).1
  · exact Nat.le_trans (rootStartLba_le g) (dataStartLba_le h.fits (h.used o c hc).1 hmem)

lemma hidden_flush (h : Valid g s.vol lay) (hw : Writes (· < g.rootStartLba) s t) :
    Hidden g lay s.vol t.vol := by
  refine ⟨hw.ready, fun o b _ => by rw [hw.fat], fun lba hu => hw.disk lba fun hlt => ?_⟩
  have hle := h.rootStartLba_le_of_used hu
  omega

lemma firstSector_mem (g : Geo) (c : Nat) : clusterSector g c 0 ∈ clusterLbas g c :=
  mem_clusterLbas.mpr ⟨0, g.sectorsPerCluster_pos, rfl⟩

end NullOS.Fat16
