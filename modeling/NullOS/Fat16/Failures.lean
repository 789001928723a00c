import NullOS.Fat16.Owned

/-!
# Calls that fail

`fat16_mkdir` and the growth of a directory take a cluster before they write to it.  Only a
`fat16_mkdir` whose `dir_insert` fails gives its cluster back; after any other write that fails a
cluster stays taken.
-/

namespace NullOS.Fat16

open Lib

variable {g : Geo} {v : Vol} {lay : Layout} {s t u : St} {n d P c last : Nat} {r : Bool}
  {e : Dirent} {name path : List UInt8} {A : Nat → Prop} {D : List Nat}

/-! ## Endings -/

def FreeSector (g : Geo) (v : Vol) (lba : Nat) : Prop :=
  ∃ c, g.Cluster c ∧ v.fat c = 0 ∧ lba ∈ clusterLbas g c

/-- How a call ends that puts an entry into the sectors `D` of a directory: it succeeds; it fails
with all clusters given back; or it fails and a cluster stays taken. -/
inductive Ending (g : Geo) (D : List Nat) (s : St) : Bool → St → Prop
  | done {t : St} : t.lost = s.lost → Ending g D s true t
  | undone {t : St} : Writes (FreeSector g s.vol) s t →
      (∀ lba ∈ t.lost, lba ∈ s.lost ∨ lba ∈ D) → Ending g D s false t
  | kept {t : St} {c lba : Nat} : g.Cluster c → s.vol.fat c = 0 → t.vol.fat c ≠ 0 →
      lba ∈ t.lost → (lba < g.rootStartLba ∨ FreeSector g s.vol lba) → Ending g D s false t

lemma Ending.of_reads (h : Reads s t) : Ending g D s false t :=
  .undone h.writes' fun _ hlba => .inl (h.lost ▸ hlba)

lemma Ending.after (hreads : Reads s t) (h : Ending g D t r u) : Ending g D s r u := by
  cases h with
  | done hlost => exact .done (hlost.trans hreads.lost)
  | undone hw hlost =>
    rw [hreads.vol] at hw
    rw [hreads.lost] at hlost
    exact .undone (hreads.writes'.trans hw) hlost
  | kept hc hfree htaken hlost hlba =>
    rw [hreads.vol] at hfree hlba
    exact .kept hc hfree htaken hlost hlba

lemma Ending.of_newCluster (hc : g.Cluster c) (hfree : s.vol.fat c = 0)
    (hfat : t.vol.fat = (s.alloc c).vol.fat) {lba : Nat} (hlost : lba ∈ t.lost)
    (hlba : lba ∈ clusterLbas g c) : Ending g D s false t := by
  refine .kept hc hfree ?_ hlost (.inr ⟨c, hc, hfree, hlba⟩)
  rw [hfat]
  show Function.update s.vol.fat c 0xFFFF c ≠ 0
  rw [Function.update_self]
  decide

lemma flush_ending (hc : g.Cluster c) (hfree : s.vol.fat c = 0) (htaken : t.vol.fat c ≠ 0)
    (hlost : t.lost = s.lost) : Ends (fat16FlushFat g) t (Ending g D s) := by
  refine ((fat16FlushFat_spec t).and (fat16FlushFat_loses t)).mono ?_
  rintro _ u ⟨⟨hw, -⟩, ⟨rfl, hlost'⟩ | ⟨rfl, lba, hlba, hlost'⟩⟩
  · exact .done (hlost'.trans hlost)
  · exact .kept hc hfree (by rwa [hw.fat]) (hlost' ▸ List.mem_cons_self) (.inl hlba)

lemma dirGrow_ending (hg : g.Fits) (hlast : last < g.fatEntries) :
    Ends (dirGrow g last e) s (Ending g D s) := by
  refine newCluster_rule hg (.of_reads (.refl s)) ?_ ?_
  · intro G lba t hG hfree hw _ hlba hlost
    exact .of_newCluster hG hfree hw.fat hlost hlba
  intro G s₁ hnew
  refine (setFat_spec hlast).seq ?_
  rintro _ _ rfl
  refine (setFat_spec (Nat.lt_of_lt_of_le hnew.cluster.2 hg.entries)).seq ?_
  rintro _ _ rfl
  refine flush_ending hnew.cluster hnew.free ?_ hnew.lost
  show Function.update _ G _ G ≠ 0
  rw [Function.update_self]
  decide

lemma dirInsert_ending (hwalk : Walkable g s.vol lay) (hP : lay.isDir P) (hn : Enough g n) :
    Ends (dirInsert g n P e) s (Ending g (lay.sectors g P) s) := by
  obtain ⟨last, (hrest : Rest g _ _ (lay.sectors g P) last), hlast⟩ :=
    (hwalk.dirChain hP).rest_init
  refine (dirScan_spec hrest ((hwalk.dirChain hP).length_sectors_lt hn)).seq ?_
  rintro r s₁ ⟨hreads, hscan⟩
  cases r with
  | error => exact .pure (.of_reads hreads)
  | hit i lba buf =>
    obtain ⟨-, -, pre, post, hL, -⟩ := hscan.hit i lba buf rfl
    refine ((blockWriteSector_spec s₁ lba _).and (blockWriteSector_loses s₁ lba _)).mono ?_
    rintro _ t ⟨⟨hw, hcase⟩, ⟨rfl, hlost⟩ | ⟨rfl, b, rfl, hlost⟩⟩
    · exact .done (hlost.trans hreads.lost)
    · rcases hcase with ⟨-, -, hvol⟩ | ⟨hr, -⟩
      · refine .after hreads (.undone ⟨hw.ready, hw.fat, fun _ _ => by rw [hvol], hw.io⟩ ?_)
        intro lba hlba
        rw [hlost] at hlba
        refine (List.mem_cons.mp hlba).symm.imp_right fun heq => ?_
        rw [heq, hL]
        simp
      · simp at hr
  | done it =>
    obtain ⟨-, hcluster⟩ := hscan.done it rfl
    by_cases hP0 : P = 0
    · dsimp only
      rw [if_pos hP0]
      exact .pure (.of_reads hreads)
    · dsimp only
      rw [if_neg hP0, hcluster hP0]
      obtain ⟨pre, hpre⟩ := hlast hP0 (hwalk.ne_nil P hP hP0)
      have hc := hwalk.cluster P hP last (by rw [hpre]; simp)
      exact (dirGrow_ending hwalk.fits (Nat.lt_of_lt_of_le hc.2 hwalk.fits.entries)).mono
        fun r t h => h.after hreads

/-- `dir_insert` has ended after `fat16_mkdir` has prepared the cluster `c`, and if it has failed
the cluster is given back. -/
lemma Ending.give_back (hc : g.Cluster c) (hfree : s.vol.fat c = 0)
    (hw : Writes (· ∈ clusterLbas g c) (s.alloc c) t) (hlost : t.lost = s.lost)
    (h : Ending g D t false u) :
    Ending g D s false (u.withFat fun b => if b ∈ [c] then 0 else u.vol.fat b) := by
  have hfat : t.vol.fat = Function.update s.vol.fat c 0xFFFF := hw.fat
  -- what is free now was free before
  have hback : ∀ b, t.vol.fat b = 0 → b ≠ c ∧ s.vol.fat b = 0 := by
    intro b hb
    have hbc : b ≠ c := by
      rintro rfl
      rw [hfat, Function.update_self] at hb
      exact absurd hb (by decide)
    rw [hfat, Function.update_of_ne hbc] at hb
    exact ⟨hbc, hb⟩
  have hsector : ∀ lba, FreeSector g t.vol lba → FreeSector g s.vol lba := by
    rintro lba ⟨b, hb, hb0, hlba⟩
    exact ⟨b, hb, (hback b hb0).2, hlba⟩
  cases h with
  | undone hw' hlost' =>
    refine .undone ⟨?_, ?_, ?_, ?_⟩ ?_
    · exact hw'.ready.trans hw.ready
    · funext b
      show (if b ∈ [c] then 0 else u.vol.fat b) = s.vol.fat b
      rw [hw'.fat, hfat]
      by_cases hbc : b = c
      · rw [if_pos (List.mem_singleton.mpr hbc), hbc, hfree]
      · rw [if_neg (mt List.mem_singleton.mp hbc), Function.update_of_ne hbc]
    · intro lba hlba
      exact (hw'.disk lba (mt (hsector lba) hlba)).trans
        (hw.disk lba fun hmem => hlba ⟨c, hc, hfree, hmem⟩)
    · exact fun hio => hw'.io (hw.io hio)
    · intro lba hlba
      rw [← hlost]
      exact hlost' lba hlba
  | @kept _ b lba hb hb0 htaken hmem hlba =>
    obtain ⟨hbc, hb0'⟩ := hback b hb0
    refine .kept hb hb0' ?_ hmem (hlba.imp_right (hsector lba))
    show (if b ∈ [c] then 0 else u.vol.fat b) ≠ 0
    rwa [if_neg (mt List.mem_singleton.mp hbc)]

lemma makeDirectory_ending (hv : Valid g s.vol lay) (hP : lay.isDir P) (hn : Enough g n)
    (habsent : lookupSlot s.vol.disk name (lay.slots g P) = none) (hlen : name.length = 11)
    (hhead : name.headD 0 ≠ 0) :
    Ends (makeDirectory g n P name) s (Ending g (lay.sectors g P) s) := by
  refine newCluster_rule hv.fits (.of_reads (.refl s)) ?_ ?_
  · intro N lba t hN hfree hw _ hlba hlost
    exact .of_newCluster hN hfree hw.fat hlost hlba
  intro N s₁ hnew
  have hN := hnew.cluster
  have hprep := hnew.prepared hv
  have hv₁ := Hidden.valid hv hprep.hidden
  have habsent₁ : lookupSlot s₁.vol.disk name (lay.slots g P) = none :=
    (lookupSlot_congr fun y hy => hprep.hidden.entry hy).trans habsent
  refine ((dirInsert_spec (e := newDirectory name N) hv₁ hP hn habsent₁ (newDirectory_fits hlen)
    hhead).and (dirInsert_ending hv₁.walkable hP hn)).seq ?_
  rintro ok s₂ ⟨hins, hend⟩
  have hN₂ := hprep.end_mark hv hins
  cases ok with
  | false =>
    refine (freeSingle_spec hv.fits hn hN hN₂).seq ?_
    rintro _ _ rfl
    exact .pure (hend.give_back hN hnew.free hnew.writes hnew.lost)
  | true =>
    rw [if_pos rfl]
    cases hend with
    | done hlost =>
      exact flush_ending hN hnew.free (by rw [hN₂]; decide) (hlost.trans hnew.lost)

lemma fat16Create_ending (hv : Valid g s.vol lay) (hd : lay.isDir d) (hn : Enough g n) :
    Ends (fat16Create g n d path) s fun r t =>
      ∃ P, lay.isDir P ∧ Ending g (lay.sectors g P) s r.isSome t := by
  refine ready_rule hv.ready ?_
  refine lookupPath_rule hv.walkable hd hn (fun t hreads _ => ⟨d, hd, .of_reads hreads⟩)
    (fun t hreads _ => ⟨d, hd, .of_reads hreads⟩) ?_
  intro P name r s₁ hreads hresolves _
  cases r with
  | ioError => exact .pure ⟨d, hd, .of_reads hreads⟩
  | found hit =>
    dsimp only
    split
    · exact .pure ⟨d, hd, .of_reads hreads⟩
    · exact .pure ⟨d, hd, .done hreads.lost⟩
  | missing =>
    obtain ⟨hP, -, -⟩ := ResolvesPath.spec hv.walkable hd hresolves
    rw [← hreads.vol] at hv
    refine (dirInsert_ending (e := newFile name) hv.walkable hP hn).seq ?_
    intro ok t hend
    cases ok with
    | false => exact .pure ⟨P, hP, hend.after hreads⟩
    | true => exact .pure ⟨P, hP, hend.after hreads⟩

lemma fat16Mkdir_ending (hv : Valid g s.vol lay) (hd : lay.isDir d) (hn : Enough g n)
    (hpath : (0 : UInt8) ∉ path) :
    Ends (fat16Mkdir g n d path) s fun r t =>
      ∃ P, lay.isDir P ∧ Ending g (lay.sectors g P) s r t := by
  refine ready_rule hv.ready ?_
  refine lookupPath_rule hv.walkable hd hn (fun t hreads _ => ⟨d, hd, .of_reads hreads⟩)
    (fun t hreads _ => ⟨d, hd, .of_reads hreads⟩) ?_
  intro P name r s₁ hreads hresolves hlook
  cases r with
  | ioError => exact .pure ⟨d, hd, .of_reads hreads⟩
  | found hit =>
    dsimp only
    split
    · exact .pure ⟨d, hd, .done hreads.lost⟩
    · exact .pure ⟨d, hd, .of_reads hreads⟩
  | missing =>
    have habsent := hlook.missing rfl
    obtain ⟨hP, hlen, hhead⟩ := ResolvesPath.spec hv.walkable hd hresolves
    rw [← hreads.vol] at habsent hv
    exact (makeDirectory_ending hv hP hn habsent hlen (hhead hpath)).mono
      fun r t hend => ⟨P, hP, hend.after hreads⟩

/-! ## No trace -/

def InDirectory (g : Geo) (v : Vol) (lba : Nat) : Prop :=
  ∃ d x, IsDir g v d ∧ SlotOf g v d x ∧ x.1 = lba

/-- The same clusters are allocated, and every entry has a chain of its own. -/
structure NoTrace (g : Geo) (v w : Vol) : Prop where
  allocated : ∀ c, w.fat c ≠ 0 ↔ v.fat c ≠ 0
  owned : Owned g w

lemma Sound.inDirectory_used (h : Sound g v) {lba : Nat} (hlba : InDirectory g v lba) :
    h.layout.Used g lba := by
  obtain ⟨d, x, hd, hslot, rfl⟩ := hlba
  exact used_of_mem_slots ((h.valid.walkable.slots_iff hd).mp hslot)

lemma Sound.not_freeSector (h : Sound g v) {lba : Nat} (hlba : InDirectory g v lba) :
    g.rootStartLba ≤ lba ∧ ¬ FreeSector g v lba := by
  have hused := h.inDirectory_used hlba
  refine ⟨h.valid.rootStartLba_le_of_used hused, ?_⟩
  rintro ⟨c, hc, hfree, hmem⟩
  exact h.valid.not_used hc (h.valid.fresh_of_free hfree) hmem hused

/-- An ending without a success leaves no trace unless a cluster stays taken. -/
lemma Ending.noTrace_iff (h : Owned g s.vol) (hlost : s.lost = []) (hP : IsDir g s.vol P)
    (hend : Ending g (h.sound.layout.sectors g P) s false t) :
    NoTrace g s.vol t.vol ↔ ∀ lba ∈ t.lost, InDirectory g s.vol lba := by
  have hwalk := h.sound.valid.walkable
  cases hend with
  | undone hw hD =>
    have hentry : ∀ d x, IsDir g s.vol d → SlotOf g s.vol d x →
        entryAt t.vol.disk x = entryAt s.vol.disk x := by
      intro d x hd hslot
      have hnot := (h.sound.not_freeSector ⟨d, x, hd, hslot, rfl⟩).2
      rw [entryAt, hw.disk _ hnot, entryAt]
    have htrace : NoTrace g s.vol t.vol :=
      ⟨fun c => by rw [hw.fat], h.congr hw.ready hw.fat hentry⟩
    refine ⟨fun _ lba hlba => ?_, fun _ => htrace⟩
    have hmem := hD lba hlba
    rw [hlost] at hmem
    have hsector := hmem.resolve_left List.not_mem_nil
    have hslot : (lba, 0) ∈ h.sound.layout.slots g P :=
      mem_slotsOf.mpr ⟨hsector, Nat.zero_lt_succ _⟩
    exact ⟨P, (lba, 0), hP, (hwalk.slots_iff hP).mpr hslot, rfl⟩
  | @kept _ c lba _ hfree htaken hmem hlba =>
    refine ⟨fun htrace => absurd hfree ((htrace.allocated c).mp htaken), fun hall => ?_⟩
    obtain ⟨hle, hnot⟩ := h.sound.not_freeSector (hall lba hmem)
    rcases hlba with hlt | hfs
    · omega
    · exact absurd hfs hnot

variable {call : Call}

lemma exec_ending (h : Owned g v) (hn : Enough g n) (hc : call.Creates)
    (hd : IsDir g v call.dir) (io : Nat → Bool) :
    Ends (call.exec g n) (v.startOn io) fun r t =>
      ∃ P, IsDir g v P ∧ Ending g (h.sound.layout.sectors g P) (v.startOn io) r t := by
  have hv := h.sound.valid
  cases call with
  | create d path =>
    refine (fat16Create_ending (s := v.startOn io) hv hd hn).seq ?_
    rintro r t ⟨P, hP, hend⟩
    exact .pure ⟨P, hP, hend⟩
  | mkdir d path => exact fat16Mkdir_ending (s := v.startOn io) hv hd hn path.noNul
  | writeFile => exact hc.elim
  | writeAt => exact hc.elim

/-- **A `fat16_create` or `fat16_mkdir` that fails leaves no trace if and only if no write has
failed other than that of the entry**, which goes to a sector of a directory. -/
theorem failed_noTrace_iff (h : Owned g v) (hn : Enough g n) (hc : call.Creates)
    (hd : IsDir g v call.dir) (io : Nat → Bool) :
    ∃ r t, call.exec g n (v.startOn io) = .ok r t ∧
      (r = false → (NoTrace g v t.vol ↔ ∀ lba ∈ t.lost, InDirectory g v lba)) := by
  obtain ⟨r, t, hrun, P, hP, hend⟩ := exec_ending h hn hc hd io
  refine ⟨r, t, hrun, ?_⟩
  rintro rfl
  have hiff : NoTrace g (v.startOn io).vol t.vol ↔ _ := Ending.noTrace_iff h rfl hP hend
  exact hiff

/-- Only the write of the entry fails, and the blank volume is as it was. -/
theorem failed_noTrace_entry : ∃ t,
    (Call.mkdir 0 ⟨ascii "a", by decide⟩).exec smallGeo 0x10002 (blankVol.startOn (· ≠ 4)) =
      .ok false t ∧ t.lost = [4] ∧ NoTrace smallGeo blankVol t.vol := by
  have hc : (Call.mkdir 0 ⟨ascii "a", by decide⟩).Creates := trivial
  obtain ⟨r, t, hrun, hiff⟩ :=
    failed_noTrace_iff (blankVol_owned smallGeo_fits) smallGeo_enough hc .root (· ≠ 4)
  have hfails : Ends ((Call.mkdir 0 ⟨ascii "a", by decide⟩).exec smallGeo 0x10002)
      (blankVol.startOn (· ≠ 4)) fun r t => r = false ∧ t.lost = [4] := by
    decide +kernel
  obtain ⟨rfl, hlost⟩ := hfails.result hrun
  refine ⟨t, hrun, hlost, (hiff rfl).mpr fun lba hlba => ?_⟩
  rw [hlost, List.mem_singleton] at hlba
  exact ⟨0, (4, 0), .root, ⟨[], .inl (by decide), by decide⟩, hlba.symm⟩

/-- The first write of a `fat16_mkdir` fails: it returns `-1`, and the cluster it has taken stays
taken. -/
theorem mkdir_keeps_cluster : Owned smallGeo blankVol ∧ ∃ t,
    (Call.mkdir 0 ⟨ascii "a", by decide⟩).exec smallGeo 0x10002 (blankVol.startOn (· ≠ 1)) =
      .ok false t ∧ blankVol.fat 2 = 0 ∧ t.vol.fat 2 ≠ 0 := by
  have hrun : Ends ((Call.mkdir 0 ⟨ascii "a", by decide⟩).exec smallGeo 0x10002)
      (blankVol.startOn (· ≠ 1)) fun r t => r = false ∧ t.vol.fat 2 ≠ 0 := by
    decide +kernel
  obtain ⟨_, t, ht, rfl, hfat⟩ := hrun
  exact ⟨blankVol_owned smallGeo_fits, t, ht, rfl, hfat⟩

end NullOS.Fat16
