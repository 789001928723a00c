import NullOS.Fat16.Calls

/-!
# Names in directories

In a directory nothing counts behind the first empty slot, and at most one live entry has a given
name, because a new entry is only put where its name was not found.  When `fat16_mkdir` fails at its
last flush the new directory has its entry but no cluster, and calling it again finds the entry.
-/

namespace NullOS.Fat16

open Lib

variable {g : Geo} {v v' w : Vol} {lay lay' : Layout} {s t : St} {n d P N : Nat} {x y : Slot}
  {e : Dirent} {name path : List UInt8} {l l' : List Slot} {disk disk' : Nat → Mem}
  {Q : Nat → Dirent → Prop}

/-! ## Slots in order -/

/-- Behind an empty slot all slots are empty. -/
def Ended (disk : Nat → Mem) (l : List Slot) : Prop :=
  l.Pairwise fun x y => (entryAt disk x).Empty → (entryAt disk y).Empty

/-- No two live entries have the same name. -/
def Distinct (disk : Nat → Mem) (l : List Slot) : Prop :=
  ∀ x ∈ l, ∀ y ∈ l, (entryAt disk x).Live → (entryAt disk y).Live →
    (entryAt disk x).name = (entryAt disk y).name → x = y

structure Orderly (disk : Nat → Mem) (l : List Slot) : Prop where
  ended : Ended disk l
  distinct : Distinct disk l

namespace Orderly

lemma congr (h : Orderly disk l)
    (hempty : ∀ x ∈ l, (entryAt disk' x).Empty ↔ (entryAt disk x).Empty)
    (hlive : ∀ x ∈ l, (entryAt disk' x).Live ↔ (entryAt disk x).Live)
    (hname : ∀ x ∈ l, (entryAt disk' x).name = (entryAt disk x).name) : Orderly disk' l := by
  refine ⟨h.ended.imp_of_mem fun hx hy himp hex => ?_, fun x hx y hy hlx hly heq => ?_⟩
  · exact (hempty _ hy).mpr (himp ((hempty _ hx).mp hex))
  · rw [hname x hx, hname y hy] at heq
    exact h.distinct x hx y hy ((hlive x hx).mp hlx) ((hlive y hy).mp hly) heq

lemma congr_entry (h : Orderly disk l) (hsame : ∀ x ∈ l, entryAt disk' x = entryAt disk x) :
    Orderly disk' l := by
  refine h.congr ?_ ?_ ?_
  all_goals
    intro x hx
    rw [hsame x hx]

lemma append_empty (h : Orderly disk l) (hl : ∀ x ∈ l, ¬ (entryAt disk x).Empty)
    (hl' : ∀ x ∈ l', (entryAt disk x).Empty) : Orderly disk (l ++ l') := by
  have hold : ∀ {x}, x ∈ l ++ l' → (entryAt disk x).Live → x ∈ l := by
    intro x hx hlive
    rcases List.mem_append.mp hx with hx | hx
    · exact hx
    · exact absurd hlive (hl' x hx).not_live
  refine ⟨List.pairwise_append.mpr ⟨h.ended, ?_, fun x hx y hy hempty => absurd hempty (hl x hx)⟩,
    ?_⟩
  · exact List.pairwise_of_forall_mem_list fun x _ y hy _ => hl' y hy
  · intro x hx y hy hlx hly heq
    exact h.distinct x (hold hx hlx) y (hold hy hly) hlx hly heq

lemma put {pre post : List Slot} (h : Orderly disk (pre ++ x :: post))
    (hnd : (pre ++ x :: post).Nodup) (hpre : ∀ y ∈ pre, ¬ (entryAt disk y).Free)
    (hother : ∀ y ∈ pre ++ x :: post, y ≠ x → entryAt disk' y = entryAt disk y)
    (hempty : ¬ (entryAt disk' x).Empty)
    (habsent : lookupSlot disk (entryAt disk' x).name (pre ++ x :: post) = none) :
    Orderly disk' (pre ++ x :: post) := by
  obtain ⟨-, hrest, hcross⟩ := List.nodup_append.mp hnd
  have hpost : ∀ y ∈ post, y ≠ x := by
    rintro y hy rfl
    exact (List.nodup_cons.mp hrest).1 hy
  have hpre' : ∀ y ∈ pre, ¬ (entryAt disk' y).Empty := by
    intro y hy
    rw [hother y (List.mem_append_left _ hy) (hcross y hy x List.mem_cons_self)]
    exact fun he => hpre y hy (.inl he)
  refine ⟨?_, ?_⟩
  · obtain ⟨-, hrest', -⟩ := List.pairwise_append.mp h.ended
    refine List.pairwise_append.mpr ⟨?_, List.pairwise_cons.mpr ⟨?_, ?_⟩, ?_⟩
    · exact List.pairwise_of_forall_mem_list fun a ha _ _ hea => absurd hea (hpre' a ha)
    · exact fun b _ hex => absurd hex hempty
    · refine (List.pairwise_cons.mp hrest').2.imp_of_mem fun {a b} ha hb himp hea => ?_
      rw [hother a (by simp [ha]) (hpost a ha)] at hea
      rw [hother b (by simp [hb]) (hpost b hb)]
      exact himp hea
    · exact fun a ha b _ hea => absurd hea (hpre' a ha)
  · intro a ha b hb hla hlb heq
    have hnew : ∀ y ∈ pre ++ x :: post, y ≠ x → (entryAt disk' y).Live →
        (entryAt disk' y).name ≠ (entryAt disk' x).name := by
      intro y hy hyx hly
      rw [hother y hy hyx] at hly ⊢
      exact lookupSlot_none habsent h.ended hy hly
    by_cases hax : a = x
    · by_cases hbx : b = x
      · rw [hax, hbx]
      · rw [hax] at heq
        exact absurd heq.symm (hnew b hb hbx hlb)
    · by_cases hbx : b = x
      · rw [hbx] at heq
        exact absurd heq (hnew a ha hax hla)
      · rw [hother a ha hax] at hla heq
        rw [hother b hb hbx] at hlb heq
        exact h.distinct a ha b hb hla hlb heq

end Orderly

/-! ## All directories -/

def Named (g : Geo) (disk : Nat → Mem) (lay : Layout) : Prop :=
  ∀ d, lay.isDir d → Orderly disk (lay.slots g d)

lemma NewDir.orderly (hg : g.Fits) (h : NewDir g lay N P v) :
    Orderly v.disk (slotsOf (clusterLbas g N)) := by
  obtain ⟨rest, hslots, hrest⟩ := h.slots_eq hg
  have hdot : ¬ (entryAt v.disk (clusterSector g N 0, 0)).Empty := by
    rw [h.dot]
    exact (by decide : dot83.headD 0 ≠ 0)
  have hdotdot : ¬ (entryAt v.disk (clusterSector g N 0, 1)).Empty := by
    rw [h.dotdot]
    exact (by decide : dotdot83.headD 0 ≠ 0)
  rw [show slotsOf (clusterLbas g N) =
    [(clusterSector g N 0, 0), (clusterSector g N 0, 1)] ++ rest from hslots]
  refine Orderly.append_empty ⟨?_, ?_⟩ ?_ hrest
  · exact List.pairwise_pair.mpr fun he => absurd he hdot
  · have hne : (entryAt v.disk (clusterSector g N 0, 0)).name ≠
        (entryAt v.disk (clusterSector g N 0, 1)).name := by
      rw [h.dot, h.dotdot]
      exact (by decide : dot83 ≠ dotdot83)
    intro x hx y hy _ _ heq
    simp only [List.mem_cons, List.not_mem_nil, or_false] at hx hy
    obtain rfl | rfl := hx
    · obtain rfl | rfl := hy
      · rfl
      · exact absurd heq hne
    · obtain rfl | rfl := hy
      · exact absurd heq.symm hne
      · rfl
  · intro x hx
    simp only [List.mem_cons, List.not_mem_nil, or_false] at hx
    obtain rfl | rfl := hx
    · exact hdot
    · exact hdotdot

/-- **A move keeps all directories in order.** -/
lemma Move.named {p q : Vol × Layout} (hv : Valid g p.1 p.2) (h : Move g Q p q)
    (hp : Named g p.1.disk p.2) : Named g q.1.disk q.2 := by
  cases h with
  | hidden h => exact fun d hd => (hp d hd).congr_entry fun x hx => h.entry hx
  | @grow v v' lay P G h =>
    intro d hd
    have hold : Orderly v'.disk (lay.slots g d) :=
      (hp d hd).congr_entry fun x hx => entryAt_congr (h.disk _ (used_of_mem_slots hx))
    by_cases hP : d = P
    · subst hP
      rw [Layout.grow_slots_self h.ne_root]
      refine hold.append_empty (fun x hx he => h.full x hx (.inl ?_)) h.empty
      rwa [← entryAt_congr (h.disk _ (used_of_mem_slots hx))]
    · rw [Layout.grow_slots_of_ne hP]
      exact hold
  | @put v v' lay lay' P x e _ h he =>
    -- the slots of the directories that were there before
    have hold : ∀ d, lay.isDir d → Orderly v'.disk (lay.slots g d) := by
      intro d hd
      by_cases hP : d = P
      · subst hP
        obtain ⟨pre, post, hslots, hpre⟩ := h.first
        have hord := hp d hd
        have hnd := hv.walkable.slots_nodup hd
        have hother : ∀ y ∈ lay.slots g d, y ≠ x → entryAt v'.disk y = entryAt v.disk y :=
          fun y hy hne => h.other y (used_of_mem_slots hy) hne
        have habsent := h.absent
        rw [hslots] at hord hnd hother habsent ⊢
        refine hord.put hnd hpre hother ?_ ?_
        · rw [h.entry]
          exact h.not_empty
        · rw [h.entry]
          exact habsent
      · refine (hp d hd).congr_entry fun y hy => h.other y (used_of_mem_slots hy) ?_
        rintro rfl
        exact hP (hv.slot_unique hy h.mem)
    cases he with
    | dead => exact hold
    | file =>
      intro d hd
      rw [Layout.setFile_slots]
      exact hold d hd
    | @dir N _ _ _ hN =>
      rintro d (hd | rfl)
      · rw [Layout.addDir_slots_of_ne]
        · exact hold d hd
        · rintro rfl
          exact hv.not_isDir hN.cluster hN.fresh hd
      · rw [Layout.addDir_slots_self hN.ne_zero]
        exact hN.orderly hv.fits

lemma Moves.named {p q : Vol × Layout} (h : Moves g Q p q) (hv : Valid g p.1 p.2)
    (hp : Named g p.1.disk p.2) : Named g q.1.disk q.2 :=
  (h.induct (I := fun r => Named g r.1.disk r.2) hv hp fun _ _ hv hm hi => hm.named hv hi).2

lemma Rewritten.named {first size : Nat} {cs : List Nat}
    (h : Rewritten g lay x first size cs v v') (hp : Named g v.disk lay) :
    Named g v'.disk (lay.setFile x cs) := by
  intro d hd
  rw [Layout.setFile_slots]
  exact (hp d hd).congr (fun y hy => h.empty_iff hy) (fun y hy => h.live_iff hy)
    fun y hy => h.name_eq hy

/-! ## The volume -/

/-- Every directory, walked through the FAT cache, has at most one live entry of a name. -/
def UniqueNames (g : Geo) (v : Vol) : Prop :=
  ∀ d, IsDir g v d → ∀ x y, SlotOf g v d x → SlotOf g v d y → (entryAt v.disk x).Live →
    (entryAt v.disk y).Live → (entryAt v.disk x).name = (entryAt v.disk y).name → x = y

def EndedDirs (g : Geo) (v : Vol) : Prop :=
  ∀ d, IsDir g v d → ∀ cs, Walk v.fat Stop d cs → Ended v.disk (slotsOf (dirSectors g d cs))

/-- A volume with well-formed, disjoint chains and orderly directories. -/
structure Tidy (g : Geo) (v : Vol) : Prop where
  sound : Sound g v
  ended : EndedDirs g v
  unique : UniqueNames g v

lemma Walkable.uniqueNames (h : Walkable g v lay) (hn : Named g v.disk lay) : UniqueNames g v := by
  intro d hd x y hx hy
  have hd' := h.isDir hd
  exact (hn d hd').distinct x ((h.slots_iff hd').mp hx) y ((h.slots_iff hd').mp hy)

lemma Valid.tidy (h : Valid g v lay) (hn : Named g v.disk lay) : Tidy g v := by
  refine ⟨h.sound, fun d hd cs hcs => ?_, h.walkable.uniqueNames hn⟩
  have hd' := h.walkable.isDir hd
  rw [← (h.walk hd').unique hcs]
  exact (hn d hd').ended

lemma Tidy.named (h : Tidy g v) : Named g v.disk h.sound.layout := by
  intro d hd
  have hd' : IsDir g v d := hd
  refine ⟨h.ended d hd' _ (h.sound.layout_walk hd'), fun x hx y hy => ?_⟩
  exact h.unique d hd' x y ⟨_, h.sound.layout_walk hd', hx⟩ ⟨_, h.sound.layout_walk hd', hy⟩

lemma blankVol_tidy (hg : g.Fits) : Tidy g blankVol := by
  refine ⟨blankVol_sound hg, fun d _ cs _ => ?_, fun d _ x y _ _ hx => absurd hx blankVol_not_live⟩
  exact List.pairwise_of_forall_mem_list fun x _ y _ _ => dirent_zeroSector_empty

/-! ## Calls on a device that works -/

def Call.KeepsChains : Call → Prop
  | .writeFile _ _ _ => False
  | _ => True

lemma exec_tidy (hv : Valid g v lay) (hnamed : Named g v.disk lay) (hn : Enough g n) {c : Call}
    (hd : lay.isDir c.dir) (hkeep : c.KeepsChains) :
    Ends (c.exec g n) v.start fun _ t => Tidy g t.vol := by
  have hmoves : c.Creates → Ends (c.exec g n) v.start fun _ t => Tidy g t.vol := by
    intro hc
    refine (exec_moves hv hn hd hc).mono ?_
    rintro r t ⟨lay', hm⟩
    exact (hm.valid hv).tidy (hm.named hv hnamed)
  cases c with
  | create => exact hmoves trivial
  | mkdir => exact hmoves trivial
  | writeFile d name buf => exact hkeep.elim
  | writeAt d name pos buf =>
    refine (fat16WriteAt_spec (s := v.start) hv hd hn).seq ?_
    rintro r t ⟨-, ⟨hsame, -⟩ | ⟨x, first, cs, -, ⟨-, size, hre, -⟩ | ⟨hio, -⟩⟩⟩
    · refine .pure ?_
      rw [hsame]
      exact hv.tidy hnamed
    · exact .pure ((hre.valid hv).tidy (hre.named hnamed))
    · exact absurd rfl hio

lemma Tidy.exec (h : Tidy g v) (hn : Enough g n) {c : Call} (hc : Possible g v c)
    (hkeep : c.KeepsChains) : Ends (c.exec g n) v.start fun _ t => Tidy g t.vol :=
  exec_tidy h.sound.valid h.named hn hc.dir hkeep

/-! ## One call on a device that may fail, and again -/

lemma Resolves.unique {r r' : Nat × List UInt8} (h : Resolves g disk lay d path r)
    (h' : Resolves g disk lay d path r') : r = r' := by
  induction h generalizing r' with
  | last hlast =>
    cases h' with
    | last _ => rfl
    | step hmore _ _ _ => exact absurd hlast hmore
  | step hmore hx _ _ ih =>
    cases h' with
    | last hlast => exact absurd hlast hmore
    | step _ hx' _ hrest =>
      rw [hx] at hx'
      cases hx'
      exact ih hrest

lemma broken_walkable (hw : Valid g w lay) (hN : Chain g w.fat N [N]) :
    Walkable g { w with fat := fun c => if c ∈ [N] then 0 else w.fat c } lay := by
  have hwalk := hw.walkable
  refine ⟨hwalk.fits, hwalk.root, fun d hd => (hwalk.walk d hd).congr_stop fun c => ?_,
    hwalk.cluster, hwalk.ne_nil, hwalk.closed⟩
  by_cases hc : c = N
  · subst hc
    refine .inr ⟨.inr hN.walk.2.2, .inl ?_⟩
    show (if c ∈ [c] then 0 else w.fat c) < 2
    rw [if_pos (List.mem_singleton.mpr rfl)]
    exact Nat.zero_lt_two
  · exact .inl (if_neg (mt List.mem_singleton.mp hc))

lemma mkdir_found (hwalk : Walkable g v lay) (hready : v.ready = true) (hd : lay.isDir d)
    (hn : Enough g n) (hr : ResolvesPath g v.disk lay d path (P, name))
    (hx : lookupSlot v.disk name (lay.slots g P) = some x) (hdir : (entryAt v.disk x).Directory) :
    Ends (fat16Mkdir g n d path) v.start fun _ t => t.vol = v := by
  have hP := (ResolvesPath.spec hwalk hd hr).1
  show Ends (if v.start.vol.ready = true then _ else _) v.start _
  rw [if_pos (show v.start.vol.ready = true from hready)]
  refine (resolvePath_spec (s := v.start) hwalk hd hn).seq ?_
  rintro r s₁ ⟨hreads, hres⟩
  cases r with
  | missing => exact absurd hr (hres.missing rfl _)
  | ioError => exact absurd rfl (hres.ioError rfl)
  | found p =>
  obtain rfl : (P, name) = p := hr.2.unique (hres.found p rfl).2
  have hvol : s₁.vol = v := hreads.vol
  refine (dirLookup_spec (s := s₁) (by rwa [hvol]) hP hn).seq ?_
  rintro r s₂ ⟨hreads₂, hlook⟩
  have hvol₂ : s₂.vol = v := hreads₂.vol.trans hvol
  cases r with
  | missing =>
    have hmissing := hlook.missing rfl
    rw [hvol, hx] at hmissing
    simp at hmissing
  | ioError => exact absurd (hreads.io rfl) (hlook.ioError rfl)
  | found hit =>
    obtain ⟨hx', hentry, -⟩ := hlook.found hit rfl
    rw [hvol, hx] at hx'
    rw [hvol, ← Option.some.inj hx'] at hentry
    dsimp only
    rw [hentry, if_pos hdir]
    exact .pure hvol₂

/-- Names are unique, and stay so when the call is made again and all block operations succeed. -/
def UniqueTwice (g : Geo) (n : Nat) (c : Call) (v : Vol) : Prop :=
  UniqueNames g v ∧ Ends (c.exec g n) v.start fun _ t => UniqueNames g t.vol

lemma uniqueTwice_of_moves (hv : Valid g v lay) (hnamed : Named g v.disk lay)
    (hm : Moves g Q (v, lay) (v', lay')) (hn : Enough g n) {c : Call} (hd : lay.isDir c.dir)
    (hkeep : c.KeepsChains) : UniqueTwice g n c v' := by
  have hv' := hm.valid hv
  have hnamed' := hm.named hv hnamed
  refine ⟨(hv'.tidy hnamed').unique, ?_⟩
  exact (exec_tidy hv' hnamed' hn (hm.isDir hv hd) hkeep).mono fun _ t ht => ht.unique

lemma create_twice (h : Tidy g v) (hn : Enough g n) {path : CStr} (hd : IsDir g v d)
    (io : Nat → Bool) : Ends ((Call.create d path).exec g n) (v.startOn io) fun _ t =>
      UniqueTwice g n (.create d path) t.vol := by
  have hv := h.sound.valid
  refine (fat16Create_spec (s := v.startOn io) hv hd hn path.noNul).seq ?_
  rintro r t ⟨-, ⟨lay', hcr⟩, -⟩
  exact .pure (uniqueTwice_of_moves (c := .create d path) hv h.named hcr.moves hn hd trivial)

lemma mkdir_twice (h : Tidy g v) (hn : Enough g n) {path : CStr} (hd : IsDir g v d)
    (io : Nat → Bool) : Ends ((Call.mkdir d path).exec g n) (v.startOn io) fun _ t =>
      UniqueTwice g n (.mkdir d path) t.vol := by
  have hv := h.sound.valid
  refine (fat16Mkdir_spec (s := v.startOn io) hv hd hn path.noNul).mono ?_
  rintro r t ⟨-, ⟨lay', hcr⟩ | ⟨-, P, name, hr, w, lay', x, N, hm, hx, hdir, hN, hvol⟩⟩
  · exact uniqueTwice_of_moves (c := .mkdir d path) hv h.named hcr.moves hn hd trivial
  · have hw := hm.valid hv
    have hwalk := broken_walkable hw hN
    have hunique := hwalk.uniqueNames (hm.named hv h.named)
    -- the path still leads to the entry
    have hstart : h.sound.layout.isDir (if path.bytes.head? = some 0x2F then 0 else d) := by
      split
      · exact hv.root
      · exact hd
    have hr' : ResolvesPath g w.disk lay' d path.bytes (P, name) :=
      ⟨hr.1, hm.resolves hv hstart hr.2⟩
    rw [hvol]
    refine ⟨hunique, ?_⟩
    refine (mkdir_found hwalk hw.ready (hm.isDir hv hd) hn hr' hx hdir).mono ?_
    rintro r u hu
    rw [hu]
    exact hunique

/-- **At most one live entry per name**, on every volume that calls lead to, and after a call on a
device that fails at any point and is then asked again. -/
theorem names_unique (h : Tidy g v) (hn : Enough g n) :
    (∀ w, ReachIf (callStep g n) (· = v) (fun w c => Possible g w c ∧ c.KeepsChains) w →
      UniqueNames g w ∧ ∀ c, Possible g w c → c.KeepsChains → callStep g n w c ≠ none) ∧
    ∀ d path, IsDir g v d → ∀ c, c = Call.create d path ∨ c = Call.mkdir d path → ∀ io,
      ∃ r t, c.exec g n (v.startOn io) = .ok r t ∧ UniqueNames g t.vol ∧
        ∃ r' t', c.exec g n t.vol.start = .ok r' t' ∧ UniqueNames g t'.vol := by
  constructor
  · intro w hw
    have htidy : Tidy g w := by
      refine hw.invariant (I := Tidy g) ?_ ?_
      · rintro _ rfl
        exact h
      · rintro w c w' htidy ⟨hc, hkeep⟩ hstep
        obtain ⟨r, t, ht, rfl⟩ := callStep_of_ends (htidy.exec hn hc hkeep) hstep
        exact ht
    exact ⟨htidy.unique, fun c hc hkeep => callStep_ne_none (htidy.exec hn hc hkeep)⟩
  · intro d path hd c hc io
    have hends : Ends (c.exec g n) (v.startOn io) fun _ t => UniqueTwice g n c t.vol := by
      obtain rfl | rfl := hc
      · exact create_twice h hn hd io
      · exact mkdir_twice h hn hd io
    obtain ⟨r, t, hrun, hunique, r', t', hrun', hunique'⟩ := hends
    exact ⟨r, t, hrun, hunique, r', t', hrun', hunique'⟩

def threeCalls : List Call :=
  [.create 0 ⟨ascii "A", by decide⟩, .mkdir 0 nameD, .create 0 nameA]

/-- The calls leave two entries, and so does a directory that is made on the second attempt, after
the write of its entry has failed. -/
theorem names_unique_calls :
    (∃ w, run (callStep smallGeo 0x10002) blankVol threeCalls = some w ∧ UniqueNames smallGeo w ∧
      (entryAt w.disk (4, 0)).name = to83 (ascii "a") ∧
      (entryAt w.disk (4, 1)).name = to83 (ascii "d") ∧ (entryAt w.disk (4, 2)).Empty) ∧
    ∃ t t', (Call.mkdir 0 ⟨ascii "d", by decide⟩).exec smallGeo 0x10002
        (blankVol.startOn (· ≠ 4)) = .ok false t ∧
      (Call.mkdir 0 ⟨ascii "d", by decide⟩).exec smallGeo 0x10002 t.vol.start = .ok true t' ∧
      UniqueNames smallGeo t'.vol := by
  have hunique := names_unique (blankVol_tidy smallGeo_fits) smallGeo_enough
  constructor
  · have hrun : ∃ w ∈ run (callStep smallGeo 0x10002) blankVol threeCalls,
        (entryAt w.disk (4, 0)).name = to83 (ascii "a") ∧
        (entryAt w.disk (4, 1)).name = to83 (ascii "d") ∧ (entryAt w.disk (4, 2)).Empty := by
      decide +kernel
    obtain ⟨w, hw, hentries⟩ := hrun
    refine ⟨w, hw, (hunique.1 w (.of_run (.start rfl) (fun u c hc => ?_) hw)).1, hentries⟩
    obtain rfl | rfl | rfl : _ ∨ _ ∨ _ := by simpa [threeCalls] using hc
    all_goals exact ⟨⟨.root, trivial⟩, trivial⟩
  · obtain ⟨r, t, hfail, -, r', t', hagain, hunique'⟩ := hunique.2 0 ⟨ascii "d", by decide⟩ .root _
      (.inr rfl) (· ≠ 4)
    have hends : Ends ((Call.mkdir 0 ⟨ascii "d", by decide⟩).exec smallGeo 0x10002)
        (blankVol.startOn (· ≠ 4)) fun r t => r = false ∧
          Ends ((Call.mkdir 0 ⟨ascii "d", by decide⟩).exec smallGeo 0x10002) t.vol.start
            fun r _ => r = true := by
      decide +kernel
    obtain ⟨rfl, hends'⟩ := hends.result hfail
    obtain rfl := hends'.result hagain
    exact ⟨t, t', hfail, hagain, hunique'⟩

end NullOS.Fat16
