import NullOS.Fat16.Names

/-!
# The directory tree

The directories form a tree when the root has no entry `.` or `..`, every other directory begins
with one `.` for itself and one `..` for its parent, and following `..` leads to the root.  A call
whose path ends in the root with `.` or `..` gives the root an entry with that name.  Every other
call keeps the tree.
-/

namespace NullOS.Fat16

open Lib

variable {g : Geo} {v : Vol} {lay : Layout} {disk : Nat → Mem} {n d p : Nat} {x y : Slot}
  {l : List Slot} {name : List UInt8} {Q : Nat → Dirent → Prop}

/-! ## Trees -/

def Dots (name : List UInt8) : Prop := name = dot83 ∨ name = dotdot83

instance : DecidablePred Dots := fun _ => inferInstanceAs (Decidable (_ ∨ _))

/-- A live entry with this name for this cluster. -/
structure PointsTo (disk : Nat → Mem) (x : Slot) (name : List UInt8) (c : Nat) : Prop where
  live : (entryAt disk x).Live
  name : (entryAt disk x).name = name
  first : (entryAt disk x).first = c

/-- The slots begin with `.` for `d` and `..` for `p`, and there are no others with these names. -/
def Dotted (disk : Nat → Mem) (d p : Nat) (l : List Slot) : Prop :=
  ∃ x y rest, l = x :: y :: rest ∧ PointsTo disk x dot83 d ∧ PointsTo disk y dotdot83 p ∧
    ∀ z ∈ rest, (entryAt disk z).Live → ¬ Dots (entryAt disk z).name

/-- An entry of a directory for a directory below it. -/
structure ChildEntry (disk : Nat → Mem) (x : Slot) (d : Nat) : Prop where
  live : (entryAt disk x).Live
  directory : (entryAt disk x).Directory
  not_dots : ¬ Dots (entryAt disk x).name
  first : (entryAt disk x).first = d

/-- Directory `p` has an entry for directory `d`, other than as `.` or `..`. -/
def Parent (g : Geo) (v : Vol) (p d : Nat) : Prop :=
  IsDir g v p ∧ ∃ x, SlotOf g v p x ∧ ChildEntry v.disk x d

/-- Following `..` from the directory leads to the root. -/
inductive Climbs (g : Geo) (v : Vol) : Nat → Prop
  | root : Climbs g v 0
  | up {d : Nat} {x : Slot} : SlotOf g v d x → (entryAt v.disk x).Live →
      (entryAt v.disk x).name = dotdot83 → Climbs g v (entryAt v.disk x).first → Climbs g v d

structure ProperTree (g : Geo) (v : Vol) : Prop where
  root : ∀ x, SlotOf g v 0 x → (entryAt v.disk x).Live → ¬ Dots (entryAt v.disk x).name
  dots : ∀ d, IsDir g v d → d ≠ 0 → ∀ cs, Walk v.fat Stop d cs →
    ∃ p, Dotted v.disk d p (slotsOf (dirSectors g d cs)) ∧ ∀ p', Parent g v p' d → p' = p
  climbs : ∀ d, IsDir g v d → Climbs g v d

lemma dot83_ne_dotdot83 : dot83 ≠ dotdot83 := by decide

namespace Dotted

lemma eq_of_dot (h : Dotted disk d p l) (hx : x ∈ l) (hl : (entryAt disk x).Live)
    (hname : (entryAt disk x).name = dot83) : (entryAt disk x).first = d := by
  obtain ⟨a, b, rest, rfl, ha, hb, hrest⟩ := h
  rcases List.mem_cons.mp hx with rfl | hx
  · exact ha.first
  · rcases List.mem_cons.mp hx with rfl | hx
    · exact absurd (hname.symm.trans hb.name) dot83_ne_dotdot83
    · exact absurd (.inl hname) (hrest x hx hl)

lemma eq_of_dotdot (h : Dotted disk d p l) (hx : x ∈ l) (hl : (entryAt disk x).Live)
    (hname : (entryAt disk x).name = dotdot83) : (entryAt disk x).first = p := by
  obtain ⟨a, b, rest, rfl, ha, hb, hrest⟩ := h
  rcases List.mem_cons.mp hx with rfl | hx
  · exact absurd (ha.name.symm.trans hname) dot83_ne_dotdot83
  · rcases List.mem_cons.mp hx with rfl | hx
    · exact hb.first
    · exact absurd (.inr hname) (hrest x hx hl)

lemma lookup_ne_none (h : Dotted disk d p l) (hname : Dots name) :
    lookupSlot disk name l ≠ none := by
  obtain ⟨a, b, rest, rfl, ha, hb, -⟩ := h
  rw [lookupSlot, if_neg ha.live.1, ha.name]
  rcases hname with rfl | rfl
  · rw [if_pos ⟨ha.live, rfl⟩]
    simp
  · rw [if_neg fun hand => dot83_ne_dotdot83 hand.2, lookupSlot, if_neg hb.live.1,
      if_pos ⟨hb.live, hb.name⟩]
    simp

end Dotted

/-! ## The way down from the root -/

/-- The directories that are reached from the root through entries other than `.` and `..`. -/
inductive Below (g : Geo) (v : Vol) : Nat → Prop
  | root : Below g v 0
  | child {p d : Nat} : Below g v p → Parent g v p d → Below g v d

lemma below_of_isDir
    (hroot : ∀ x, SlotOf g v 0 x → (entryAt v.disk x).Live → ¬ Dots (entryAt v.disk x).name)
    (hdots : ∀ d, IsDir g v d → d ≠ 0 → ∀ cs, Walk v.fat Stop d cs →
      ∃ p, Dotted v.disk d p (slotsOf (dirSectors g d cs)) ∧ ∀ p', Parent g v p' d → p' = p)
    (hd : IsDir g v d) : Below g v d := by
  induction hd with
  | root => exact .root
  | @sub d x hd hx hl hdir ih =>
    by_cases hname : Dots (entryAt v.disk x).name
    · have h0 : d ≠ 0 := by
        rintro rfl
        exact hroot x hx hl hname
      obtain ⟨cs, hw, hmem⟩ := hx
      obtain ⟨p, hdotted, hparent⟩ := hdots d hd h0 cs hw
      rcases hname with hdot | hdotdot
      · rw [hdotted.eq_of_dot hmem hl hdot]
        exact ih
      · rw [hdotted.eq_of_dotdot hmem hl hdotdot]
        cases ih with
        | root => exact absurd rfl h0
        | child hbelow hp =>
          rw [← hparent _ hp]
          exact hbelow
    · exact .child ih ⟨hd, x, hx, hl, hdir, hname, rfl⟩

/-- `..` leads to the root because it leads back along the way down. -/
lemma climbs_of_below (hsound : Sound g v)
    (hdots : ∀ d, IsDir g v d → d ≠ 0 → ∀ cs, Walk v.fat Stop d cs →
      ∃ p, Dotted v.disk d p (slotsOf (dirSectors g d cs)) ∧ ∀ p', Parent g v p' d → p' = p)
    (hd : Below g v d) : Climbs g v d := by
  induction hd with
  | root => exact .root
  | @child p d _ hp ih =>
    by_cases h0 : d = 0
    · rw [h0]
      exact .root
    · obtain ⟨hpdir, x, hx, hchild⟩ := id hp
      have hd : IsDir g v d := by
        rw [← hchild.first]
        exact .sub hpdir hx hchild.live hchild.directory
      have hw := hsound.layout_walk hd
      obtain ⟨p', ⟨a, b, rest, hslots, -, hb, -⟩, hparent⟩ := hdots d hd h0 _ hw
      refine .up (x := b) ⟨_, hw, ?_⟩ hb.live hb.name ?_
      · rw [hslots]
        exact List.mem_cons_of_mem _ List.mem_cons_self
      · rw [hb.first, ← hparent p hp]
        exact ih

/-! ## Moves -/

def ParentIn (g : Geo) (disk : Nat → Mem) (lay : Layout) (p d : Nat) : Prop :=
  lay.isDir p ∧ ∃ x ∈ lay.slots g p, ChildEntry disk x d

structure TreeOn (g : Geo) (disk : Nat → Mem) (lay : Layout) : Prop where
  root : ∀ x ∈ lay.slots g 0, (entryAt disk x).Live → ¬ Dots (entryAt disk x).name
  dots : ∀ d, lay.isDir d → d ≠ 0 → ∃ p, Dotted disk d p (lay.slots g d) ∧
    ∀ p', ParentIn g disk lay p' d → p' = p

lemma ProperTree.treeOn (hsound : Sound g v) (h : ProperTree g v) :
    TreeOn g v.disk hsound.layout := by
  have hslot : ∀ {d x}, IsDir g v d → x ∈ hsound.layout.slots g d → SlotOf g v d x :=
    fun hd hx => (hsound.valid.walkable.slots_iff hd).mpr hx
  refine ⟨fun x hx => h.root x (hslot .root hx), fun d hd h0 => ?_⟩
  obtain ⟨p, hdotted, hparent⟩ := h.dots d hd h0 _ (hsound.layout_walk hd)
  refine ⟨p, hdotted, ?_⟩
  rintro p' ⟨hp', x, hx, hchild⟩
  exact hparent p' ⟨hp', x, hslot hp' hx, hchild⟩

lemma TreeOn.properTree (hv : Valid g v lay) (h : TreeOn g v.disk lay) : ProperTree g v := by
  have hslot : ∀ {d x}, IsDir g v d → SlotOf g v d x → x ∈ lay.slots g d :=
    fun hd hx => (hv.walkable.slots_iff (hv.walkable.isDir hd)).mp hx
  have hroot : ∀ x, SlotOf g v 0 x → (entryAt v.disk x).Live → ¬ Dots (entryAt v.disk x).name :=
    fun x hx => h.root x (hslot .root hx)
  have hdots : ∀ d, IsDir g v d → d ≠ 0 → ∀ cs, Walk v.fat Stop d cs →
      ∃ p, Dotted v.disk d p (slotsOf (dirSectors g d cs)) ∧ ∀ p', Parent g v p' d → p' = p := by
    intro d hd h0 cs hw
    obtain ⟨p, hdotted, hparent⟩ := h.dots d (hv.walkable.isDir hd) h0
    rw [hw.unique (hv.walk (hv.walkable.isDir hd))]
    refine ⟨p, hdotted, ?_⟩
    rintro p' ⟨hp', x, hx, hchild⟩
    exact hparent p' ⟨hv.walkable.isDir hp', x, hslot hp' hx, hchild⟩
  exact ⟨hroot, hdots, fun d hd =>
    climbs_of_below hv.sound hdots (below_of_isDir hroot hdots hd)⟩

namespace Move

variable {p q : Vol × Layout}

lemma slots_append (hv : Valid g p.1 p.2) (h : Move g Q p q) (hd : p.2.isDir d) :
    ∃ more, q.2.slots g d = p.2.slots g d ++ more := by
  cases h with
  | hidden => exact ⟨[], (List.append_nil _).symm⟩
  | @grow v v' lay P G h =>
    by_cases hP : d = P
    · subst hP
      exact ⟨_, Layout.grow_slots_self h.ne_root⟩
    · exact ⟨[], by rw [Layout.grow_slots_of_ne hP, List.append_nil]⟩
  | put _ _ he => exact ⟨[], by rw [he.slots_eq hv hd, List.append_nil]⟩

/-- A live entry of a directory that was there before is an old entry, or it is the one that was
put, whose name was not found and which stands for no old directory. -/
lemma live_cases (hv : Valid g p.1 p.2) (h : Move g Q p q) (hd : p.2.isDir d)
    (hx : x ∈ q.2.slots g d) (hl : (entryAt q.1.disk x).Live) :
    x ∈ p.2.slots g d ∧ entryAt q.1.disk x = entryAt p.1.disk x ∨
      Q d (entryAt q.1.disk x) ∧
        lookupSlot p.1.disk (entryAt q.1.disk x).name (p.2.slots g d) = none ∧
        ((entryAt q.1.disk x).Directory → ¬ p.2.isDir (entryAt q.1.disk x).first) := by
  cases h with
  | hidden h => exact .inl ⟨hx, h.entry hx⟩
  | grow h =>
    rcases h.slot_cases hx with hold | ⟨-, -, hempty⟩
    · exact .inl hold
    · exact absurd hl hempty.not_live
  | @put v v' lay lay' P z e hq h he =>
    rw [he.slots_eq hv hd] at hx
    rcases h.slot_cases hx with ⟨rfl, hentry⟩ | ⟨-, hsame⟩
    · obtain rfl := hv.slot_unique hx h.mem
      rw [hentry] at hl ⊢
      refine .inr ⟨hq, h.absent, fun hdir => ?_⟩
      cases he with
      | dead hdead => exact absurd hl hdead
      | file _ hfile => exact absurd hdir hfile
      | dir _ _ hfirst hN =>
        rw [hfirst]
        exact hv.not_isDir hN.cluster hN.fresh
    · exact .inl ⟨hx, hsame⟩

lemma newDir (h : Move g Q p q) (hd : q.2.isDir d) (hnew : ¬ p.2.isDir d) :
    ∃ P x e, PutAt g p.2 P x e p.1 q.1 ∧ NewDir g p.2 d P q.1 ∧ q.2 = p.2.addDir d := by
  cases h with
  | hidden => exact absurd hd hnew
  | grow => exact absurd hd hnew
  | @put v v' lay lay' P x e _ h he =>
    cases he with
    | dead => exact absurd hd hnew
    | file => exact absurd hd hnew
    | dir _ _ _ hN =>
      rcases hd with hd | rfl
      · exact absurd hd hnew
      · exact ⟨P, x, e, h, hN, rfl⟩

end Move

lemma newDirectory_live {c : Nat} (hname : Dots name) : (newDirectory name c).Live := by
  rcases hname with rfl | rfl
  · exact ⟨(by decide : dot83.headD 0 ≠ 0), (by decide : dot83.headD 0 ≠ 0xE5),
      (by decide : ¬ (0x10 : UInt8) &&& 0x08 ≠ 0)⟩
  · exact ⟨(by decide : dotdot83.headD 0 ≠ 0), (by decide : dotdot83.headD 0 ≠ 0xE5),
      (by decide : ¬ (0x10 : UInt8) &&& 0x08 ≠ 0)⟩

lemma NewDir.dotted (hv : Valid g v lay) {w : Vol} {N P : Nat} (hP : lay.isDir P)
    (h : NewDir g lay N P w) : Dotted w.disk N P (slotsOf (clusterLbas g N)) := by
  obtain ⟨rest, hslots, hrest⟩ := h.slots_eq hv.fits
  refine ⟨_, _, rest, hslots, ?_, ?_, fun z hz hl => absurd hl (hrest z hz).not_live⟩
  · constructor
    all_goals rw [h.dot]
    · exact newDirectory_live (.inl rfl)
    · rfl
    · exact Nat.mod_eq_of_lt (hv.fits.lt h.cluster)
  · constructor
    all_goals rw [h.dotdot]
    · exact newDirectory_live (.inr rfl)
    · rfl
    · exact Nat.mod_eq_of_lt (hv.isDir_lt hP)

/-- No entry `.` or `..` is put into the root. -/
def NoDotsInRoot (P : Nat) (e : Dirent) : Prop := P = 0 → ¬ Dots e.name

namespace TreeOn

variable {p q : Vol × Layout}

lemma not_dots (h : TreeOn g disk lay) (hd : lay.isDir d) (hroot : d = 0 → ¬ Dots name)
    (habsent : lookupSlot disk name (lay.slots g d) = none) : ¬ Dots name := by
  by_cases h0 : d = 0
  · exact hroot h0
  · intro hname
    obtain ⟨_, hdotted, -⟩ := h.dots d hd h0
    exact hdotted.lookup_ne_none hname habsent

lemma dotted_old (hv : Valid g p.1 p.2) (hm : Move g NoDotsInRoot p q) (h : TreeOn g p.1.disk p.2)
    (hd : p.2.isDir d) {up : Nat} (hdotted : Dotted p.1.disk d up (p.2.slots g d)) :
    Dotted q.1.disk d up (q.2.slots g d) := by
  obtain ⟨a, b, rest, hslots, ha, hb, hrest⟩ := hdotted
  obtain ⟨more, hmore⟩ := hm.slots_append hv hd
  rw [hslots] at hmore
  have hnd := (hm.valid hv).walkable.slots_nodup (hm.isDir hd)
  rw [hmore] at hnd
  have hkeep : ∀ {z name c}, z ∈ p.2.slots g d → PointsTo p.1.disk z name c →
      PointsTo q.1.disk z name c := by
    intro z name c hz hpt
    have heq := hm.entry_eq hv hd hz hpt.live
    exact ⟨heq ▸ hpt.live, heq ▸ hpt.name, heq ▸ hpt.first⟩
  refine ⟨a, b, rest ++ more, hmore, hkeep (by simp [hslots]) ha, hkeep (by simp [hslots]) hb, ?_⟩
  intro z hz hl
  have hzq : z ∈ q.2.slots g d := by
    rw [hmore]
    exact List.mem_cons_of_mem _ (List.mem_cons_of_mem _ hz)
  rcases hm.live_cases hv hd hzq hl with ⟨hzp, heq⟩ | ⟨hq, habsent, -⟩
  · -- an old entry, and not one of the first two because no slot occurs twice
    have hza : z ≠ a := by
      rintro rfl
      exact (List.nodup_cons.mp hnd).1 (List.mem_cons_of_mem _ hz)
    have hzb : z ≠ b := by
      rintro rfl
      exact (List.nodup_cons.mp (List.nodup_cons.mp hnd).2).1 hz
    rw [hslots] at hzp
    rw [heq] at hl ⊢
    exact hrest z (List.mem_of_ne_of_mem hzb (List.mem_of_ne_of_mem hza hzp)) hl
  · exact h.not_dots hd hq habsent

lemma child_old (hv : Valid g p.1 p.2) (hm : Move g Q p q) (hd : p.2.isDir d) {up : Nat}
    (hup : q.2.isDir up) (hx : x ∈ q.2.slots g up) (hchild : ChildEntry q.1.disk x d) :
    p.2.isDir up ∧ x ∈ p.2.slots g up ∧ ChildEntry p.1.disk x d := by
  by_cases hold : p.2.isDir up
  · rcases hm.live_cases hv hold hx hchild.live with ⟨hxp, heq⟩ | ⟨-, -, hnot⟩
    · obtain ⟨hl, hdir, hname, hfirst⟩ := hchild
      rw [heq] at hl hdir hname hfirst
      exact ⟨hold, hxp, hl, hdir, hname, hfirst⟩
    · have hne := hnot hchild.directory
      rw [hchild.first] at hne
      exact absurd hd hne
  · -- the entries of a new directory are `.` and `..`
    obtain ⟨P, z, e, hput, hN, heq⟩ := hm.newDir hup hold
    rw [heq, Layout.addDir_slots_self hN.ne_zero] at hx
    rcases hN.live_cases hx hchild.live with ⟨-, hdot⟩ | ⟨-, hdotdot⟩
    · refine absurd (.inl ?_) hchild.not_dots
      rw [hdot]
      rfl
    · refine absurd (.inr ?_) hchild.not_dots
      rw [hdotdot]
      rfl

lemma child_new (hv : Valid g p.1 p.2) {N P : Nat} {z : Slot} {e : Dirent} {w : Vol}
    (hput : PutAt g p.2 P z e p.1 w) (hN : NewDir g p.2 N P w) {up : Nat}
    (hup : (p.2.addDir N).isDir up) (hx : x ∈ (p.2.addDir N).slots g up)
    (hchild : ChildEntry w.disk x N) : up = P ∧ x = z := by
  rcases hup with hup | rfl
  · have hne : up ≠ N := by
      rintro rfl
      exact hv.not_isDir hN.cluster hN.fresh hup
    rw [Layout.addDir_slots_of_ne hne] at hx
    rcases hput.slot_cases hx with ⟨rfl, -⟩ | ⟨-, heq⟩
    · exact ⟨hv.slot_unique hx hput.mem, rfl⟩
    · -- an old entry for the new directory would make it an old one
      obtain ⟨hl, hdir, -, hfirst⟩ := hchild
      rw [heq] at hl hdir hfirst
      have hold := hv.closed up hup x hx hl hdir
      rw [hfirst] at hold
      exact absurd hold (hv.not_isDir hN.cluster hN.fresh)
  · rw [Layout.addDir_slots_self hN.ne_zero] at hx
    rcases hN.live_cases hx hchild.live with ⟨-, hdot⟩ | ⟨-, hdotdot⟩
    · refine absurd (.inl ?_) hchild.not_dots
      rw [hdot]
      rfl
    · refine absurd (.inr ?_) hchild.not_dots
      rw [hdotdot]
      rfl

/-- **A move that puts no `.` or `..` into the root keeps the tree.** -/
lemma move (hv : Valid g p.1 p.2) (hm : Move g NoDotsInRoot p q) (h : TreeOn g p.1.disk p.2) :
    TreeOn g q.1.disk q.2 := by
  refine ⟨fun x hx hl => ?_, fun d hd h0 => ?_⟩
  · rcases hm.live_cases hv hv.root hx hl with ⟨hxp, heq⟩ | ⟨hq, -, -⟩
    · rw [heq] at hl ⊢
      exact h.root x hxp hl
    · exact hq rfl
  · by_cases hold : p.2.isDir d
    · obtain ⟨up, hdotted, hparent⟩ := h.dots d hold h0
      refine ⟨up, dotted_old hv hm h hold hdotted, ?_⟩
      rintro up' ⟨hup, x, hx, hc⟩
      obtain ⟨hup, hx, hc⟩ := child_old hv hm hold hup hx hc
      exact hparent up' ⟨hup, x, hx, hc⟩
    · obtain ⟨P, z, e, hput, hN, heq⟩ := hm.newDir hd hold
      rw [heq]
      refine ⟨P, ?_, ?_⟩
      swap
      · rintro up' ⟨hup, x, hx, hc⟩
        exact (child_new hv hput hN hup hx hc).1
      rw [Layout.addDir_slots_self hN.ne_zero]
      exact hN.dotted hv hput.dir

end TreeOn

lemma Moves.treeOn {p q : Vol × Layout} (h : Moves g NoDotsInRoot p q) (hv : Valid g p.1 p.2)
    (hp : TreeOn g p.1.disk p.2) : TreeOn g q.1.disk q.2 :=
  (h.induct (I := fun r => TreeOn g r.1.disk r.2) hv hp fun _ _ hv hm hi => hi.move hv hm).2

/-! ## Entries of directories -/

/-- No directory has two entries, and none is for the root. -/
def OneEntry (g : Geo) (v : Vol) : Prop :=
  ∀ d p p' x x', IsDir g v p → SlotOf g v p x → ChildEntry v.disk x d →
    IsDir g v p' → SlotOf g v p' x' → ChildEntry v.disk x' d → d ≠ 0 ∧ x = x'

def OneEntryOn (g : Geo) (disk : Nat → Mem) (lay : Layout) : Prop :=
  ∀ d p p' x x', lay.isDir p → x ∈ lay.slots g p → ChildEntry disk x d →
    lay.isDir p' → x' ∈ lay.slots g p' → ChildEntry disk x' d → d ≠ 0 ∧ x = x'

lemma OneEntryOn.move {p q : Vol × Layout} (hv : Valid g p.1 p.2) (hm : Move g Q p q)
    (h : OneEntryOn g p.1.disk p.2) : OneEntryOn g q.1.disk q.2 := by
  intro d up up' x x' hup hx hc hup' hx' hc'
  by_cases hold : p.2.isDir d
  · obtain ⟨hup, hx, hc⟩ := TreeOn.child_old hv hm hold hup hx hc
    obtain ⟨hup', hx', hc'⟩ := TreeOn.child_old hv hm hold hup' hx' hc'
    exact h d up up' x x' hup hx hc hup' hx' hc'
  · have hd : q.2.isDir d := by
      rw [← hc.first]
      exact (hm.valid hv).closed up hup x hx hc.live hc.directory
    obtain ⟨P, z, e, hput, hN, heq⟩ := hm.newDir hd hold
    rw [heq] at hup hx hup' hx'
    rw [(TreeOn.child_new hv hput hN hup hx hc).2, (TreeOn.child_new hv hput hN hup' hx' hc').2]
    exact ⟨hN.ne_zero, rfl⟩

lemma OneEntry.moves {w : Vol} {lay' : Layout} (hs : Sound g v) (h : OneEntry g v)
    (hm : Moves g Q (v, hs.layout) (w, lay')) : OneEntry g w := by
  have hslot : ∀ {d x}, IsDir g v d → x ∈ hs.layout.slots g d → SlotOf g v d x :=
    fun hd hx => (hs.valid.walkable.slots_iff hd).mpr hx
  obtain ⟨hw, hone⟩ := hm.induct (I := fun r => OneEntryOn g r.1.disk r.2) hs.valid
    (fun d p p' x x' hp hx hc hp' hx' => h d p p' x x' hp (hslot hp hx) hc hp' (hslot hp' hx'))
    fun _ _ hv hm hi => hi.move hv hm
  intro d p p' x x' hp hx hc hp' hx'
  have hp := hw.walkable.isDir hp
  have hp' := hw.walkable.isDir hp'
  exact hone d p p' x x' hp ((hw.walkable.slots_iff hp).mp hx) hc hp'
    ((hw.walkable.slots_iff hp').mp hx')

/-! ## Calls -/

/-- The path of the call ends in the root with the name `.` or `..`. -/
def Call.DotsInRoot (g : Geo) (n : Nat) (v : Vol) (c : Call) : Prop :=
  ∃ name t, resolvePath g n c.dir c.path.bytes v.start = .ok (.found (0, name)) t ∧ Dots name

lemma moves_noDots (hv : Valid g v lay) (hn : Enough g n) {c : Call} (hd : lay.isDir c.dir)
    (hc : ¬ c.DotsInRoot g n v) {p q : Vol × Layout}
    (hm : Moves g (FromPath g v lay c.dir c.path.bytes) p q) : Moves g NoDotsInRoot p q := by
  refine hm.mono ?_
  rintro _ e hpath rfl hname
  have hends : Ends (resolvePath g n c.dir c.path.bytes) v.start _ :=
    resolvePath_spec hv.walkable hd hn
  obtain ⟨r, t, hrun, -, hspec⟩ := hends
  cases r with
  | found p =>
    obtain rfl := Resolves.unique (hspec.found p rfl).2 hpath.2
    exact hc ⟨_, t, hrun, hname⟩
  | missing => exact hspec.missing rfl _ hpath
  | ioError => exact hspec.ioError rfl rfl

lemma ProperTree.step (hs : Sound g v) (ht : ProperTree g v) (hn : Enough g n) {c : Call} {w : Vol}
    (hp : Possible g v c) (hc : c.Creates) (hdots : ¬ c.DotsInRoot g n v)
    (hstep : callStep g n v c = some w) : Sound g w ∧ ProperTree g w := by
  obtain ⟨r, t, ⟨lay', hm⟩, rfl⟩ := callStep_of_ends (hs.exec_moves hn hp hc) hstep
  have hm := moves_noDots hs.valid hn hp.dir hdots hm
  have hv := hm.valid hs.valid
  exact ⟨hv.sound, (hm.treeOn hs.valid (ht.treeOn hs)).properTree hv⟩

/-- **From a sound volume that is a proper tree, calls of `fat16_create` and `fat16_mkdir` lead
only to such volumes, as long as no path ends in the root with `.` or `..`.** -/
theorem properTree_kept (h : Sound g v) (ht : ProperTree g v) (hn : Enough g n) {w : Vol}
    (hw : ReachIf (callStep g n) (· = v)
      (fun w c => Possible g w c ∧ c.Creates ∧ ¬ c.DotsInRoot g n w) w) :
    Sound g w ∧ ProperTree g w ∧ ∀ c, Possible g w c → c.Creates → callStep g n w c ≠ none := by
  have hinv : Sound g w ∧ ProperTree g w := by
    refine hw.invariant (I := fun w => Sound g w ∧ ProperTree g w) ?_ ?_
    · rintro _ rfl
      exact ⟨h, ht⟩
    · rintro u c u' ⟨hs, htree⟩ ⟨hp, hc, hdots⟩ hstep
      exact htree.step hs hn hp hc hdots hstep
  exact ⟨hinv.1, hinv.2, fun c hp hc => callStep_ne_none (hinv.1.exec_moves hn hp hc)⟩

lemma blankVol_properTree : ProperTree g blankVol := by
  refine ⟨fun x _ hl => absurd hl blankVol_not_live, fun d hd h0 => absurd (blankVol_isDir hd) h0,
    fun d hd => ?_⟩
  rw [blankVol_isDir hd]
  exact .root

theorem properTree_kept_blank : ∃ w,
    callStep smallGeo 0x10002 blankVol (.mkdir 0 ⟨ascii "a", by decide⟩) = some w ∧
      ProperTree smallGeo w := by
  have hdots : ¬ (Call.mkdir 0 ⟨ascii "a", by decide⟩).DotsInRoot smallGeo 0x10002 blankVol := by
    rintro ⟨name, t, hrun, hname⟩
    obtain rfl : to83 (ascii "a") = name :=
      (Prod.mk.inj (Search.found.inj (EStateM.Result.ok.inj hrun).1)).2
    exact absurd hname (by decide)
  have hp : Possible smallGeo blankVol (.mkdir 0 ⟨ascii "a", by decide⟩) := ⟨.root, trivial⟩
  have hstart := properTree_kept (blankVol_sound smallGeo_fits) blankVol_properTree
    smallGeo_enough (.start rfl)
  obtain ⟨w, hw⟩ := Option.ne_none_iff_exists'.mp (hstart.2.2 _ hp trivial)
  exact ⟨w, hw, (properTree_kept (blankVol_sound smallGeo_fits) blankVol_properTree
    smallGeo_enough (.next (.start rfl) ⟨hp, trivial, hdots⟩ hw)).2.1⟩

/-- `touch .` in the root directory of a blank volume. -/
theorem create_dot_in_root : ∃ w, Sound smallGeo blankVol ∧ ProperTree smallGeo blankVol ∧
    Possible smallGeo blankVol (.create 0 ⟨ascii ".", by decide⟩) ∧
    callStep smallGeo 0x10002 blankVol (.create 0 ⟨ascii ".", by decide⟩) = some w ∧
    ¬ ProperTree smallGeo w := by
  have hrun : (callStep smallGeo 0x10002 blankVol (.create 0 ⟨ascii ".", by decide⟩)).map
      (fun w => entryAt w.disk (4, 0)) = some (newFile dot83) := by
    decide +kernel
  obtain ⟨w, hw, hentry⟩ := Option.map_eq_some_iff.mp hrun
  refine ⟨w, blankVol_sound smallGeo_fits, blankVol_properTree, ⟨.root, trivial⟩, hw, fun ht => ?_⟩
  have hslot : SlotOf smallGeo w 0 (4, 0) := by
    refine ⟨[], .inl (by decide), ?_⟩
    decide
  refine ht.root (4, 0) hslot ?_ ?_
  · rw [hentry]
    decide
  · rw [hentry]
    exact .inl rfl

end NullOS.Fat16
