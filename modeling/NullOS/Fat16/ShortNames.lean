import NullOS.Fat16.Pwd
import NullOS.Fat16.Visible

/-!
# Stored and displayed names

`dirent_display_name` stops at the first space of either part of a stored name.  A name is read back
as it is stored if the spaces are only at the ends of the two parts, with two exceptions: a name of
spaces only is displayed as nothing, and a single dot behind a blank base name is displayed as `..`.
-/

namespace NullOS.Fat16

open Lib

variable {g : Geo} {v w : Vol} {lay lay' : Layout} {disk : Nat → Mem} {n d P : Nat}
  {path : List UInt8} {name : List UInt8} {e : Dirent} {c x : UInt8} {k : Nat} {l l' : List UInt8}

/-! ## Spaces -/

/-- After the first space there are only spaces. -/
def SpacesLast (l : List UInt8) : Prop := ∀ c ∈ l.dropWhile (· ≠ 0x20), c = 0x20

instance (l : List UInt8) : Decidable (SpacesLast l) := inferInstanceAs (Decidable (∀ _ ∈ _, _))

/-- The bytes before the first space. -/
def upToSpace (l : List UInt8) : List UInt8 := l.takeWhile (· ≠ 0x20)

lemma upToSpace_padTo : upToSpace (padTo k l) = upToSpace l := by
  rw [padTo]
  generalize k - l.length = m
  induction l with
  | nil => cases m with
    | zero => rfl
    | succ m => rfl
  | cons c l ih =>
    rw [upToSpace] at ih ⊢
    rw [upToSpace, List.cons_append]
    by_cases hc : c = 0x20
    · rw [List.takeWhile_cons_of_neg (by simpa using hc), List.takeWhile_cons_of_neg
        (by simpa using hc)]
    · rw [List.takeWhile_cons_of_pos (by simpa using hc), List.takeWhile_cons_of_pos
        (by simpa using hc), ih, upToSpace]

lemma spacesLast_padTo : SpacesLast (padTo k l) ↔ SpacesLast l := by
  rw [padTo, SpacesLast, SpacesLast]
  generalize k - l.length = m
  induction l with
  | nil =>
    refine ⟨fun _ => by simp, fun _ c hc => ?_⟩
    exact List.eq_of_mem_replicate ((List.dropWhile_suffix _).subset hc)
  | cons c l ih =>
    rw [List.cons_append]
    by_cases hc : c = 0x20
    · rw [List.dropWhile_cons_of_neg (by simpa using hc), List.dropWhile_cons_of_neg
        (by simpa using hc)]
      refine ⟨fun h b hb => h b (List.mem_cons.mpr ?_), fun h b hb => ?_⟩
      · exact (List.mem_cons.mp hb).imp_right fun hb => List.mem_append_left _ hb
      · rcases List.mem_cons.mp hb with rfl | hb
        · exact hc
        · rcases List.mem_append.mp hb with hb | hb
          · exact h b (List.mem_cons_of_mem _ hb)
          · exact List.eq_of_mem_replicate hb
    · rwa [List.dropWhile_cons_of_pos (by simpa using hc), List.dropWhile_cons_of_pos
        (by simpa using hc)]

lemma length_upToSpace_le (l : List UInt8) : (upToSpace l).length ≤ l.length :=
  (List.takeWhile_sublist _).length_le

lemma upToSpace_subset (l : List UInt8) : upToSpace l ⊆ l := (List.takeWhile_sublist _).subset

lemma padTo_upToSpace_iff (h : l.length ≤ k) : padTo k (upToSpace l) = padTo k l ↔
    SpacesLast l := by
  have hsplit : l = upToSpace l ++ l.dropWhile (· ≠ 0x20) := List.takeWhile_append_dropWhile.symm
  have hlen : l.length = (upToSpace l).length + (l.dropWhile (· ≠ 0x20)).length := by
    rw [← List.length_append, ← hsplit]
  have hpad : padTo k l = upToSpace l ++
      (l.dropWhile (· ≠ 0x20) ++ List.replicate (k - l.length) 0x20) := by
    rw [← List.append_assoc, ← hsplit, padTo]
  rw [hpad, padTo, List.append_cancel_left_eq, eq_comm, List.eq_replicate_iff]
  constructor
  · rintro ⟨-, hall⟩ c hc
    exact hall c (List.mem_append_left _ hc)
  · intro hall
    refine ⟨?_, fun c hc => ?_⟩
    · rw [List.length_append, List.length_replicate]
      omega
    · rcases List.mem_append.mp hc with hc | hc
      · exact hall c hc
      · exact List.eq_of_mem_replicate hc

/-! ## The two parts of a name -/

/-- The two parts of a stored name other than `.` and `..`. -/
structure Parts where
  base : List UInt8
  ext : List UInt8
  base_le : base.length ≤ 8
  ext_le : ext.length ≤ 3
  /-- The base name ends before the first dot. -/
  noDot : (0x2E : UInt8) ∉ base
  upper : ∀ c ∈ base ++ ext, fat16Toupper c = c
  plain : ∀ c ∈ base ++ ext, c ≠ 0 ∧ c ≠ 0x2F

namespace Parts

variable (p : Parts)

def stored : List UInt8 := padTo 8 p.base ++ padTo 3 p.ext

def shown : List UInt8 :=
  upToSpace p.base ++ if ∃ c ∈ p.ext, c ≠ 0x20 then 0x2E :: upToSpace p.ext else []

def kept : List UInt8 := padTo 8 (upToSpace p.base) ++ padTo 3 (upToSpace p.ext)

lemma take_stored : p.stored.take 8 = padTo 8 p.base := by
  rw [stored, List.take_left' (length_padTo _ _ p.base_le)]

lemma drop_stored : p.stored.drop 8 = padTo 3 p.ext := by
  rw [stored, List.drop_left' (length_padTo _ _ p.base_le)]

lemma kept_eq_iff : p.kept = p.stored ↔ SpacesLast p.base ∧ SpacesLast p.ext := by
  have hlen : (padTo 8 (upToSpace p.base)).length = (padTo 8 p.base).length := by
    rw [length_padTo _ _ p.base_le,
      length_padTo _ _ ((length_upToSpace_le _).trans p.base_le)]
  rw [← padTo_upToSpace_iff p.base_le, ← padTo_upToSpace_iff p.ext_le]
  constructor
  · intro h
    exact List.append_inj h hlen
  · rintro ⟨hbase, hext⟩
    rw [kept, stored, hbase, hext]

lemma mem_shown {c : UInt8} (hc : c ∈ p.shown) : c ∈ p.base ++ p.ext ∨ c = 0x2E := by
  rw [shown] at hc
  rcases List.mem_append.mp hc with hc | hc
  · exact .inl (List.mem_append_left _ (upToSpace_subset _ hc))
  · split at hc
    · rcases List.mem_cons.mp hc with rfl | hc
      · exact .inr rfl
      · exact .inl (List.mem_append_right _ (upToSpace_subset _ hc))
    · exact absurd hc List.not_mem_nil

lemma noSlash_shown : (0x2F : UInt8) ∉ p.shown := by
  intro hc
  rcases p.mem_shown hc with hc | hc
  · exact (p.plain _ hc).2 rfl
  · exact absurd hc (by decide)

lemma noNul_shown : (0 : UInt8) ∉ p.shown := by
  intro hc
  rcases p.mem_shown hc with hc | hc
  · exact (p.plain _ hc).1 rfl
  · exact absurd hc (by decide)

lemma direntDisplayName_eq (h : e.name = p.stored) : direntDisplayName e = p.shown := by
  have hext : (∃ c ∈ padTo 3 p.ext, c ≠ 0x20) ↔ ∃ c ∈ p.ext, c ≠ 0x20 := by
    constructor
    · rintro ⟨c, hc, hne⟩
      rcases List.mem_append.mp hc with hc | hc
      · exact ⟨c, hc, hne⟩
      · exact absurd (List.eq_of_mem_replicate hc) hne
    · rintro ⟨c, hc, hne⟩
      exact ⟨c, List.mem_append_left _ hc, hne⟩
  have hshown : (if ∃ c ∈ padTo 3 p.ext, c ≠ 0x20 then
      upToSpace (padTo 8 p.base) ++ 0x2E :: upToSpace (padTo 3 p.ext)
      else upToSpace (padTo 8 p.base)) = p.shown := by
    rw [upToSpace_padTo, upToSpace_padTo, shown]
    by_cases hsome : ∃ c ∈ p.ext, c ≠ 0x20
    · rw [if_pos (hext.mpr hsome), if_pos hsome]
    · rw [if_neg fun h => hsome (hext.mp h), if_neg hsome, List.append_nil]
  rw [direntDisplayName, h, take_stored, drop_stored]
  refine (congrArg (List.takeWhile _) hshown).trans (List.takeWhile_eq_self_iff.mpr fun c hc => ?_)
  rw [decide_eq_true_eq]
  rintro rfl
  exact p.noNul_shown hc

lemma upToSpace_eq_nil (h : ¬ ∃ c ∈ l, c ≠ 0x20) : upToSpace l = [] := by
  cases l with
  | nil => rfl
  | cons c l =>
    have hc : c = 0x20 := by
      by_contra hc
      exact h ⟨c, List.mem_cons_self, hc⟩
    rw [upToSpace, List.takeWhile_cons_of_neg (by simpa using hc)]

lemma map_upToSpace (h : ∀ c ∈ l, fat16Toupper c = c) :
    (upToSpace l).map fat16Toupper = upToSpace l := by
  have hmap : (upToSpace l).map fat16Toupper = (upToSpace l).map id :=
    List.map_congr_left fun c hc => h c (upToSpace_subset _ hc)
  rw [hmap, List.map_id]

lemma to83_shown (hdot : p.shown ≠ [0x2E]) (hdots : p.shown ≠ [0x2E, 0x2E]) :
    to83 p.shown = p.kept := by
  have hbase : ∀ c ∈ upToSpace p.base, decide (c ≠ 0x2E) = true := by
    intro c hc
    rw [decide_eq_true_eq]
    rintro rfl
    exact p.noDot (upToSpace_subset _ hc)
  have hb8 : (upToSpace p.base).length ≤ 8 := (length_upToSpace_le _).trans p.base_le
  have he3 : (upToSpace p.ext).length ≤ 3 := (length_upToSpace_le _).trans p.ext_le
  have hub := map_upToSpace fun c hc => p.upper c (List.mem_append_left p.ext hc)
  have hue := map_upToSpace fun c hc => p.upper c (List.mem_append_right p.base hc)
  rw [to83, if_neg hdot, if_neg hdots, shown, kept]
  split
  case isTrue =>
    rw [List.takeWhile_append_of_pos hbase, List.takeWhile_cons_of_neg (by decide), List.append_nil,
      List.dropWhile_append_of_pos hbase, List.dropWhile_cons_of_neg (by decide), List.drop_one,
      List.tail_cons, List.take_of_length_le hb8, List.take_of_length_le he3, hub, hue]
  case isFalse hnone =>
    rw [List.append_nil, List.takeWhile_eq_self_iff.mpr hbase, List.dropWhile_eq_nil_iff.mpr hbase,
      List.take_of_length_le hb8, hub, upToSpace_eq_nil hnone]
    rfl

lemma stored_ne_dot (more : List UInt8) : p.stored ≠ 0x2E :: more := by
  intro h
  rw [stored] at h
  cases hb : p.base with
  | nil =>
    rw [hb] at h
    exact absurd (List.head_eq_of_cons_eq h) (by decide)
  | cons c base =>
    rw [hb, padTo, List.cons_append, List.cons_append] at h
    obtain rfl := List.head_eq_of_cons_eq h
    exact p.noDot (by rw [hb]; exact List.mem_cons_self)

lemma shown_eq_dot_cons {more : List UInt8} (h : p.shown = 0x2E :: more) :
    upToSpace p.base = [] ∧ (∃ c ∈ p.ext, c ≠ 0x20) ∧ upToSpace p.ext = more := by
  rw [shown] at h
  cases hb : upToSpace p.base with
  | nil =>
    rw [hb, List.nil_append] at h
    split at h
    case isTrue hsome => exact ⟨rfl, hsome, List.tail_eq_of_cons_eq h⟩
    case isFalse => exact absurd h nofun
  | cons c base =>
    rw [hb, List.cons_append] at h
    obtain rfl := List.head_eq_of_cons_eq h
    exact absurd (upToSpace_subset p.base (by rw [hb]; exact List.mem_cons_self)) p.noDot

lemma shown_eq_nil_iff : p.shown = [] ↔ upToSpace p.base = [] ∧ ¬ ∃ c ∈ p.ext, c ≠ 0x20 := by
  rw [shown, List.append_eq_nil_iff]
  refine and_congr_right fun _ => ?_
  split
  case isTrue h => exact ⟨fun hnil => absurd hnil (List.cons_ne_nil _ _), fun hn => absurd h hn⟩
  case isFalse h => exact ⟨fun _ => h, fun _ => rfl⟩

lemma blank_base {x : List UInt8} (h : p.stored = padTo 8 [] ++ padTo 3 x) :
    upToSpace p.base = [] ∧ padTo 3 p.ext = padTo 3 x := by
  obtain ⟨hbase, hext⟩ := List.append_inj h (length_padTo _ _ p.base_le)
  refine ⟨?_, hext⟩
  rw [← upToSpace_padTo (k := 8), hbase]
  rfl

end Parts

lemma exists_parts (hslash : (0x2F : UInt8) ∉ name) (hnul : (0 : UInt8) ∉ name)
    (hdot : name ≠ [0x2E]) (hdots : name ≠ [0x2E, 0x2E]) : ∃ p : Parts, to83 name = p.stored := by
  have hbase : ∀ c ∈ (name.takeWhile (· ≠ 0x2E)).take 8, c ∈ name ∧ c ≠ 0x2E := by
    intro c hc
    have hc' := List.mem_of_mem_take hc
    have hp : decide (c ≠ 0x2E) = true := (List.mem_takeWhile_imp hc' :)
    exact ⟨(List.takeWhile_sublist _).subset hc', of_decide_eq_true hp⟩
  have hmem : ∀ c ∈ ((name.takeWhile (· ≠ 0x2E)).take 8).map fat16Toupper ++
      (((name.dropWhile (· ≠ 0x2E)).drop 1).take 3).map fat16Toupper,
      ∃ b ∈ name, fat16Toupper b = c := by
    intro c hc
    rcases List.mem_append.mp hc with hc | hc
    · obtain ⟨b, hb, rfl⟩ := List.mem_map.mp hc
      exact ⟨b, (hbase b hb).1, rfl⟩
    · obtain ⟨b, hb, rfl⟩ := List.mem_map.mp hc
      have hb' := List.mem_of_mem_drop (List.mem_of_mem_take hb)
      exact ⟨b, (List.dropWhile_suffix _).subset hb', rfl⟩
  let p : Parts :=
    { base := ((name.takeWhile (· ≠ 0x2E)).take 8).map fat16Toupper
      ext := (((name.dropWhile (· ≠ 0x2E)).drop 1).take 3).map fat16Toupper
      base_le := by rw [List.length_map]; exact List.length_take_le _ _
      ext_le := by rw [List.length_map]; exact List.length_take_le _ _
      noDot := by
        intro h
        obtain ⟨b, hb, heq⟩ := List.mem_map.mp h
        exact (hbase b hb).2 (fat16Toupper_eq (by decide) heq)
      upper := by
        intro c hc
        obtain ⟨b, -, rfl⟩ := hmem c hc
        exact fat16Toupper_idem b
      plain := by
        intro c hc
        obtain ⟨b, hb, rfl⟩ := hmem c hc
        refine ⟨fun h => hnul ?_, fun h => hslash ?_⟩
        · rwa [← fat16Toupper_eq (by decide) h]
        · rwa [← fat16Toupper_eq (by decide) h] }
  exact ⟨p, by rw [to83, if_neg hdot, if_neg hdots]; rfl⟩

/-- A stored name that can be typed: the spaces are at the ends of its two parts, it is not blank,
and it is not a single dot behind a blank base name. -/
structure Typable (stored : List UInt8) : Prop where
  base : SpacesLast (stored.take 8)
  ext : SpacesLast (stored.drop 8)
  ne_blank : stored ≠ padTo 8 [] ++ padTo 3 []
  ne_dots : stored ≠ padTo 8 [] ++ padTo 3 [0x2E]

lemma Parts.typable_iff (p : Parts) : (p.shown ≠ [] ∧ to83 p.shown = p.stored) ↔
    Typable p.stored := by
  constructor
  · rintro ⟨hne, hback⟩
    have hdot : p.shown ≠ [0x2E] := by
      intro h
      rw [h] at hback
      exact p.stored_ne_dot _ hback.symm
    have hdots : p.shown ≠ [0x2E, 0x2E] := by
      intro h
      rw [h] at hback
      exact p.stored_ne_dot _ hback.symm
    rw [p.to83_shown hdot hdots, p.kept_eq_iff] at hback
    refine ⟨?_, ?_, fun h => ?_, fun h => ?_⟩
    · rw [p.take_stored, spacesLast_padTo]
      exact hback.1
    · rw [p.drop_stored, spacesLast_padTo]
      exact hback.2
    · obtain ⟨hbase, hx⟩ := p.blank_base h
      refine hne (p.shown_eq_nil_iff.mpr ⟨hbase, ?_⟩)
      rintro ⟨c, hc, hsome⟩
      have hpad : c ∈ padTo 3 p.ext := List.mem_append_left _ hc
      rw [hx] at hpad
      exact hsome (List.eq_of_mem_replicate hpad)
    · obtain ⟨hbase, hx⟩ := p.blank_base h
      have hext : upToSpace p.ext = [0x2E] := by
        rw [← upToSpace_padTo (k := 3), hx]
        rfl
      refine hdots ?_
      rw [Parts.shown, hbase, hext, if_pos]
      · rfl
      · by_contra hnone
        rw [Parts.upToSpace_eq_nil hnone] at hext
        exact absurd hext nofun
  · rintro ⟨hbase, hext, hblank, hdots⟩
    rw [p.take_stored, spacesLast_padTo] at hbase
    rw [p.drop_stored, spacesLast_padTo] at hext
    have hkept := p.kept_eq_iff.mpr ⟨hbase, hext⟩
    have hcut : ∀ x, upToSpace p.base = [] → upToSpace p.ext = x →
        p.stored = padTo 8 [] ++ padTo 3 x := by
      intro x hb hx
      rw [← hkept, Parts.kept, hb, hx]
    refine ⟨fun h => ?_, ?_⟩
    · obtain ⟨hb, hnone⟩ := p.shown_eq_nil_iff.mp h
      exact hblank (hcut _ hb (Parts.upToSpace_eq_nil hnone))
    · rw [p.to83_shown, hkept]
      · intro h
        obtain ⟨hb, -, hx⟩ := p.shown_eq_dot_cons h
        exact hblank (hcut _ hb hx)
      · intro h
        obtain ⟨hb, -, hx⟩ := p.shown_eq_dot_cons h
        exact hdots (hcut _ hb hx)

/-- What is displayed is one component of a path, and is stored as the name is. -/
def TypesBack (name : List UInt8) (e : Dirent) : Prop :=
  direntDisplayName e ≠ [] ∧
    pathNextComponent (direntDisplayName e) = (direntDisplayName e, []) ∧
    to83 (direntDisplayName e) = to83 name

instance (name : List UInt8) (e : Dirent) : Decidable (TypesBack name e) :=
  inferInstanceAs (Decidable (_ ∧ _ ∧ _))

lemma typesBack_iff (hslash : (0x2F : UInt8) ∉ name) (hnul : (0 : UInt8) ∉ name)
    (he : e.name = to83 name) : TypesBack name e ↔ Typable (to83 name) := by
  have hlen : (direntDisplayName e).length ≤ 63 := by
    have h12 := length_direntDisplayName (e := e) (by rw [he, length_to83])
    omega
  by_cases hspecial : name = [0x2E] ∨ name = [0x2E, 0x2E]
  · obtain ⟨stored, attr, first, size⟩ := e
    obtain rfl : stored = to83 name := he
    rcases hspecial with rfl | rfl
    · exact iff_of_true (by decide : TypesBack [0x2E] ⟨to83 [0x2E], 0, 0, 0⟩)
        ⟨by decide +kernel, by decide +kernel, by decide, by decide⟩
    · exact iff_of_true (by decide : TypesBack [0x2E, 0x2E] ⟨to83 [0x2E, 0x2E], 0, 0, 0⟩)
        ⟨by decide +kernel, by decide +kernel, by decide, by decide⟩
  · obtain ⟨hdot, hdots⟩ := not_or.mp hspecial
    obtain ⟨p, hp⟩ := exists_parts hslash hnul hdot hdots
    have hshown := p.direntDisplayName_eq (he.trans hp)
    rw [TypesBack, hp, ← p.typable_iff, hshown]
    rw [hshown] at hlen
    refine and_congr_right fun _ => and_iff_right ?_
    exact pathNextComponent_last p.noSlash_shown hlen

/-! ## New entries -/

lemma Resolves.component {r : Nat × List UInt8} (h : Resolves g disk lay d path r) :
    ∃ comp, (0x2F : UInt8) ∉ comp ∧ comp ⊆ path ∧ r.2 = to83 comp := by
  induction h with
  | @last d path _ =>
    refine ⟨_, fun hmem => ?_, ?_, rfl⟩
    · have hslash := List.mem_takeWhile_imp (List.mem_of_mem_take hmem)
      exact absurd hslash (by decide)
    · exact fun c hc => (List.takeWhile_sublist _).subset (List.mem_of_mem_take hc)
  | step _ _ _ _ ih =>
    obtain ⟨comp, hslash, hsub, heq⟩ := ih
    refine ⟨comp, hslash, fun c hc => ?_, heq⟩
    exact List.mem_of_mem_drop ((List.dropWhile_suffix _).subset (hsub hc))

lemma resolvePath_single (hslash : (0x2F : UInt8) ∉ name) (hne : name ≠ [])
    (hlen : name.length ≤ 63) (s : St) :
    resolvePath g n P name s = .ok (.found (P, to83 name)) s := by
  have hhead : name.head? ≠ some 0x2F := fun h => hslash (List.mem_of_head? h)
  obtain ⟨m, hm⟩ := Nat.exists_eq_succ_of_ne_zero (List.length_pos_iff.mpr hne).ne'
  rw [resolvePath, if_neg hhead, dropWhile_slash hhead, if_neg hne, hm, resolveLoop,
    pathNextComponent_last hslash hlen, if_pos rfl]
  rfl

/-- The entry in slot `x` of directory `P` is listed, and from `P` the name under which it is listed
leads to it. -/
def FoundAsListed (g : Geo) (n : Nat) (w : Vol) (P : Nat) (x : Slot) : Prop :=
  ∃ cs idx t u u' hit, DirChain g w.fat P cs ∧
    (visible w.disk (slotsOf (dirSectors g P cs)))[idx]? = some x ∧
    fat16Readdir g n P idx w.start = .ok (some (entryAt w.disk x).info) t ∧
    resolvePath g n P (entryAt w.disk x).info.name w.start =
      .ok (.found (P, (entryAt w.disk x).name)) u ∧
    dirLookup g n P (entryAt w.disk x).name w.start = .ok (.found hit) u' ∧
    (hit.lba, hit.index) = x

/-- A stored name of an entry that is listed under a name which can be typed. -/
structure Usable (stored : List UInt8) : Prop where
  typable : Typable stored
  not_deleted : stored.headD 0 ≠ 0xE5
  not_dot : stored.headD 0 ≠ 0x2E

lemma Usable.not_dots (h : Usable name) : ¬ Dots name := by
  rintro (rfl | rfl)
  · exact h.not_dot rfl
  · exact h.not_dot rfl

lemma foundAsListed_iff {x : Slot} {comp : List UInt8} (hw : Valid g w lay) (hP : lay.isDir P)
    (hn : Enough g n) (hslash : (0x2F : UInt8) ∉ comp) (hnul : (0 : UInt8) ∉ comp)
    (he : e.name = to83 comp) (hentry : entryAt w.disk x = e)
    (hfound : e.name.headD 0 ≠ 0xE5 → lookupSlot w.disk e.name (lay.slots g P) = some x) :
    FoundAsListed g n w P x ↔ Usable e.name := by
  subst hentry
  have hback := typesBack_iff hslash hnul he
  have hno := noSlash_direntDisplayName hslash he
  have h63 : (direntDisplayName (entryAt w.disk x)).length ≤ 63 := by
    have h12 := length_direntDisplayName (e := entryAt w.disk x) (by rw [he, length_to83])
    omega
  rw [he]
  constructor
  · rintro ⟨cs, idx, t, u, u', hit, -, hidx, -, hres, -⟩
    obtain ⟨-, hshown⟩ := List.mem_filter.mp (List.mem_of_getElem? hidx)
    obtain ⟨hdel, -, hdot⟩ := of_decide_eq_true hshown
    rw [Dirent.byte0, he] at hdot
    have hdel : (entryAt w.disk x).name.headD 0 ≠ 0xE5 := hdel
    rw [he] at hdel
    refine ⟨hback.mp ?_, hdel, hdot⟩
    have hne : direntDisplayName (entryAt w.disk x) ≠ [] := by
      intro hnil
      rw [Dirent.info, hnil] at hres
      exact absurd (EStateM.Result.ok.inj hres).1 (by simp)
    rw [Dirent.info, resolvePath_single hno hne h63] at hres
    have heq := (Prod.mk.inj (Search.found.inj (EStateM.Result.ok.inj hres).1)).2
    exact ⟨hne, pathNextComponent_last hno h63, heq.trans he⟩
  · rintro ⟨htyp, hdel, hdot⟩
    rw [← he] at hdel hdot
    obtain ⟨hne, -, heq⟩ := hback.mpr htyp
    have hx := hfound hdel
    have hchain := hw.walkable.dirChain hP
    have hmem := hx
    rw [lookupSlot_eq_find hdot] at hmem
    obtain ⟨idx, hidx⟩ := List.mem_iff_getElem?.mp (List.mem_of_find?_eq_some hmem)
    have hread : Ends (fat16Readdir g n P idx) w.start _ :=
      fat16Readdir_spec (s := w.start) hchain hn hw.ready rfl
    obtain ⟨r, t, hrun, -, rfl⟩ := hread
    have hlook : Ends (dirLookup g n P (entryAt w.disk x).name) w.start _ :=
      dirLookup_spec (s := w.start) hw.walkable hP hn
    obtain ⟨r, u', hrun', -, hspec⟩ := hlook
    cases r with
    | ioError => exact absurd rfl (hspec.ioError rfl)
    | missing => exact absurd ((hspec.missing rfl).symm.trans hx) (by simp)
    | found hit =>
      obtain ⟨hslot, -⟩ := hspec.found hit rfl
      have hlist : (visible w.start.vol.disk (slotsOf (dirSectors g P _)))[idx]? = some x := hidx
      rw [hlist] at hrun
      refine ⟨_, idx, t, w.start, u', hit, hchain, hidx, hrun, ?_, hrun',
        Option.some.inj (hslot.symm.trans hx)⟩
      rw [Dirent.info, resolvePath_single hno hne h63, heq, he]

lemma lookupSlot_of_missing {u : St} (hv : Valid g v lay) (hP : lay.isDir P) (hn : Enough g n)
    (h : dirLookup g n P name v.start = .ok .missing u) :
    lookupSlot v.disk name (lay.slots g P) = none := by
  have hends : Ends (dirLookup g n P name) v.start _ :=
    dirLookup_spec (s := v.start) hv.walkable hP hn
  obtain ⟨r, u', hrun, -, hspec⟩ := hends
  exact hspec.missing (EStateM.Result.ok.inj (hrun.symm.trans h)).1

lemma Moves.pathTo {Q : Nat → Dirent → Prop} {R : Dirent → Prop}
    (hm : Moves g Q (v, lay) (w, lay')) (hv : Valid g v lay) (ht : ProperTree g w)
    (hone : OneEntry g w) (hpath : PathTo g v d k path) (hway : OnTheWay g v d R) :
    PathTo g w d k path ∧ OnTheWay g w d R := by
  induction hpath with
  | root => exact ⟨.root, onTheWay_root hone⟩
  | @child p d k path x hp _ hx hc ih =>
    have hp' := hv.walkable.isDir hp
    have hR := hway d .self p x hp hx hc
    obtain ⟨hpath, hway⟩ := ih (hway.up ⟨hp, x, hx, hc⟩)
    obtain ⟨hmem, (hentry : _ = entryAt v.disk x), -⟩ :=
      hm.keeps (C := []) hv hp' ((hv.walkable.slots_iff hp').mp hx) hc.live
    have hw := hm.valid hv
    have hx := (hw.walkable.slots_iff (hm.isDir hv hp')).mpr hmem
    obtain ⟨hl, hdir, hdots, hfirst⟩ := hc
    dsimp only at hentry hx
    rw [← hentry] at hl hdir hdots hfirst hR ⊢
    have hc : ChildEntry w.disk x d := ⟨hl, hdir, hdots, hfirst⟩
    have hp := hm.isDir_kept hv hp
    exact ⟨.child hp hpath hx hc, hway.extend hw.sound ht hone hp hx hc hR⟩

/-- If the names on the way to `P` can be typed, then `fat16_get_path` delivers for the new
directory `N` in it a path that leads to `N`. -/
def PathUsable (g : Geo) (n : Nat) (v w : Vol) (P N : Nat) (e : Dirent) : Prop :=
  OnTheWay g v P Dirent.Survives → OnTheWay g v P Dirent.Component →
    ∀ k path outSize, PathTo g v P k path →
      (∃ u, fat16GetPath g n N outSize w.start =
        .ok (pathResult outSize (k + 1) (path ++ 0x2F :: direntDisplayName e)) u) ∧
      PathLeadsBack g n w N outSize

lemma pathUsable {Q : Nat → Dirent → Prop} {x : Slot} {comp : List UInt8} {N : Nat} (h : Tidy g v)
    (hw : Tidy g w) (ht : ProperTree g w) (hone : OneEntry g v) (hn : Enough g n)
    (hm : Moves g Q (v, h.sound.layout) (w, lay')) (hP : IsDir g v P)
    (hslash : (0x2F : UInt8) ∉ comp) (hnul : (0 : UInt8) ∉ comp) (he : e.name = to83 comp)
    (hu : Usable e.name) (hdir : e.Directory) (hfirst : e.first = N) (hentry : entryAt w.disk x = e)
    (hlook : lookupSlot w.disk e.name (lay'.slots g P) = some x) : PathUsable g n v w P N e := by
  subst hentry
  have hv := h.sound.valid
  have hone := hone.moves h.sound hm
  intro hsurv hcomp k path outSize hpath
  obtain ⟨hne, -, hback⟩ := (typesBack_iff hslash hnul he).mpr (he ▸ hu.typable)
  obtain ⟨hmem, hl, -⟩ := lookupSlot_some hlook
  have hx := ((hm.valid hv).walkable.slots_iff (hm.isDir hv hP)).mpr hmem
  have hc : ChildEntry w.disk x N := ⟨hl, hdir, hu.not_dots, hfirst⟩
  obtain ⟨hpath', hsurv'⟩ := hm.pathTo hv ht hone hpath hsurv
  obtain ⟨-, hcomp'⟩ := hm.pathTo hv ht hone hpath hcomp
  have hP' := hm.isDir_kept hv hP
  have hN : PathTo g w N (k + 1) _ := .child hP' hpath' hx hc
  have hsurvN := hsurv'.extend hw.sound ht hone hP' hx hc (hback.trans he.symm)
  have hcompN := hcomp'.extend hw.sound ht hone hP' hx hc
    ⟨hne, noSlash_direntDisplayName hslash he⟩
  have hdirN := hc.isDir hP' hx
  exact ⟨fat16GetPath_run hw ht hone hn hdirN hsurvN hN outSize,
    (pathLeadsBack_iff hw ht hone hn hdirN hsurvN hN outSize).mpr (.inr hcompN)⟩

/-- **Which new entries are usable.**  The entry that `fat16_create` or `fat16_mkdir` has made is
listed, and found under the name with which it is listed, exactly if its stored name is usable. -/
theorem created_usable_iff (h : Tidy g v) (ht : ProperTree g v) (hone : OneEntry g v)
    (hn : Enough g n) (hd : IsDir g v d) (path : CStr) :
    (∃ r t, fat16Create g n d path.bytes v.start = .ok r t ∧ ∀ P, r = some P → ∃ name u,
      resolvePath g n d path.bytes v.start = .ok (.found (P, name)) u ∧
      ((∃ u, dirLookup g n P name v.start = .ok .missing u) → ∃ x, SlotOf g t.vol P x ∧
        entryAt t.vol.disk x = newFile name ∧ (FoundAsListed g n t.vol P x ↔ Usable name))) ∧
    ∃ r t, fat16Mkdir g n d path.bytes v.start = .ok r t ∧ (r = true → ∃ P name u,
      resolvePath g n d path.bytes v.start = .ok (.found (P, name)) u ∧
      ((∃ u, dirLookup g n P name v.start = .ok .missing u) → ∃ x N, SlotOf g t.vol P x ∧
        entryAt t.vol.disk x = newDirectory name N ∧
        (FoundAsListed g n t.vol P x ∧ PathUsable g n v t.vol P N (newDirectory name N) ↔
          Usable name))) := by
  have hv := h.sound.valid
  have hcomp : ∀ {P name}, ResolvesPath g v.disk h.sound.layout d path.bytes (P, name) →
      ∃ comp, (0x2F : UInt8) ∉ comp ∧ (0 : UInt8) ∉ comp ∧ name = to83 comp := by
    intro P name hres
    obtain ⟨comp, hslash, hsub, hname⟩ := hres.2.component
    exact ⟨comp, hslash, fun h0 => path.noNul ((List.dropWhile_suffix _).subset (hsub h0)), hname⟩
  constructor
  · have hcreate : Ends (fat16Create g n d path.bytes) v.start _ :=
      fat16Create_made (s := v.start) hv hd hn path.noNul
    obtain ⟨r, t, hrun, hmade⟩ := hcreate
    refine ⟨r, t, hrun, fun P hr => ?_⟩
    obtain ⟨name, hres, hcase⟩ := hmade P hr
    obtain ⟨u, hrun'⟩ := resolvePath_run hv hd hn hres
    obtain ⟨hP, -, hhead⟩ := ResolvesPath.spec hv.walkable hd hres
    obtain ⟨comp, hslash, hnul, hname⟩ := hcomp hres
    refine ⟨name, u, hrun', ?_⟩
    rintro ⟨u, hmiss⟩
    have hnone := lookupSlot_of_missing hv hP hn hmiss
    rcases hcase with ⟨-, x, hx, -⟩ | ⟨-, lay', hm, x, hx, hentry, hfound⟩
    · exact absurd (hnone.symm.trans hx) (by simp)
    have hw := hm.valid hv
    have hP' := hm.isDir hv hP
    have hattr : ¬ (newFile name).VolumeId := (by decide : ¬ (0x20 : UInt8) &&& 0x08 ≠ 0)
    exact ⟨x, (hw.walkable.slots_iff hP').mpr hx, hentry,
      foundAsListed_iff (e := newFile name) hw hP' hn hslash hnul hname hentry fun hdel =>
        hfound ((live_iff hattr (hhead path.noNul)).mpr hdel)⟩
  · have hmkdir : Ends (fat16Mkdir g n d path.bytes) v.start _ :=
      fat16Mkdir_made (s := v.start) hv hd hn path.noNul
    obtain ⟨r, t, hrun, hmade⟩ := hmkdir
    refine ⟨r, t, hrun, fun hr => ?_⟩
    obtain ⟨P, name, hres, hcase⟩ := hmade hr
    obtain ⟨u, hrun'⟩ := resolvePath_run hv hd hn hres
    obtain ⟨hP, -, hhead⟩ := ResolvesPath.spec hv.walkable hd hres
    obtain ⟨comp, hslash, hnul, hname⟩ := hcomp hres
    refine ⟨P, name, u, hrun', ?_⟩
    rintro ⟨u', hmiss⟩
    have hnone := lookupSlot_of_missing hv hP hn hmiss
    rcases hcase with ⟨-, x, hx, -⟩ | ⟨-, N, -, ⟨lay', hm, x, hx, hentry, hfound⟩, hN, -⟩
    · exact absurd (hnone.symm.trans hx) (by simp)
    have hw := hm.valid hv
    have hP' := hm.isDir hv hP
    have hattr : ¬ (newDirectory name N).VolumeId := (by decide : ¬ (0x10 : UInt8) &&& 0x08 ≠ 0)
    have hlook : name.headD 0 ≠ 0xE5 → _ := fun hdel =>
      hfound ((live_iff hattr (hhead path.noNul)).mpr hdel)
    have hlisted := foundAsListed_iff (e := newDirectory name N) hw hP' hn hslash hnul hname hentry
      hlook
    refine ⟨x, N, (hw.walkable.slots_iff hP').mpr hx, hentry, fun hboth => hlisted.mp hboth.1,
      fun hu => ⟨hlisted.mpr hu, ?_⟩⟩
    have hstep : callStep g n v (.mkdir d path) = some t.vol := by
      rw [callStep, show (Call.mkdir d path).exec g n v.start = .ok r t from hrun]
    have hp : Possible g v (.mkdir d path) := ⟨hd, trivial⟩
    obtain ⟨-, t', htidy, ht'⟩ := callStep_of_ends (h.exec hn hp trivial) hstep
    rw [ht'] at htidy
    have hdots : ¬ (Call.mkdir d path).DotsInRoot g n v := by
      rintro ⟨name', u', hroot, hdots⟩
      have heq := Search.found.inj (EStateM.Result.ok.inj (hrun'.symm.trans hroot)).1
      obtain rfl := (Prod.mk.inj heq).2
      exact hu.not_dots hdots
    have ht := (ht.step h.sound hn hp trivial hdots hstep).2
    exact pathUsable h htidy ht hone hn hm hP hslash hnul hname hu newDirectory_directory
      (Nat.mod_eq_of_lt hN) hentry (hlook hu.not_deleted)

lemma blankVol_oneEntry : OneEntry g blankVol :=
  fun _ _ _ _ _ _ _ hc _ _ _ => absurd hc.live blankVol_not_live

/-- A name with a base of eight letters: the file is listed, and found as it is listed. -/
theorem created_usable_selftest : ∃ t,
    fat16Create smallGeo 0x10002 0 (ascii "selftest_tmp.txt") blankVol.start = .ok (some 0) t ∧
    ∃ x, SlotOf smallGeo t.vol 0 x ∧
      entryAt t.vol.disk x = newFile (to83 (ascii "selftest_tmp.txt")) ∧
      FoundAsListed smallGeo 0x10002 t.vol 0 x := by
  obtain ⟨⟨r, t, hrun, hiff⟩, -⟩ := created_usable_iff (blankVol_tidy smallGeo_fits)
    blankVol_properTree blankVol_oneEntry smallGeo_enough .root
    ⟨ascii "selftest_tmp.txt", by decide⟩
  have hcreate : value (fat16Create smallGeo 0x10002 0 (ascii "selftest_tmp.txt"))
      blankVol.start = some (some 0) := by decide +kernel
  rw [value, hrun] at hcreate
  obtain rfl := Option.some.inj hcreate
  obtain ⟨name, u, hres, hiff⟩ := hiff 0 rfl
  obtain rfl : to83 (ascii "selftest_tmp.txt") = name :=
    (Prod.mk.inj (Search.found.inj (EStateM.Result.ok.inj hres).1)).2
  have hmiss : value (dirLookup smallGeo 0x10002 0 (to83 (ascii "selftest_tmp.txt")))
      blankVol.start = some .missing := rfl
  obtain ⟨x, hx, hentry, hlisted⟩ := hiff (value_some hmiss)
  refine ⟨t, hrun, x, hx, hentry, hlisted.mpr ⟨⟨?_, ?_, ?_, ?_⟩, ?_, ?_⟩⟩
  all_goals decide +kernel

/-- **A name with a space.**  The file `a b` is created; it is listed as `A`, which is not found. -/
theorem displayed_space : ∃ t u u' info,
    fat16Create smallGeo 0x10002 0 (ascii "a b") blankVol.start = .ok (some 0) t ∧
    fat16Readdir smallGeo 0x10002 0 0 t.vol.start = .ok (some info) u ∧ info.name = ascii "A" ∧
    fat16Find smallGeo 0x10002 0 (ascii "A") t.vol.start = .ok .missing u' ∧
    ¬ TypesBack (ascii "a b") (newFile (to83 (ascii "a b"))) := by
  have hcreate : value (fat16Create smallGeo 0x10002 0 (ascii "a b")) blankVol.start =
      some (some 0) := by decide +kernel
  obtain ⟨t, ht⟩ := value_some hcreate
  have hrun : (callStep smallGeo 0x10002 blankVol (.create 0 ⟨ascii "a b", by decide⟩)).map
      (fun w => (value (fat16Readdir smallGeo 0x10002 0 0) w.start,
        value (fat16Find smallGeo 0x10002 0 (ascii "A")) w.start)) =
      some (some (some ⟨ascii "A", 0, false⟩), some .missing) := by decide +kernel
  have hstep : callStep smallGeo 0x10002 blankVol (.create 0 ⟨ascii "a b", by decide⟩) =
      some t.vol := by
    have hends : Ends ((Call.create 0 ⟨ascii "a b", by decide⟩).exec smallGeo 0x10002)
        blankVol.start fun _ u => u = t := by
      refine (Ends.of_eq ht (Q := fun _ u => u = t) rfl).seq ?_
      rintro r _ rfl
      exact .pure rfl
    obtain ⟨r, _, hexec, rfl⟩ := hends
    rw [callStep, hexec]
  rw [hstep, Option.map_some] at hrun
  obtain ⟨hlist, hfind⟩ := Prod.ext_iff.mp (Option.some.inj hrun)
  obtain ⟨u, hu⟩ := value_some hlist
  obtain ⟨u', hu'⟩ := value_some hfind
  exact ⟨t, u, u', _, ht, hu, rfl, hu', by decide⟩

end NullOS.Fat16
