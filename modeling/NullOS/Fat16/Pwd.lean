import NullOS.Fat16.Components
import NullOS.Fat16.Tree
import NullOS.Fat16.Listing

/-!
# The path of a directory

`fat16_get_path` climbs to the root and puts together the names that it finds, and
`fat16_resolve_dir` goes down along such a path.  They invert each other when every name on the way
is read back as the name that is stored, is not empty and has no `'/'`.  `mkdir " "` creates a
directory whose name is displayed as the empty string, and its path leads to its parent.
-/

namespace NullOS.Fat16

open Lib

variable {g : Geo} {v : Vol} {lay : Layout} {disk : Nat → Mem} {s t : St} {n d p D child lba : Nat}
  {x y : Slot} {l : List Slot} {L : List Nat} {path rest name tmp : List UInt8} {e : Dirent}

/-! ## The entry of a child -/

def IsChild (child : Nat) (e : Dirent) : Prop :=
  e.Live ∧ e.Directory ∧ e.byte0 ≠ 0x2E ∧ e.first = child

instance : DecidablePred (IsChild child) := fun _ => inferInstanceAs (Decidable (_ ∧ _))

/-- The first slot that `dir_find_child_name` accepts, before the first empty one. -/
def childSlot (disk : Nat → Mem) (child : Nat) : List Slot → Option Slot
  | [] => none
  | x :: l =>
      if (entryAt disk x).Empty then none
      else if IsChild child (entryAt disk x) then some x
      else childSlot disk child l

lemma childSlot_some (h : childSlot disk child l = some x) :
    x ∈ l ∧ IsChild child (entryAt disk x) := by
  induction l with
  | nil => exact absurd h nofun
  | cons y l ih =>
    rw [childSlot] at h
    split at h
    · exact absurd h nofun
    split at h
    case isTrue hy =>
      obtain rfl := Option.some.inj h
      exact ⟨List.mem_cons_self, hy⟩
    case isFalse => exact (ih h).imp_left (List.mem_cons_of_mem y)

lemma childSlot_none (h : childSlot disk child l = none) (hended : Ended disk l) (hx : x ∈ l) :
    ¬ IsChild child (entryAt disk x) := by
  induction l with
  | nil => exact absurd hx List.not_mem_nil
  | cons y l ih =>
    obtain ⟨hy, hrest⟩ := List.pairwise_cons.mp hended
    rw [childSlot] at h
    split at h
    case isTrue hempty =>
      -- everything behind an empty slot is empty
      rcases List.mem_cons.mp hx with rfl | hx
      · exact fun hc => hc.1.1 hempty
      · exact fun hc => hc.1.1 (hy x hx hempty)
    case isFalse =>
      split at h
      case isTrue => exact absurd h nofun
      case isFalse hno =>
        rcases List.mem_cons.mp hx with rfl | hx
        · exact hno
        · exact ih h hrest hx

lemma childSlot_sector (is : List Nat) (l : List Slot) :
    childSlot disk child ((is.map fun i => (lba, i)) ++ l) =
      match childIn child (disk lba) is with
      | none => childSlot disk child l
      | some none => none
      | some (some i) => some (lba, i) := by
  induction is with
  | nil => rfl
  | cons i is ih =>
    rw [List.map_cons, List.cons_append, childSlot, childIn]
    show (if (dirent (disk lba) i).Empty then _ else _) = _
    by_cases hempty : (dirent (disk lba) i).Empty
    · rw [if_pos hempty, if_pos hempty]
    rw [if_neg hempty, if_neg hempty]
    by_cases hdel : (dirent (disk lba) i).Deleted
    · rw [if_pos hdel, if_neg fun h => h.1.2.1 hdel, ih]
    rw [if_neg hdel]
    by_cases hvol : (dirent (disk lba) i).VolumeId
    · rw [if_pos hvol, if_neg fun h => h.1.2.2 hvol, ih]
    rw [if_neg hvol]
    by_cases hdir : (dirent (disk lba) i).Directory
    swap
    · rw [if_pos hdir, if_neg fun h => hdir h.2.1, ih]
    rw [if_neg (not_not.mpr hdir)]
    by_cases hdot : (dirent (disk lba) i).byte0 = 0x2E
    · rw [if_pos hdot, if_neg fun h => h.2.2.1 hdot, ih]
    rw [if_neg hdot]
    by_cases hfirst : (dirent (disk lba) i).first = child
    · rw [if_neg (not_not.mpr hfirst), if_pos ⟨⟨hempty, hdel, hvol⟩, hdir, hdot, hfirst⟩]
    · rw [if_pos hfirst, if_neg fun h => hfirst h.2.2.2, ih]

lemma childSlot_skip {pre : List Nat}
    (h : ∀ b ∈ pre, childIn child (disk b) (List.range 16) = none) :
    childSlot disk child (slotsOf (pre ++ L)) = childSlot disk child (slotsOf L) := by
  induction pre with
  | nil => rfl
  | cons b pre ih =>
    rw [List.cons_append, slotsOf_cons, childSlot_sector, h b List.mem_cons_self]
    exact ih fun b' hb' => h b' (List.mem_cons_of_mem _ hb')

structure ChildSpec (s : St) (child : Nat) (l : List Slot) (r : Search (List UInt8)) : Prop where
  ioError : r = .ioError → s.io ≠ working
  missing : r = .missing → childSlot s.vol.disk child l = none
  found : ∀ name, r = .found name → ∃ x, childSlot s.vol.disk child l = some x ∧
    name = direntDisplayName (entryAt s.vol.disk x)

lemma dirFindChildName_spec (h : Walkable g s.vol lay) (hd : lay.isDir d) (hn : Enough g n) :
    Ends (dirFindChildName g n d child) s fun r t =>
      Reads s t ∧ ChildSpec s child (lay.slots g d) r := by
  obtain ⟨last, (hrest : Rest g _ _ (lay.sectors g d) last), -⟩ := (h.dirChain hd).rest_init
  refine (dirScan_spec hrest ((h.dirChain hd).length_sectors_lt hn)).seq ?_
  rintro r t ⟨hreads, hs⟩
  cases r with
  | error => exact .pure ⟨hreads, fun _ => hs.error rfl, nofun, nofun⟩
  | done it =>
    obtain ⟨hnone, -⟩ := hs.done it rfl
    have hskip := childSlot_skip (L := []) hnone
    rw [List.append_nil] at hskip
    exact .pure ⟨hreads, nofun, fun _ => hskip, nofun⟩
  | hit a lba buf =>
    obtain ⟨rfl, hpick, pre, post, hL, hpre⟩ := hs.hit a lba buf rfl
    have hskip := childSlot_skip (L := lba :: post) hpre
    rw [slotsOf_cons, childSlot_sector, hpick, ← hL] at hskip
    cases a with
    | none => exact .pure ⟨hreads, nofun, fun _ => hskip, nofun⟩
    | some i =>
      refine .pure ⟨hreads, nofun, nofun, ?_⟩
      rintro _ ⟨⟩
      exact ⟨(lba, i), hskip, rfl⟩

/-! ## Names and paths -/

/-- The name that is displayed is read back as the name that is stored. -/
def Dirent.Survives (e : Dirent) : Prop := to83 (direntDisplayName e) = e.name

/-- The displayed name is one component of a path. -/
structure Dirent.Component (e : Dirent) : Prop where
  ne_nil : direntDisplayName e ≠ []
  noSlash : (0x2F : UInt8) ∉ direntDisplayName e

/-- An absolute path of directory `d`, which is `k` levels below the root; empty for the root. -/
inductive PathTo (g : Geo) (v : Vol) : Nat → Nat → List UInt8 → Prop
  | root : PathTo g v 0 0 []
  | child {p d k : Nat} {path : List UInt8} {x : Slot} : IsDir g v p → PathTo g v p k path →
      SlotOf g v p x → ChildEntry v.disk x d →
      PathTo g v d (k + 1) (path ++ 0x2F :: direntDisplayName (entryAt v.disk x))

inductive Above (g : Geo) (v : Vol) (D : Nat) : Nat → Prop
  | self : Above g v D D
  | up {d p : Nat} : Above g v D d → Parent g v p d → Above g v D p

/-- The entries on the way from `D` up to the root satisfy `P`. -/
def OnTheWay (g : Geo) (v : Vol) (D : Nat) (P : Dirent → Prop) : Prop :=
  ∀ d, Above g v D d → ∀ p x, IsDir g v p → SlotOf g v p x → ChildEntry v.disk x d →
    P (entryAt v.disk x)

lemma OnTheWay.up {P : Dirent → Prop} (h : OnTheWay g v D P) (hp : Parent g v p D) :
    OnTheWay g v p P := by
  intro d hd
  refine h d ?_
  induction hd with
  | self => exact .up .self hp
  | up _ hpar ih => exact .up ih hpar

lemma length_direntDisplayName (h : e.name.length = 11) : (direntDisplayName e).length ≤ 12 := by
  have hbase := ((e.name.take 8).takeWhile_sublist (· ≠ 0x20)).length_le
  have hext := ((e.name.drop 8).takeWhile_sublist (· ≠ 0x20)).length_le
  rw [List.length_take] at hbase
  rw [List.length_drop] at hext
  rw [direntDisplayName]
  refine (List.takeWhile_sublist _).length_le.trans ?_
  split
  · rw [List.length_append, List.length_cons]
    omega
  · omega

lemma noNul_direntDisplayName (e : Dirent) : (0 : UInt8) ∉ direntDisplayName e := by
  intro h
  have hzero := List.all_eq_true.mp (List.all_takeWhile (p := fun c : UInt8 => decide (c ≠ 0))) 0 h
  exact absurd rfl (of_decide_eq_true hzero)

lemma noSlash_to83 (h : (0x2F : UInt8) ∉ name) : (0x2F : UInt8) ∉ to83 name := by
  have hpad : ∀ {l : List UInt8} (k : Nat), (∀ c ∈ l, c ∈ name) →
      (0x2F : UInt8) ∉ padTo k (l.map fat16Toupper) := by
    intro l k hl hmem
    rcases List.mem_append.mp hmem with hmem | hmem
    · obtain ⟨c, hc, hslash⟩ := List.mem_map.mp hmem
      exact h (fat16Toupper_eq (by decide) hslash ▸ hl c hc)
    · exact absurd (List.eq_of_mem_replicate hmem) (by decide)
  rw [to83]
  split
  · decide
  split
  · decide
  intro hmem
  rcases List.mem_append.mp hmem with hmem | hmem
  · exact hpad 8 (fun c hc => (List.takeWhile_sublist _).subset (List.mem_of_mem_take hc)) hmem
  · exact hpad 3 (fun c hc => (List.dropWhile_suffix _).subset
      (List.mem_of_mem_drop (List.mem_of_mem_take hc))) hmem

lemma noSlash_direntDisplayName (h : (0x2F : UInt8) ∉ name) (he : e.name = to83 name) :
    (0x2F : UInt8) ∉ direntDisplayName e := by
  have hname := noSlash_to83 h
  rw [← he] at hname
  have hbase : (0x2F : UInt8) ∉ (e.name.take 8).takeWhile (· ≠ 0x20) := fun hmem =>
    hname (List.mem_of_mem_take ((List.takeWhile_sublist _).subset hmem))
  have hext : (0x2F : UInt8) ∉ (e.name.drop 8).takeWhile (· ≠ 0x20) := fun hmem =>
    hname (List.mem_of_mem_drop ((List.takeWhile_sublist _).subset hmem))
  rw [direntDisplayName]
  intro hmem
  have hmem := (List.takeWhile_sublist _).subset hmem
  split at hmem
  · rcases List.mem_append.mp hmem with hmem | hmem
    · exact hbase hmem
    · rcases List.mem_cons.mp hmem with hdot | hmem
      · exact absurd hdot (by decide)
      · exact hext hmem
  · exact hbase hmem

lemma PathTo.noNul {k : Nat} (h : PathTo g v d k path) : (0 : UInt8) ∉ path := by
  induction h with
  | root => exact List.not_mem_nil
  | child _ _ _ _ ih =>
    intro hmem
    rcases List.mem_append.mp hmem with hmem | hmem
    · exact ih hmem
    · rcases List.mem_cons.mp hmem with hzero | hmem
      · exact absurd hzero (by decide)
      · exact noNul_direntDisplayName _ hmem

lemma PathTo.eq_zero (h : PathTo g v d 0 path) : d = 0 := by
  cases h
  rfl

lemma direntDisplayName_dot (h : e.byte0 = 0x2E) : ∃ more, direntDisplayName e = 0x2E :: more := by
  obtain ⟨name, attr, first, size⟩ := e
  cases name with
  | nil => exact absurd h (by decide : (0 : UInt8) ≠ 0x2E)
  | cons c name =>
    obtain rfl : c = 0x2E := h
    rw [direntDisplayName]
    dsimp only
    rw [List.take_succ_cons, List.takeWhile_cons_of_pos (by decide)]
    split
    · rw [List.cons_append, List.takeWhile_cons_of_pos (by decide)]
      exact ⟨_, rfl⟩
    · rw [List.takeWhile_cons_of_pos (by decide)]
      exact ⟨_, rfl⟩

lemma Dirent.Survives.byte0_ne (h : e.Survives) (hdots : ¬ Dots e.name) : e.byte0 ≠ 0x2E := by
  intro hdot
  obtain ⟨more, hmore⟩ := direntDisplayName_dot hdot
  rw [Dirent.Survives, to83] at h
  split at h
  · exact hdots (.inl h.symm)
  split at h
  · exact hdots (.inr h.symm)
  · -- nothing before the dot: the stored name begins with a space
    rw [hmore, List.takeWhile_cons_of_neg (by decide)] at h
    rw [Dirent.byte0, ← h] at hdot
    exact absurd hdot (by decide : (0x20 : UInt8) ≠ 0x2E)

/-! ## Up to the root -/

lemma ProperTree.below (ht : ProperTree g v) (hd : IsDir g v d) : Below g v d :=
  below_of_isDir ht.root ht.dots hd

lemma ProperTree.exists_parent (ht : ProperTree g v) (hd : IsDir g v d) (h0 : d ≠ 0) :
    ∃ p, Parent g v p d := by
  cases ht.below hd with
  | root => exact absurd rfl h0
  | child _ hp => exact ⟨_, hp⟩

lemma Below.exists_pathTo (h : Below g v d) : ∃ k path, PathTo g v d k path := by
  induction h with
  | root => exact ⟨0, [], .root⟩
  | child _ hp ih =>
    obtain ⟨hpdir, x, hx, hchild⟩ := hp
    obtain ⟨k, path, hpath⟩ := ih
    exact ⟨_, _, .child hpdir hpath hx hchild⟩

lemma ProperTree.dotdot_found (h : Tidy g v) (ht : ProperTree g v) (hd : IsDir g v d) (h0 : d ≠ 0) :
    ∃ y, lookupSlot v.disk dotdot83 (h.sound.layout.slots g d) = some y ∧
      Parent g v (entryAt v.disk y).first d := by
  obtain ⟨p, hp⟩ := ht.exists_parent hd h0
  obtain ⟨p', hdotted, hunique⟩ := ht.dots d hd h0 _ (h.sound.layout_walk hd)
  obtain ⟨y, hy⟩ := Option.ne_none_iff_exists'.mp (hdotted.lookup_ne_none (.inr rfl))
  obtain ⟨hmem, hlive, hname⟩ := lookupSlot_some hy
  refine ⟨y, hy, ?_⟩
  rw [hdotted.eq_of_dotdot hmem hlive hname, ← hunique p hp]
  exact hp

lemma IsChild.childEntry (h : IsChild d (entryAt disk x)) : ChildEntry disk x d := by
  obtain ⟨hlive, hdir, hdot, hfirst⟩ := h
  refine ⟨hlive, hdir, ?_, hfirst⟩
  rintro (hname | hname)
  · rw [Dirent.byte0, hname] at hdot
    exact hdot rfl
  · rw [Dirent.byte0, hname] at hdot
    exact hdot rfl

lemma Parent.child_found (h : Tidy g v) (hp : Parent g v p d)
    (hsurv : OnTheWay g v d Dirent.Survives) :
    ∃ x, childSlot v.disk d (h.sound.layout.slots g p) = some x ∧ SlotOf g v p x ∧
      ChildEntry v.disk x d := by
  obtain ⟨hpdir, x, hx, hchild⟩ := hp
  have hslots := fun y => h.sound.valid.walkable.slots_iff (s := y) hpdir
  have hbyte := (hsurv d .self p x hpdir hx hchild).byte0_ne hchild.not_dots
  have hfound : childSlot v.disk d (h.sound.layout.slots g p) ≠ none := by
    intro hnone
    refine childSlot_none hnone (h.named p hpdir).ended ((hslots x).mp hx) ?_
    exact ⟨hchild.live, hchild.directory, hbyte, hchild.first⟩
  obtain ⟨y, hy⟩ := Option.ne_none_iff_exists'.mp hfound
  obtain ⟨hmem, hic⟩ := childSlot_some hy
  exact ⟨y, hy, (hslots y).mpr hmem, hic.childEntry⟩

lemma Sound.not_stop (h : Sound g v) (hd : IsDir g v d) (h0 : d ≠ 0) : ¬ Stop d := by
  obtain ⟨cs, hc⟩ := h.dirs d hd h0
  exact not_stop_of_cluster h.fits hc.start_cluster

/-- What the loop of `fat16_get_path` delivers: a path of the directory in front of `tmp`, unless
it is too deep or too long. -/
structure UpSpec (g : Geo) (v : Vol) (k d : Nat) (tmp : List UInt8) (r : Option (List UInt8)) :
    Prop where
  found : ∀ out, r = some out → ∃ j path, PathTo g v d j path ∧ j ≤ k ∧
    path.length + tmp.length ≤ 127 ∧ out = path ++ tmp
  failed : r = none → ∃ j path, PathTo g v d j path ∧ (k < j ∨ 127 < path.length + tmp.length)

lemma upSpec_root {k : Nat} (h0 : d = 0) (htmp : tmp.length ≤ 127) :
    UpSpec g v k d tmp (some tmp) := by
  subst h0
  refine ⟨?_, nofun⟩
  rintro _ ⟨⟩
  exact ⟨0, [], .root, Nat.zero_le _, by rwa [List.length_nil, Nat.zero_add], rfl⟩

lemma getPathLoop_spec (h : Tidy g v) (ht : ProperTree g v) (hn : Enough g n) (hd : IsDir g v d)
    (hsurv : OnTheWay g v d Dirent.Survives) {k : Nat} (hvol : s.vol = v) (hio : s.io = working)
    (htmp : tmp.length ≤ 127) :
    Ends (getPathLoop g n k d tmp) s fun r _ => UpSpec g v k d tmp r := by
  induction k generalizing d s tmp with
  | zero =>
    rw [getPathLoop]
    split
    case isTrue h0 => exact .pure (upSpec_root h0 htmp)
    case isFalse h0 =>
      refine .pure ⟨nofun, fun _ => ?_⟩
      obtain ⟨j, path, hpath⟩ := (ht.below hd).exists_pathTo
      refine ⟨j, path, hpath, .inl (Nat.pos_of_ne_zero ?_)⟩
      rintro rfl
      exact h0 hpath.eq_zero
  | succ k ih =>
    rw [getPathLoop]
    split
    case isTrue h0 => exact .pure (upSpec_root h0 htmp)
    case isFalse h0 =>
    subst hvol
    have hwalk := h.sound.valid.walkable
    rw [if_neg (h.sound.not_stop hd h0)]
    refine (dirLookup_spec hwalk hd hn).seq ?_
    rintro r t ⟨hreads, hlook⟩
    obtain ⟨y, hy, hparent⟩ := ht.dotdot_found h hd h0
    cases r with
    | ioError => exact absurd hio (hlook.ioError rfl)
    | missing => exact absurd ((hlook.missing rfl).symm.trans hy) nofun
    | found hit =>
      obtain ⟨hfound, hentry, -⟩ := hlook.found hit rfl
      obtain rfl := Option.some.inj (hfound.symm.trans hy)
      rw [← hentry] at hparent
      dsimp only
      generalize hit.entry.first = p at hparent
      have hwalk' : Walkable g t.vol h.sound.layout := by
        rw [hreads.vol]
        exact hwalk
      refine (dirFindChildName_spec hwalk' hparent.1 hn).seq ?_
      rintro r u ⟨hreads', hspec⟩
      obtain ⟨x, hx, hslot, hchild⟩ := hparent.child_found h hsurv
      cases r with
      | ioError => exact absurd (hreads.io hio) (hspec.ioError rfl)
      | missing =>
        have hnone := hspec.missing rfl
        rw [hreads.vol, hx] at hnone
        exact absurd hnone nofun
      | found name =>
        obtain ⟨x', hx', hname⟩ := hspec.found name rfl
        rw [hreads.vol] at hx' hname
        obtain rfl := Option.some.inj (hx'.symm.trans hx)
        subst hname
        have hpath : ∀ {j path}, PathTo g s.vol p j path →
            PathTo g s.vol d (j + 1) (path ++ 0x2F :: direntDisplayName (entryAt s.vol.disk x')) :=
          fun hp => .child hparent.1 hp hslot hchild
        dsimp only
        split
        case isTrue hlong =>
          refine .pure ⟨nofun, fun _ => ?_⟩
          obtain ⟨j, path, hp⟩ := (ht.below hparent.1).exists_pathTo
          refine ⟨j + 1, _, hpath hp, .inr ?_⟩
          rw [List.length_append, List.length_cons]
          omega
        case isFalse hshort =>
          refine (ih hparent.1 (hsurv.up hparent) (hreads'.vol.trans hreads.vol)
            (hreads'.io (hreads.io hio)) ?_).mono ?_
          · rw [List.length_append, List.length_cons]
            omega
          · rintro r w ⟨hsome, hnone⟩
            refine ⟨fun out hout => ?_, fun hr => ?_⟩
            · obtain ⟨j, path, hp, hj, hlen, rfl⟩ := hsome out hout
              refine ⟨j + 1, _, hpath hp, by omega, ?_, ?_⟩
              · simp only [List.length_append, List.length_cons] at hlen ⊢
                omega
              · rw [List.append_assoc, List.cons_append]
            · obtain ⟨j, path, hp, hlong⟩ := hnone hr
              refine ⟨j + 1, _, hpath hp, hlong.imp (by omega) fun hlong => ?_⟩
              rw [List.length_append, List.length_cons] at hlong ⊢
              omega

/-! ## Down from the root -/

lemma Tidy.lookup_self (h : Tidy g v) (hp : IsDir g v p) (hx : SlotOf g v p x)
    (hl : (entryAt v.disk x).Live) :
    lookupSlot v.disk (entryAt v.disk x).name (h.sound.layout.slots g p) = some x := by
  have hord := h.named p hp
  have hmem := (h.sound.valid.walkable.slots_iff hp).mp hx
  cases hlook : lookupSlot v.disk (entryAt v.disk x).name (h.sound.layout.slots g p) with
  | none => exact absurd rfl (lookupSlot_none hlook hord.ended hmem hl)
  | some y =>
    obtain ⟨hy, hly, hname⟩ := lookupSlot_some hlook
    rw [hord.distinct y hy x hmem hly hl hname]

lemma Tidy.acyclic (h : Tidy g v) : Acyclic g v 0 := by
  intro d hd
  refine ⟨_, h.sound.valid.walkable.dirChain ?_⟩
  induction hd with
  | root => exact .root
  | base => exact .root
  | child _ hchain hmem hl hdir ih =>
    refine .sub ih ((h.sound.valid.walkable.slots_iff ih).mpr ?_) hl hdir
    rcases hchain with rfl | ⟨h0, hwalk, -⟩
    · exact hmem
    · rwa [hwalk.unique (h.sound.layout_walk ih)] at hmem

lemma Tidy.subdirectory_iff (h : Tidy g v) (hn : Enough g n) (hp : IsDir g v p) :
    subdirectory g n v p name = some d ↔
      ∃ x, lookupSlot v.disk (to83 name) (h.sound.layout.slots g p) = some x ∧
        (entryAt v.disk x).Directory ∧ (entryAt v.disk x).first = d := by
  obtain ⟨r, t, hrun, -, hlook⟩ :=
    dirLookup_spec (s := v.start) h.sound.valid.walkable hp hn
  rw [subdirectory, value, hrun]
  cases r with
  | ioError => exact absurd rfl (hlook.ioError rfl)
  | missing =>
    have hnone := hlook.missing rfl
    refine ⟨fun heq => absurd heq (by simp [Search.directory]), ?_⟩
    rintro ⟨x, hx, -⟩
    exact absurd (hnone.symm.trans hx) (by simp)
  | found hit =>
    obtain ⟨hslot, (hentry : _ = entryAt v.disk _), -⟩ := hlook.found hit rfl
    show (if hit.entry.Directory then some hit.entry.first else none) = some d ↔ _
    rw [hentry]
    constructor
    · intro heq
      split at heq
      · exact ⟨_, hslot, by assumption, Option.some.inj heq⟩
      · simp at heq
    · rintro ⟨x, hx, hdir, hfirst⟩
      obtain rfl := Option.some.inj (hslot.symm.trans hx)
      rw [if_pos hdir, hfirst]

lemma resolvePath_absolute (cwd : Nat) (h : path.head? = some 0x2F) :
    resolvePath g n cwd path = resolvePath g n 0 path := by
  rw [resolvePath, resolvePath, h]
  rfl

lemma fat16ResolveDir_components (h : Tidy g v) (hn : Enough g n)
    (habs : path.head? = some 0x2F) (h63 : ∀ c ∈ components path, c.length ≤ 63) (cwd : Nat) :
    Ends (fat16ResolveDir g n cwd path) v.start fun r _ =>
      r = .dir D ↔ (components path).foldlM (subdirectory g n v) 0 = some D ∧
        (components path = [] → path = [0x2F]) := by
  show Ends (if v.ready = true then _ else _) v.start _
  rw [if_pos h.sound.ready]
  split
  case isTrue hroot =>
    rcases hroot with rfl | rfl
    · simp at habs
    · refine .pure ?_
      rw [show components [0x2F] = [] by decide, List.foldlM_nil]
      simp
  case isFalse hmore =>
  rw [resolvePath_absolute cwd habs]
  refine (resolvePath_components h.acyclic hn rfl h63).seq ?_
  rintro _ t ⟨hreads, rfl, hparent⟩
  have hvol : t.vol = v := hreads.vol
  rw [startOf, if_pos habs] at hparent ⊢
  rcases List.eq_nil_or_concat (components path) with hnil | ⟨cs, c, hcs⟩
  · rw [hnil]
    refine .pure ⟨fun heq => absurd heq (by simp), ?_⟩
    rintro ⟨-, heq⟩
    exact absurd (.inr (heq rfl)) hmore
  · rw [List.concat_eq_append] at hcs
    have hfold : (components path).foldlM (subdirectory g n v) 0 =
        (cs.foldlM (subdirectory g n v) 0).bind fun p => subdirectory g n v p c := by
      rw [hcs, List.foldlM_append]
      cases cs.foldlM (subdirectory g n v) 0 with
      | none => rfl
      | some p => simp
    have hres : resolved g n v.start.vol 0 (components path) =
        (cs.foldlM (subdirectory g n v) 0).elim .missing fun p => .found (p, to83 c) := by
      show resolved g n v 0 (components path) = _
      rw [resolved, hcs, List.getLast?_concat, List.dropLast_concat]
      cases cs.foldlM (subdirectory g n v) 0 with
      | none => rfl
      | some p => rfl
    have hne : components path ≠ [] := by simp [hcs]
    rw [hfold, and_iff_left fun heq => absurd heq hne]
    cases hp : cs.foldlM (subdirectory g n v) 0 with
    | none =>
      rw [hres, hp]
      exact .pure (by simp)
    | some p =>
      have hreach := hparent (p, to83 c) (by rw [hres, hp]; rfl)
      obtain ⟨chain, hchain⟩ := h.acyclic p hreach
      rw [hres, hp]
      refine ((show DirChain g t.vol.fat p chain by rwa [hvol]).dirLookup_value hn
        (hreads.io rfl)).seq ?_
      rintro r u ⟨-, hlook, hvalue⟩
      rw [hvol] at hvalue
      rw [Option.bind_some, subdirectory, hvalue, Option.bind_some]
      cases r with
      | missing => exact .pure (by simp [Search.directory])
      | ioError => exact absurd (hreads.io rfl) (hlook.ioError rfl)
      | found hit =>
        dsimp only [Search.directory]
        split
        · exact .pure (by simp)
        · exact .pure (by simp)

/-! ## The path of a directory -/

lemma ProperTree.parent_unique (ht : ProperTree g v) (h : Sound g v) {p' : Nat} (hd : IsDir g v d)
    (h0 : d ≠ 0) (hp : Parent g v p d) (hp' : Parent g v p' d) : p = p' := by
  obtain ⟨q, -, hunique⟩ := ht.dots d hd h0 _ (h.layout_walk hd)
  rw [hunique p hp, hunique p' hp']

lemma ChildEntry.isDir (hp : IsDir g v p) (hx : SlotOf g v p x) (hc : ChildEntry v.disk x d) :
    IsDir g v d := by
  rw [← hc.first]
  exact .sub hp hx hc.live hc.directory

lemma PathTo.unique (h : Sound g v) (ht : ProperTree g v) (hone : OneEntry g v) {k k' : Nat}
    {path' : List UInt8} (hpath : PathTo g v d k path) (hpath' : PathTo g v d k' path') :
    k = k' ∧ path = path' := by
  induction hpath generalizing k' path' with
  | root =>
    cases hpath' with
    | root => exact ⟨rfl, rfl⟩
    | child hp _ hx hc => exact absurd rfl (hone 0 _ _ _ _ hp hx hc hp hx hc).1
  | child hp hpath hx hc ih =>
    cases hpath' with
    | root => exact absurd rfl (hone 0 _ _ _ _ hp hx hc hp hx hc).1
    | child hp' hpath' hx' hc' =>
      obtain ⟨h0, rfl⟩ := hone _ _ _ _ _ hp hx hc hp' hx' hc'
      obtain rfl := ht.parent_unique h (hc.isDir hp hx) h0 ⟨hp, _, hx, hc⟩ ⟨hp', _, hx', hc'⟩
      obtain ⟨rfl, rfl⟩ := ih hpath'
      exact ⟨rfl, rfl⟩

lemma onTheWay_root {P : Dirent → Prop} (hone : OneEntry g v) : OnTheWay g v 0 P := by
  have hroot : ∀ d, Above g v 0 d → d = 0 := by
    intro d hd
    induction hd with
    | self => rfl
    | up _ hp ih =>
      subst ih
      obtain ⟨hpdir, x, hx, hc⟩ := hp
      exact absurd rfl (hone 0 _ _ _ _ hpdir hx hc hpdir hx hc).1
  intro d hd p x hp hx hc
  exact absurd (hroot d hd) (hone d _ _ _ _ hp hx hc hp hx hc).1

lemma OnTheWay.extend {P : Dirent → Prop} (h : Sound g v) (ht : ProperTree g v)
    (hone : OneEntry g v)
    (hp : IsDir g v p) (hx : SlotOf g v p x) (hc : ChildEntry v.disk x d) (hway : OnTheWay g v p P)
    (hP : P (entryAt v.disk x)) : OnTheWay g v d P := by
  have habove : ∀ e, Above g v d e → e = d ∨ Above g v p e := by
    intro e he
    induction he with
    | self => exact .inl rfl
    | up _ hpar ih =>
      right
      rcases ih with rfl | ih
      · obtain ⟨h0, -⟩ := hone _ _ _ _ _ hp hx hc hp hx hc
        obtain rfl := ht.parent_unique h (hc.isDir hp hx) h0 hpar ⟨hp, x, hx, hc⟩
        exact .self
      · exact .up ih hpar
  intro e he q y hq hy hce
  rcases habove e he with rfl | he
  · obtain ⟨-, rfl⟩ := hone _ _ _ _ _ hp hx hc hq hy hce
    exact hP
  · exact hway e he q y hq hy hce

def spelled (path : List UInt8) : List UInt8 := if path = [] then [0x2F] else path

lemma PathTo.head {k : Nat} (h : PathTo g v d k path) : (spelled path).head? = some 0x2F := by
  rw [spelled]
  induction h with
  | root => rfl
  | @child p d k path x _ _ _ _ ih =>
    rw [if_neg (List.append_ne_nil_of_right_ne_nil path (List.cons_ne_nil _ _))]
    cases path with
    | nil => rfl
    | cons c path => exact ih

lemma PathTo.noNul_spelled {k : Nat} (h : PathTo g v d k path) : (0 : UInt8) ∉ spelled path := by
  rw [spelled]
  split
  · decide
  · exact h.noNul

lemma PathTo.ne_nil {k : Nat} (h : PathTo g v d k path) (h0 : d ≠ 0) : path ≠ [] := by
  cases h with
  | root => exact absurd rfl h0
  | child => exact List.append_ne_nil_of_right_ne_nil _ (List.cons_ne_nil _ _)

/-- What `fat16_get_path` delivers, with `spelled path` the path of the directory `k` levels below
the root. -/
def pathResult (outSize k : Nat) (path : List UInt8) : Option (List UInt8) :=
  if k ≤ fat16PathMaxDepth ∧ (spelled path).length ≤ 127 ∧ (spelled path).length < outSize then
    some (spelled path)
  else none

lemma fat16GetPath_spec (h : Tidy g v) (ht : ProperTree g v) (hone : OneEntry g v)
    (hn : Enough g n) (hD : IsDir g v D) (hsurv : OnTheWay g v D Dirent.Survives) {k : Nat}
    (hpath : PathTo g v D k path) (outSize : Nat) :
    Ends (fat16GetPath g n D outSize) v.start fun r _ => r = pathResult outSize k path := by
  have hunique := fun k' path' (hp : PathTo g v D k' path') => hpath.unique h.sound ht hone hp
  have hpos : 1 ≤ (spelled path).length := by
    cases hspell : spelled path with
    | nil => exact absurd (hspell ▸ hpath.head) nofun
    | cons c rest => exact Nat.le_add_left _ _
  rw [fat16GetPath]
  split
  case isTrue hsmall => exact .pure (if_neg (by omega)).symm
  case isFalse hsmall =>
  split
  case isTrue h0 =>
    subst h0
    obtain ⟨rfl, rfl⟩ := hunique 0 [] .root
    refine .pure (if_pos ⟨by decide, by decide, ?_⟩).symm
    rw [show (spelled []).length = 1 from rfl]
    omega
  case isFalse h0 =>
  have hspell : spelled path = path := if_neg (hpath.ne_nil h0)
  show Ends (if v.ready = true then _ else _) v.start _
  rw [if_pos h.sound.ready]
  refine (getPathLoop_spec h ht hn hD hsurv rfl rfl (Nat.zero_le _)).seq ?_
  rintro r t ⟨hsome, hnone⟩
  rw [pathResult, hspell]
  cases r with
  | none =>
    obtain ⟨k', path', hp, hlong⟩ := hnone rfl
    obtain ⟨rfl, rfl⟩ := hunique k' path' hp
    refine .pure (if_neg ?_).symm
    rw [List.length_nil] at hlong
    omega
  | some out =>
    obtain ⟨k', path', hp, hk, hlen, rfl⟩ := hsome out rfl
    obtain ⟨rfl, rfl⟩ := hunique k' path' hp
    rw [List.length_nil, Nat.add_zero] at hlen
    refine .pure ?_
    rw [List.append_nil]
    split
    case isTrue hbig => exact (if_neg (by omega)).symm
    case isFalse hfits => exact (if_pos ⟨hk, hlen, by omega⟩).symm

/-! ## Back along the path -/

lemma components_spelled : components (spelled path) = components path := by
  rw [spelled]
  split
  case isTrue hnil => rw [hnil]; decide
  case isFalse => rfl

lemma PathTo.length_component {k : Nat} (hpath : PathTo g v d k path) :
    ∀ c ∈ components path, c.length ≤ 63 := by
  induction hpath with
  | root => exact fun c hc => absurd hc List.not_mem_nil
  | child _ _ _ _ ih =>
    intro c hc
    rw [components_append_slash] at hc
    rcases List.mem_append.mp hc with hc | hc
    · exact ih c hc
    · refine (mem_components hc).2.trans ?_
      exact (length_direntDisplayName (dirent_fits _ _).name).trans (by decide)

lemma PathTo.foldlM_components {k : Nat} (h : Tidy g v) (hn : Enough g n)
    (hpath : PathTo g v d k path) (hsurv : OnTheWay g v d Dirent.Survives)
    (hcomp : OnTheWay g v d Dirent.Component) :
    (components path).foldlM (subdirectory g n v) 0 = some d ∧ (components path).length = k := by
  induction hpath with
  | root => exact ⟨rfl, rfl⟩
  | @child p d k path x hp _ hx hc ih =>
    obtain ⟨hfold, hlen⟩ := ih (hsurv.up ⟨hp, x, hx, hc⟩) (hcomp.up ⟨hp, x, hx, hc⟩)
    obtain ⟨hne, hslash⟩ := hcomp d .self p x hp hx hc
    have hsub : subdirectory g n v p (direntDisplayName (entryAt v.disk x)) = some d := by
      refine (h.subdirectory_iff hn hp).mpr ⟨x, ?_, hc.directory, hc.first⟩
      rw [show to83 _ = _ from hsurv d .self p x hp hx hc]
      exact h.lookup_self hp hx hc.live
    rw [components_append_slash, components_single hslash hne, List.foldlM_append, hfold,
      List.length_append, hlen]
    exact ⟨by simp [hsub], rfl⟩

/-- A directory at most `m` levels deep, with no slash in the names on the way to it. -/
structure Shallow (g : Geo) (v : Vol) (m d : Nat) : Prop where
  isDir : IsDir g v d
  depth : ∃ k path, PathTo g v d k path ∧ k ≤ m
  noSlash : OnTheWay g v d fun e => (0x2F : UInt8) ∉ direntDisplayName e

section

variable (h : Tidy g v) (ht : ProperTree g v) (hone : OneEntry g v) (hn : Enough g n)

include h ht hone hn

lemma Shallow.step {m : Nat} (hp : Shallow g v m p) (hname : (0x2F : UInt8) ∉ name)
    (hsub : subdirectory g n v p name = some d) : Shallow g v (m + 1) d := by
  obtain ⟨hpdir, ⟨k, path, hpath, hk⟩, hslash⟩ := hp
  obtain ⟨x, hx, hdir, hfirst⟩ := (h.subdirectory_iff hn hpdir).mp hsub
  obtain ⟨hmem, hlive, heq⟩ := lookupSlot_some hx
  have hslot := (h.sound.valid.walkable.slots_iff hpdir).mpr hmem
  by_cases hdots : Dots (entryAt v.disk x).name
  · -- `.` stays in the directory and `..` leads out of it
    have h0 : p ≠ 0 := by
      rintro rfl
      exact ht.root x hslot hlive hdots
    rcases hdots with hdot | hdotdot
    · obtain ⟨q, hdotted, -⟩ := ht.dots p hpdir h0 _ (h.sound.layout_walk hpdir)
      obtain rfl := (hdotted.eq_of_dot hmem hlive hdot).symm.trans hfirst
      exact ⟨hpdir, ⟨k, path, hpath, by omega⟩, hslash⟩
    · obtain ⟨y, hy, hparent⟩ := ht.dotdot_found h hpdir h0
      rw [← heq, hdotdot, hy] at hx
      obtain rfl := Option.some.inj hx
      rw [hfirst] at hparent
      cases hpath with
      | root => exact absurd rfl h0
      | child hq hpath hx hc =>
        obtain rfl := ht.parent_unique h.sound hpdir h0 hparent ⟨hq, _, hx, hc⟩
        exact ⟨hq, ⟨_, _, hpath, by omega⟩, hslash.up hparent⟩
  · have hc : ChildEntry v.disk x d := ⟨hlive, hdir, hdots, hfirst⟩
    refine ⟨hc.isDir hpdir hslot, ⟨_, _, .child hpdir hpath hslot hc, by omega⟩, ?_⟩
    exact hslash.extend h.sound ht hone hpdir hslot hc (noSlash_direntDisplayName hname heq)

lemma Shallow.fold {m : Nat} {cs : List (List UInt8)} (hp : Shallow g v m p)
    (hcs : ∀ c ∈ cs, (0x2F : UInt8) ∉ c) (hfold : cs.foldlM (subdirectory g n v) p = some d) :
    Shallow g v (m + cs.length) d := by
  induction cs generalizing m p with
  | nil =>
    obtain rfl := Option.some.inj hfold
    exact hp
  | cons c cs ih =>
    rw [List.foldlM_cons] at hfold
    obtain ⟨q, hsub, hfold⟩ := Option.bind_eq_some_iff.mp hfold
    have hq := hp.step h ht hone hn (hcs c List.mem_cons_self) hsub
    have hd := ih hq (fun c' hc' => hcs c' (List.mem_cons_of_mem _ hc')) hfold
    rwa [List.length_cons, Nat.add_comm cs.length, ← Nat.add_assoc]

omit hn in
/-- A path without a slash in a name has as many components as there are levels only if no name is
empty. -/
lemma PathTo.component_of_length {k : Nat} (hpath : PathTo g v d k path)
    (hslash : OnTheWay g v d fun e => (0x2F : UInt8) ∉ direntDisplayName e) :
    (components path).length ≤ k ∧
      (k ≤ (components path).length → OnTheWay g v d Dirent.Component) := by
  induction hpath with
  | root => exact ⟨Nat.le_refl _, fun _ => onTheWay_root hone⟩
  | @child p d k path x hp _ hx hc ih =>
    obtain ⟨hle, hcomp⟩ := ih (hslash.up ⟨hp, x, hx, hc⟩)
    have hno := hslash d .self p x hp hx hc
    rw [components_append_slash, List.length_append]
    by_cases hne : direntDisplayName (entryAt v.disk x) = []
    · rw [hne, components_nil, List.length_nil]
      exact ⟨by omega, fun hk => absurd hk (by omega)⟩
    · rw [components_single hno hne, List.length_singleton]
      refine ⟨by omega, fun hk => ?_⟩
      exact (hcomp (by omega)).extend h.sound ht hone hp hx hc ⟨hne, hno⟩

/-- **`fat16_resolve_dir` leads along the path of a directory to the directory exactly if every
name is a component.** -/
lemma fat16ResolveDir_spec (hsurv : OnTheWay g v D Dirent.Survives) {k : Nat}
    (hpath : PathTo g v D k path) (cwd : Nat) :
    Ends (fat16ResolveDir g n cwd (spelled path)) v.start fun r _ =>
      r = .dir D ↔ OnTheWay g v D Dirent.Component := by
  have h63 := hpath.length_component
  rw [← components_spelled] at h63
  refine (fat16ResolveDir_components (D := D) h hn hpath.head h63 cwd).mono ?_
  intro r t hr
  rw [hr, components_spelled]
  constructor
  · rintro ⟨hfold, -⟩
    have hroot : Shallow g v 0 0 := ⟨.root, ⟨0, [], .root, Nat.le_refl _⟩, onTheWay_root hone⟩
    obtain ⟨-, ⟨j, path', hpath', hj⟩, hslash⟩ :=
      hroot.fold h ht hone hn (fun c hc => (mem_components hc).1) hfold
    obtain ⟨rfl, -⟩ := hpath.unique h.sound ht hone hpath'
    exact (hpath.component_of_length h ht hone hslash).2 (by omega)
  · intro hcomp
    obtain ⟨hfold, hlen⟩ := hpath.foldlM_components h hn hsurv hcomp
    refine ⟨hfold, fun hnil => ?_⟩
    rw [hnil] at hlen
    subst hlen
    cases hpath
    rfl

end

/-- The path that `fat16_get_path` delivers leads back to the directory, wherever one is. -/
def PathLeadsBack (g : Geo) (n : Nat) (v : Vol) (D outSize : Nat) : Prop :=
  ∀ out t, fat16GetPath g n D outSize v.start = .ok (some out) t →
    ∀ cwd, ∃ u, fat16ResolveDir g n cwd out v.start = .ok (.dir D) u

section

variable (h : Tidy g v) (ht : ProperTree g v) (hone : OneEntry g v) (hn : Enough g n)
  (hD : IsDir g v D) (hsurv : OnTheWay g v D Dirent.Survives)

include h ht hone hn hD hsurv

lemma fat16GetPath_run {k : Nat} (hpath : PathTo g v D k path) (outSize : Nat) :
    ∃ t, fat16GetPath g n D outSize v.start = .ok (pathResult outSize k path) t := by
  obtain ⟨r, t, hrun, rfl⟩ := fat16GetPath_spec h ht hone hn hD hsurv hpath outSize
  exact ⟨t, hrun⟩

lemma pathLeadsBack_iff {k : Nat} (hpath : PathTo g v D k path) (outSize : Nat) :
    PathLeadsBack g n v D outSize ↔
      pathResult outSize k path = none ∨ OnTheWay g v D Dirent.Component := by
  obtain ⟨t, hrun⟩ := fat16GetPath_run h ht hone hn hD hsurv hpath outSize
  rw [pathResult] at hrun ⊢
  split at hrun
  case isFalse hlong =>
    rw [if_neg hlong]
    refine iff_of_true ?_ (.inl rfl)
    intro out u hout
    rw [hrun] at hout
    exact absurd (EStateM.Result.ok.inj hout).1 (by simp)
  case isTrue hshort =>
    rw [if_pos hshort]
    have hback := fat16ResolveDir_spec h ht hone hn hsurv hpath
    constructor
    · intro hclaim
      obtain ⟨r, u, hrun', hr⟩ := hback 0
      obtain ⟨u', hdir⟩ := hclaim _ t hrun 0
      rw [hrun'] at hdir
      exact .inr (hr.mp (EStateM.Result.ok.inj hdir).1)
    · rintro (hnone | hcomp) out u hout cwd
      · simp at hnone
      rw [hrun] at hout
      obtain rfl := Option.some.inj (EStateM.Result.ok.inj hout).1
      obtain ⟨r, u, hrun', hr⟩ := hback cwd
      rw [hr.mpr hcomp] at hrun'
      exact ⟨u, hrun'⟩

end

/-- **The path that `fat16_get_path` writes leads back to the directory** exactly if every name on
the way is one component of a path.  It is delivered if it fits and the directory is at most sixteen
levels deep. -/
theorem resolveDir_getPath (h : Tidy g v) (ht : ProperTree g v) (hone : OneEntry g v)
    (hn : Enough g n) (hD : IsDir g v D) (hsurv : OnTheWay g v D Dirent.Survives) :
    ∃ k path, (∀ k' path', PathTo g v D k' path' ↔ k' = k ∧ path' = path) ∧
      (∀ outSize, ∃ t, fat16GetPath g n D outSize v.start = .ok (pathResult outSize k path) t) ∧
      (0 : UInt8) ∉ spelled path ∧ (spelled path).head? = some 0x2F ∧
      ∀ outSize, PathLeadsBack g n v D outSize ↔
        pathResult outSize k path = none ∨ OnTheWay g v D Dirent.Component := by
  obtain ⟨k, path, hpath⟩ := (ht.below hD).exists_pathTo
  refine ⟨k, path, fun k' path' => ⟨fun hp => ?_, ?_⟩,
    fat16GetPath_run h ht hone hn hD hsurv hpath, hpath.noNul_spelled, hpath.head,
    pathLeadsBack_iff h ht hone hn hD hsurv hpath⟩
  · exact hp.unique h.sound ht hone hpath
  · rintro ⟨rfl, rfl⟩
    exact hpath

/-! ## A blank volume with one directory -/

def OneDir (v : Vol) (name : List UInt8) : Prop :=
  v.fat 2 = 0xFFFF ∧ entryAt v.disk (4, 0) = newDirectory name 2 ∧
    (∀ i < 16, i ≠ 0 → ¬ (entryAt v.disk (4, i)).Live) ∧
    ∀ i < 16, (entryAt v.disk (5, i)).Live → Dots (entryAt v.disk (5, i)).name ∧
      ((entryAt v.disk (5, i)).first = 0 ∨ (entryAt v.disk (5, i)).first = 2)

instance : DecidablePred fun v : Vol => OneDir v name := fun _ =>
  inferInstanceAs (Decidable (_ ∧ _))

namespace OneDir

variable (h : OneDir v name)

include h

lemma slot_two (hx : SlotOf smallGeo v 2 x) : x.1 = 5 ∧ x.2 < 16 := by
  obtain ⟨cs, hw, hx⟩ := hx
  have hchain : Walk v.fat Stop 2 [2] := by
    refine ⟨rfl, by decide, ?_⟩
    show Stop (v.fat 2)
    rw [h.1]
    decide
  rw [hw.unique hchain] at hx
  obtain ⟨hlba, hi⟩ := mem_slotsOf.mp hx
  exact ⟨List.mem_singleton.mp hlba, hi⟩

lemma eq_of_live (hx : SlotOf smallGeo v 0 x) (hl : (entryAt v.disk x).Live) : x = (4, 0) := by
  obtain ⟨lba, i⟩ := x
  obtain ⟨rfl, hi⟩ := slot_root hx
  by_cases h0 : i = 0
  · rw [h0]
  · exact absurd hl (h.2.2.1 i hi h0)

lemma dots_of_live (hx : SlotOf smallGeo v 2 x) (hl : (entryAt v.disk x).Live) :
    Dots (entryAt v.disk x).name ∧
      ((entryAt v.disk x).first = 0 ∨ (entryAt v.disk x).first = 2) := by
  obtain ⟨lba, i⟩ := x
  obtain ⟨rfl, hi⟩ := h.slot_two hx
  exact h.2.2.2 i hi hl

lemma isDir (hd : IsDir smallGeo v d) : d = 0 ∨ d = 2 := by
  induction hd with
  | root => exact .inl rfl
  | sub _ hx hl _ ih =>
    rcases ih with rfl | rfl
    · rw [h.eq_of_live hx hl, h.2.1]
      exact .inr rfl
    · exact (h.dots_of_live hx hl).2

lemma childEntry (hp : IsDir smallGeo v p) (hx : SlotOf smallGeo v p x)
    (hc : ChildEntry v.disk x d) : d = 2 ∧ x = (4, 0) := by
  rcases h.isDir hp with rfl | rfl
  · obtain rfl := h.eq_of_live hx hc.live
    rw [← hc.first, h.2.1]
    exact ⟨rfl, rfl⟩
  · exact absurd (h.dots_of_live hx hc.live).1 hc.not_dots

lemma oneEntry : OneEntry smallGeo v := by
  intro d p p' x x' hp hx hc hp' hx' hc'
  obtain ⟨rfl, rfl⟩ := h.childEntry hp hx hc
  obtain ⟨-, rfl⟩ := h.childEntry hp' hx' hc'
  exact ⟨by decide, rfl⟩

lemma onTheWay {P : Dirent → Prop} (hP : P (newDirectory name 2)) : OnTheWay smallGeo v D P := by
  intro d _ p x hp hx hc
  obtain ⟨-, rfl⟩ := h.childEntry hp hx hc
  rwa [h.2.1]

lemma isDir_two (hlive : (newDirectory name 2).Live) : IsDir smallGeo v 2 := by
  have hslot : SlotOf smallGeo v 0 (4, 0) := ⟨[], .inl (by decide), by decide⟩
  have hsub := IsDir.sub (.root (g := smallGeo) (v := v)) hslot
  rw [h.2.1] at hsub
  exact hsub hlive (by decide : (0x10 : UInt8) &&& 0x10 ≠ 0)

end OneDir

lemma mkdir_blank {path : CStr} {u : St} {w : Vol}
    (hr : resolvePath smallGeo 0x10002 0 path.bytes blankVol.start = .ok (.found (0, name)) u)
    (hdots : ¬ Dots name) (hw : callStep smallGeo 0x10002 blankVol (.mkdir 0 path) = some w) :
    Tidy smallGeo w ∧ ProperTree smallGeo w := by
  have hp : Possible smallGeo blankVol (.mkdir 0 path) := ⟨.root, trivial⟩
  have htidy := blankVol_tidy smallGeo_fits
  have hroot : ¬ (Call.mkdir 0 path).DotsInRoot smallGeo 0x10002 blankVol := by
    rintro ⟨name', u', hr', hdots'⟩
    obtain ⟨hfound, -⟩ := EStateM.Result.ok.inj (hr.symm.trans hr')
    obtain rfl := (Prod.mk.inj (Search.found.inj hfound)).2
    exact hdots hdots'
  obtain ⟨r, t, ht, rfl⟩ := callStep_of_ends (htidy.exec smallGeo_enough hp trivial) hw
  exact ⟨ht, (blankVol_properTree.step htidy.sound smallGeo_enough hp trivial hroot hw).2⟩

/-- `mkdir a` on a blank volume: the directory is found again from its path, wherever one is. -/
theorem resolveDir_getPath_mkdir : ∃ w t,
    callStep smallGeo 0x10002 blankVol (.mkdir 0 ⟨ascii "a", by decide⟩) = some w ∧
    fat16GetPath smallGeo 0x10002 2 128 w.start = .ok (some (ascii "/A")) t ∧
    PathLeadsBack smallGeo 0x10002 w 2 128 := by
  have hrun : (callStep smallGeo 0x10002 blankVol (.mkdir 0 ⟨ascii "a", by decide⟩)).map
      (fun w => (decide (OneDir w (to83 (ascii "a"))),
        value (fat16GetPath smallGeo 0x10002 2 128) w.start)) =
      some (true, some (some (ascii "/A"))) := by
    decide +kernel
  obtain ⟨w, hw, hfacts⟩ := Option.map_eq_some_iff.mp hrun
  obtain ⟨hone, hpwd⟩ := Prod.mk.inj hfacts
  have hone := of_decide_eq_true hone
  obtain ⟨htidy, htree⟩ := mkdir_blank rfl (by decide : ¬ Dots (to83 (ascii "a"))) hw
  obtain ⟨t, ht⟩ := value_some hpwd
  obtain ⟨k, path, -, -, -, -, hback⟩ := resolveDir_getPath htidy htree hone.oneEntry
    smallGeo_enough (hone.isDir_two (by decide)) (hone.onTheWay (by decide : to83 _ = _))
  exact ⟨w, t, hw, ht, (hback 128).mpr (.inr (hone.onTheWay ⟨by decide, by decide⟩))⟩

/-- `mkdir " "` on a blank volume: the name of the new directory is read back as it is stored, but
its path is that of the root. -/
theorem getPath_blankName : ∃ w,
    callStep smallGeo 0x10002 blankVol (.mkdir 0 ⟨ascii " ", by decide⟩) = some w ∧
    Tidy smallGeo w ∧ ProperTree smallGeo w ∧ OneEntry smallGeo w ∧ IsDir smallGeo w 2 ∧
    OnTheWay smallGeo w 2 Dirent.Survives ∧
    ∃ t t', fat16GetPath smallGeo 0x10002 2 128 w.start = .ok (some (ascii "/")) t ∧
      fat16ResolveDir smallGeo 0x10002 2 (ascii "/") w.start = .ok (.dir 0) t' := by
  have hrun : (callStep smallGeo 0x10002 blankVol (.mkdir 0 ⟨ascii " ", by decide⟩)).map
      (fun w => (decide (OneDir w (to83 (ascii " "))),
        value (fat16GetPath smallGeo 0x10002 2 128) w.start,
        value (fat16ResolveDir smallGeo 0x10002 2 (ascii "/")) w.start)) =
      some (true, some (some (ascii "/")), some (.dir 0)) := by
    decide +kernel
  obtain ⟨w, hw, hfacts⟩ := Option.map_eq_some_iff.mp hrun
  obtain ⟨hone, hvalues⟩ := Prod.mk.inj hfacts
  obtain ⟨hpwd, hcd⟩ := Prod.mk.inj hvalues
  have hone := of_decide_eq_true hone
  obtain ⟨htidy, htree⟩ := mkdir_blank rfl (by decide : ¬ Dots (to83 (ascii " "))) hw
  obtain ⟨t, ht⟩ := value_some hpwd
  obtain ⟨t', ht'⟩ := value_some hcd
  exact ⟨w, hw, htidy, htree, hone.oneEntry, hone.isDir_two (by decide),
    hone.onTheWay (by decide : to83 _ = _), t, t', ht, ht'⟩

end NullOS.Fat16
