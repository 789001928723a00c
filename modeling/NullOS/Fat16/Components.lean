import Mathlib.Data.List.TakeWhile
import NullOS.Fat16.Calls

/-!
# Paths as lists of components

`resolve_path` is the fold of `dir_lookup` over the non-empty components of the path without the
last, so neither further slashes next to a slash nor the case of letters matter to it.
-/

namespace NullOS.Fat16

open Lib

variable {g : Geo} {v : Vol} {s : St} {n d base k : Nat} {name name' path path' comp : List UInt8}
  {rest : List UInt8} {c x : UInt8} {cs cs' : List (List UInt8)} {chain : List Nat}

/-! ## Components -/

lemma dropWhile_slash (h : rest.head? ≠ some 0x2F) : rest.dropWhile (· = 0x2F) = rest := by
  cases rest with
  | nil => rfl
  | cons c rest =>
    refine List.dropWhile_cons_of_neg ?_
    simpa using h

lemma takeWhile_noSlash (h : (0x2F : UInt8) ∉ name) :
    (name ++ 0x2F :: rest).takeWhile (· ≠ 0x2F) = name := by
  rw [List.takeWhile_append_of_pos, List.takeWhile_cons_of_neg (by decide), List.append_nil]
  intro c hc
  rw [decide_eq_true_eq]
  rintro rfl
  exact h hc

lemma pathNextComponent_more (hslash : (0x2F : UInt8) ∉ name) (hlen : name.length ≤ 63) :
    pathNextComponent (name ++ 0x2F :: rest) = (name, rest.dropWhile (· = 0x2F)) := by
  rw [pathNextComponent, takeWhile_noSlash hslash, List.take_of_length_le hlen, List.drop_left,
    List.dropWhile_cons_of_pos (by decide)]

lemma pathNextComponent_last (hslash : (0x2F : UInt8) ∉ name) (hlen : name.length ≤ 63) :
    pathNextComponent name = (name, []) := by
  have htake : name.takeWhile (· ≠ 0x2F) = name := by
    rw [List.takeWhile_eq_self_iff]
    intro c hc
    rw [decide_eq_true_eq]
    rintro rfl
    exact hslash hc
  rw [pathNextComponent, htake, List.take_of_length_le hlen, List.drop_length, List.dropWhile_nil]

def components (path : List UInt8) : List (List UInt8) :=
  (path.splitOnP (· = 0x2F)).filter (· ≠ [])

lemma components_nil : components [] = [] := by decide

lemma components_append_slash (p q : List UInt8) :
    components (p ++ 0x2F :: q) = components p ++ components q := by
  rw [components, List.splitOnP_append_cons p q (by decide), List.filter_append]
  rfl

lemma components_slash (q : List UInt8) : components (0x2F :: q) = components q :=
  components_append_slash [] q

lemma components_dropWhile (path : List UInt8) :
    components (path.dropWhile (· = 0x2F)) = components path := by
  induction path with
  | nil => rfl
  | cons c path ih =>
    by_cases hc : c = 0x2F
    · rw [List.dropWhile_cons_of_pos (by simpa using hc), ih, hc, components_slash]
    · rw [List.dropWhile_cons_of_neg (by simpa using hc)]

lemma components_single (h : (0x2F : UInt8) ∉ comp) (hne : comp ≠ []) :
    components comp = [comp] := by
  rw [components, List.splitOnP_eq_singleton, List.filter_cons_of_pos (by simpa using hne),
    List.filter_nil]
  intro c hc
  rw [decide_eq_false_iff_not]
  rintro rfl
  exact h hc

lemma mem_components (h : comp ∈ components path) :
    (0x2F : UInt8) ∉ comp ∧ comp.length ≤ path.length := by
  rw [components, List.mem_filter] at h
  replace h := h.1
  induction path generalizing comp with
  | nil =>
    obtain rfl := List.mem_singleton.mp h
    exact ⟨List.not_mem_nil, Nat.le_refl _⟩
  | cons c path ih =>
    rw [List.splitOnP_cons_eq_if_modifyHead] at h
    split at h
    case isTrue =>
      rcases List.mem_cons.mp h with rfl | h
      · exact ⟨List.not_mem_nil, Nat.zero_le _⟩
      · exact (ih h).imp_right fun hle => hle.trans (Nat.le_succ _)
    case isFalse hc =>
      cases hsplit : path.splitOnP (· = 0x2F) with
      | nil => exact absurd (hsplit ▸ h) List.not_mem_nil
      | cons l ls =>
        rw [hsplit, List.modifyHead_cons] at h
        rw [hsplit] at ih
        rcases List.mem_cons.mp h with rfl | h
        · obtain ⟨hslash, hlen⟩ := ih List.mem_cons_self
          refine ⟨?_, Nat.succ_le_succ hlen⟩
          rw [List.mem_cons]
          rintro (rfl | hmem)
          · exact hc (decide_eq_true rfl)
          · exact hslash hmem
        · exact (ih (List.mem_cons_of_mem _ h)).imp_right fun hle => hle.trans (Nat.le_succ _)

lemma exists_first (hne : path ≠ []) (hs : path.head? ≠ some 0x2F) :
    ∃ comp, (0x2F : UInt8) ∉ comp ∧ comp ≠ [] ∧
      (path = comp ∨ ∃ rest, path = comp ++ 0x2F :: rest) := by
  have hsplit := List.takeWhile_append_dropWhile (p := (· ≠ (0x2F : UInt8))) (l := path)
  refine ⟨path.takeWhile (· ≠ 0x2F), fun hmem => ?_, ?_, ?_⟩
  · simpa using List.mem_takeWhile_imp hmem
  · cases path with
    | nil => exact absurd rfl hne
    | cons c path =>
      have hc : c ≠ 0x2F := by simpa using hs
      rw [List.takeWhile_cons_of_pos (by simpa using hc)]
      exact List.cons_ne_nil _ _
  · cases htail : path.dropWhile (· ≠ 0x2F) with
    | nil =>
      rw [htail, List.append_nil] at hsplit
      exact .inl hsplit.symm
    | cons c rest =>
      have hc := List.head?_dropWhile_not (· ≠ (0x2F : UInt8)) path
      rw [htail] at hc hsplit
      obtain rfl : c = 0x2F := by simpa using hc
      exact .inr ⟨rest, hsplit.symm⟩

lemma components_next (hne : path ≠ []) (hs : path.head? ≠ some 0x2F)
    (h63 : ∀ c ∈ components path, c.length ≤ 63) :
    components path = (pathNextComponent path).1 :: components (pathNextComponent path).2 := by
  obtain ⟨comp, hslash, hcomp, rfl | ⟨rest, rfl⟩⟩ := exists_first hne hs
  · rw [components_single hslash hcomp] at h63 ⊢
    rw [pathNextComponent_last hslash (h63 _ List.mem_cons_self), components_nil]
  · rw [components_append_slash, components_single hslash hcomp, List.singleton_append] at h63 ⊢
    rw [pathNextComponent_more hslash (h63 _ List.mem_cons_self), components_dropWhile]

/-! ## Lookup along the components -/

def value {α : Type} (m : Fs α) (s : St) : Option α :=
  match m s with
  | .ok a _ => some a
  | .error _ _ => none

lemma value_some {α : Type} {m : Fs α} {a : α} (h : value m s = some a) : ∃ t, m s = .ok a t := by
  rw [value] at h
  split at h
  · obtain rfl := Option.some.inj h
    exact ⟨_, by assumption⟩
  · exact absurd h nofun

def Search.directory : Search Hit → Option Nat
  | .found h => if h.entry.Directory then some h.entry.first else none
  | _ => none

def subdirectory (g : Geo) (n : Nat) (v : Vol) (d : Nat) (comp : List UInt8) : Option Nat :=
  (value (dirLookup g n d (to83 comp)) v.start).bind Search.directory

/-- What `resolve_path` is to deliver: the fold of `dir_lookup` over all components but the last,
and the stored name of the last. -/
def resolved (g : Geo) (n : Nat) (v : Vol) (d : Nat) (cs : List (List UInt8)) :
    Search (Nat × List UInt8) :=
  match cs.getLast?, cs.dropLast.foldlM (subdirectory g n v) d with
  | some last, some parent => .found (parent, to83 last)
  | _, _ => .missing

lemma resolved_cons (hcs : cs ≠ []) : resolved g n v d (comp :: cs) =
    match subdirectory g n v d comp with
    | some d' => resolved g n v d' cs
    | none => .missing := by
  rw [resolved, List.dropLast_cons_of_ne_nil hcs, List.foldlM_cons]
  cases subdirectory g n v d comp with
  | none => cases cs with
    | nil => exact absurd rfl hcs
    | cons c cs => rfl
  | some d' => cases cs with
    | nil => exact absurd rfl hcs
    | cons c cs => rfl

/-- The directories that a path can lead to: the root directory, the base directory and the
directories in them. -/
inductive Reached (g : Geo) (v : Vol) (base : Nat) : Nat → Prop
  | root : Reached g v base 0
  | base : Reached g v base base
  | child {d : Nat} {chain : List Nat} {x : Slot} : Reached g v base d →
      DirChain g v.fat d chain → x ∈ slotsOf (dirSectors g d chain) → (entryAt v.disk x).Live →
      (entryAt v.disk x).Directory → Reached g v base (entryAt v.disk x).first

/-- The chain of every directory that a path can lead to comes to an end. -/
def Acyclic (g : Geo) (v : Vol) (base : Nat) : Prop :=
  ∀ d, Reached g v base d → ∃ chain, DirChain g v.fat d chain

lemma LookupSpec.unique {s' : St} {l : List Slot} {r r' : Search Hit}
    (h : LookupSpec s name l r) (h' : LookupSpec s' name l r') (hvol : s'.vol = s.vol)
    (hio : s.io = working) (hio' : s'.io = working) : r' = r := by
  cases r with
  | ioError => exact absurd hio (h.ioError rfl)
  | missing =>
    have hnone := h.missing rfl
    cases r' with
    | ioError => exact absurd hio' (h'.ioError rfl)
    | missing => rfl
    | found hit =>
      obtain ⟨hslot, -⟩ := h'.found hit rfl
      rw [hvol, hnone] at hslot
      simp at hslot
  | found hit =>
    obtain ⟨hslot, hentry, hbuf⟩ := h.found hit rfl
    cases r' with
    | ioError => exact absurd hio' (h'.ioError rfl)
    | missing =>
      have hnone := h'.missing rfl
      rw [hvol, hslot] at hnone
      simp at hnone
    | found hit' =>
      obtain ⟨hslot', hentry', hbuf'⟩ := h'.found hit' rfl
      rw [hvol] at hslot' hentry' hbuf'
      rw [hslot] at hslot'
      obtain ⟨hlba, hindex⟩ := Prod.mk.inj (Option.some.inj hslot')
      rw [← hlba, ← hindex, ← hentry] at hentry'
      rw [← hlba, ← hbuf] at hbuf'
      cases hit
      cases hit'
      simp_all

lemma DirChain.dirLookup_value (h : DirChain g s.vol.fat d chain) (hn : Enough g n)
    (hio : s.io = working) :
    Ends (dirLookup g n d name) s fun r t => Reads s t ∧
      LookupSpec s name (slotsOf (dirSectors g d chain)) r ∧
      value (dirLookup g n d name) s.vol.start = some r := by
  refine (h.dirLookup_spec hn).mono ?_
  rintro r t ⟨hreads, hlook⟩
  have hends : Ends (dirLookup g n d name) s.vol.start _ :=
    DirChain.dirLookup_spec (s := s.vol.start) h hn
  obtain ⟨r', t', hrun, -, hlook'⟩ := hends
  obtain rfl := hlook.unique hlook' rfl hio rfl
  refine ⟨hreads, hlook, ?_⟩
  rw [value, hrun]

lemma resolveLoop_components (hdirs : Acyclic g s.vol base) (hn : Enough g n)
    (hio : s.io = working) (hd : Reached g s.vol base d) (hk : path.length ≤ k) (hne : path ≠ [])
    (hs : path.head? ≠ some 0x2F) (h63 : ∀ c ∈ components path, c.length ≤ 63) :
    Ends (resolveLoop g n k d path) s fun r t =>
      Reads s t ∧ r = resolved g n s.vol d (components path) ∧
        ∀ p, r = .found p → Reached g s.vol base p.1 := by
  induction k generalizing d path s with
  | zero => exact absurd (List.length_eq_zero_iff.mp (Nat.le_zero.mp hk)) hne
  | succ k ih =>
    have hcomps := components_next hne hs h63
    rw [resolveLoop, hcomps]
    rw [hcomps] at h63
    split
    case isTrue hlast =>
      rw [hlast, components_nil]
      refine .pure ⟨.refl s, rfl, ?_⟩
      rintro _ ⟨⟩
      exact hd
    case isFalse hmore =>
      have hrest := components_next hmore head_next fun c hc => h63 c (List.mem_cons_of_mem _ hc)
      have hcs : components (pathNextComponent path).2 ≠ [] := by
        rw [hrest]
        exact List.cons_ne_nil _ _
      rw [resolved_cons hcs]
      obtain ⟨chain, hchain⟩ := hdirs d hd
      refine (hchain.dirLookup_value hn hio).seq ?_
      rintro r t ⟨hreads, hlook, hvalue⟩
      rw [subdirectory, hvalue, Option.bind_some]
      cases r with
      | ioError => exact absurd hio (hlook.ioError rfl)
      | missing => exact .pure ⟨hreads, rfl, by simp⟩
      | found hit =>
        obtain ⟨hx, hentry, -⟩ := hlook.found hit rfl
        obtain ⟨hmem, hlive, -⟩ := lookupSlot_some hx
        dsimp only [Search.directory]
        split
        case isFalse hdir => exact .pure ⟨hreads, rfl, by simp⟩
        case isTrue hdir =>
          have hlen := length_next_lt hne hs
          have hchild : Reached g s.vol base hit.entry.first := by
            rw [hentry] at hdir ⊢
            exact .child hd hchain hmem hlive hdir
          rw [← hreads.vol] at hdirs hchild ⊢
          refine (ih hdirs (hreads.io hio) hchild (by omega) hmore head_next
            fun c hc => h63 c (List.mem_cons_of_mem _ hc)).mono ?_
          rintro r u ⟨hreads', hr⟩
          exact ⟨hreads.trans hreads', hr⟩

def startOf (base : Nat) (path : List UInt8) : Nat := if path.head? = some 0x2F then 0 else base

lemma reached_startOf : Reached g v base (startOf base path) := by
  rw [startOf]
  split
  · exact .root
  · exact .base

lemma resolvePath_components (hdirs : Acyclic g s.vol base) (hn : Enough g n)
    (hio : s.io = working) (h63 : ∀ c ∈ components path, c.length ≤ 63) :
    Ends (resolvePath g n base path) s fun r t =>
      Reads s t ∧ r = resolved g n s.vol (startOf base path) (components path) ∧
        ∀ p, r = .found p → Reached g s.vol base p.1 := by
  rw [← components_dropWhile] at h63 ⊢
  rw [resolvePath]
  split
  case isTrue hnil =>
    rw [hnil]
    exact .pure ⟨.refl s, rfl, by simp⟩
  case isFalse hne =>
    refine resolveLoop_components hdirs hn hio reached_startOf (Nat.le_refl _) hne ?_ h63
    intro h
    have hnot := List.head?_dropWhile_not (· = (0x2F : UInt8)) path
    rw [h] at hnot
    simp at hnot

def located (g : Geo) (n : Nat) (v : Vol) : Search (Nat × List UInt8) → Search FileRef
  | .found (parent, name83) =>
      match value (dirLookup g n parent name83) v.start with
      | some (.found h) =>
          if h.entry.VolumeId ∨ h.entry.Directory then .missing
          else .found { first := h.entry.first, size := h.entry.size, parent }
      | _ => .missing
  | .missing => .missing
  | .ioError => .ioError

lemma fat16Find_components (hdirs : Acyclic g s.vol base) (hn : Enough g n)
    (hio : s.io = working) (h63 : ∀ c ∈ components path, c.length ≤ 63) :
    Ends (fat16Find g n base path) s fun r _ => r =
      if s.vol.ready then
        located g n s.vol (resolved g n s.vol (startOf base path) (components path))
      else .missing := by
  show Ends (if s.vol.ready = true then _ else _) s _
  split
  case isFalse => exact .pure rfl
  case isTrue =>
    refine (resolvePath_components hdirs hn hio h63).seq ?_
    rintro r t ⟨hreads, hr, hparent⟩
    rw [← hr]
    cases r with
    | missing => exact .pure rfl
    | ioError => exact .pure rfl
    | found p =>
      obtain ⟨parent, name83⟩ := p
      obtain ⟨chain, hchain⟩ := hdirs parent (hparent _ rfl)
      rw [← hreads.vol] at hchain
      refine (hchain.dirLookup_value hn (hreads.io hio)).seq ?_
      rintro r u ⟨-, hlook, hvalue⟩
      rw [located, ← hreads.vol, hvalue]
      cases r with
      | missing => exact .pure rfl
      | ioError => exact absurd (hreads.io hio) (hlook.ioError rfl)
      | found h =>
        dsimp only
        split
        · exact .pure rfl
        · exact .pure rfl

/-! ## Other spellings of a path -/

lemma toNat_fat16Toupper (c : UInt8) : (fat16Toupper c).toNat =
    if 97 ≤ c.toNat ∧ c.toNat ≤ 122 then c.toNat - 32 else c.toNat := by
  have hiff : (0x61 ≤ c ∧ c ≤ 0x7A) ↔ 97 ≤ c.toNat ∧ c.toNat ≤ 122 := by
    rw [UInt8.le_iff_toNat_le, UInt8.le_iff_toNat_le]
    rfl
  rw [fat16Toupper]
  by_cases h : 0x61 ≤ c ∧ c ≤ 0x7A
  · rw [if_pos h, if_pos (hiff.mp h), UInt8.toNat_sub_of_le]
    · rfl
    · rw [UInt8.le_iff_toNat_le]
      exact Nat.le_trans (by decide : 32 ≤ 97) (hiff.mp h).1
  · rw [if_neg h, if_neg fun h' => h (hiff.mpr h')]

lemma fat16Toupper_idem (c : UInt8) : fat16Toupper (fat16Toupper c) = fat16Toupper c := by
  have hnat := toNat_fat16Toupper c
  rw [← UInt8.toNat_inj, toNat_fat16Toupper (fat16Toupper c)]
  split at hnat
  · rw [if_neg (by omega)]
  · rw [if_neg (by omega)]

lemma fat16Toupper_eq (hx : x.toNat < 65) (h : fat16Toupper c = x) : c = x := by
  have hnat := toNat_fat16Toupper c
  rw [h] at hnat
  rw [← UInt8.toNat_inj]
  split at hnat <;> omega

lemma fat16Toupper_eq_iff {c x : UInt8} (hx : x.toNat < 65) : fat16Toupper c = x ↔ c = x := by
  refine ⟨fat16Toupper_eq hx, ?_⟩
  rintro rfl
  rw [← UInt8.toNat_inj, toNat_fat16Toupper, if_neg (by omega)]

lemma map_toupper_eq_dots {k : Nat} :
    name.map fat16Toupper = List.replicate k 0x2E ↔ name = List.replicate k 0x2E := by
  rw [List.eq_replicate_iff, List.eq_replicate_iff, List.length_map, List.forall_mem_map]
  simp only [fat16Toupper_eq_iff (by decide : (0x2E : UInt8).toNat < 65)]

lemma to83_toupper : to83 (name.map fat16Toupper) = to83 name := by
  have hdot : ((fun c : UInt8 => decide (c ≠ 0x2E)) ∘ fat16Toupper) =
      fun c => decide (c ≠ 0x2E) := by
    funext c
    exact decide_eq_decide.mpr (not_congr (fat16Toupper_eq_iff (by decide)))
  have hidem : fat16Toupper ∘ fat16Toupper = fat16Toupper := funext fat16Toupper_idem
  have h1 : name.map fat16Toupper = [0x2E] ↔ name = [0x2E] := map_toupper_eq_dots (k := 1)
  have h2 : name.map fat16Toupper = [0x2E, 0x2E] ↔ name = [0x2E, 0x2E] :=
    map_toupper_eq_dots (k := 2)
  rw [to83, to83, List.takeWhile_map, List.dropWhile_map, hdot, ← List.map_take, ← List.map_drop,
    ← List.map_take, List.map_map, List.map_map, hidem]
  exact if_congr h1 rfl (if_congr h2 rfl rfl)

lemma splitOnP_map_toupper (path : List UInt8) :
    (path.map fat16Toupper).splitOnP (· = 0x2F) =
      (path.splitOnP (· = 0x2F)).map (List.map fat16Toupper) := by
  induction path with
  | nil => rfl
  | cons c path ih =>
    rw [List.map_cons, List.splitOnP_cons_eq_if_modifyHead, List.splitOnP_cons_eq_if_modifyHead, ih]
    simp only [fat16Toupper_eq_iff (by decide : (0x2F : UInt8).toNat < 65)]
    split
    · rfl
    · cases path.splitOnP (· = 0x2F) with
      | nil => rfl
      | cons _ _ => rfl

lemma components_toupper (path : List UInt8) :
    components (path.map fat16Toupper) = (components path).map (List.map fat16Toupper) := by
  rw [components, components, splitOnP_map_toupper, List.filter_map]
  congr 2
  funext c
  simp

lemma resolved_toupper :
    resolved g n v d (cs.map (List.map fat16Toupper)) = resolved g n v d cs := by
  have hsub : (fun d c => subdirectory g n v d (List.map fat16Toupper c)) = subdirectory g n v := by
    funext d c
    rw [subdirectory, to83_toupper, subdirectory]
  rw [resolved, resolved, ← List.map_dropLast, List.foldlM_map, List.getLast?_map, hsub]
  cases cs.getLast? with
  | none => rfl
  | some last =>
    cases cs.dropLast.foldlM (subdirectory g n v) d with
    | none => rfl
    | some parent => exact congrArg (fun name => Search.found (parent, name)) to83_toupper

/-- Another spelling of a path: with one more slash next to a slash, or with some letters in the
other case. -/
inductive Respelled : List UInt8 → List UInt8 → Prop
  | slash (p q : List UInt8) : Respelled (p ++ 0x2F :: q) (p ++ 0x2F :: 0x2F :: q)
  | letters {path path' : List UInt8} : path'.map fat16Toupper = path.map fat16Toupper →
      Respelled path path'

structure SameWay (path path' : List UInt8) : Prop where
  absolute : path'.head? = some 0x2F ↔ path.head? = some 0x2F
  components : (components path').map (List.map fat16Toupper) =
    (components path).map (List.map fat16Toupper)

lemma head?_map_toupper :
    (path.map fat16Toupper).head? = some 0x2F ↔ path.head? = some 0x2F := by
  cases path with
  | nil => rfl
  | cons c path =>
    rw [List.map_cons, List.head?_cons, List.head?_cons, Option.some_inj, Option.some_inj]
    exact fat16Toupper_eq_iff (by decide)

lemma Respelled.sameWay (h : Respelled path path') : SameWay path path' := by
  cases h with
  | slash p q =>
    refine ⟨?_, ?_⟩
    · cases p with
      | nil => exact Iff.rfl
      | cons c p => exact Iff.rfl
    · rw [components_append_slash, components_append_slash, components_slash]
  | letters h =>
    refine ⟨?_, ?_⟩
    · rw [← head?_map_toupper, h, head?_map_toupper]
    · rw [← components_toupper, h, components_toupper]

lemma sameWay_of_respelled (h : Relation.ReflTransGen Respelled path path') :
    SameWay path path' := by
  induction h with
  | refl => exact ⟨Iff.rfl, rfl⟩
  | tail _ hstep ih =>
    have hway := hstep.sameWay
    exact ⟨hway.absolute.trans ih.absolute, hway.components.trans ih.components⟩

lemma SameWay.startOf_eq (h : SameWay path path') : startOf base path' = startOf base path := by
  rw [startOf, startOf]
  exact if_congr h.absolute rfl rfl

lemma SameWay.resolved_eq (h : SameWay path path') :
    resolved g n v d (Fat16.components path') = resolved g n v d (Fat16.components path) := by
  rw [← resolved_toupper, h.components, resolved_toupper]

lemma SameWay.length_le (h : SameWay path path')
    (h63 : ∀ c ∈ Fat16.components path, c.length ≤ k) :
    ∀ c ∈ Fat16.components path', c.length ≤ k := by
  intro c hc
  have hmem := List.mem_map_of_mem (f := List.map fat16Toupper) hc
  rw [h.components, List.mem_map] at hmem
  obtain ⟨b, hb, heq⟩ := hmem
  have hlen := congrArg List.length heq
  rw [List.length_map, List.length_map] at hlen
  exact hlen ▸ h63 b hb

/-- **Path resolution is the fold of lookups** over the components, for every volume whose directory
chains come to an end.  No spelling of the path changes what `fat16_find` delivers. -/
theorem resolvePath_fold (hdirs : Acyclic g v base) (hn : Enough g n)
    (h63 : ∀ c ∈ components path, c.length ≤ 63) :
    (∃ t, resolvePath g n base path v.start =
      .ok (resolved g n v (startOf base path) (components path)) t) ∧
    ∃ r t, fat16Find g n base path v.start = .ok r t ∧
      ∀ path', Relation.ReflTransGen Respelled path path' →
        ∃ t', fat16Find g n base path' v.start = .ok r t' := by
  have hends : Ends (resolvePath g n base path) v.start _ :=
    resolvePath_components (s := v.start) hdirs hn rfl h63
  obtain ⟨_, t, hrun, -, rfl, -⟩ := hends
  refine ⟨⟨t, hrun⟩, ?_⟩
  have hfind : Ends (fat16Find g n base path) v.start _ :=
    fat16Find_components (s := v.start) hdirs hn rfl h63
  obtain ⟨r, t, hrun, hr⟩ := hfind
  refine ⟨r, t, hrun, fun path' hpath => ?_⟩
  have hway := sameWay_of_respelled hpath
  have hfind' : Ends (fat16Find g n base path') v.start _ :=
    fat16Find_components (s := v.start) hdirs hn rfl (hway.length_le h63)
  obtain ⟨r', t', hrun', hr'⟩ := hfind'
  rw [hway.startOf_eq, hway.resolved_eq, ← hr] at hr'
  rw [hrun', hr']
  exact ⟨t', rfl⟩

lemma acyclic_oneFile (hname : name.length = 11) : Acyclic smallGeo (oneFile 4 name) 0 := by
  intro d hd
  refine ⟨[], .inl ?_⟩
  induction hd with
  | root => rfl
  | base => rfl
  | child _ _ _ hl hdir _ =>
    rw [oneFile_eq_of_live hl] at hdir
    exact absurd hdir (oneFile_not_directory hname)

/-- On a volume with one file, `/a` and `//A` are the same file. -/
theorem resolvePath_fold_oneFile :
    ∃ r t, fat16Find smallGeo 0x10002 0 (ascii "/a") (oneFile 4 (to83 (ascii "a"))).start =
        .ok r t ∧
      ∃ t', fat16Find smallGeo 0x10002 0 (ascii "//A") (oneFile 4 (to83 (ascii "a"))).start =
        .ok r t' := by
  have h63 : ∀ c ∈ components (ascii "/a"), c.length ≤ 63 := by decide +kernel
  obtain ⟨-, r, t, hrun, hother⟩ := resolvePath_fold
    (acyclic_oneFile (length_to83 (ascii "a"))) smallGeo_enough h63
  refine ⟨r, t, hrun, hother _ ?_⟩
  have hslash : Respelled (ascii "/a") (ascii "//a") := .slash [] [0x61]
  have hcase : Respelled (ascii "//a") (ascii "//A") := .letters (by decide)
  exact (Relation.ReflTransGen.single hslash).tail hcase

end NullOS.Fat16
