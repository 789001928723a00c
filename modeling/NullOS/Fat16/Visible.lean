import NullOS.Fat16.Readdir
import NullOS.Fat16.Tree
import Mathlib.Data.List.TakeWhile

/-!
# Created entries

After `fat16_create` and `fat16_mkdir` every path leads where it led before.  The path of the call
leads to the entry, unless the stored name begins with the byte `0xE5`: such an entry counts as
deleted, and the call returns 0 for an entry that no lookup finds.
-/

namespace NullOS.Fat16

open Lib

variable {g : Geo} {v w : Vol} {lay lay' : Layout} {s t : St} {n d P N c lba : Nat} {x : Slot}
  {e : Dirent} {name path : List UInt8} {C : List UInt8} {l : List Slot} {disk : Nat → Mem}
  {Q : Nat → Dirent → Prop}

/-! ## What is kept -/

lemma Valid.sector_not_file (hv : Valid g v lay) (hlba : lba ∈ lay.sectors g d)
    (hc : c ∈ lay.chain (.file x)) : lba ∉ clusterLbas g c := by
  intro hmem
  have hcluster := (hv.used _ c hc).1
  by_cases hd : d = 0
  · subst hd
    have hlt := (mem_rootSectors hlba).2
    have hge := dataStartLba_le hv.fits hcluster hmem
    omega
  · obtain ⟨b, hb, hmem'⟩ := (mem_sectors_iff hd).mp hlba
    have heq := clusterLbas_disjoint hv.fits hcluster (hv.used _ b hb).1 hmem hmem'
    rw [← heq] at hb
    exact hv.disjoint (.dir d) (.file x) (by simp) c hb hc

namespace Move

variable {p q : Vol × Layout}

lemma file (hv : Valid g p.1 p.2) (h : Move g Q p q) (hl : (entryAt p.1.disk x).Live) :
    q.2.chain (.file x) = p.2.chain (.file x) ∧ ∀ c ∈ p.2.chain (.file x),
      q.1.fat c = p.1.fat c ∧ ∀ lba ∈ clusterLbas g c, q.1.disk lba = p.1.disk lba := by
  have hused : ∀ c ∈ p.2.chain (.file x), ∀ lba ∈ clusterLbas g c, p.2.Used g lba :=
    fun c hc lba hlba => .inr ⟨_, c, hc, hlba⟩
  cases h with
  | hidden h => exact ⟨rfl, fun c hc => ⟨h.fat _ c hc, fun lba hlba => h.disk lba
      (hused c hc lba hlba)⟩⟩
  | grow h =>
    exact ⟨Layout.grow_chain_of_ne (by simp), fun c hc =>
      ⟨h.fat_of_ne hv (by simp) hc, fun lba hlba => h.disk lba (hused c hc lba hlba)⟩⟩
  | @put v v' lay lay' P y e _ h he =>
    refine ⟨?_, fun c hc => ⟨h.fat _ c hc, fun lba hlba => h.disk lba (hused c hc lba hlba) ?_⟩⟩
    · cases he with
      | dead => rfl
      | file =>
        refine Layout.setFile_chain_of_ne fun heq => ?_
        rw [Owner.file.inj heq] at hl
        exact h.free.not_live hl
      | dir => exact Layout.addDir_chain_of_ne (by simp)
    · rintro rfl
      exact hv.sector_not_file (mem_slotsOf.mp h.mem).1 hc hlba

lemma keeps (hv : Valid g p.1 p.2) (h : Move g Q p q) (hd : p.2.isDir d) (hx : x ∈ p.2.slots g d)
    (hl : (entryAt p.1.disk x).Live) : x ∈ q.2.slots g d ∧
      entryAt q.1.disk x = entryAt p.1.disk x ∧
      (¬ (entryAt p.1.disk x).Directory → HasContent g p.1 x C → HasContent g q.1 x C) := by
  have hentry := h.entry_eq hv hd hx hl
  refine ⟨?_, hentry, fun hdir hC => ?_⟩
  · obtain ⟨more, hmore⟩ := h.slots_append hv hd
    rw [hmore]
    exact List.mem_append_left _ hx
  · have hchain := hv.file d hd x hx hl hdir
    obtain ⟨hsize, rfl⟩ := hC.layout hv hchain
    have hsame := (h.file hv hl).2
    refine ⟨p.2.chain (.file x), ?_, ?_, ?_⟩
    · rw [hentry]
      exact hchain.congr fun c hc => (hsame c hc).1
    · rwa [hentry]
    · rw [hentry]
      refine (contentOf_congr fun i hi => ?_).symm
      exact fileByte_congr (Nat.lt_of_lt_of_le hi hsize) fun c hc => (hsame c hc).2

end Move

namespace Moves

variable {p q : Vol × Layout}

lemma keeps (h : Moves g Q p q) (hv : Valid g p.1 p.2) (hd : p.2.isDir d)
    (hx : x ∈ p.2.slots g d) (hl : (entryAt p.1.disk x).Live) : x ∈ q.2.slots g d ∧
      entryAt q.1.disk x = entryAt p.1.disk x ∧
      (¬ (entryAt p.1.disk x).Directory → HasContent g p.1 x C → HasContent g q.1 x C) := by
  refine (h.induct (I := fun u => u.2.isDir d ∧ x ∈ u.2.slots g d ∧
    entryAt u.1.disk x = entryAt p.1.disk x ∧ (¬ (entryAt p.1.disk x).Directory →
      HasContent g p.1 x C → HasContent g u.1 x C)) hv ⟨hd, hx, rfl, fun _ hC => hC⟩ ?_).2.2
  rintro u u' hu hm ⟨hd, hx, hentry, hcontent⟩
  obtain ⟨hx', hentry', hcontent'⟩ := hm.keeps hu hd hx (by rwa [hentry])
  rw [hentry] at hentry' hcontent'
  exact ⟨hm.isDir hd, hx', hentry', fun hdir hC => hcontent' hdir (hcontent hdir hC)⟩

lemma lookup (h : Moves g Q p q) (hv : Valid g p.1 p.2) (hd : p.2.isDir d)
    (hx : lookupSlot p.1.disk name (p.2.slots g d) = some x) :
    lookupSlot q.1.disk name (q.2.slots g d) = some x :=
  (h.induct (I := fun u => u.2.isDir d ∧ lookupSlot u.1.disk name (u.2.slots g d) = some x) hv
    ⟨hd, hx⟩ fun _ _ hv hm hi => ⟨hm.isDir hi.1, hm.lookup hv hi.1 hi.2⟩).2.2

lemma isDir_kept (h : Moves g Q (v, lay) (w, lay')) (hv : Valid g v lay) (hd : IsDir g v d) :
    IsDir g w d := by
  induction hd with
  | root => exact .root
  | @sub d x hd hslot hl hdir ih =>
    have hd' := hv.walkable.isDir hd
    obtain ⟨hx, hentry, -⟩ := h.keeps (C := []) hv hd' ((hv.walkable.slots_iff hd').mp hslot) hl
    have hslot' := ((h.valid hv).walkable.slots_iff (h.isDir hv hd')).mpr hx
    dsimp only at hentry
    rw [← hentry] at hl hdir ⊢
    exact .sub ih hslot' hl hdir

end Moves

/-! ## Paths -/

/-- The path leads to the entry in slot `x` of the directory `P`. -/
def LeadsTo (g : Geo) (disk : Nat → Mem) (lay : Layout) (d : Nat) (path : List UInt8) (P : Nat)
    (x : Slot) : Prop :=
  ∃ name, ResolvesPath g disk lay d path (P, name) ∧
    lookupSlot disk name (lay.slots g P) = some x

lemma ResolvesPath.unique {r r' : Nat × List UInt8} (h : ResolvesPath g disk lay d path r)
    (h' : ResolvesPath g disk lay d path r') : r = r' :=
  h.2.unique h'.2

namespace LeadsTo

lemma unique {P' : Nat} {x' : Slot} (h : LeadsTo g disk lay d path P x)
    (h' : LeadsTo g disk lay d path P' x') : P = P' ∧ x = x' := by
  obtain ⟨name, hres, hx⟩ := h
  obtain ⟨name', hres', hx'⟩ := h'
  obtain ⟨rfl, rfl⟩ := Prod.mk.inj (hres.unique hres')
  exact ⟨rfl, Option.some.inj (hx.symm.trans hx')⟩

lemma mem (h : LeadsTo g v.disk lay d path P x) (hwalk : Walkable g v lay) (hd : lay.isDir d) :
    lay.isDir P ∧ x ∈ lay.slots g P ∧ (entryAt v.disk x).Live := by
  obtain ⟨name, hres, hx⟩ := h
  obtain ⟨hmem, hl, -⟩ := lookupSlot_some hx
  exact ⟨(ResolvesPath.spec hwalk hd hres).1, hmem, hl⟩

end LeadsTo

lemma Moves.resolvesPath {r : Nat × List UInt8} (h : Moves g Q (v, lay) (w, lay'))
    (hv : Valid g v lay) (hd : lay.isDir d) (hr : ResolvesPath g v.disk lay d path r) :
    ResolvesPath g w.disk lay' d path r := by
  refine ⟨hr.1, h.resolves hv ?_ hr.2⟩
  split
  · exact hv.root
  · exact hd

lemma Moves.leadsTo (h : Moves g Q (v, lay) (w, lay')) (hv : Valid g v lay) (hd : lay.isDir d)
    (hx : LeadsTo g v.disk lay d path P x) : LeadsTo g w.disk lay' d path P x := by
  obtain ⟨name, hres, hslot⟩ := hx
  exact ⟨name, h.resolvesPath hv hd hres,
    h.lookup hv (ResolvesPath.spec hv.walkable hd hres).1 hslot⟩

lemma not_leadsTo (hres : ResolvesPath g disk lay d path (P, name))
    (hnone : lookupSlot disk name (lay.slots g P) = none) (P' : Nat) (x : Slot) :
    ¬ LeadsTo g disk lay d path P' x := by
  rintro ⟨name', hres', hx⟩
  obtain ⟨rfl, rfl⟩ := Prod.mk.inj (hres.unique hres')
  exact absurd (hnone.symm.trans hx) (by simp)

section Answers

variable {α : Type} {f : Nat → Dirent → α} {z b r : α}
  {k : Nat → List UInt8 → Search Hit → Fs α} {m : Fs α}

/-- The answer to a question about a path: `f` of the entry that it leads to, or `z`. -/
def Answers (g : Geo) (disk : Nat → Mem) (lay : Layout) (d : Nat) (path : List UInt8)
    (f : Nat → Dirent → α) (z r : α) : Prop :=
  (∃ P x, LeadsTo g disk lay d path P x ∧ r = f P (entryAt disk x)) ∨
    (∀ P x, ¬ LeadsTo g disk lay d path P x) ∧ r = z

lemma answers_rule (hv : Valid g s.vol lay) (hd : lay.isDir d) (hn : Enough g n)
    (hio : s.io = working) (hmissing : ∀ P name, k P name .missing = pure z)
    (hfound : ∀ P name hit, hit.entry.Live → k P name (.found hit) = pure (f P hit.entry)) :
    Ends (do
      let r ← resolvePath g n d path
      match r with
      | .missing => pure z
      | .ioError => pure b
      | .found (parent, name83) => do
          let found ← dirLookup g n parent name83
          k parent name83 found) s fun r _ => Answers g s.vol.disk lay d path f z r := by
  refine lookupPath_rule hv.walkable hd hn ?_ (fun t _ h => absurd hio h) ?_
  · exact fun t _ hnone => .inr ⟨fun P x hlead => hnone _ hlead.choose_spec.1, rfl⟩
  · intro P name r t _ hres hlook
    cases r with
    | ioError => exact absurd hio (hlook.ioError rfl)
    | missing =>
      rw [hmissing]
      exact .pure (.inr ⟨not_leadsTo hres (hlook.missing rfl), rfl⟩)
    | found hit =>
      obtain ⟨hslot, hentry, -⟩ := hlook.found hit rfl
      obtain ⟨-, hl, -⟩ := lookupSlot_some hslot
      rw [hfound P name hit (by rwa [hentry]), hentry]
      exact .pure (.inl ⟨P, _, ⟨name, hres, hslot⟩, rfl⟩)

lemma answer_of_leadsTo (h : Ends m s fun r _ => Answers g disk lay d path f z r)
    (hlead : LeadsTo g disk lay d path P x) : ∃ t, m s = .ok (f P (entryAt disk x)) t := by
  obtain ⟨r, t, hrun, ⟨P', x', hlead', rfl⟩ | ⟨hnot, -⟩⟩ := h
  · obtain ⟨rfl, rfl⟩ := hlead.unique hlead'
    exact ⟨t, hrun⟩
  · exact absurd hlead (hnot P x)

lemma answer_of_not_leadsTo (h : Ends m s fun r _ => Answers g disk lay d path f z r)
    (hnot : ∀ P x, ¬ LeadsTo g disk lay d path P x) : ∃ t, m s = .ok z t := by
  obtain ⟨r, t, hrun, ⟨P, x, hlead, -⟩ | ⟨-, rfl⟩⟩ := h
  · exact absurd hlead (hnot P x)
  · exact ⟨t, hrun⟩

lemma Answers.again (h : Moves g Q (v, lay) (w, lay')) (hv : Valid g v lay) (hd : lay.isDir d)
    (hr : Answers g v.disk lay d path f z r) (hne : r ≠ z)
    (hw : Ends m w.start fun r _ => Answers g w.disk lay' d path f z r) :
    ∃ t, m w.start = .ok r t := by
  obtain ⟨P, x, hlead, hr⟩ := hr.resolve_right fun hz => hne hz.2
  obtain ⟨hP, hx, hl⟩ := hlead.mem hv.walkable hd
  obtain ⟨-, hentry, -⟩ := h.keeps (C := []) hv hP hx hl
  obtain ⟨t, hrun⟩ := answer_of_leadsTo hw (h.leadsTo hv hd hlead)
  rw [hr]
  exact ⟨t, hrun.trans (congrArg (fun e => EStateM.Result.ok (f P e) t) hentry)⟩

end Answers

def Dirent.asFile (P : Nat) (e : Dirent) : Search FileRef :=
  if e.Directory then .missing else .found ⟨e.first, e.size, P⟩

def Dirent.asDir (e : Dirent) : DirSearch := if e.Directory then .dir e.first else .notDir

lemma fat16Find_spec (hv : Valid g s.vol lay) (hd : lay.isDir d) (hn : Enough g n)
    (hio : s.io = working) :
    Ends (fat16Find g n d path) s fun r _ =>
      Answers g s.vol.disk lay d path Dirent.asFile .missing r := by
  refine ready_rule hv.ready ?_
  refine answers_rule hv hd hn hio (fun _ _ => rfl) ?_
  intro P name hit hl
  dsimp only [Dirent.asFile]
  by_cases hdir : hit.entry.Directory
  · rw [if_pos (.inr hdir), if_pos hdir]
  · rw [if_neg (not_or.mpr ⟨hl.2.2, hdir⟩), if_neg hdir]

lemma fat16ResolveDir_root (hready : s.vol.ready = true) (hpath : path = [] ∨ path = [0x2F]) :
    Ends (fat16ResolveDir g n d path) s fun r _ => r = .dir 0 := by
  refine ready_rule hready ?_
  rw [if_pos hpath]
  exact .pure rfl

lemma fat16ResolveDir_leads (hv : Valid g s.vol lay) (hd : lay.isDir d) (hn : Enough g n)
    (hio : s.io = working) (hpath : ¬ (path = [] ∨ path = [0x2F])) :
    Ends (fat16ResolveDir g n d path) s fun r _ =>
      Answers g s.vol.disk lay d path (fun _ => Dirent.asDir) .missing r := by
  refine ready_rule hv.ready ?_
  rw [if_neg hpath]
  refine answers_rule hv hd hn hio (fun _ _ => rfl) ?_
  intro P name hit _
  dsimp only [Dirent.asDir]
  by_cases hdir : hit.entry.Directory
  · rw [if_pos hdir, if_pos hdir]
  · rw [if_neg hdir, if_neg hdir]

/-- Every path that led to a file or a directory leads to the same entry, and every file has the
same content. -/
structure KeepsPaths (g : Geo) (n : Nat) (v w : Vol) : Prop where
  files : ∀ b path ref t, IsDir g v b → fat16Find g n b path v.start = .ok (.found ref) t →
    ∃ t', fat16Find g n b path w.start = .ok (.found ref) t'
  dirs : ∀ b path c t, IsDir g v b → fat16ResolveDir g n b path v.start = .ok (.dir c) t →
    ∃ t', fat16ResolveDir g n b path w.start = .ok (.dir c) t'
  entries : ∀ d x, IsDir g v d → SlotOf g v d x → (entryAt v.disk x).Live →
    IsDir g w d ∧ SlotOf g w d x ∧ entryAt w.disk x = entryAt v.disk x
  contents : ∀ x C, IsFile g v x → HasContent g v x C → HasContent g w x C

lemma Moves.keepsPaths (h : Moves g Q (v, lay) (w, lay')) (hv : Valid g v lay) (hn : Enough g n) :
    KeepsPaths g n v w := by
  have hw := h.valid hv
  refine ⟨fun b path ref t hb hrun => ?_, fun b path c t hb hrun => ?_, fun d x hd hslot hl => ?_,
    fun x C hx hC => ?_⟩
  · have hb' := hv.walkable.isDir hb
    have hbefore : Ends (fat16Find g n b path) v.start _ := fat16Find_spec hv hb' hn rfl
    exact (hbefore.result hrun).again h hv hb' nofun
      (fat16Find_spec (s := w.start) hw (h.isDir hv hb') hn rfl)
  · have hb' := hv.walkable.isDir hb
    by_cases hpath : path = [] ∨ path = [0x2F]
    · have hbefore : Ends (fat16ResolveDir g n b path) v.start _ :=
        fat16ResolveDir_root hv.ready hpath
      have hafter : Ends (fat16ResolveDir g n b path) w.start _ :=
        fat16ResolveDir_root hw.ready hpath
      obtain ⟨r, t', hrun', hr⟩ := hafter
      rw [hbefore.result hrun, ← hr]
      exact ⟨t', hrun'⟩
    · have hbefore : Ends (fat16ResolveDir g n b path) v.start _ :=
        fat16ResolveDir_leads hv hb' hn rfl hpath
      exact (hbefore.result hrun).again h hv hb' nofun
        (fat16ResolveDir_leads (s := w.start) hw (h.isDir hv hb') hn rfl hpath)
  · have hd' := hv.walkable.isDir hd
    obtain ⟨hx, hentry, -⟩ := h.keeps (C := []) hv hd' ((hv.walkable.slots_iff hd').mp hslot) hl
    exact ⟨h.isDir_kept hv hd, (hw.walkable.slots_iff (h.isDir hv hd')).mpr hx, hentry⟩
  · obtain ⟨⟨d, hd, hslot⟩, hl, hdir⟩ := hx
    have hd' := hv.walkable.isDir hd
    exact (h.keeps hv hd' ((hv.walkable.slots_iff hd').mp hslot) hl).2.2 hdir hC

/-! ## The new entry -/

lemma lookupSlot_deleted (h : name.headD 0 = 0xE5) : lookupSlot disk name l = none := by
  by_contra hne
  obtain ⟨x, hx⟩ := Option.ne_none_iff_exists'.mp hne
  obtain ⟨-, hl, hname⟩ := lookupSlot_some hx
  refine hl.2.1 ?_
  show (entryAt disk x).name.headD 0 = 0xE5
  rw [hname, h]

lemma live_iff (hattr : ¬ e.VolumeId) (hhead : e.name.headD 0 ≠ 0) :
    e.Live ↔ e.name.headD 0 ≠ 0xE5 :=
  ⟨fun h => h.2.1, fun h => ⟨hhead, h, hattr⟩⟩

/-- The entry `e` was put into `P`, and if it counts it is found there. -/
def Made (g : Geo) (lay : Layout) (P : Nat) (e : Dirent) (v w : Vol) : Prop :=
  ∃ lay', Moves g (fun _ _ => True) (v, lay) (w, lay') ∧ ∃ x ∈ lay'.slots g P,
    entryAt w.disk x = e ∧ (e.Live → lookupSlot w.disk e.name (lay'.slots g P) = some x)

lemma Inserted.made {lay₁ : Layout} (hv : Valid g v lay) (h : Inserted g lay P e v w lay₁ x)
    (he : NewEntry g w lay₁ P x e lay') : Made g lay P e v w := by
  obtain ⟨u, hmoves, hput⟩ := h.moves
  refine ⟨lay', h.moves_put trivial he, x, ?_, hput.entry, fun hl => ?_⟩
  all_goals rw [he.slots_eq (hmoves.valid hv) hput.dir]
  · exact hput.mem
  · exact hput.lookup hl

lemma Made.head {u : Vol} (h : Made g lay P e u w) (hhid : Hidden g lay v u) :
    Made g lay P e v w := by
  obtain ⟨lay', hmoves, hput⟩ := h
  exact ⟨lay', hmoves.head (.hidden hhid), hput⟩

lemma Made.flush (hv : Valid g v lay) (h : Made g lay P e v s.vol)
    (hw : Writes (· < g.rootStartLba) s t) : Made g lay P e v t.vol := by
  obtain ⟨lay', hmoves, x, hx, hentry, hfound⟩ := h
  have hhid := hidden_flush (hmoves.valid hv) hw
  exact ⟨lay', hmoves.tail (.hidden hhid), x, hx, (hhid.entry hx).trans hentry, fun hl =>
    (lookupSlot_congr fun y hy => hhid.entry hy).trans (hfound hl)⟩

/-- **What a `fat16_create` that returns 0 has done**: there is such a file, or it was made. -/
lemma fat16Create_made (hv : Valid g s.vol lay) (hd : lay.isDir d) (hn : Enough g n)
    (hpath : (0 : UInt8) ∉ path) :
    Ends (fat16Create g n d path) s fun r t => ∀ P, r = some P → ∃ name,
      ResolvesPath g s.vol.disk lay d path (P, name) ∧
      ((t.vol = s.vol ∧ ∃ x, lookupSlot s.vol.disk name (lay.slots g P) = some x ∧
          ¬ (entryAt s.vol.disk x).Directory) ∨
        lookupSlot s.vol.disk name (lay.slots g P) = none ∧
          Made g lay P (newFile name) s.vol t.vol) := by
  refine ready_rule hv.ready ?_
  refine lookupPath_rule hv.walkable hd hn (fun _ _ _ => nofun) (fun _ _ _ => nofun) ?_
  intro P name r s₁ hreads hres hlook
  obtain ⟨hP, hlen, hhead⟩ := ResolvesPath.spec hv.walkable hd hres
  cases r with
  | ioError => exact .pure nofun
  | found hit =>
    obtain ⟨hslot, hentry, -⟩ := hlook.found hit rfl
    dsimp only
    split
    case isTrue => exact .pure nofun
    case isFalse hdir =>
      refine .pure ?_
      rintro _ ⟨⟩
      rw [hentry] at hdir
      exact ⟨name, hres, .inl ⟨hreads.vol, _, hslot, hdir⟩⟩
  | missing =>
    have habsent := hlook.missing rfl
    have habsent₁ := habsent
    have hv₁ := hv
    rw [← hreads.vol] at habsent₁ hv₁
    refine (dirInsert_spec (e := newFile name) hv₁ hP hn habsent₁
      ⟨hlen, Nat.zero_lt_succ _, Nat.zero_lt_succ _⟩ (hhead hpath)).seq ?_
    intro ok t hins
    cases ok with
    | false => exact .pure nofun
    | true =>
      refine .pure ?_
      rintro _ ⟨⟩
      rcases hins.outcome with ⟨hr, -⟩ | ⟨⟨lay₁, x, hin⟩, -⟩
      · simp at hr
      obtain ⟨lay', he⟩ := newFile_entry g t.vol lay₁ P x name
      have hmade := hin.made hv₁ he
      rw [hreads.vol] at hmade
      exact ⟨name, hres, .inr ⟨habsent, hmade⟩⟩

/-! ## The new directory -/

lemma visible_eq_nil (h : ∀ x ∈ l, ¬ (entryAt disk x).Empty → ¬ (entryAt disk x).Shown) :
    visible disk l = [] := by
  rw [visible, List.filter_eq_nil_iff]
  intro x hx
  rw [decide_eq_true_eq]
  refine h x ((List.takeWhile_sublist _).subset hx) ?_
  simpa using List.mem_takeWhile_imp hx

lemma NewDir.visible (hg : g.Fits) (h : NewDir g lay N P v) :
    DirChain g v.fat N [N] ∧ visible v.disk (slotsOf (dirSectors g N [N])) = [] := by
  have hN2 := h.cluster.1
  have h0 : N ≠ 0 := by omega
  have hsectors : dirSectors g N [N] = clusterLbas g N := by
    rw [dirSectors, if_neg h0, List.flatMap_singleton]
  refine ⟨.inr ⟨h0, ?_, fun c hc => ?_⟩, visible_eq_nil fun x hx hempty hshown => ?_⟩
  · exact ⟨rfl, not_stop_of_cluster hg h.cluster, .inr h.ends⟩
  · rw [List.mem_singleton.mp hc]
    exact Nat.lt_of_lt_of_le h.cluster.2 hg.entries
  · rw [hsectors] at hx
    by_cases hdot : x = (clusterSector g N 0, 0)
    · rw [hdot, h.dot] at hshown
      exact hshown.2.2 rfl
    by_cases hdotdot : x = (clusterSector g N 0, 1)
    · rw [hdotdot, h.dotdot] at hshown
      exact hshown.2.2 rfl
    exact hempty (h.rest x hx hdot hdotdot)

lemma NewDir.flush (hg : g.Fits) (h : NewDir g lay N P s.vol)
    (hw : Writes (· < g.rootStartLba) s t) : NewDir g lay N P t.vol := by
  have hdisk : ∀ lba ∈ clusterLbas g N, t.vol.disk lba = s.vol.disk lba := by
    intro lba hlba
    have hge := dataStartLba_le hg h.cluster hlba
    have hroot := rootStartLba_le g
    exact hw.disk lba (by omega)
  have hfirst : ∀ i, entryAt t.vol.disk (clusterSector g N 0, i) =
      entryAt s.vol.disk (clusterSector g N 0, i) := fun i =>
    entryAt_congr (hdisk _ (firstSector_mem g N))
  refine ⟨h.cluster, h.fresh, ?_, ?_, ?_, fun x hx h0 h1 => ?_⟩
  · rw [hw.fat]
    exact h.ends
  · rw [hfirst, h.dot]
  · rw [hfirst, h.dotdot]
  · rw [entryAt_congr (hdisk _ (mem_slotsOf.mp hx).1)]
    exact h.rest x hx h0 h1

lemma makeDirectory_made (hv : Valid g s.vol lay) (hP : lay.isDir P) (hn : Enough g n)
    (habsent : lookupSlot s.vol.disk name (lay.slots g P) = none) (hlen : name.length = 11)
    (hhead : name.headD 0 ≠ 0) :
    Ends (makeDirectory g n P name) s fun r t => r = true → ∃ N lay₁,
      Made g lay P (newDirectory name N) s.vol t.vol ∧ N < 0x10000 ∧ NewDir g lay₁ N P t.vol := by
  refine newCluster_rule hv.fits nofun (fun _ _ _ _ _ _ _ _ _ => nofun) ?_
  intro N s₁ hnew
  have hprep := hnew.prepared hv
  have hv₁ := Hidden.valid hv hprep.hidden
  have habsent₁ : lookupSlot s₁.vol.disk name (lay.slots g P) = none :=
    (lookupSlot_congr fun y hy => hprep.hidden.entry hy).trans habsent
  refine (dirInsert_spec (e := newDirectory name N) hv₁ hP hn habsent₁ (newDirectory_fits hlen)
    hhead).seq ?_
  intro ok s₂ hins
  cases ok with
  | false =>
    refine (freeSingle_spec hv.fits hn hnew.cluster (hprep.end_mark hv hins)).seq ?_
    exact fun _ _ _ => .pure nofun
  | true =>
    rw [if_pos rfl]
    rcases hins.outcome with ⟨hr, -⟩ | ⟨⟨lay₁, x, hin⟩, -⟩
    · simp at hr
    obtain ⟨lay', he⟩ := hprep.newEntry hv hin
    refine (fat16FlushFat_spec s₂).mono ?_
    rintro r t ⟨hw, -⟩ _
    exact ⟨N, lay₁, ((hin.made hv₁ he).head hprep.hidden).flush hv hw, hv.fits.lt hnew.cluster,
      (hprep.newDir hv hin).flush hv.fits hw⟩

/-- **What a `fat16_mkdir` that returns 0 has done**: there is such a directory, or it was made. -/
lemma fat16Mkdir_made (hv : Valid g s.vol lay) (hd : lay.isDir d) (hn : Enough g n)
    (hpath : (0 : UInt8) ∉ path) :
    Ends (fat16Mkdir g n d path) s fun r t => r = true → ∃ P name,
      ResolvesPath g s.vol.disk lay d path (P, name) ∧
      ((t.vol = s.vol ∧ ∃ x, lookupSlot s.vol.disk name (lay.slots g P) = some x ∧
          (entryAt s.vol.disk x).Directory) ∨
        lookupSlot s.vol.disk name (lay.slots g P) = none ∧ ∃ N lay₁,
          Made g lay P (newDirectory name N) s.vol t.vol ∧ N < 0x10000 ∧
            NewDir g lay₁ N P t.vol) := by
  refine ready_rule hv.ready ?_
  refine lookupPath_rule hv.walkable hd hn (fun _ _ _ => nofun) (fun _ _ _ => nofun) ?_
  intro P name r s₁ hreads hres hlook
  obtain ⟨hP, hlen, hhead⟩ := ResolvesPath.spec hv.walkable hd hres
  cases r with
  | ioError => exact .pure nofun
  | found hit =>
    obtain ⟨hslot, hentry, -⟩ := hlook.found hit rfl
    dsimp only
    split
    case isTrue hdir =>
      rw [hentry] at hdir
      exact .pure fun _ => ⟨P, name, hres, .inl ⟨hreads.vol, _, hslot, hdir⟩⟩
    case isFalse => exact .pure nofun
  | missing =>
    have habsent := hlook.missing rfl
    have habsent₁ := habsent
    rw [← hreads.vol] at habsent₁ hv
    refine (makeDirectory_made hv hP hn habsent₁ hlen (hhead hpath)).mono ?_
    intro r t hmade hr
    have hnew := hmade hr
    rw [hreads.vol] at hnew
    exact ⟨P, name, hres, .inr ⟨habsent, hnew⟩⟩

/-! ## Visible or not -/

/-- `fat16_find` finds the file of a `fat16_create` that has delivered `P`, and if there was none
before it is empty. -/
def FileVisible (g : Geo) (n d : Nat) (path : List UInt8) (P : Nat) (v w : Vol) : Prop :=
  ∃ ref t, fat16Find g n d path w.start = .ok (.found ref) t ∧ ref.parent = P ∧
    ((∃ u, fat16Find g n d path v.start = .ok .missing u) → ref.size = 0)

/-- `fat16_resolve_dir` finds the directory of a `fat16_mkdir`, and if there was none before there
is nothing in it. -/
def DirVisible (g : Geo) (n d : Nat) (path : List UInt8) (v w : Vol) : Prop :=
  ∃ c t, fat16ResolveDir g n d path w.start = .ok (.dir c) t ∧
    ((∃ u, fat16ResolveDir g n d path v.start = .ok .missing u) →
      ∃ u, fat16Readdir g n c 0 w.start = .ok none u)

lemma resolvePath_run (hv : Valid g v lay) (hd : lay.isDir d) (hn : Enough g n)
    (hres : ResolvesPath g v.disk lay d path (P, name)) :
    ∃ u, resolvePath g n d path v.start = .ok (.found (P, name)) u := by
  have hends : Ends (resolvePath g n d path) v.start _ := resolvePath_spec hv.walkable hd hn
  obtain ⟨r, u, hrun, -, hspec⟩ := hends
  cases r with
  | missing => exact absurd hres (hspec.missing rfl _)
  | ioError => exact absurd rfl (hspec.ioError rfl)
  | found p =>
    obtain rfl := hres.unique (hspec.found p rfl)
    exact ⟨u, hrun⟩

lemma not_leadsTo_deleted (hres : ResolvesPath g disk lay d path (P, name))
    (h : name.headD 0 = 0xE5) (P' : Nat) (x : Slot) : ¬ LeadsTo g disk lay d path P' x :=
  not_leadsTo hres (lookupSlot_deleted h) P' x

lemma fat16Find_run (hv : Valid g v lay) (hd : lay.isDir d) (hn : Enough g n)
    (hlead : LeadsTo g v.disk lay d path P x) :
    ∃ t, fat16Find g n d path v.start = .ok ((entryAt v.disk x).asFile P) t :=
  answer_of_leadsTo (fat16Find_spec (s := v.start) hv hd hn rfl) hlead

lemma fat16Find_deleted (hv : Valid g v lay) (hd : lay.isDir d) (hn : Enough g n)
    (hres : ResolvesPath g v.disk lay d path (P, name)) (h : name.headD 0 = 0xE5) :
    ∃ t, fat16Find g n d path v.start = .ok .missing t :=
  answer_of_not_leadsTo (fat16Find_spec (s := v.start) hv hd hn rfl) (not_leadsTo_deleted hres h)

lemma fileVisible_iff (hv : Valid g v lay) (hd : lay.isDir d) (hn : Enough g n)
    (hres : ResolvesPath g v.disk lay d path (P, name)) (hhead : name.headD 0 ≠ 0)
    (h : (w = v ∧ ∃ x, lookupSlot v.disk name (lay.slots g P) = some x ∧
        ¬ (entryAt v.disk x).Directory) ∨
      lookupSlot v.disk name (lay.slots g P) = none ∧ Made g lay P (newFile name) v w) :
    FileVisible g n d path P v w ↔ name.headD 0 ≠ 0xE5 := by
  rcases h with ⟨rfl, x, hx, hdir⟩ | ⟨-, lay', hmoves, x, -, hentry, hfound⟩
  · refine ⟨fun _ hdel => ?_, fun _ => ?_⟩
    · rw [lookupSlot_deleted hdel] at hx
      simp at hx
    · obtain ⟨t, hrun⟩ := fat16Find_run hv hd hn ⟨name, hres, hx⟩
      rw [Dirent.asFile, if_neg hdir] at hrun
      refine ⟨_, t, hrun, rfl, ?_⟩
      rintro ⟨u, hmiss⟩
      exact absurd (hrun.symm.trans hmiss) (by simp)
  · have hw := hmoves.valid hv
    have hd' := hmoves.isDir hv hd
    have hres' := hmoves.resolvesPath hv hd hres
    refine ⟨?_, fun hdel => ?_⟩
    · rintro ⟨ref, t, hrun, -⟩ hdel
      obtain ⟨u, hmiss⟩ := fat16Find_deleted hw hd' hn hres' hdel
      exact absurd (hrun.symm.trans hmiss) (by simp)
    · have hattr : ¬ (newFile name).VolumeId := (by decide : ¬ (0x20 : UInt8) &&& 0x08 ≠ 0)
      have hx := hfound ((live_iff hattr hhead).mpr hdel)
      obtain ⟨t, hrun⟩ := fat16Find_run hw hd' hn ⟨name, hres', hx⟩
      rw [hentry, Dirent.asFile, if_neg newFile_not_directory] at hrun
      exact ⟨_, t, hrun, rfl, fun _ => rfl⟩

lemma ResolvesPath.not_root {r : Nat × List UInt8} (h : ResolvesPath g disk lay d path r) :
    ¬ (path = [] ∨ path = [0x2F]) := by
  rintro (rfl | rfl)
  · exact h.1 rfl
  · exact h.1 (by decide)

lemma fat16ResolveDir_run (hv : Valid g v lay) (hd : lay.isDir d) (hn : Enough g n)
    (hlead : LeadsTo g v.disk lay d path P x) :
    ∃ t, fat16ResolveDir g n d path v.start = .ok (entryAt v.disk x).asDir t :=
  answer_of_leadsTo (fat16ResolveDir_leads (s := v.start) hv hd hn rfl
    hlead.choose_spec.1.not_root) hlead

lemma fat16ResolveDir_deleted (hv : Valid g v lay) (hd : lay.isDir d) (hn : Enough g n)
    (hres : ResolvesPath g v.disk lay d path (P, name)) (h : name.headD 0 = 0xE5) :
    ∃ t, fat16ResolveDir g n d path v.start = .ok .missing t :=
  answer_of_not_leadsTo (fat16ResolveDir_leads (s := v.start) hv hd hn rfl hres.not_root)
    (not_leadsTo_deleted hres h)

lemma dirVisible_iff (hv : Valid g v lay) (hd : lay.isDir d) (hn : Enough g n)
    (hres : ResolvesPath g v.disk lay d path (P, name)) (hhead : name.headD 0 ≠ 0)
    (h : (w = v ∧ ∃ x, lookupSlot v.disk name (lay.slots g P) = some x ∧
        (entryAt v.disk x).Directory) ∨
      lookupSlot v.disk name (lay.slots g P) = none ∧ ∃ N lay₁,
        Made g lay P (newDirectory name N) v w ∧ N < 0x10000 ∧ NewDir g lay₁ N P w) :
    DirVisible g n d path v w ↔ name.headD 0 ≠ 0xE5 := by
  rcases h with ⟨rfl, x, hx, hdir⟩ | ⟨-, N, lay₁, ⟨lay', hmoves, x, -, hentry, hfound⟩, hN, hnew⟩
  · refine ⟨fun _ hdel => ?_, fun _ => ?_⟩
    · rw [lookupSlot_deleted hdel] at hx
      simp at hx
    · obtain ⟨t, hrun⟩ := fat16ResolveDir_run hv hd hn ⟨name, hres, hx⟩
      rw [Dirent.asDir, if_pos hdir] at hrun
      refine ⟨_, t, hrun, ?_⟩
      rintro ⟨u, hmiss⟩
      exact absurd (hrun.symm.trans hmiss) (by simp)
  · have hw := hmoves.valid hv
    have hd' := hmoves.isDir hv hd
    have hres' := hmoves.resolvesPath hv hd hres
    refine ⟨?_, fun hdel => ?_⟩
    · rintro ⟨c, t, hrun, -⟩ hdel
      obtain ⟨u, hmiss⟩ := fat16ResolveDir_deleted hw hd' hn hres' hdel
      exact absurd (hrun.symm.trans hmiss) (by simp)
    · have hattr : ¬ (newDirectory name N).VolumeId := (by decide : ¬ (0x10 : UInt8) &&& 0x08 ≠ 0)
      have hx := hfound ((live_iff hattr hhead).mpr hdel)
      obtain ⟨t, hrun⟩ := fat16ResolveDir_run hw hd' hn ⟨name, hres', hx⟩
      have hfirst : (newDirectory name N).first = N := Nat.mod_eq_of_lt hN
      rw [hentry, Dirent.asDir, if_pos newDirectory_directory, hfirst] at hrun
      obtain ⟨hchain, hnone⟩ := hnew.visible hv.fits
      have hlist : Ends (fat16Readdir g n N 0) w.start _ :=
        fat16Readdir_spec (s := w.start) hchain hn hw.ready rfl
      obtain ⟨r, u, hread, -, hr⟩ := hlist
      refine ⟨N, t, hrun, fun _ => ⟨u, hread.trans ?_⟩⟩
      have hempty : visible w.start.vol.disk (slotsOf (dirSectors g N [N])) = [] := hnone
      rw [hr, hempty]
      rfl

/-- **A created entry is visible if and only if its stored name does not begin with `0xE5`**, and in
any case every path leads where it led. -/
theorem created_visible_iff (h : Sound g v) (hn : Enough g n) (hd : IsDir g v d) (path : CStr) :
    (∃ r t, fat16Create g n d path.bytes v.start = .ok r t ∧ KeepsPaths g n v t.vol ∧
      ∀ P, r = some P → ∃ name u,
        resolvePath g n d path.bytes v.start = .ok (.found (P, name)) u ∧
        (FileVisible g n d path.bytes P v t.vol ↔ name.headD 0 ≠ 0xE5)) ∧
    ∃ r t, fat16Mkdir g n d path.bytes v.start = .ok r t ∧ KeepsPaths g n v t.vol ∧
      (r = true → ∃ P name u,
        resolvePath g n d path.bytes v.start = .ok (.found (P, name)) u ∧
        (DirVisible g n d path.bytes v t.vol ↔ name.headD 0 ≠ 0xE5)) := by
  have hv := h.valid
  constructor
  · have hcreate : Ends (fat16Create g n d path.bytes) v.start _ :=
      (fat16Create_spec (s := v.start) hv hd hn path.noNul).and
        (fat16Create_made (s := v.start) hv hd hn path.noNul)
    obtain ⟨r, t, hrun, ⟨-, ⟨lay', hcr⟩, -⟩, hmade⟩ := hcreate
    refine ⟨r, t, hrun, hcr.moves.keepsPaths hv hn, fun P hr => ?_⟩
    obtain ⟨name, hres, hcase⟩ := hmade P hr
    obtain ⟨u, hrun'⟩ := resolvePath_run hv hd hn hres
    obtain ⟨-, -, hhead⟩ := ResolvesPath.spec hv.walkable hd hres
    exact ⟨name, u, hrun', fileVisible_iff hv hd hn hres (hhead path.noNul) hcase⟩
  · have hmkdir : Ends (fat16Mkdir g n d path.bytes) v.start _ :=
      (fat16Mkdir_spec (s := v.start) hv hd hn path.noNul).and
        (fat16Mkdir_made (s := v.start) hv hd hn path.noNul)
    obtain ⟨r, t, hrun, ⟨-, ⟨lay', hcr⟩ | ⟨hio, -⟩⟩, hmade⟩ := hmkdir
    swap
    · exact absurd rfl hio
    refine ⟨r, t, hrun, hcr.moves.keepsPaths hv hn, fun hr => ?_⟩
    obtain ⟨P, name, hres, hcase⟩ := hmade hr
    obtain ⟨u, hrun'⟩ := resolvePath_run hv hd hn hres
    obtain ⟨-, -, hhead⟩ := ResolvesPath.spec hv.walkable hd hres
    exact ⟨P, name, u, hrun', dirVisible_iff hv hd hn hres (hhead path.noNul) hcase⟩

/-- Beside the file of 500 bytes, a file and a directory. -/
theorem created_visible_second :
    (∃ t, fat16Create smallGeo 0x10002 0 (ascii "b") someBytes.start = .ok (some 0) t ∧
      KeepsPaths smallGeo 0x10002 someBytes t.vol ∧
      FileVisible smallGeo 0x10002 0 (ascii "b") 0 someBytes t.vol) ∧
    ∃ t, fat16Mkdir smallGeo 0x10002 0 (ascii "b") someBytes.start = .ok true t ∧
      KeepsPaths smallGeo 0x10002 someBytes t.vol ∧
      DirVisible smallGeo 0x10002 0 (ascii "b") someBytes t.vol := by
  obtain ⟨⟨r, t, hrun, hkeeps, hfile⟩, r', t', hrun', hkeeps', hdir⟩ :=
    created_visible_iff someBytes_sound smallGeo_enough .root ⟨ascii "b", by decide⟩
  have hr : Ends (fat16Create smallGeo 0x10002 0 (ascii "b")) someBytes.start
      fun r _ => r = some 0 := by
    decide +kernel
  have hr' : Ends (fat16Mkdir smallGeo 0x10002 0 (ascii "b")) someBytes.start
      fun r _ => r = true := by
    decide +kernel
  have hname : Ends (resolvePath smallGeo 0x10002 0 (ascii "b")) someBytes.start
      fun r _ => r = .found (0, to83 (ascii "b")) := by
    decide +kernel
  obtain rfl := hr.result hrun
  obtain rfl := hr'.result hrun'
  obtain ⟨name, u, hres, hvisible⟩ := hfile 0 rfl
  obtain ⟨P, name', u', hres', hvisible'⟩ := hdir rfl
  obtain ⟨⟩ := hname.result hres
  obtain ⟨⟩ := hres.symm.trans hres'
  have hhead : (to83 (ascii "b")).headD 0 ≠ 0xE5 := by decide
  exact ⟨⟨t, hrun, hkeeps, hvisible.mpr hhead⟩, t', hrun', hkeeps', hvisible'.mpr hhead⟩

/-- A file whose name is the byte `0xE5` is created, and not found. -/
theorem created_not_found : Sound smallGeo blankVol ∧ ∃ t,
    fat16Create smallGeo 0x10002 0 [0xE5] blankVol.start = .ok (some 0) t ∧
      ∃ u, fat16Find smallGeo 0x10002 0 [0xE5] t.vol.start = .ok .missing u := by
  have hrun : Ends (fat16Create smallGeo 0x10002 0 [0xE5]) blankVol.start fun r t => r = some 0 ∧
      Ends (fat16Find smallGeo 0x10002 0 [0xE5]) t.vol.start fun r _ => r = .missing := by
    decide +kernel
  obtain ⟨_, t, ht, rfl, _, u, hu, rfl⟩ := hrun
  exact ⟨blankVol_sound smallGeo_fits, t, ht, u, hu⟩

end NullOS.Fat16
