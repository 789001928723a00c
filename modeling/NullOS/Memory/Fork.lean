import NullOS.Memory.HeapFrames

/-!
# Copying an address space

The part of `process_fork` (`kernel/process.c`) that gives the child a copy of every page the parent
has mapped, and, when memory runs out on the way, the unwinding by `fork_free_address_space`, which
does not free the page tables.
-/

namespace NullOS.Memory

open Lib

def copyPage (src : Nat) (m : Mem) (dst : Nat) : Mem := m.blit dst pageSize fun i => m (src + i)

def tableEntries : List Nat := List.range 1024

/-- The entries of a directory that are not shared with the kernel: `di = 2; di < 1024`. -/
def userEntries : List Nat := (List.range 1022).map (· + 2)

lemma mem_tableEntries {ti : Nat} (h : ti ∈ tableEntries) : ti < 1024 := List.mem_range.mp h

lemma mem_userEntries : ∀ di ∈ userEntries, 2 ≤ di ∧ di < 1024 := by
  intro di hdi
  obtain ⟨i, hi, rfl⟩ := List.mem_map.mp hdi
  have := List.mem_range.mp hi
  omega

lemma lt_mem_tableEntries {ti : Nat} (h : ti < 1024) : ti ∈ tableEntries := List.mem_range.mpr h

lemma nodup_tableEntries : tableEntries.Nodup := List.nodup_range

lemma between_mem_userEntries {di : Nat} (hlo : 2 ≤ di) (hhi : di < 1024) : di ∈ userEntries :=
  List.mem_map.mpr ⟨di - 2, List.mem_range.mpr (by omega), by omega⟩

lemma nodup_userEntries : userEntries.Nodup :=
  List.nodup_range.map fun _ _ h => Nat.add_right_cancel h

attribute [irreducible] tableEntries userEntries

def forkTable (childCr3 di parentPt : Nat) : Phys → List Nat → Bool × Phys
  | s, [] => (true, s)
  | s, ti :: tis =>
      let entry := s.mem.load32 (parentPt + 4 * ti)
      if Present entry then
        match mapNewPage (copyPage (frameAddr entry)) s childCr3 ((di * 1024 + ti) * pageSize) with
        | (true, t) => forkTable childCr3 di parentPt t tis
        | (false, t) => (false, t)
      else forkTable childCr3 di parentPt s tis

def forkDirectory (parentCr3 childCr3 : Nat) : Phys → List Nat → Bool × Phys
  | s, [] => (true, s)
  | s, di :: dis =>
      if Present (pde s.mem parentCr3 di) then
        match forkTable childCr3 di (frameAddr (pde s.mem parentCr3 di)) s tableEntries with
        | (true, t) => forkDirectory parentCr3 childCr3 t dis
        | (false, t) => (false, t)
      else forkDirectory parentCr3 childCr3 s dis

def freeTable (m : Mem) (pt : Nat) : Pmm → List Nat → Pmm
  | p, [] => p
  | p, ti :: tis =>
      let entry := m.load32 (pt + 4 * ti)
      freeTable m pt (if Present entry then p.pmmFreePage (frameAddr entry) else p) tis

def freeDirectory (m : Mem) (pd : Nat) : Pmm → List Nat → Pmm
  | p, [] => p
  | p, di :: dis =>
      freeDirectory m pd
        (if Present (pde m pd di) then freeTable m (frameAddr (pde m pd di)) p tableEntries
          else p) dis

def forkFreeAddressSpace (s : Phys) (cr3 : Nat) : Phys :=
  { s with pmm := (freeDirectory s.mem cr3 s.pmm userEntries).pmmFreePage cr3 }

/-- What `process_fork` does to memory: the directory of the child, if there is a child. -/
def forkAddressSpace (s : Phys) (parentCr3 : Nat) : Option Nat × Phys :=
  let (childCr3, t) := vmmCreateDirectory s
  if childCr3 = 0 then (none, t)
  else
    match forkDirectory parentCr3 childCr3 t userEntries with
    | (true, u) => (some childCr3, u)
    | (false, u) => (none, forkFreeAddressSpace u childCr3)

variable {s t : Phys} {m m' : Mem} {p p' : Pmm} {own own' : Own} {pd vp q f di : Nat} {r : Role}
  {W : Role → Prop}

/-! ## A new directory -/

/-- A directory shares the identity map of the first 8 MB with the kernel's. -/
structure Cloned (m : Mem) (pd : Nat) : Prop where
  low : pde m pd 0 = pageTableStart + vmmKernel
  high : pde m pd 1 = pageTableStart + pageSize + vmmKernel

/-- What keeps to the books never writes the two entries of the kernel. -/
lemma Space.low_pde (hsp : Space s.mem own pd) (hg : Grows W s t own own') (hmk : Marked s.pmm own)
    (hdi : di < 2) : pde t.mem pd di = pde s.mem pd di := by
  refine Mem.load32_congr fun i hi => ?_
  have hal := hsp.aligned
  have hdiv : (pd + 4 * di + i) / pageSize = pd / pageSize := by
    simp only [pageSize] at hal ⊢
    omega
  by_contra hne
  obtain hfree | ⟨r, hr, -, hw⟩ := hg.writes _ hne
  · have := hmk.none_of_free hfree
    rw [hdiv, hsp.dir] at this
    simp at this
  · rw [hdiv, hsp.dir] at hr
    cases hr
    simp only [Role.Writable, pageSize] at hw hal
    omega

lemma Cloned.of_grows (h : Cloned s.mem pd) (hsp : Space s.mem own pd) (hmk : Marked s.pmm own)
    (hg : Grows W s t own own') : Cloned t.mem pd :=
  ⟨(hsp.low_pde hg hmk (by omega)).trans h.low, (hsp.low_pde hg hmk (by omega)).trans h.high⟩

lemma Space.of_empty (hal : pd % pageSize = 0) (hdir : own (pd / pageSize) = some (.dir pd))
    (hempty : ∀ di, 2 ≤ di → di < 1024 → ¬ Present (pde m pd di)) : Space m own pd := by
  refine ⟨hal, hdir, fun di hlo hhi hp => absurd hp (hempty di hlo hhi), fun vp f hlo hhi hw => ?_⟩
  exact absurd (walk_some hw).1 (hempty _ (by omega) (by omega))

lemma vmmCreateDirectory_spec (hmk : Marked s.pmm own) (hman : Managed s.pmm)
    (hk : KernelMap s.mem) :
    vmmCreateDirectory s = (0, s) ∨
      ∃ q t own', vmmCreateDirectory s = (q * pageSize, t) ∧ q ≠ 0 ∧ own q = none ∧
        Grows (fun _ => False) s t own own' ∧ Marked t.pmm own' ∧
        Space t.mem own' (q * pageSize) ∧ Cloned t.mem (q * pageSize) ∧
        ∀ k, 2048 ≤ k → k < 0x100000 → walk t.mem (q * pageSize) k = none := by
  obtain hfail | ⟨q, m, hqlo, -, hqt, hfree, heq, hframe, hlow, hhigh, hempty⟩ :=
    vmmCreateDirectory_cases hman
  · exact .inl hfail
  · have hdiv : q * pageSize / pageSize = q := Nat.mul_div_cancel _ (by decide)
    have hnone : ∀ di, 2 ≤ di → di < 1024 → ¬ Present (pde m (q * pageSize) di) := by
      intro di hlo hhi
      rw [hempty di hlo hhi]
      decide
    refine .inr ⟨q, _, Function.update own q (some (.dir (q * pageSize))), heq, by omega,
      hmk.none_of_free hfree, .take hfree _ hmk fun a ha => .inl ?_, hmk.take hqt _,
      .of_empty (Nat.mul_mod_left q pageSize) (by rw [hdiv, Function.update_self]) hnone,
      ⟨hlow.trans hk.low, hhigh.trans hk.high⟩, fun k hlo hhi => ?_⟩
    · by_contra hne
      exact ha (hframe a hne)
    · exact if_neg fun hp => hnone _ (by omega) (by omega) hp.1

/-! ## The parts of an address space -/

inductive Part
  | dir
  | table (di : Nat)
  | page (vp : Nat)
deriving DecidableEq

/-- Frame `f` is that part of the directory `pd`.  Entries 0 and 1 are the kernel's. -/
def Holds (m : Mem) (pd : Nat) : Part → Nat → Prop
  | .dir, f => pd / pageSize = f
  | .table di, f => 2 ≤ di ∧ di < 1024 ∧ Present (pde m pd di) ∧ pde m pd di / pageSize = f
  | .page vp, f => 2048 ≤ vp ∧ vp < 0x100000 ∧ walk m pd vp = some f

def Part.role (pd : Nat) : Part → Role
  | .dir => .dir pd
  | .table di => .table pd di
  | .page vp => .user pd vp

lemma Part.role_inj {x y : Part} (h : x.role pd = y.role pd) : x = y := by
  cases x <;> cases y <;> cases h <;> rfl

lemma Space.role_of_holds {x : Part} (h : Space m own pd) (hx : Holds m pd x f) :
    own f = some (x.role pd) := by
  cases x with
  | dir =>
    rw [← show pd / pageSize = f from hx]
    exact h.dir
  | table di =>
    obtain ⟨hlo, hhi, hp, rfl⟩ := hx
    exact h.table di hlo hhi hp
  | page vp => exact h.page vp f hx.1 hx.2.1 hx.2.2

/-- The directory has lost no part, and every frame that is newly marked is a part of it. -/
structure Gains (s t : Phys) (pd : Nat) : Prop where
  keeps : ∀ x f, Holds s.mem pd x f → Holds t.mem pd x f
  marked : ∀ q, t.pmm.bitmap q = true → s.pmm.bitmap q = true ∨ ∃ x, Holds t.mem pd x q

lemma Gains.refl (s : Phys) (pd : Nat) : Gains s s pd := ⟨fun _ _ h => h, fun _ h => .inl h⟩

lemma Gains.trans {u : Phys} (h : Gains s t pd) (h' : Gains t u pd) : Gains s u pd := by
  refine ⟨fun x f hx => h'.keeps x f (h.keeps x f hx), fun q hq => ?_⟩
  obtain hq | hq := h'.marked q hq
  · exact (h.marked q hq).imp_right fun ⟨x, hx⟩ => ⟨x, h'.keeps x q hx⟩
  · exact .inr hq

lemma Gains.of_map (hlo : 2048 ≤ vp) (hhi : vp < 0x100000) (hnone : walk s.mem pd vp = none)
    (ht : TablesGrow (· = q) s t pd)
    (hwalk : ∀ k, 2048 ≤ k → k < 0x100000 →
      walk t.mem pd k = if k = vp then some q else walk s.mem pd k) : Gains s t pd := by
  refine ⟨fun x f hx => ?_, fun x hx => ?_⟩
  · cases x with
    | dir => exact hx
    | table di =>
      obtain ⟨hdlo, hdhi, hp, hf⟩ := hx
      have hkept := ht.kept di hdlo hdhi hp
      exact ⟨hdlo, hdhi, by rwa [hkept], by rwa [hkept]⟩
    | page k =>
      obtain ⟨hklo, hkhi, hk⟩ := hx
      refine ⟨hklo, hkhi, ?_⟩
      rw [hwalk k hklo hkhi, if_neg, hk]
      rintro rfl
      exact absurd (hnone.symm.trans hk) (by simp)
  · obtain hx | hx | ⟨di, hdi⟩ := ht.marked x hx
    · exact .inl hx
    · exact .inr ⟨.page vp, hlo, hhi, by rw [hwalk vp hlo hhi, if_pos rfl, hx]⟩
    · exact .inr ⟨.table di, hdi⟩

lemma Gains.of_quiet (h : Space s.mem own pd) (hmk : Marked s.pmm own)
    (hg : Grows (fun _ => False) s t own own) (hbits : t.pmm.bitmap = s.pmm.bitmap) :
    Gains s t pd ∧ ∀ k, 2048 ≤ k → k < 0x100000 → walk t.mem pd k = walk s.mem pd k := by
  have hsame : ∀ a r, own (a / pageSize) = some r → t.mem a = s.mem a :=
    fun a r hr => hg.content hmk hr id
  have hwalk : ∀ k, 2048 ≤ k → k < 0x100000 → walk t.mem pd k = walk s.mem pd k :=
    fun k hlo hhi => h.walk_eq (fun a r hr _ => hsame a r hr) hlo hhi
  refine ⟨⟨fun x f hx => ?_, fun q hq => .inl (by rwa [hbits] at hq)⟩, hwalk⟩
  cases x with
  | dir => exact hx
  | table di =>
    obtain ⟨hdlo, hdhi, hp, hf⟩ := hx
    have hpde : pde t.mem pd di = pde s.mem pd di :=
      pde_congr h.aligned hdhi fun a ha => hsame a (.dir pd) (by rw [ha, h.dir])
    exact ⟨hdlo, hdhi, by rwa [hpde], by rwa [hpde]⟩
  | page k => exact ⟨hx.1, hx.2.1, by rw [hwalk k hx.1 hx.2.1, hx.2.2]⟩

/-! ## The source of the copy -/

/-- Frame `f` is in use and not one that building the directory `pd` writes. -/
def Safe (own : Own) (pd f : Nat) : Prop := ∃ r, own f = some r ∧ ¬ r.Paging pd

lemma Safe.content {a : Nat} (h : Safe own pd (a / pageSize)) (hmk : Marked s.pmm own)
    (hg : Grows (Role.Paging pd) s t own own') : t.mem a = s.mem a := by
  obtain ⟨r, hr, hp⟩ := h
  exact hg.content hmk hr hp

lemma Safe.of_grows (h : Safe own pd f) (hg : Grows W s t own own') : Safe own' pd f := by
  obtain ⟨r, hr, hp⟩ := h
  exact ⟨r, by rw [hg.keeps f (by simp [hr]), hr], hp⟩

structure SafeDir (own : Own) (pd : Nat) (m : Mem) (src : Nat) : Prop where
  aligned : src % pageSize = 0
  safe : ∀ x f, Holds m src x f → Safe own pd f

lemma SafeDir.eq {src : Nat} (h : SafeDir own pd s.mem src) (hmk : Marked s.pmm own)
    (hg : Grows (Role.Paging pd) s t own own') :
    (∀ di < 1024, pde t.mem src di = pde s.mem src di) ∧
      ∀ k, 2048 ≤ k → k < 0x100000 → walk t.mem src k = walk s.mem src k := by
  have hpde : ∀ di < 1024, pde t.mem src di = pde s.mem src di := fun di hdi =>
    pde_congr h.aligned hdi fun a ha => (h.safe .dir _ ha.symm).content hmk hg
  refine ⟨hpde, fun k hlo hhi => walk_congr (hpde _ (by omega)) fun hp =>
    pte_congr (Nat.mod_lt _ (by omega)) (hpde _ (by omega)) fun a ha => ?_⟩
  exact (h.safe (.table (k / 1024)) _ ⟨by omega, by omega, hp, ha.symm⟩).content hmk hg

lemma SafeDir.of_grows {src : Nat} (h : SafeDir own pd s.mem src) (hmk : Marked s.pmm own)
    (hg : Grows (Role.Paging pd) s t own own') : SafeDir own' pd t.mem src := by
  obtain ⟨hpde, hwalk⟩ := h.eq hmk hg
  refine ⟨h.aligned, fun x f hx => (h.safe x f ?_).of_grows hg⟩
  cases x with
  | dir => exact hx
  | table di =>
    rw [Holds, hpde di hx.2.1] at hx
    exact hx
  | page k =>
    rw [Holds, hwalk k hx.1 hx.2.1] at hx
    exact hx

/-- Page `k` of `pd` is a copy of the frame `src` of the memory `m₀`; without a source it is not
mapped. -/
def Copied (m₀ m : Mem) (pd : Nat) (src : Option Nat) (k : Nat) : Prop :=
  match src with
  | none => walk m pd k = none
  | some f => ∃ g, walk m pd k = some g ∧
      ∀ i < pageSize, m (g * pageSize + i) = m₀ (f * pageSize + i)

lemma offset_div (f : Nat) {i : Nat} (hi : i < pageSize) : (f * pageSize + i) / pageSize = f := by
  simp only [pageSize] at hi ⊢
  omega

lemma Copied.persists {src : Option Nat} {k : Nat} (h : Copied m s.mem pd src k)
    (hsp : Space s.mem own pd) (hmk : Marked s.pmm own) (hg : Grows (Role.Paging pd) s t own own')
    (hlo : 2048 ≤ k) (hhi : k < 0x100000) (hwalk : walk t.mem pd k = walk s.mem pd k) :
    Copied m t.mem pd src k := by
  cases src with
  | none => exact hwalk.trans h
  | some f =>
    obtain ⟨g, hgk, hbytes⟩ := h
    refine ⟨g, hwalk.trans hgk, fun i hi => ?_⟩
    rw [← hbytes i hi]
    have hrole := hsp.page k g hlo hhi hgk
    exact hg.content hmk (by rw [offset_div g hi, hrole]) (not_paging_user pd pd k)

lemma Copied.of_source {src : Option Nat} {k : Nat} (h : Copied t.mem m pd src k)
    (hsafe : ∀ f, src = some f → Safe own pd f) (hmk : Marked s.pmm own)
    (hg : Grows (Role.Paging pd) s t own own') : Copied s.mem m pd src k := by
  cases src with
  | none => exact h
  | some f =>
    obtain ⟨g, hgk, hbytes⟩ := h
    refine ⟨g, hgk, fun i hi => ?_⟩
    rw [hbytes i hi]
    exact Safe.content (by rw [offset_div f hi]; exact hsafe f rfl) hmk hg

/-! ## The copy -/

def entryFrame (m : Mem) (pt ti : Nat) : Option Nat :=
  if Present (m.load32 (pt + 4 * ti)) then some (m.load32 (pt + 4 * ti) / pageSize) else none

lemma entryFrame_congr {pt ti : Nat} (hpt : pt % pageSize = 0) (hti : ti < 1024)
    (h : ∀ a, a / pageSize = pt / pageSize → m' a = m a) :
    entryFrame m' pt ti = entryFrame m pt ti := by
  have hload : m'.load32 (pt + 4 * ti) = m.load32 (pt + 4 * ti) := by
    refine Mem.load32_congr fun i hi => h _ ?_
    simp only [pageSize] at hpt ⊢
    omega
  rw [entryFrame, entryFrame, hload]

lemma walk_eq_entryFrame {ti : Nat} (hp : Present (pde m pd di)) (hti : ti < 1024) :
    walk m pd (di * 1024 + ti) = entryFrame m (frameAddr (pde m pd di)) ti := by
  rw [walk, show (di * 1024 + ti) / 1024 = di by omega, show (di * 1024 + ti) % 1024 = ti by omega,
    entryFrame]
  by_cases ht : Present (m.load32 (frameAddr (pde m pd di) + 4 * ti))
  · rw [if_pos ⟨hp, ht⟩, if_pos ht]
    rfl
  · rw [if_neg fun h => ht h.2, if_neg ht]

/-- **The loop over a table** keeps the child's directory to the books, wherever it stops.  It
touches the pages of this table only, and when it comes to its end they are copies. -/
lemma forkTable_spec {tis : List Nat} (pt : Nat) (h : Space s.mem own pd) (hmk : Marked s.pmm own)
    (hman : Managed s.pmm) (hlo : 2 ≤ di) (hhi : di < 1024) (htis : ∀ ti ∈ tis, ti < 1024)
    (hnodup : tis.Nodup) (hnew : ∀ ti ∈ tis, walk s.mem pd (di * 1024 + ti) = none) :
    ∃ ok t own', forkTable pd di pt s tis = (ok, t) ∧ Grows (Role.Paging pd) s t own own' ∧
      Marked t.pmm own' ∧ Space t.mem own' pd ∧ Gains s t pd ∧
      (∀ k, 2048 ≤ k → k < 0x100000 → (∀ ti ∈ tis, k ≠ di * 1024 + ti) →
        walk t.mem pd k = walk s.mem pd k) ∧
      (ok = true → pt % pageSize = 0 → Safe own pd (pt / pageSize) →
        (∀ ti ∈ tis, ∀ f, entryFrame s.mem pt ti = some f → Safe own pd f) →
        ∀ ti ∈ tis, Copied s.mem t.mem pd (entryFrame s.mem pt ti) (di * 1024 + ti)) := by
  induction tis generalizing s own with
  | nil =>
    exact ⟨true, s, own, rfl, .refl _ s own, hmk, h, .refl s pd, fun _ _ _ _ => rfl,
      fun _ _ _ _ => nofun⟩
  | cons ti tis ih =>
    have hti := htis ti List.mem_cons_self
    have htis' := fun k (hk : k ∈ tis) => htis k (List.mem_cons_of_mem _ hk)
    obtain ⟨hnot, hnodup'⟩ := List.nodup_cons.mp hnodup
    have hvlo : 2048 ≤ di * 1024 + ti := by omega
    have hvhi : di * 1024 + ti < 0x100000 := by omega
    have hother : ∀ k ∈ tis, di * 1024 + k ≠ di * 1024 + ti := by
      intro k hk heq
      obtain rfl : k = ti := by omega
      exact hnot hk
    rw [forkTable]
    by_cases hp : Present (s.mem.load32 (pt + 4 * ti))
    · rw [if_pos hp]
      have hcopy : ∀ q a, a / pageSize ≠ q →
          copyPage (frameAddr (s.mem.load32 (pt + 4 * ti))) s.mem (q * pageSize) a = s.mem a := by
        intro q a ha
        refine Mem.blit_of_not_mem ?_
        simp only [pageSize] at ha ⊢
        omega
      obtain ⟨t, heq, hg, hmk', hsp, hbits⟩ |
          ⟨q, t, own₁, heq, hg, -, hmk', hsp, htables, hwalk, hbytes⟩ :=
        mapNewPage_spec (copyPage (frameAddr (s.mem.load32 (pt + 4 * ti)))) h hmk hman hvlo hvhi
          hcopy
      · obtain ⟨hgains, hsame⟩ := Gains.of_quiet h hmk hg hbits
        rw [heq]
        exact ⟨false, t, own, rfl, hg.mono fun _ hf => hf.elim, hmk', hsp, hgains,
          fun k hklo hkhi _ => hsame k hklo hkhi, by simp⟩
      · have hgains := Gains.of_map hvlo hvhi (hnew ti List.mem_cons_self) htables hwalk
        obtain ⟨ok, u, own₂, heq', hg', hmk₂, hsp₂, hgains', hrest, hcopied⟩ :=
          ih hsp hmk' (hg.managed hman) htis' hnodup' fun k hk => by
            have hk' := htis' k hk
            rw [hwalk _ (by omega) (by omega), if_neg (hother k hk)]
            exact hnew k (List.mem_cons_of_mem _ hk)
        rw [heq]
        refine ⟨ok, u, own₂, heq', hg.trans hg', hmk₂, hsp₂, hgains.trans hgains',
          fun k hklo hkhi hk => ?_, fun hok hal hpt hsafe k hk => ?_⟩
        · rw [hrest k hklo hkhi fun k' hk' => hk k' (List.mem_cons_of_mem _ hk'),
            hwalk k hklo hkhi, if_neg (hk ti List.mem_cons_self)]
        · have hsource : ∀ k < 1024, entryFrame t.mem pt k = entryFrame s.mem pt k := fun k hk =>
            entryFrame_congr hal hk fun a ha => Safe.content (ha ▸ hpt) hmk hg
          rcases List.mem_cons.mp hk with rfl | hk
          · -- the page of this round: it was filled from the source and is not touched again
            refine Copied.persists (s := t) ?_ hsp hmk' hg' hvlo hvhi
              (hrest _ hvlo hvhi fun k' hk' => (hother k' hk').symm)
            rw [entryFrame, if_pos hp]
            refine ⟨q, by rw [hwalk _ hvlo hvhi, if_pos rfl], fun i hi => ?_⟩
            rw [hbytes _ (offset_div q hi), copyPage, Mem.blit_of_mem (by omega) (by omega),
              Nat.add_sub_cancel_left]
            rfl
          · have hcop := hcopied hok hal (hpt.of_grows hg) (fun k' hk' f hf => by
              rw [hsource k' (htis' k' hk')] at hf
              exact (hsafe k' (List.mem_cons_of_mem _ hk') f hf).of_grows hg) k hk
            rw [hsource k (htis' k hk)] at hcop
            exact hcop.of_source (fun f hf => hsafe k (List.mem_cons_of_mem _ hk) f hf) hmk hg
    · rw [if_neg hp]
      obtain ⟨ok, t, own₁, heq, hg, hmk', hsp, hgains, hrest, hcopied⟩ :=
        ih h hmk hman htis' hnodup' fun k hk => hnew k (List.mem_cons_of_mem _ hk)
      refine ⟨ok, t, own₁, heq, hg, hmk', hsp, hgains, fun k hklo hkhi hk =>
        hrest k hklo hkhi fun k' hk' => hk k' (List.mem_cons_of_mem _ hk'),
        fun hok hal hpt hsafe k hk => ?_⟩
      rcases List.mem_cons.mp hk with rfl | hk
      · rw [entryFrame, if_neg hp]
        exact (hrest _ hvlo hvhi fun k' hk' => (hother k' hk').symm).trans
          (hnew _ List.mem_cons_self)
      · exact hcopied hok hal hpt (fun k' hk' => hsafe k' (List.mem_cons_of_mem _ hk')) k hk

/-- **The loop over the directory.** -/
lemma forkDirectory_spec (parentCr3 : Nat) {dis : List Nat} (h : Space s.mem own pd)
    (hmk : Marked s.pmm own) (hman : Managed s.pmm) (hdis : ∀ di ∈ dis, 2 ≤ di ∧ di < 1024)
    (hnodup : dis.Nodup)
    (hnew : ∀ k, 2048 ≤ k → k < 0x100000 → k / 1024 ∈ dis → walk s.mem pd k = none) :
    ∃ ok t own', forkDirectory parentCr3 pd s dis = (ok, t) ∧
      Grows (Role.Paging pd) s t own own' ∧ Marked t.pmm own' ∧ Space t.mem own' pd ∧
      Gains s t pd ∧
      (∀ k, 2048 ≤ k → k < 0x100000 → k / 1024 ∉ dis → walk t.mem pd k = walk s.mem pd k) ∧
      (ok = true → SafeDir own pd s.mem parentCr3 → ∀ k, 2048 ≤ k → k < 0x100000 →
        k / 1024 ∈ dis → Copied s.mem t.mem pd (walk s.mem parentCr3 k) k) := by
  induction dis generalizing s own with
  | nil =>
    exact ⟨true, s, own, rfl, .refl _ s own, hmk, h, .refl s pd, fun _ _ _ _ => rfl,
      fun _ _ _ _ _ => nofun⟩
  | cons di dis ih =>
    obtain ⟨hlo, hhi⟩ := hdis di List.mem_cons_self
    have hdis' := fun k (hk : k ∈ dis) => hdis k (List.mem_cons_of_mem _ hk)
    obtain ⟨hnot, hnodup'⟩ := List.nodup_cons.mp hnodup
    rw [forkDirectory]
    by_cases hp : Present (pde s.mem parentCr3 di)
    · rw [if_pos hp]
      obtain ⟨ok, t, own₁, heq, hg, hmk', hsp, hgains, hrest, hcopied⟩ :=
        forkTable_spec (frameAddr (pde s.mem parentCr3 di)) h hmk hman hlo hhi
          (fun ti hti => mem_tableEntries hti) nodup_tableEntries fun ti hti => by
            have := mem_tableEntries hti
            exact hnew _ (by omega) (by omega) (by
              rw [show (di * 1024 + ti) / 1024 = di by omega]
              exact List.mem_cons_self)
      have hrow : ∀ k, 2048 ≤ k → k < 0x100000 → k / 1024 ≠ di →
          walk t.mem pd k = walk s.mem pd k :=
        fun k hklo hkhi hk => hrest k hklo hkhi fun ti hti he => by
          have := mem_tableEntries hti
          omega
      rw [heq]
      cases ok with
      | false =>
        exact ⟨false, t, own₁, rfl, hg, hmk', hsp, hgains, fun k hklo hkhi hk =>
          hrow k hklo hkhi fun he => hk (he ▸ List.mem_cons_self), nofun⟩
      | true =>
        obtain ⟨ok, u, own₂, heq', hg', hmk₂, hsp₂, hgains', hrest', hcopied'⟩ :=
          ih hsp hmk' (hg.managed hman) hdis' hnodup' fun k hklo hkhi hk => by
            rw [hrow k hklo hkhi fun he => hnot (he ▸ hk)]
            exact hnew k hklo hkhi (List.mem_cons_of_mem _ hk)
        refine ⟨ok, u, own₂, heq', hg.trans hg', hmk₂, hsp₂, hgains.trans hgains',
          fun k hklo hkhi hk => ?_, fun hok hsafe k hklo hkhi hk => ?_⟩
        · rw [hrest' k hklo hkhi fun hm => hk (List.mem_cons_of_mem _ hm),
            hrow k hklo hkhi fun he => hk (he ▸ List.mem_cons_self)]
        · by_cases hkd : k / 1024 = di
          · -- a page of the table that has just been copied
            obtain ⟨ti, hti, rfl⟩ : ∃ ti < 1024, k = di * 1024 + ti :=
              ⟨k % 1024, by omega, by omega⟩
            have hframe : frameAddr (pde s.mem parentCr3 di) / pageSize =
                pde s.mem parentCr3 di / pageSize := Nat.mul_div_cancel _ (by decide)
            have hcop := hcopied rfl (Nat.mul_mod_left _ _)
              (by rw [hframe]; exact hsafe.safe (.table di) _ ⟨hlo, hhi, hp, rfl⟩)
              (fun k' hk' f hf => by
                have hk'' := mem_tableEntries hk'
                rw [← walk_eq_entryFrame hp hk''] at hf
                exact hsafe.safe (.page _) f ⟨by omega, by omega, hf⟩)
              ti (lt_mem_tableEntries hti)
            rw [walk_eq_entryFrame hp hti]
            exact hcop.persists hsp hmk' hg' hklo hkhi (hrest' _ hklo hkhi (by rwa [hkd]))
          · have hk' : k / 1024 ∈ dis := (List.mem_cons.mp hk).resolve_left hkd
            have hcop := hcopied' hok (hsafe.of_grows hmk hg) k hklo hkhi hk'
            rw [(hsafe.eq hmk hg).2 k hklo hkhi] at hcop
            exact hcop.of_source (fun f hf => hsafe.safe (.page k) f ⟨hklo, hkhi, hf⟩) hmk hg
    · rw [if_neg hp]
      obtain ⟨ok, t, own₁, heq, hg, hmk', hsp, hgains, hrest, hcopied⟩ :=
        ih h hmk hman hdis' hnodup' fun k hklo hkhi hk => hnew k hklo hkhi
          (List.mem_cons_of_mem _ hk)
      refine ⟨ok, t, own₁, heq, hg, hmk', hsp, hgains, fun k hklo hkhi hk =>
        hrest k hklo hkhi fun hm => hk (List.mem_cons_of_mem _ hm),
        fun hok hsafe k hklo hkhi hk => ?_⟩
      by_cases hkd : k / 1024 = di
      · have hnone : walk s.mem parentCr3 k = none := if_neg fun hw => hp (hkd ▸ hw.1)
        rw [hnone]
        exact (hrest k hklo hkhi (by rwa [hkd])).trans
          (hnew k hklo hkhi (by rw [hkd]; exact List.mem_cons_self))
      · exact hcopied hok hsafe k hklo hkhi ((List.mem_cons.mp hk).resolve_left hkd)

/-! ## The unwinding -/

def tablePages (m : Mem) (pt : Nat) (tis : List Nat) : List Nat :=
  tis.filterMap fun ti => (entryFrame m pt ti).map (· * pageSize)

def directoryPages (m : Mem) (pd : Nat) (dis : List Nat) : List Nat :=
  dis.flatMap fun di =>
    if Present (pde m pd di) then tablePages m (frameAddr (pde m pd di)) tableEntries else []

/-- What `fork_free_address_space` passes to `pmm_free_page`, in this order. -/
def freedPages (m : Mem) (pd : Nat) : List Nat := directoryPages m pd userEntries ++ [pd]

lemma freeTable_eq (pt : Nat) (tis : List Nat) :
    freeTable m pt p tis = (tablePages m pt tis).foldl Pmm.pmmFreePage p := by
  induction tis generalizing p with
  | nil => rfl
  | cons ti tis ih =>
    rw [freeTable, ih, tablePages, tablePages, List.filterMap_cons, entryFrame]
    by_cases hp : Present (m.load32 (pt + 4 * ti))
    · rw [if_pos hp, if_pos hp]
      rfl
    · rw [if_neg hp, if_neg hp]
      rfl

lemma freeDirectory_eq (dis : List Nat) :
    freeDirectory m pd p dis = (directoryPages m pd dis).foldl Pmm.pmmFreePage p := by
  induction dis generalizing p with
  | nil => rfl
  | cons di dis ih =>
    rw [freeDirectory, ih, directoryPages, directoryPages, List.flatMap_cons, List.foldl_append]
    by_cases hp : Present (pde m pd di)
    · rw [if_pos hp, if_pos hp, freeTable_eq]
    · rw [if_neg hp, if_neg hp]
      rfl

lemma forkFreeAddressSpace_pmm (s : Phys) (pd : Nat) :
    (forkFreeAddressSpace s pd).pmm = (freedPages s.mem pd).foldl Pmm.pmmFreePage s.pmm := by
  rw [freedPages, List.foldl_append, ← freeDirectory_eq]
  rfl

lemma holds_page_iff {ti : Nat} (hlo : 2 ≤ di) (hhi : di < 1024) (hp : Present (pde m pd di))
    (hti : ti < 1024) :
    Holds m pd (.page (di * 1024 + ti)) f ↔ entryFrame m (frameAddr (pde m pd di)) ti = some f := by
  rw [← walk_eq_entryFrame hp hti]
  exact ⟨fun h => h.2.2, fun h => ⟨by omega, by omega, h⟩⟩

lemma mem_tablePages {a ti : Nat} (hlo : 2 ≤ di) (hhi : di < 1024) (hp : Present (pde m pd di))
    (hti : ti < 1024) (ha : a ∈ (entryFrame m (frameAddr (pde m pd di)) ti).map (· * pageSize)) :
    ∃ f, Holds m pd (.page (di * 1024 + ti)) f ∧ a = f * pageSize := by
  obtain ⟨f, hf, rfl⟩ := Option.map_eq_some_iff.mp ha
  exact ⟨f, (holds_page_iff hlo hhi hp hti).mpr hf, rfl⟩

lemma mem_rowPages {a : Nat} (hdi : di ∈ userEntries) (ha : a ∈ if Present (pde m pd di) then
      tablePages m (frameAddr (pde m pd di)) tableEntries else []) :
    ∃ ti < 1024, ∃ f, Holds m pd (.page (di * 1024 + ti)) f ∧ a = f * pageSize := by
  obtain ⟨hlo, hhi⟩ := mem_userEntries di hdi
  split at ha
  case isTrue hp =>
    obtain ⟨ti, hti, ha⟩ := List.mem_filterMap.mp ha
    exact ⟨ti, mem_tableEntries hti, mem_tablePages hlo hhi hp (mem_tableEntries hti) ha⟩
  case isFalse => simp at ha

lemma mem_freedPages {a : Nat} : a ∈ freedPages m pd ↔
    a = pd ∨ ∃ vp f, Holds m pd (.page vp) f ∧ a = f * pageSize := by
  rw [freedPages, List.mem_append, List.mem_singleton, or_comm, directoryPages]
  refine or_congr_right ⟨fun ha => ?_, fun ⟨vp, f, hf, ha⟩ => ?_⟩
  · obtain ⟨di, hdi, ha⟩ := List.mem_flatMap.mp ha
    obtain ⟨ti, -, f, hf, rfl⟩ := mem_rowPages hdi ha
    exact ⟨_, f, hf, rfl⟩
  · obtain ⟨hlo, hhi, hw⟩ := hf
    have hp := (walk_some hw).1
    refine List.mem_flatMap.mpr ⟨vp / 1024, between_mem_userEntries (by omega) (by omega), ?_⟩
    rw [if_pos hp]
    refine List.mem_filterMap.mpr ⟨vp % 1024, lt_mem_tableEntries (by omega), ?_⟩
    rw [← walk_eq_entryFrame hp (by omega), show vp / 1024 * 1024 + vp % 1024 = vp by omega, hw, ha]
    rfl

/-- **Nothing is freed twice**: the pages and the directory have different roles. -/
lemma nodup_freedPages (h : Space m own pd) : (freedPages m pd).Nodup := by
  have hrole : ∀ {vp f a}, Holds m pd (.page vp) f → a = f * pageSize →
      own (a / pageSize) = some (.user pd vp) := by
    rintro vp f _ hf rfl
    rw [Nat.mul_div_cancel _ (by decide)]
    exact h.role_of_holds hf
  have hinj : ∀ {vp vp' f f' a}, Holds m pd (.page vp) f → a = f * pageSize →
      Holds m pd (.page vp') f' → a = f' * pageSize → vp = vp' := by
    intro vp vp' f f' a hf ha hf' ha'
    have heq := (hrole hf ha).symm.trans (hrole hf' ha')
    cases heq
    rfl
  -- the pages of one table, those of two tables, and the directory
  rw [freedPages, List.nodup_append]
  refine ⟨List.nodup_flatMap.mpr ⟨fun di hdi => ?_, nodup_userEntries.imp_of_mem ?_⟩, by simp,
    fun a ha b hb => ?_⟩
  · obtain ⟨hlo, hhi⟩ := mem_userEntries di hdi
    split
    case isTrue hp =>
      refine List.pairwise_filterMap.mpr (nodup_tableEntries.imp_of_mem ?_)
      rintro ti tj hti htj hne a ha _ ha' rfl
      obtain ⟨f, hf, hfa⟩ := mem_tablePages hlo hhi hp (mem_tableEntries hti) ha
      obtain ⟨f', hf', hfa'⟩ := mem_tablePages hlo hhi hp (mem_tableEntries htj) ha'
      have := hinj hf hfa hf' hfa'
      omega
    case isFalse => exact List.nodup_nil
  · intro di dj hdi hdj hne a ha ha'
    obtain ⟨ti, hti, f, hf, hfa⟩ := mem_rowPages hdi ha
    obtain ⟨tj, htj, f', hf', hfa'⟩ := mem_rowPages hdj ha'
    have := hinj hf hfa hf' hfa'
    omega
  · obtain ⟨di, hdi, ha⟩ := List.mem_flatMap.mp ha
    obtain ⟨ti, -, f, hf, hfa⟩ := mem_rowPages hdi ha
    rintro rfl
    have heq := hrole hf hfa
    rw [List.mem_singleton.mp hb, h.dir] at heq
    simp at heq

lemma freeAll_bitmap (l : List Nat) (p : Pmm) (q : Nat) :
    (l.foldl Pmm.pmmFreePage p).total = p.total ∧
      ((l.foldl Pmm.pmmFreePage p).bitmap q = true ↔
        p.bitmap q = true ∧ ∀ a ∈ l, a / pageSize = q → p.total ≤ q) := by
  induction l generalizing p with
  | nil => simp
  | cons a l ih =>
    obtain ⟨htotal, hbit⟩ := ih (p.pmmFreePage a)
    have hstep : (p.pmmFreePage a).total = p.total ∧ ((p.pmmFreePage a).bitmap q = true ↔
        p.bitmap q = true ∧ (a / pageSize = q → p.total ≤ q)) := by
      rw [Pmm.pmmFreePage]
      split
      case isTrue hskip =>
        refine ⟨rfl, ⟨fun hq => ⟨hq, ?_⟩, fun hq => hq.1⟩⟩
        rintro rfl
        exact hskip.resolve_right (by simp [hq])
      case isFalse hdrop =>
        rw [not_or, not_le] at hdrop
        refine ⟨rfl, ?_⟩
        by_cases hqa : a / pageSize = q
        · rw [← hqa, Pmm.drop_bitmap_self]
          simp only [Bool.false_eq_true, false_iff, not_and]
          exact fun _ hle => absurd (hle trivial) (by omega)
        · rw [Pmm.drop_bitmap_of_ne (Ne.symm hqa)]
          simp [hqa]
    rw [List.foldl_cons, htotal, hbit, hstep.1, hstep.2]
    simp [and_assoc]

/-- Frames have only been given back, and only such as the books have down as the directory or
a page of `pd`. -/
structure Frees (pd : Nat) (own : Own) (p p' : Pmm) : Prop where
  total : p'.total = p.total
  bits : ∀ q, p'.bitmap q = true → p.bitmap q = true
  freed : ∀ q, p'.bitmap q = false → p.bitmap q = true →
    own q = some (.dir pd) ∨ ∃ vp, own q = some (.user pd vp)

/-- **`fork_free_address_space`** gives back nothing but the directory and its pages. -/
lemma forkFreeAddressSpace_spec (h : Space s.mem own pd) :
    Frees pd own s.pmm (forkFreeAddressSpace s pd).pmm := by
  rw [forkFreeAddressSpace_pmm]
  refine ⟨(freeAll_bitmap _ _ 0).1, fun q hq => ((freeAll_bitmap _ _ q).2.mp hq).1,
    fun q hq hold => ?_⟩
  by_contra hrole
  rw [not_or] at hrole
  refine absurd ((freeAll_bitmap (freedPages s.mem pd) s.pmm q).2.mpr ⟨hold, fun a ha haq => ?_⟩)
    (by simp [hq])
  rcases mem_freedPages.mp ha with rfl | ⟨vp, f, hf, rfl⟩
  · rw [← haq] at hrole
    exact absurd h.dir hrole.1
  · rw [Nat.mul_div_cancel _ (by decide)] at haq
    rw [← haq] at hrole
    exact absurd ⟨vp, h.role_of_holds hf⟩ hrole.2

end NullOS.Memory
