import NullOS.Memory.Vmm

/-!
# Who owns a frame

Books that give each frame at most one role.  A directory keeps to them when the tables and the
frames it names have the role the directory gives them, so directories that keep to the same books
share nothing.
-/

namespace NullOS.Memory

open Lib

/-- What a frame is used for.  A directory is named by its address, a user page by its
number. -/
inductive Role
  | heap
  | dir (pd : Nat)
  | table (pd di : Nat)
  | user (pd vpage : Nat)
deriving DecidableEq, Repr

/-- The role of each frame. -/
abbrev Own := Nat → Option Role

/-- A role that makes a frame part of the paging structures of a directory. -/
def Role.Paging (pd : Nat) (r : Role) : Prop := r = .dir pd ∨ ∃ di, r = .table pd di

/-- Where a frame with a role may be written: the two entries that every directory shares with
the kernel's are not touched. -/
def Role.Writable (a : Nat) : Role → Prop
  | .dir _ => 8 ≤ a % pageSize
  | _ => True

/-- Every frame with a role is managed and marked used. -/
def Marked (p : Pmm) (own : Own) : Prop := ∀ q, own q ≠ none → q < p.total ∧ p.bitmap q = true

/-- A directory keeps to the books. -/
structure Space (m : Mem) (own : Own) (pd : Nat) : Prop where
  aligned : pd % pageSize = 0
  dir : own (pd / pageSize) = some (.dir pd)
  table : ∀ di, 2 ≤ di → di < 1024 → Present (pde m pd di) →
    own (pde m pd di / pageSize) = some (.table pd di)
  page : ∀ vp f, 2048 ≤ vp → vp < 0x100000 → walk m pd vp = some f → own f = some (.user pd vp)

/-- From `s` to `t` frames have only been taken, the books have only grown, and only frames
that were free or have a role in `W` were written. -/
structure Grows (W : Role → Prop) (s t : Phys) (own own' : Own) : Prop where
  total : t.pmm.total = s.pmm.total
  bits : ∀ q, s.pmm.bitmap q = true → t.pmm.bitmap q = true
  keeps : ∀ q, own q ≠ none → own' q = own q
  fresh : ∀ q, own q = none → own' q ≠ none → s.pmm.bitmap q = false
  writes : ∀ a, t.mem a ≠ s.mem a →
    s.pmm.bitmap (a / pageSize) = false ∨
      ∃ r, own (a / pageSize) = some r ∧ W r ∧ r.Writable a

/-- Every frame that was written has a role. -/
def Tidy (s t : Phys) (own' : Own) : Prop := ∀ a, t.mem a ≠ s.mem a → own' (a / pageSize) ≠ none

/-- Frame `q` is a page table of `pd`, and not one of the two that it shares with the kernel. -/
def TableOf (m : Mem) (pd q : Nat) : Prop :=
  ∃ di, 2 ≤ di ∧ di < 1024 ∧ Present (pde m pd di) ∧ pde m pd di / pageSize = q

/-- The tables of `pd` are still its tables, and every frame that is newly marked has become one, or
is in `P`. -/
structure TablesGrow (P : Nat → Prop) (s t : Phys) (pd : Nat) : Prop where
  kept : ∀ di, 2 ≤ di → di < 1024 → Present (pde s.mem pd di) → pde t.mem pd di = pde s.mem pd di
  marked : ∀ q, t.pmm.bitmap q = true → s.pmm.bitmap q = true ∨ P q ∨ TableOf t.mem pd q

variable {s t u : Phys} {m m' : Mem} {p : Pmm} {own own' own'' : Own} {pd di ti vp q f : Nat}
  {r : Role} {W W' : Role → Prop}

lemma Tidy.trans (h : Tidy s t own') (h' : Tidy t u own'')
    (hkeep : ∀ q, own' q ≠ none → own'' q = own' q) : Tidy s u own'' := by
  intro a ha
  by_cases hst : t.mem a = s.mem a
  · exact h' a (hst ▸ ha)
  · rw [hkeep _ (h a hst)]
    exact h a hst

lemma TablesGrow.refl (P : Nat → Prop) (s : Phys) (pd : Nat) : TablesGrow P s s pd :=
  ⟨fun _ _ _ _ => rfl, fun _ hq => .inl hq⟩

lemma TablesGrow.mono {P P' : Nat → Prop} (h : TablesGrow P s t pd) (hP : ∀ q, P q → P' q) :
    TablesGrow P' s t pd :=
  ⟨h.kept, fun q hq => (h.marked q hq).imp_right fun hq => hq.imp_left (hP q)⟩

lemma TableOf.of_kept {P : Nat → Prop} (h : TableOf s.mem pd q) (hg : TablesGrow P s t pd) :
    TableOf t.mem pd q := by
  obtain ⟨di, hlo, hhi, hp, hq⟩ := h
  have hkept := hg.kept di hlo hhi hp
  exact ⟨di, hlo, hhi, by rwa [hkept], by rwa [hkept]⟩

lemma TablesGrow.trans {P : Nat → Prop} (h : TablesGrow P s t pd) (h' : TablesGrow P t u pd) :
    TablesGrow P s u pd := by
  refine ⟨fun di hlo hhi hp => ?_, fun q hq => ?_⟩
  · have hkept := h.kept di hlo hhi hp
    rw [h'.kept di hlo hhi (by rwa [hkept]), hkept]
  · obtain hq | hq | hq := h'.marked q hq
    · exact (h.marked q hq).imp_right fun hq => hq.imp_right fun ht => ht.of_kept h'
    · exact .inr (.inl hq)
    · exact .inr (.inr hq)

lemma Grows.refl (W : Role → Prop) (s : Phys) (own : Own) : Grows W s s own own :=
  ⟨rfl, fun _ h => h, fun _ _ => rfl, fun _ h h' => absurd h h', fun _ h => absurd rfl h⟩

lemma Grows.mono (h : Grows W s t own own') (hW : ∀ r, W r → W' r) : Grows W' s t own own' :=
  ⟨h.total, h.bits, h.keeps, h.fresh, fun a ha =>
    (h.writes a ha).imp_right fun ⟨r, hr, hw, ha⟩ => ⟨r, hr, hW r hw, ha⟩⟩

lemma Grows.free (h : Grows W s t own own') (hq : t.pmm.bitmap q = false) :
    s.pmm.bitmap q = false := by
  cases hs : s.pmm.bitmap q with
  | false => rfl
  | true =>
    rw [h.bits q hs] at hq
    simp at hq

lemma Grows.trans (h : Grows W s t own own') (h' : Grows W t u own' own'') :
    Grows W s u own own'' := by
  refine ⟨h'.total.trans h.total, fun q hq => h'.bits q (h.bits q hq), fun q hq => ?_,
    fun q hq hq' => ?_, fun a ha => ?_⟩
  · have hkeep := h.keeps q hq
    rw [h'.keeps q (by rwa [hkeep]), hkeep]
  · by_cases hmid : own' q = none
    · exact h.free (h'.fresh q hmid hq')
    · exact h.fresh q hq hmid
  · by_cases hst : t.mem a = s.mem a
    · rw [← hst] at ha
      obtain hfree | ⟨r, hr, hw⟩ := h'.writes a ha
      · exact .inl (h.free hfree)
      · by_cases hmid : own (a / pageSize) = none
        · exact .inl (h.fresh _ hmid (by simp [hr]))
        · rw [h.keeps _ hmid] at hr
          exact .inr ⟨r, hr, hw⟩
    · exact h.writes a hst

lemma Grows.of_pmm_eq (h : t.pmm = s.pmm)
    (hw : ∀ a, t.mem a ≠ s.mem a → ∃ r, own (a / pageSize) = some r ∧ W r ∧ r.Writable a) :
    Grows W s t own own :=
  ⟨by rw [h], fun q hq => by rwa [h], fun _ _ => rfl, fun _ hn hn' => absurd hn hn',
    fun a ha => .inr (hw a ha)⟩

/-! ## The allocator -/

/-- What holds of the allocator from `pmm_init` on: it manages at most 8 MB, and the first 4 MB
are not free. -/
structure Managed (p : Pmm) : Prop where
  total_le : p.total ≤ pmmMaxPages
  low : ∀ q < 1024, p.bitmap q = true

lemma Managed.alloc (h : Managed p) :
    p.pmmAllocPage = (0, p) ∨
      ∃ q, 1024 ≤ q ∧ q < 2048 ∧ q < p.total ∧ p.bitmap q = false ∧
        p.pmmAllocPage = (q * pageSize, p.take q) := by
  obtain hfail | ⟨q, hq, hfree, hok⟩ := p.pmmAllocPage_cases
  · exact .inl hfail
  · refine .inr ⟨q, ?_, lt_of_lt_of_le hq h.total_le, hq, hfree, hok⟩
    by_contra hlt
    rw [h.low q (by omega)] at hfree
    simp at hfree

lemma Managed.take (h : Managed p) (q : Nat) : Managed (p.take q) := by
  refine ⟨h.total_le, fun k hk => ?_⟩
  by_cases hkq : k = q
  · rw [hkq]
    exact Pmm.take_bitmap_self
  · rw [Pmm.take_bitmap_of_ne hkq]
    exact h.low k hk

lemma Grows.managed (hg : Grows W s t own own') (h : Managed s.pmm) : Managed t.pmm :=
  ⟨hg.total ▸ h.total_le, fun q hq => hg.bits q (h.low q hq)⟩

lemma Marked.none_of_free (h : Marked p own) (hq : p.bitmap q = false) : own q = none := by
  by_contra hne
  rw [(h q hne).2] at hq
  simp at hq

lemma Marked.take (h : Marked p own) (hq : q < p.total) (r : Role) :
    Marked (p.take q) (Function.update own q (some r)) := by
  intro k hk
  by_cases hkq : k = q
  · subst hkq
    exact ⟨hq, Pmm.take_bitmap_self⟩
  · rw [Function.update_of_ne hkq] at hk
    rw [Pmm.take_bitmap_of_ne hkq]
    exact h k hk

lemma Grows.take (hq : s.pmm.bitmap q = false) (r : Role) (h : Marked s.pmm own)
    (hw : ∀ a, m a ≠ s.mem a → a / pageSize = q ∨
      ∃ r, own (a / pageSize) = some r ∧ W r ∧ r.Writable a) :
    Grows W s { s with pmm := s.pmm.take q, mem := m } own (Function.update own q (some r)) := by
  refine ⟨rfl, fun k hk => ?_, fun k hk => ?_, fun k hk hk' => ?_, fun a ha => ?_⟩
  · by_cases hkq : k = q
    · subst hkq
      exact Pmm.take_bitmap_self
    · exact (Pmm.take_bitmap_of_ne hkq).trans hk
  · have hkq : k ≠ q := fun he => hk (he ▸ h.none_of_free hq)
    rw [Function.update_of_ne hkq]
  · by_cases hkq : k = q
    · rw [hkq]
      exact hq
    · rw [Function.update_of_ne hkq] at hk'
      exact absurd hk hk'
  · refine (hw a ha).imp_left fun (he : a / pageSize = q) => ?_
    rw [he]
    exact hq

lemma Grows.content {a : Nat} (hg : Grows W s t own own') (hmk : Marked s.pmm own)
    (hr : own (a / pageSize) = some r) (hW : ¬ W r) : t.mem a = s.mem a := by
  by_contra hne
  obtain hfree | ⟨r', hr', hw, -⟩ := hg.writes a hne
  · rw [hmk.none_of_free hfree] at hr
    simp at hr
  · rw [hr'] at hr
    cases hr
    exact hW hw

lemma not_paging_user (pd q vp : Nat) : ¬ (Role.user q vp).Paging pd := by
  rintro (h | ⟨di, h⟩) <;> cases h

/-! ## Reading the structures -/

lemma pde_congr (hpd : pd % pageSize = 0) (hdi : di < 1024)
    (h : ∀ a, a / pageSize = pd / pageSize → m' a = m a) : pde m' pd di = pde m pd di := by
  simp only [pageSize] at *
  exact Mem.load32_congr fun i hi => h _ (by omega)

lemma pte_congr (hti : ti < 1024) (hpde : pde m' pd di = pde m pd di)
    (h : ∀ a, a / pageSize = pde m pd di / pageSize → m' a = m a) :
    pte m' pd di ti = pte m pd di ti := by
  unfold pte frameAddr
  rw [hpde]
  simp only [pageSize] at *
  exact Mem.load32_congr fun i hi => h _ (by omega)

lemma walk_congr (hpde : pde m' pd (vp / 1024) = pde m pd (vp / 1024))
    (hpte : Present (pde m pd (vp / 1024)) →
      pte m' pd (vp / 1024) (vp % 1024) = pte m pd (vp / 1024) (vp % 1024)) :
    walk m' pd vp = walk m pd vp := by
  unfold walk
  rw [hpde]
  by_cases hp : Present (pde m pd (vp / 1024))
  · rw [hpte hp]
  · rw [if_neg fun h => hp h.1, if_neg fun h => hp h.1]

lemma walk_some (h : walk m pd vp = some f) :
    Present (pde m pd (vp / 1024)) ∧ Present (pte m pd (vp / 1024) (vp % 1024)) ∧
      pte m pd (vp / 1024) (vp % 1024) / pageSize = f := by
  unfold walk at h
  split at h
  case isTrue hp => exact ⟨hp.1, hp.2, Option.some.inj h⟩
  case isFalse => simp at h

lemma Space.walk_eq (h : Space m own pd)
    (hm : ∀ a r, own (a / pageSize) = some r → r.Paging pd → m' a = m a)
    (hvp : 2048 ≤ vp) (hvp' : vp < 0x100000) : walk m' pd vp = walk m pd vp := by
  have hpde : pde m' pd (vp / 1024) = pde m pd (vp / 1024) :=
    pde_congr h.aligned (by omega) fun a ha => hm a _ (by rw [ha, h.dir]) (.inl rfl)
  refine walk_congr hpde fun hp => pte_congr (Nat.mod_lt _ (by omega)) hpde fun a ha => ?_
  exact hm a _ (by rw [ha, h.table _ (by omega) (by omega) hp]) (.inr ⟨_, rfl⟩)

lemma Space.congr (h : Space m own pd)
    (hm : ∀ a r, own (a / pageSize) = some r → r.Paging pd → m' a = m a)
    (ho : ∀ q, own q ≠ none → own' q = own q) : Space m' own' pd := by
  have hsame : ∀ {q r}, own q = some r → own' q = some r := fun {q r} hq => by
    rw [ho q (by simp [hq]), hq]
  refine ⟨h.aligned, hsame h.dir, fun di hlo hhi hp => ?_, fun vp f hlo hhi hw => ?_⟩
  · have hpde : pde m' pd di = pde m pd di :=
      pde_congr h.aligned hhi fun a ha => hm a _ (by rw [ha, h.dir]) (.inl rfl)
    rw [hpde] at hp ⊢
    exact hsame (h.table di hlo hhi hp)
  · rw [h.walk_eq hm hlo hhi] at hw
    exact hsame (h.page vp f hlo hhi hw)

lemma Space.of_grows (h : Space s.mem own pd) (hmk : Marked s.pmm own) (hg : Grows W s t own own')
    (hW : ∀ r, r.Paging pd → ¬ W r) : Space t.mem own' pd := by
  refine h.congr (fun a r hr hp => ?_) hg.keeps
  by_contra hne
  obtain hfree | ⟨r', hr', hw, -⟩ := hg.writes a hne
  · rw [hmk.none_of_free hfree] at hr
    simp at hr
  · rw [hr'] at hr
    cases hr
    exact hW r hp hw

/-! ## Mapping a page -/

lemma present_entry (hf : f % pageSize = 0) :
    Present (f + vmmUserRw) ∧ (f + vmmUserRw) / pageSize = f / pageSize := by
  unfold Present vmmUserRw pageSize at *
  omega

lemma pde_store_of_ne {dj w : Nat} (hne : dj ≠ di) :
    pde (m.store32 (pd + 4 * di) w) pd dj = pde m pd dj :=
  Mem.load32_store32_of_disjoint (by omega)

lemma pde_store_self {w : Nat} (hw : w < 0x100000000) :
    pde (m.store32 (pd + 4 * di) w) pd di = w :=
  Mem.load32_store32 hw

lemma Space.newTable (h : Space m own pd) (hmk : own q = none) (hq : q < 2048) (hlo : 2 ≤ di)
    (hhi : di < 1024) (hnew : ¬ Present (pde m pd di)) {m' : Mem}
    (hm' : m' = (zero4kb m (q * pageSize)).store32 (pd + 4 * di) (q * pageSize + vmmUserRw)) :
    Space m' (Function.update own q (some (.table pd di))) pd ∧
      pde m' pd di = q * pageSize + vmmUserRw ∧
      (∀ vp, 2048 ≤ vp → vp < 0x100000 → walk m' pd vp = walk m pd vp) ∧
      (∀ dj < 1024, dj ≠ di → pde m' pd dj = pde m pd dj) ∧
      ∀ a, a / pageSize ≠ q → (a / pageSize = pd / pageSize → a % pageSize < 8) →
        m' a = m a := by
  have hpd := h.aligned
  have hne : q ≠ pd / pageSize := by
    intro he
    rw [he, h.dir] at hmk
    simp at hmk
  have hframe : ∀ a, a / pageSize ≠ q → (a / pageSize = pd / pageSize → a % pageSize < 8) →
      m' a = m a := by
    intro a ha ha'
    simp only [pageSize] at *
    rw [hm', Mem.store32_of_not_mem (by omega)]
    exact Mem.fill_of_not_mem (by omega)
  have hself : pde m' pd di = q * pageSize + vmmUserRw := by
    rw [hm']
    exact pde_store_self (by simp only [pageSize, vmmUserRw]; omega)
  have hother : ∀ dj < 1024, dj ≠ di → pde m' pd dj = pde m pd dj := by
    intro dj hdj hdne
    rw [hm', pde_store_of_ne hdne]
    simp only [pageSize] at *
    exact Mem.load32_fill_of_disjoint (by omega)
  have hwalk : ∀ vp, 2048 ≤ vp → vp < 0x100000 → walk m' pd vp = walk m pd vp := by
    intro vp hvlo hvhi
    by_cases hvd : vp / 1024 = di
    · -- nothing was mapped below this entry, and nothing is
      have hold : walk m pd vp = none := by
        unfold walk
        rw [hvd, if_neg fun hp => hnew hp.1]
      have hpte : pte m' pd di (vp % 1024) = 0 := by
        rw [pte, hself, frameAddr, (present_entry (Nat.mul_mod_left q pageSize)).2, hm']
        simp only [pageSize] at hpd hne ⊢
        rw [Mem.load32_store32_of_disjoint (by omega)]
        exact Mem.load32_fill_zero (by omega) (by omega)
      rw [hold]
      unfold walk
      rw [hvd, hpte, if_neg]
      rintro ⟨-, hp⟩
      exact absurd hp (by decide)
    · have hpde := hother (vp / 1024) (by omega) hvd
      refine walk_congr hpde fun hp => pte_congr (Nat.mod_lt _ (by omega)) hpde fun a ha => ?_
      have hrole := h.table _ (by omega) (by omega) hp
      rw [← ha] at hrole
      refine hframe a (fun he => ?_) fun he => ?_
      · rw [he, hmk] at hrole
        simp at hrole
      · rw [he, h.dir] at hrole
        simp at hrole
  have hkeep : ∀ {k r}, own k = some r →
      Function.update own q (some (.table pd di)) k = some r := by
    intro k r hk
    rw [Function.update_of_ne (fun he => by rw [he, hmk] at hk; simp at hk), hk]
  refine ⟨⟨hpd, hkeep h.dir, fun dj hdlo hdhi hp => ?_, fun vp f hvlo hvhi hw => ?_⟩, hself, hwalk,
    hother, hframe⟩
  · by_cases hd : dj = di
    · subst hd
      rw [hself, (present_entry (Nat.mul_mod_left q pageSize)).2]
      simp [pageSize]
    · rw [hother dj hdhi hd] at hp ⊢
      exact hkeep (h.table dj hdlo hdhi hp)
  · rw [hwalk vp hvlo hvhi] at hw
    exact hkeep (h.page vp f hvlo hvhi hw)

/-- **After `ensureTable` the table is there**, and what was mapped is still mapped. -/
lemma ensureTable_spec (di : Nat) (h : Space s.mem own pd) (hmk : Marked s.pmm own)
    (hman : Managed s.pmm) (hlo : 2 ≤ di) (hhi : di < 1024) :
    ensureTable s pd di = (false, s) ∨
      ∃ t own', ensureTable s pd di = (true, t) ∧ Grows (Role.Paging pd) s t own own' ∧
        Tidy s t own' ∧ Marked t.pmm own' ∧ Space t.mem own' pd ∧
        TablesGrow (fun _ => False) s t pd ∧ Present (pde t.mem pd di) ∧
        ∀ vp, 2048 ≤ vp → vp < 0x100000 → walk t.mem pd vp = walk s.mem pd vp := by
  by_cases hp : Present (pde s.mem pd di)
  · refine .inr ⟨s, own, ?_, .refl _ s own, fun _ ha => absurd rfl ha, hmk, h, .refl _ s pd, hp,
      fun _ _ _ => rfl⟩
    rw [ensureTable, if_pos hp]
  · obtain hfail | ⟨q, hqlo, hqhi, hqt, hfree, hok⟩ := hman.alloc
    · left
      simp [ensureTable, if_neg hp, hfail]
    · right
      have hnone := hmk.none_of_free hfree
      obtain ⟨hspace, hpde, hwalk, hother, hframe⟩ := h.newTable hnone hqhi hlo hhi hp rfl
      let m := (zero4kb s.mem (q * pageSize)).store32 (pd + 4 * di) (q * pageSize + vmmUserRw)
      have hwrite : ∀ a, m a ≠ s.mem a →
          a / pageSize = q ∨ a / pageSize = pd / pageSize ∧ 8 ≤ a % pageSize := by
        intro a ha
        by_contra hne
        rw [not_or] at hne
        exact ha (hframe a hne.1 fun he => not_le.mp fun hle => hne.2 ⟨he, hle⟩)
      have hentry := present_entry (Nat.mul_mod_left q pageSize)
      have hpres : Present (pde m pd di) := by
        rw [hpde]
        exact hentry.1
      have htables : TablesGrow (fun _ => False) s { s with pmm := s.pmm.take q, mem := m } pd := by
        refine ⟨fun dj hdlo hdhi hpj => hother dj hdhi fun he => hp (he ▸ hpj), fun x hx => ?_⟩
        by_cases hxq : x = q
        · -- the frame that has just been taken is the new table
          refine .inr (.inr ⟨di, hlo, hhi, hpres, ?_⟩)
          show pde m pd di / pageSize = x
          rw [hpde, hentry.2, hxq, Nat.mul_div_cancel _ (by decide)]
        · left
          rwa [← Pmm.take_bitmap_of_ne hxq]
      refine ⟨{ s with pmm := s.pmm.take q, mem := m }, _, ?_,
        .take hfree (.table pd di) hmk fun a ha => ?_, fun a ha => ?_, hmk.take hqt (.table pd di),
        hspace, htables, hpres, hwalk⟩
      · have hz : ¬ q * pageSize = 0 := by simp only [pageSize]; omega
        have hlim : ¬ pmmLimitAddr ≤ q * pageSize := by
          simp only [pmmLimitAddr, pageSize]
          omega
        rw [ensureTable, if_neg hp, hok]
        dsimp only
        rw [if_neg hz, if_neg hlim]
      · refine (hwrite a ha).imp_right fun he => ⟨.dir pd, ?_, .inl rfl, he.2⟩
        rw [he.1, h.dir]
      · obtain he | ⟨he, -⟩ := hwrite a ha
        · rw [he, Function.update_self]
          simp
        · rw [he, hspace.dir]
          simp

lemma Space.putPte (h : Space s.mem own pd) (hvlo : 2048 ≤ vp) (hvhi : vp < 0x100000)
    (hp : Present (pde s.mem pd (vp / 1024))) (hf : own f = some (.user pd vp)) (hf' : f < 2048) :
    let t := s.putPte pd (vp / 1024) (vp % 1024) (f * pageSize + vmmUserRw)
    Space t.mem own pd ∧
      (∀ k, 2048 ≤ k → k < 0x100000 →
        walk t.mem pd k = if k = vp then some f else walk s.mem pd k) ∧
      (∀ di < 1024, pde t.mem pd di = pde s.mem pd di) ∧
      ∀ a, a / pageSize ≠ pde s.mem pd (vp / 1024) / pageSize → t.mem a = s.mem a := by
  intro t
  have hrole := h.table (vp / 1024) (by omega) (by omega) hp
  have hframe : ∀ a, a / pageSize ≠ pde s.mem pd (vp / 1024) / pageSize → t.mem a = s.mem a := by
    intro a ha
    refine Mem.store32_of_not_mem ?_
    simp only [frameAddr, pageSize] at ha ⊢
    omega
  have hpde : ∀ di < 1024, pde t.mem pd di = pde s.mem pd di := by
    intro di hdi
    refine pde_congr h.aligned hdi fun a ha => hframe a fun he => ?_
    rw [← he, ha, h.dir] at hrole
    simp at hrole
  have hwalk : ∀ k, 2048 ≤ k → k < 0x100000 →
      walk t.mem pd k = if k = vp then some f else walk s.mem pd k := by
    intro k hklo hkhi
    by_cases hk : k = vp
    · subst hk
      have hentry : pte t.mem pd (k / 1024) (k % 1024) = f * pageSize + vmmUserRw := by
        rw [pte, hpde _ (by omega)]
        exact Mem.load32_store32 (by simp only [pageSize, vmmUserRw]; omega)
      have hfr := present_entry (Nat.mul_mod_left f pageSize)
      rw [if_pos rfl, walk, hentry, hpde _ (by omega), if_pos ⟨hp, hfr.1⟩, hfr.2]
      simp [pageSize]
    · rw [if_neg hk]
      refine walk_congr (hpde _ (by omega)) fun hpk => ?_
      by_cases hd : k / 1024 = vp / 1024
      · -- another entry of the same table
        rw [pte, pte, hpde _ (by omega), hd]
        exact Mem.load32_store32_of_disjoint (by omega)
      · refine pte_congr (Nat.mod_lt _ (by omega)) (hpde _ (by omega)) fun a ha =>
          hframe a fun he => ?_
        have hrole' := h.table (k / 1024) (by omega) (by omega) hpk
        rw [← ha, he, hrole] at hrole'
        exact hd (Role.table.inj (Option.some.inj hrole')).2.symm
  refine ⟨⟨h.aligned, h.dir, fun di hlo hhi hpd => ?_, fun k g hklo hkhi hw => ?_⟩, hwalk, hpde,
    hframe⟩
  · rw [hpde di hhi] at hpd ⊢
    exact h.table di hlo hhi hpd
  · rw [hwalk k hklo hkhi] at hw
    split at hw
    case isTrue hk =>
      cases hw
      rw [hk]
      exact hf
    case isFalse => exact h.page k g hklo hkhi hw

/-- **What `vmm_map_user_page` does** with a frame that has the role of the page: it fails and
changes nothing, or the page is mapped and everything else is mapped as before. -/
lemma vmmMapUserPage_spec (h : Space s.mem own pd) (hmk : Marked s.pmm own) (hman : Managed s.pmm)
    (hvlo : 2048 ≤ vp) (hvhi : vp < 0x100000) (hf : own f = some (.user pd vp)) :
    (∃ r, r ≠ .ok ∧ vmmMapUserPage s pd (vp * pageSize) (f * pageSize) = (r, s)) ∨
      ∃ t own', vmmMapUserPage s pd (vp * pageSize) (f * pageSize) = (.ok, t) ∧
        Grows (Role.Paging pd) s t own own' ∧ Tidy s t own' ∧ Marked t.pmm own' ∧
        Space t.mem own' pd ∧ TablesGrow (fun _ => False) s t pd ∧ ∀ k, 2048 ≤ k → k < 0x100000 →
          walk t.mem pd k = if k = vp then some f else walk s.mem pd k := by
  have hvirt : ¬ vp * pageSize < 0x800000 := by simp only [pageSize]; omega
  have hdi : dirIndex (vp * pageSize) = vp / 1024 := by simp only [dirIndex, pageSize]; omega
  have hti : tableIndex (vp * pageSize) = vp % 1024 := by simp only [tableIndex, pageSize]; omega
  have hfa : frameAddr (f * pageSize) = f * pageSize := by simp only [frameAddr, pageSize]; omega
  have hflt : f < 2048 := lt_of_lt_of_le (hmk f (by simp [hf])).1 hman.total_le
  rw [vmmMapUserPage, if_neg hvirt, hdi, hti, hfa]
  obtain hfail | ⟨t, own', hok, hg, htidy, hmk', hspace, htables, hp, hwalk⟩ :=
    ensureTable_spec (vp / 1024) h hmk hman (by omega) (by omega)
  · rw [hfail]
    exact .inl ⟨.errNomem, by simp, rfl⟩
  · rw [hok]
    have hf' : own' f = some (.user pd vp) := by rw [hg.keeps f (by simp [hf]), hf]
    obtain ⟨hspace', hwalk', hpde, hframe⟩ := hspace.putPte hvlo hvhi hp hf' hflt
    have hwrite : ∀ a, (t.putPte pd (vp / 1024) (vp % 1024) (f * pageSize + vmmUserRw)).mem a ≠
        t.mem a → own' (a / pageSize) = some (.table pd (vp / 1024)) := by
      intro a ha
      by_contra hne
      refine ha (hframe a fun he => hne ?_)
      rw [he, hspace.table _ (by omega) (by omega) hp]
    refine .inr ⟨_, own', rfl, hg.trans (.of_pmm_eq rfl fun a ha => ?_),
      htidy.trans (fun a ha => by simp [hwrite a ha]) fun _ _ => rfl, hmk', hspace',
      htables.trans ⟨fun di _ hdi _ => hpde di hdi, fun _ hq => .inl hq⟩, fun k hklo hkhi => ?_⟩
    · exact ⟨_, hwrite a ha, .inr ⟨_, rfl⟩, trivial⟩
    · rw [hwalk' k hklo hkhi, hwalk k hklo hkhi]

end NullOS.Memory
