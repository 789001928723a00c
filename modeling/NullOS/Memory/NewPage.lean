import NullOS.Memory.Frames

/-!
# A new page for a process

`elf_load`, `exec` and `process_fork` all get their pages in the same way: a frame is allocated,
filled and mapped, and given back if it cannot be mapped.  They differ in what they fill it with.
-/

namespace NullOS.Memory

open Lib

/-- A page is allocated, `fill` writes its content, and it is mapped at `va`; whether that
worked. -/
def mapNewPage (fill : Mem → Nat → Mem) (s : Phys) (cr3 va : Nat) : Bool × Phys :=
  let (phys, pmm) := s.pmm.pmmAllocPage
  if phys = 0 then (false, { s with pmm })
  else
    match vmmMapUserPage { s with pmm, mem := fill s.mem phys } cr3 va phys with
    | (.ok, t) => (true, t)
    | (_, t) => (false, { t with pmm := t.pmm.pmmFreePage phys })

variable {s t : Phys} {m : Mem} {own own' : Own} {pd vp q : Nat}

/-! ## A new directory -/

/-- **What `vmm_create_directory` does**: nothing, or a frame that was free becomes a directory with
the first two entries of the kernel's and no others. -/
lemma vmmCreateDirectory_cases (hman : Managed s.pmm) : vmmCreateDirectory s = (0, s) ∨
    ∃ q m, 1024 ≤ q ∧ q < 2048 ∧ q < s.pmm.total ∧ s.pmm.bitmap q = false ∧
      vmmCreateDirectory s = (q * pageSize, { s with pmm := s.pmm.take q, mem := m }) ∧
      (∀ a, a / pageSize ≠ q → m a = s.mem a) ∧
      pde m (q * pageSize) 0 = pde s.mem pageDirAddr 0 ∧
      pde m (q * pageSize) 1 = pde s.mem pageDirAddr 1 ∧
      ∀ di, 2 ≤ di → di < 1024 → pde m (q * pageSize) di = 0 := by
  obtain hfail | ⟨q, hqlo, hqhi, hqt, hfree, halloc⟩ := hman.alloc
  · left
    rw [vmmCreateDirectory, hfail]
    rfl
  · right
    have hz : ¬ q * pageSize = 0 := by simp only [pageSize]; omega
    have hlim : ¬ pmmLimitAddr ≤ q * pageSize := by simp only [pmmLimitAddr, pageSize]; omega
    obtain ⟨w₀, hw₀⟩ : ∃ w, pde (zero4kb s.mem (q * pageSize)) pageDirAddr 0 = w := ⟨_, rfl⟩
    obtain ⟨m₁, hm₁⟩ : ∃ m, (zero4kb s.mem (q * pageSize)).store32 (q * pageSize) w₀ = m :=
      ⟨_, rfl⟩
    obtain ⟨w₁, hw₁⟩ : ∃ w, pde m₁ pageDirAddr 1 = w := ⟨_, rfl⟩
    obtain ⟨m₂, hm₂⟩ : ∃ m, m₁.store32 (q * pageSize + 4) w₁ = m := ⟨_, rfl⟩
    have hframe₁ : ∀ a, a / pageSize ≠ q → m₁ a = s.mem a := by
      intro a ha
      simp only [pageSize] at ha hm₁
      rw [← hm₁, Mem.store32_of_not_mem (by omega)]
      exact Mem.fill_of_not_mem (by omega)
    have hframe₂ : ∀ a, a / pageSize ≠ q → m₂ a = s.mem a := by
      intro a ha
      rw [← hframe₁ a ha, ← hm₂]
      simp only [pageSize] at ha ⊢
      exact Mem.store32_of_not_mem (by omega)
    -- the kernel's directory is not the new one
    have hpde₀ : w₀ = pde s.mem pageDirAddr 0 := by
      rw [← hw₀]
      refine Mem.load32_fill_of_disjoint ?_
      simp only [pageDirAddr, pageSize]
      omega
    have hpde₁ : w₁ = pde s.mem pageDirAddr 1 := by
      rw [← hw₁]
      refine pde_congr (by decide) (by omega) fun a ha => hframe₁ a ?_
      rw [ha]
      simp only [pageDirAddr, pageSize]
      omega
    refine ⟨q, m₂, hqlo, hqhi, hqt, hfree, ?_, hframe₂, ?_, ?_, fun di hlo hhi => ?_⟩
    · rw [vmmCreateDirectory, halloc]
      dsimp only
      rw [if_neg hz, if_neg hlim, hw₀, hm₁, hw₁, hm₂]
    · refine Eq.trans ?_ hpde₀
      rw [← hm₂, pde, Mem.load32_store32_of_disjoint (by omega), ← hm₁, Nat.mul_zero, Nat.add_zero]
      exact Mem.load32_store32 (hw₀ ▸ Mem.load32_lt)
    · refine Eq.trans ?_ hpde₁
      rw [← hm₂]
      exact Mem.load32_store32 (hw₁ ▸ Mem.load32_lt)
    · rw [← hm₂, ← hm₁, pde, Mem.load32_store32_of_disjoint (by omega),
        Mem.load32_store32_of_disjoint (by omega)]
      exact Mem.load32_fill_zero (by omega) (by omega)

/-! ## A new page -/

lemma Space.takeFrame (h : Space s.mem own pd) (hmk : Marked s.pmm own)
    (hfree : s.pmm.bitmap q = false) (hq : q < s.pmm.total) (vp : Nat)
    (hm : ∀ a, a / pageSize ≠ q → m a = s.mem a) :
    let u := { s with pmm := s.pmm.take q, mem := m }
    let own' := Function.update own q (some (.user pd vp))
    Grows (fun _ => False) s u own own' ∧ Tidy s u own' ∧ Marked u.pmm own' ∧
      Space u.mem own' pd := by
  intro u own'
  have hwrite : ∀ a, u.mem a ≠ s.mem a → a / pageSize = q := fun a ha => by
    by_contra hne
    exact ha (hm a hne)
  have hg : Grows (fun _ => False) s u own own' :=
    .take hfree (.user pd vp) hmk fun a ha => .inl (hwrite a ha)
  refine ⟨hg, fun a ha => ?_, hmk.take hq _, h.of_grows hmk hg fun _ _ => id⟩
  rw [hwrite a ha]
  simp [own']

lemma Pmm.pmmFreePage_take {p : Pmm} (hq : q < p.total) :
    (p.take q).pmmFreePage (q * pageSize) = (p.take q).drop q := by
  have hdiv : q * pageSize / pageSize = q := Nat.mul_div_cancel _ (by decide)
  have hc : ¬ ((p.take q).total ≤ q ∨ (p.take q).bitmap q = false) := by
    simp only [Pmm.take_total, Pmm.take_bitmap_self, Bool.true_eq_false, or_false]
    omega
  rw [Pmm.pmmFreePage, hdiv, if_neg hc]

lemma Space.untakeFrame (h : Space s.mem own pd) (hmk : Marked s.pmm own)
    (hfree : s.pmm.bitmap q = false) (hq : q < s.pmm.total)
    (hm : ∀ a, a / pageSize ≠ q → m a = s.mem a) :
    let u := { s with pmm := (s.pmm.take q).pmmFreePage (q * pageSize), mem := m }
    Grows (fun _ => False) s u own own ∧ Marked u.pmm own ∧ Space u.mem own pd ∧
      u.pmm.bitmap = s.pmm.bitmap := by
  intro u
  have hpmm : u.pmm = (s.pmm.take q).drop q := Pmm.pmmFreePage_take hq
  have hbits : ∀ k, u.pmm.bitmap k = s.pmm.bitmap k := by
    intro k
    rw [hpmm]
    by_cases hk : k = q
    · rw [hk, Pmm.drop_bitmap_self, hfree]
    · rw [Pmm.drop_bitmap_of_ne hk, Pmm.take_bitmap_of_ne hk]
  have htotal : u.pmm.total = s.pmm.total := by
    rw [hpmm]
    rfl
  have hg : Grows (fun _ => False) s u own own := by
    refine ⟨htotal, fun k hk => by rw [hbits, hk], fun _ _ => rfl, fun _ hn hn' => absurd hn hn',
      fun a ha => .inl ?_⟩
    have haq : a / pageSize = q := by
      by_contra hne
      exact ha (hm a hne)
    rw [haq]
    exact hfree
  refine ⟨hg, fun k hk => ?_, h.of_grows hmk hg fun _ _ => id, funext hbits⟩
  rw [hbits, htotal]
  exact hmk k hk

/-- **What happens to one page**: either the directory is as before and nothing is taken, or the
page is mapped to a frame that was free and has the content it is to have. -/
lemma mapNewPage_spec (fill : Mem → Nat → Mem) (h : Space s.mem own pd) (hmk : Marked s.pmm own)
    (hman : Managed s.pmm) (hlo : 2048 ≤ vp) (hhi : vp < 0x100000)
    (hfill : ∀ q a, a / pageSize ≠ q → fill s.mem (q * pageSize) a = s.mem a) :
    (∃ t, mapNewPage fill s pd (vp * pageSize) = (false, t) ∧
      Grows (fun _ => False) s t own own ∧ Marked t.pmm own ∧ Space t.mem own pd ∧
      t.pmm.bitmap = s.pmm.bitmap) ∨
    ∃ q t own', mapNewPage fill s pd (vp * pageSize) = (true, t) ∧
      Grows (Role.Paging pd) s t own own' ∧ Tidy s t own' ∧ Marked t.pmm own' ∧
      Space t.mem own' pd ∧ TablesGrow (· = q) s t pd ∧
      (∀ k, 2048 ≤ k → k < 0x100000 →
        walk t.mem pd k = if k = vp then some q else walk s.mem pd k) ∧
      ∀ a, a / pageSize = q → t.mem a = fill s.mem (q * pageSize) a := by
  obtain hfail | ⟨q, hqlo, hqhi, hqt, hfree, halloc⟩ := hman.alloc
  · refine .inl ⟨s, ?_, .refl _ s own, hmk, h, rfl⟩
    rw [mapNewPage, hfail]
    rfl
  · have hz : ¬ q * pageSize = 0 := by simp only [pageSize]; omega
    obtain ⟨hg, htidy, hmk', hspace⟩ := h.takeFrame hmk hfree hqt vp (hfill q)
    rw [mapNewPage, halloc]
    dsimp only
    rw [if_neg hz]
    obtain ⟨r, hr, hmap⟩ | ⟨t, own₂, hmap, hg₂, htidy₂, hmk₂, hspace₂, htables, hwalk⟩ :=
      vmmMapUserPage_spec hspace hmk' (hman.take q) hlo hhi (f := q) (Function.update_self q _ _)
    · obtain ⟨hgu, hmku, hspaceu, hbits⟩ := h.untakeFrame hmk hfree hqt (hfill q)
      rw [hmap]
      refine .inl ⟨_, ?_, hgu, hmku, hspaceu, hbits⟩
      cases r with
      | ok => exact absurd rfl hr
      | errRange => rfl
      | errNomem => rfl
    · rw [hmap]
      have htake : TablesGrow (· = q) s
          { s with pmm := s.pmm.take q, mem := fill s.mem (q * pageSize) } pd := by
        refine ⟨fun di _ hdi _ => pde_congr h.aligned hdi fun a ha => hfill q a fun haq => ?_,
          fun x hx => ?_⟩
        · have hdir := h.dir
          rw [← ha, haq, hmk.none_of_free hfree] at hdir
          simp at hdir
        · by_cases hxq : x = q
          · exact .inr (.inl hxq)
          · left
            rwa [← Pmm.take_bitmap_of_ne hxq]
      refine .inr ⟨q, t, own₂, rfl, (hg.mono fun _ hf => hf.elim).trans hg₂,
        htidy.trans htidy₂ hg₂.keeps, hmk₂, hspace₂,
        htake.trans (htables.mono fun _ hf => hf.elim), fun k hklo hkhi => ?_, fun a ha => ?_⟩
      · rw [hwalk k hklo hkhi]
        split
        case isTrue => rfl
        case isFalse =>
          refine h.walk_eq (fun a r hr hp => hfill q a fun haq => ?_) hklo hkhi
          rw [haq, hmk.none_of_free hfree] at hr
          simp at hr
      · by_contra hne
        have hrole : Function.update own q (some (.user pd vp)) (a / pageSize) =
            some (.user pd vp) := by rw [ha, Function.update_self]
        obtain hfr | ⟨r, hr, hp, -⟩ := hg₂.writes a hne
        · rw [hmk'.none_of_free hfr] at hrole
          simp at hrole
        · rw [hrole] at hr
          cases hr
          obtain hd | ⟨di, hd⟩ := hp <;> cases hd

end NullOS.Memory
