import NullOS.Memory.Machine

/-!
# No frame is used twice

The invariant of the machine: the heap is in order, every directory keeps to the books, and no two
of them are the same.  Each call only adds to the books, except for the unwinding of a failed fork.
-/

namespace NullOS.Memory

open Lib

/-- `pd` is the directory of a process, or one that has been built. -/
def Machine.HasDir (s : Machine) (pd : Nat) : Prop :=
  s.built pd = true ∨ ∃ i, s.procs i = some pd

structure Inv (s : Machine) (own : Own) (xs : List Nat) : Prop where
  heap : HeapOk s.heap own xs
  space : ∀ pd, s.HasDir pd → Space s.mem own pd
  cloned : ∀ pd, s.HasDir pd → Cloned s.mem pd
  procs_inj : ∀ i j pd, s.procs i = some pd → s.procs j = some pd → i = j
  built : ∀ i pd, s.procs i = some pd → s.built pd = false
  live : ∀ ptr, s.live ptr = true → ∃ x, ptr = x + headerSize ∧ InUse s.mem xs x

variable {s t : Machine} {p : Phys} {h : Heap} {m : Mem} {own own' : Own} {xs xs' : List Nat}
  {pd q f i : Nat} {W : Role → Prop}

/-! ## Steps that add to the books -/

lemma Paged.own_heap (hp : Paged h own) {a : Nat} (hlo : heapStart ≤ a) (hhi : a < h.heapEnd) :
    own (a / pageSize) = some .heap := by
  have hal := hp.aligned
  refine hp.pages _ ?_ ?_
  all_goals
    simp only [heapStart, pageSize] at *
    omega

lemma HeapOk.of_grows (hok : HeapOk h own xs) (hg : Grows W h.phys p own own')
    (hmk : Marked p.pmm own') (hW : ¬ W .heap) :
    HeapOk { h with phys := p } own' xs ∧ ∀ x, InUse p.mem xs x ↔ InUse h.phys.mem xs x := by
  have hsame : ∀ x ∈ xs, header p.mem x = header h.phys.mem x := by
    intro x hx
    have hb := hok.blocks.bounds hx
    exact header_congr fun a hlo hhi =>
      hg.content hok.paged.marked (hok.paged.own_heap (by omega) (by omega)) hW
  refine ⟨⟨hok.paged.of_grows hg hmk rfl, hok.blocks.congr hsame, hok.start⟩, fun x =>
    and_congr_right fun hx => ?_⟩
  rw [hsame x hx]

lemma Role.not_of_heap (pd : Nat) : ¬ Role.Of pd .heap := by
  rintro ((h | ⟨di, h⟩) | ⟨vp, h⟩) <;> cases h

lemma Role.Paging.not_of {pd pd' : Nat} {r : Role} (h : r.Paging pd) (hne : pd ≠ pd') :
    ¬ r.Of pd' := by
  rcases h with rfl | ⟨di, rfl⟩
  · rintro ((h' | ⟨dj, h'⟩) | ⟨vp, h'⟩) <;> cases h'
    exact hne rfl
  · rintro ((h' | ⟨dj, h'⟩) | ⟨vp, h'⟩) <;> cases h'
    exact hne rfl

/-- **Work on one directory**: if it keeps to the books, so does everything else. -/
lemma Inv.of_grows (hi : Inv s own xs) (pd : Nat)
    (hg : Grows (Role.Of pd) s.heap.phys p own own') (hmk : Marked p.pmm own')
    (hsp : s.HasDir pd → Space p.mem own' pd) : Inv (s.withPhys p) own' xs := by
  obtain ⟨hok, huse⟩ := hi.heap.of_grows hg hmk (Role.not_of_heap pd)
  have hmk₀ := hi.heap.paged.marked
  refine ⟨hok, fun pd' hd => ?_, fun pd' hd => (hi.cloned pd' hd).of_grows (hi.space pd' hd) hmk₀
    hg, hi.procs_inj, hi.built, fun ptr hl => ?_⟩
  · by_cases heq : pd' = pd
    · exact heq ▸ hsp (heq ▸ hd)
    · exact (hi.space pd' hd).of_grows hmk₀ hg fun r hr => hr.not_of heq
  · obtain ⟨x, hx, hu⟩ := hi.live ptr hl
    exact ⟨x, hx, (huse x).mpr hu⟩

/-- **Work on the heap.** -/
lemma Inv.of_heap {live : Nat → Bool} (hi : Inv s own xs)
    (hg : Grows Role.IsHeap s.heap.phys h.phys own own') (hok : HeapOk h own' xs')
    (hlive : ∀ ptr, live ptr = true → ∃ x, ptr = x + headerSize ∧ InUse h.phys.mem xs' x) :
    Inv { s with heap := h, live := live } own' xs' := by
  have hmk₀ := hi.heap.paged.marked
  refine ⟨hok, fun pd hd => (hi.space pd hd).of_grows hmk₀ hg fun r hr => ?_,
    fun pd hd => (hi.cloned pd hd).of_grows (hi.space pd hd) hmk₀ hg, hi.procs_inj, hi.built, hlive⟩
  rintro rfl
  rcases hr with h' | ⟨di, h'⟩ <;> cases h'

/-! ## The unwinding of a fork -/

def unbook (own : Own) (p : Pmm) : Own := fun q => if p.bitmap q then own q else none

lemma Frees.unbook_eq {p' : Pmm} {r : Role} (hf : Frees pd own p.pmm p') (hmk : Marked p.pmm own)
    (hr : own q = some r) (hdir : r ≠ .dir pd) (huser : ∀ vp, r ≠ .user pd vp) :
    unbook own p' q = some r ∧ p'.bitmap q = true := by
  have hbit : p'.bitmap q = true := by
    by_contra hne
    obtain hd | ⟨vp, hd⟩ := hf.freed q (by simpa using hne) (hmk q (by simp [hr])).2
    · exact hdir (Option.some.inj (hr.symm.trans hd))
    · exact huser vp (Option.some.inj (hr.symm.trans hd))
  rw [unbook, hbit]
  exact ⟨hr, rfl⟩

/-- **A directory that is not in the table goes**: nothing else is touched. -/
lemma Inv.of_frees {p' : Pmm} (hi : Inv s own xs) (hpd : ¬ s.HasDir pd)
    (hf : Frees pd own s.heap.phys.pmm p') :
    Inv (s.withPhys { s.heap.phys with pmm := p' }) (unbook own p') xs := by
  have hpaged := hi.heap.paged
  have hmk := hpaged.marked
  have hsub : ∀ q, unbook own p' q ≠ none → own q ≠ none ∧ p'.bitmap q = true := by
    intro q hq
    rw [unbook] at hq
    split at hq
    case isTrue hb => exact ⟨hq, hb⟩
    case isFalse => exact absurd rfl hq
  have hspace : ∀ pd', s.HasDir pd' → Space s.mem (unbook own p') pd' := by
    intro pd' hd
    have hne : pd' ≠ pd := fun heq => hpd (heq ▸ hd)
    have hsp := hi.space pd' hd
    refine ⟨hsp.aligned, ?_, fun di hlo hhi hp => ?_, fun vp f hlo hhi hw => ?_⟩
    · exact (hf.unbook_eq hmk hsp.dir (fun h' => hne (Role.dir.inj h')) (by simp)).1
    · exact (hf.unbook_eq hmk (hsp.table di hlo hhi hp) (by simp) (by simp)).1
    · exact (hf.unbook_eq hmk (hsp.page vp f hlo hhi hw) (by simp)
        fun k h' => hne (Role.user.inj h').1).1
  refine ⟨⟨⟨hpaged.kernel, ⟨hf.total ▸ hpaged.managed.total_le, fun q hq => ?_⟩, fun q hq => ?_,
    fun q hq => hpaged.above q (hsub q hq).1, hpaged.aligned, hpaged.start_le, hpaged.le_max,
    fun q hlo hhi => ?_⟩, hi.heap.blocks, hi.heap.start⟩, hspace, hi.cloned, hi.procs_inj, hi.built,
    hi.live⟩
  · by_contra hne
    have hfreed := hf.freed q (Bool.eq_false_iff.mpr hne) (hpaged.managed.low q hq)
    have := hpaged.above q (by rcases hfreed with h' | ⟨vp, h'⟩ <;> simp [h'])
    omega
  · exact ⟨hf.total ▸ (hmk q (hsub q hq).1).1, (hsub q hq).2⟩
  · exact (hf.unbook_eq hmk (hpaged.pages q hlo hhi) (by simp) (by simp)).1

/-! ## The calls -/

lemma Inv.not_hasDir (hi : Inv s own xs) (hq : own q = none) : ¬ s.HasDir (q * pageSize) := by
  intro hd
  have hdir := (hi.space _ hd).dir
  rw [Nat.mul_div_cancel _ (by decide), hq] at hdir
  simp at hdir

lemma Inv.enter (hi : Inv s own xs) (i : Nat) (hsp : Space s.mem own pd) (hcl : Cloned s.mem pd)
    (hnew : ∀ j, s.procs j ≠ some pd) (hbuilt : s.built pd = false) :
    Inv (s.enter i pd) own xs := by
  have hcases : ∀ {j pd'}, (s.enter i pd).procs j = some pd' →
      j = i ∧ pd' = pd ∨ j ≠ i ∧ s.procs j = some pd' := by
    intro j pd' hj
    simp only [Machine.enter] at hj
    by_cases hji : j = i
    · rw [hji, Function.update_self] at hj
      exact .inl ⟨hji, (Option.some.inj hj).symm⟩
    · rw [Function.update_of_ne hji] at hj
      exact .inr ⟨hji, hj⟩
  have hdir : ∀ {pd'}, (s.enter i pd).HasDir pd' → pd' = pd ∨ s.HasDir pd' := by
    rintro pd' (hb | ⟨j, hj⟩)
    · exact .inr (.inl hb)
    · rcases hcases hj with ⟨-, rfl⟩ | ⟨-, hj⟩
      · exact .inl rfl
      · exact .inr (.inr ⟨j, hj⟩)
  refine ⟨hi.heap, fun pd' hd => ?_, fun pd' hd => ?_, fun j k pd' hj hk => ?_, fun j pd' hj => ?_,
    hi.live⟩
  · rcases hdir hd with rfl | hd
    · exact hsp
    · exact hi.space pd' hd
  · rcases hdir hd with rfl | hd
    · exact hcl
    · exact hi.cloned pd' hd
  · rcases hcases hj with ⟨rfl, rfl⟩ | ⟨-, hj'⟩
    · rcases hcases hk with ⟨rfl, -⟩ | ⟨-, hk'⟩
      · rfl
      · exact absurd hk' (hnew k)
    · rcases hcases hk with ⟨rfl, rfl⟩ | ⟨-, hk'⟩
      · exact absurd hj' (hnew j)
      · exact hi.procs_inj j k pd' hj' hk'
  · rcases hcases hj with ⟨-, rfl⟩ | ⟨-, hj⟩
    · exact hbuilt
    · exact hi.built j pd' hj

lemma Inv.setBuilt (hi : Inv s own xs) (b : Bool)
    (hb : b = true → Space s.mem own pd ∧ Cloned s.mem pd ∧ ∀ j, s.procs j ≠ some pd) :
    Inv { s with built := Function.update s.built pd b } own xs := by
  have hdir : ∀ {pd'}, Machine.HasDir { s with built := Function.update s.built pd b } pd' →
      b = true ∧ pd' = pd ∨ s.HasDir pd' := by
    rintro pd' (hd | hd)
    · by_cases heq : pd' = pd
      · subst heq
        simp only [Function.update_self] at hd
        exact .inl ⟨hd, rfl⟩
      · simp only [Function.update_of_ne heq] at hd
        exact .inr (.inl hd)
    · exact .inr (.inr hd)
  refine ⟨hi.heap, fun pd' hd => ?_, fun pd' hd => ?_, hi.procs_inj, fun j pd' hj => ?_, hi.live⟩
  · rcases hdir hd with ⟨hbt, rfl⟩ | hd
    · exact (hb hbt).1
    · exact hi.space pd' hd
  · rcases hdir hd with ⟨hbt, rfl⟩ | hd
    · exact (hb hbt).2.1
    · exact hi.cloned pd' hd
  · by_cases heq : pd' = pd
    · subst heq
      simp only [Function.update_self]
      cases b with
      | false => rfl
      | true => exact absurd hj ((hb rfl).2.2 j)
    · simp only [Function.update_of_ne heq]
      exact hi.built j pd' hj

lemma Inv.exit (hi : Inv s own xs) (slot : Nat) :
    Inv { s with procs := Function.update s.procs slot none } own xs := by
  have hsub : ∀ {j pd'}, Function.update s.procs slot none j = some pd' → s.procs j = some pd' := by
    intro j pd' hj
    by_cases hjs : j = slot
    · rw [hjs, Function.update_self] at hj
      simp at hj
    · rwa [Function.update_of_ne hjs] at hj
  have hdir : ∀ {pd'}, Machine.HasDir { s with procs := Function.update s.procs slot none } pd' →
      s.HasDir pd' := fun hd => hd.imp_right fun ⟨j, hj⟩ => ⟨j, hsub hj⟩
  exact ⟨hi.heap, fun pd' hd => hi.space pd' (hdir hd), fun pd' hd => hi.cloned pd' (hdir hd),
    fun j k pd' hj hk => hi.procs_inj j k pd' (hsub hj) (hsub hk),
    fun j pd' hj => hi.built j pd' (hsub hj), hi.live⟩

/-- **The stack of a new program**, wherever the loop stops. -/
lemma mapStack_grows {is : List Nat} (hsp : Space p.mem own pd) (hmk : Marked p.pmm own)
    (hman : Managed p.pmm) (his : ∀ i ∈ is, i < userStackPages) :
    ∃ own', Grows (Role.Paging pd) p (mapStack pd p is).2 own own' ∧
      Marked (mapStack pd p is).2.pmm own' ∧ Space (mapStack pd p is).2.mem own' pd := by
  induction is generalizing p own with
  | nil => exact ⟨own, .refl _ _ _, hmk, hsp⟩
  | cons i is ih =>
    have hi := his i (by simp)
    simp only [userStackPages] at hi
    rw [mapStack]
    obtain ⟨t, heq, hg, hmk', hsp', -⟩ | ⟨q, t, own₁, heq, hg, -, hmk', hsp', -, -, -⟩ :=
      mapNewPage_spec (fun m _ => m) hsp hmk hman
        (show 2048 ≤ userStackPage + i by simp only [userStackPage]; omega)
        (by simp only [userStackPage]; omega) fun _ _ _ => rfl
    · rw [heq]
      exact ⟨own, hg.mono fun _ hf => hf.elim, hmk', hsp'⟩
    · rw [heq]
      obtain ⟨own₂, hg', hmk₂, hsp₂⟩ := ih hsp' hmk' (hg.managed hman)
        fun k hk => his k (List.mem_cons_of_mem _ hk)
      exact ⟨own₂, hg.trans hg', hmk₂, hsp₂⟩

/-- **`vmm_create_directory`.** -/
lemma Inv.createDirectory (hi : Inv s own xs) (hs : step s .createDirectory = some t) :
    ∃ own', Inv t own' xs := by
  have hpaged := hi.heap.paged
  simp only [step] at hs
  obtain heq | ⟨q, u, own', heq, hq0, hq, hg, hmk, hsp, hcl, -⟩ :=
    vmmCreateDirectory_spec hpaged.marked hpaged.managed hpaged.kernel
  · rw [heq] at hs
    cases hs
    exact ⟨own, hi⟩
  · have hz : ¬ q * pageSize = 0 := by simp only [pageSize]; omega
    have hnew := hi.not_hasDir hq
    rw [heq] at hs
    simp only [hz, if_false, Option.some.injEq] at hs
    subst hs
    have hg' : Grows (Role.Of 0) s.heap.phys u own own' := hg.mono fun _ hf => hf.elim
    refine ⟨own', (hi.of_grows 0 hg' hmk fun hd => ?_).setBuilt true fun _ => ⟨hsp, hcl, ?_⟩⟩
    · exact (hi.space 0 hd).of_grows hpaged.marked hg fun _ _ => id
    · exact fun j hj => hnew (.inr ⟨j, hj⟩)

/-- **`process_fork`**, whether it gets the memory or not. -/
lemma Inv.fork (hi : Inv s own xs) (parentCr3 i : Nat) :
    ∃ own', Inv (match forkAddressSpace s.heap.phys parentCr3 with
      | (some childCr3, t) => (s.withPhys t).enter i childCr3
      | (none, t) => s.withPhys t) own' xs := by
  have hpaged := hi.heap.paged
  rw [forkAddressSpace]
  obtain heq | ⟨q, t, own₁, heq, hq0, hq, hg, hmk, hsp, hcl, hempty⟩ :=
    vmmCreateDirectory_spec hpaged.marked hpaged.managed hpaged.kernel
  · rw [heq]
    exact ⟨own, hi⟩
  · have hz : ¬ q * pageSize = 0 := by simp only [pageSize]; omega
    have hnew := hi.not_hasDir hq
    obtain ⟨ok, u, own₂, heq', hg', hmk', hsp', -, -⟩ :=
      forkDirectory_spec parentCr3 hsp hmk (hg.managed hpaged.managed) mem_userEntries
        nodup_userEntries fun k hlo hhi _ => hempty k hlo hhi
    have hgs : Grows (Role.Of (q * pageSize)) s.heap.phys u own own₂ :=
      (hg.mono fun _ hf => hf.elim).trans (hg'.mono fun _ hp => .inl hp)
    have hiu := hi.of_grows (q * pageSize) hgs hmk' fun _ => hsp'
    rw [heq]
    dsimp only
    rw [if_neg hz, heq']
    cases ok with
    | true =>
      refine ⟨own₂, hiu.enter i hsp' (hcl.of_grows hsp hmk hg') (fun j hj => hnew (.inr ⟨j, hj⟩))
        ?_⟩
      by_contra hb
      exact hnew (.inl (Bool.eq_true_of_not_eq_false hb))
    | false => exact ⟨_, hiu.of_frees hnew (forkFreeAddressSpace_spec hsp')⟩

lemma Inv.store {slot virt : Nat} {b : UInt8} (hi : Inv s own xs)
    (hs : step s (.store slot virt b) = some t) : Inv t own xs := by
  simp only [step] at hs
  cases hw : (s.procs slot).bind fun pd => walk s.mem pd (virt / pageSize) with
  | none =>
    rw [hw] at hs
    simp at hs
  | some f =>
    rw [hw] at hs
    obtain ⟨pd, hpd, hwalk⟩ := Option.bind_eq_some_iff.mp hw
    dsimp only at hs
    split at hs
    case isFalse => simp at hs
    case isTrue hvirt =>
      cases hs
      have hd : s.HasDir pd := .inr ⟨slot, hpd⟩
      have hsp := hi.space pd hd
      have hrole := hsp.page _ f (by simp only [pageSize]; omega) (by simp only [pageSize]; omega)
        hwalk
      have hwrite : ∀ a, (s.mem.blit (f * pageSize + virt % pageSize) 1 fun _ => b) a ≠ s.mem a →
          own (a / pageSize) = some (.user pd (virt / pageSize)) := by
        intro a ha
        have haf : a / pageSize = f := by
          by_contra hne
          refine ha (Mem.blit_of_not_mem ?_)
          simp only [pageSize] at hne ⊢
          omega
        rw [haf]
        exact hrole
      have hg : Grows (Role.Of pd) s.heap.phys { s.heap.phys with
          mem := s.mem.blit (f * pageSize + virt % pageSize) 1 fun _ => b } own own :=
        .of_pmm_eq rfl fun a ha => ⟨_, hwrite a ha, .inr ⟨_, rfl⟩, trivial⟩
      refine hi.of_grows pd hg hi.heap.paged.marked fun _ => hsp.congr (fun a r hr hp => ?_)
        fun _ _ => rfl
      by_contra hne
      rw [hwrite a hne] at hr
      cases hr
      exact not_paging_user _ _ _ hp

lemma Inv.fill {ptr j : Nat} {b : UInt8} (hi : Inv s own xs)
    (hs : step s (.fill ptr j b) = some t) : Inv t own xs := by
  simp only [step] at hs
  split at hs
  case isFalse => simp at hs
  case isTrue hc =>
    cases hs
    obtain ⟨x, rfl, hx⟩ := hi.live ptr hc.1
    have hsize : j + 1 ≤ (header s.mem x).size := by
      have := hc.2
      rwa [Nat.add_sub_cancel] at this
    obtain ⟨hw, hsame⟩ := hi.heap.blocks.fill hx.1 hsize fun _ => b
    obtain ⟨hg, hpaged⟩ := hi.heap.paged.write hw
    refine hi.of_heap hg ⟨hpaged, hi.heap.blocks.congr hsame, hi.heap.start⟩ fun ptr hl => ?_
    obtain ⟨y, hy, hu⟩ := hi.live ptr hl
    refine ⟨y, hy, hu.1, ?_⟩
    exact (congrArg Header.magic (hsame y hu.1)).trans hu.2

/-- **Every fair step keeps the invariant.** -/
theorem Inv.step {a : Act} (hi : Inv s own xs) (hfair : Fair s a) (hs : step s a = some t) :
    ∃ own' xs', Inv t own' xs' := by
  have hpaged := hi.heap.paged
  cases a with
  | pmmInit map => exact hfair.elim
  | heapInit =>
    simp only [Memory.step, Option.some.injEq] at hs
    subst hs
    obtain ⟨own', xs', hg, hok⟩ := heapInit_spec hi.heap
    exact ⟨own', xs', hi.of_heap hg hok (by simp)⟩
  | kmalloc size =>
    obtain ⟨ptr, u, own', xs', heq, hg, hok, hkeep, hptr⟩ := kmalloc_spec hi.heap size
    simp only [Memory.step, heq, Option.map_some, Option.some.injEq] at hs
    subst hs
    refine ⟨own', xs', hi.of_heap hg hok fun k hk => ?_⟩
    have hold : s.live k = true → ∃ x, k = x + headerSize ∧ InUse u.phys.mem xs' x := fun hl =>
      (hi.live k hl).imp fun x hx => ⟨hx.1, hkeep x hx.2⟩
    split at hk
    case isTrue => exact hold hk
    case isFalse hne =>
      by_cases hkp : k = ptr
      · rw [hkp]
        exact hptr.resolve_left hne
      · rw [Function.update_of_ne hkp] at hk
        exact hold hk
  | kfree ptr =>
    cases hs
    rcases hfair with rfl | hl
    · refine ⟨own, xs, hi.of_heap (.refl _ _ _) hi.heap fun k hk => ?_⟩
      by_cases hk0 : k = 0
      · rw [hk0, Function.update_self] at hk
        simp at hk
      · rw [Function.update_of_ne hk0] at hk
        exact hi.live k hk
    · obtain ⟨x, rfl, hx⟩ := hi.live ptr hl
      obtain ⟨own', xs', hg, hok, hkeep⟩ := hi.heap.kfree hx
      refine ⟨own', xs', hi.of_heap hg hok fun k hk => ?_⟩
      by_cases hkx : k = x + headerSize
      · rw [hkx, Function.update_self] at hk
        simp at hk
      · rw [Function.update_of_ne hkx] at hk
        obtain ⟨y, rfl, hy⟩ := hi.live k hk
        exact ⟨y, rfl, hkeep y (fun heq => hkx (by rw [heq])) hy⟩
  | createDirectory => exact (hi.createDirectory hs).imp fun _ h => ⟨xs, h⟩
  | elfLoad pd img =>
    simp only [Memory.step] at hs
    split at hs
    case isFalse => simp at hs
    case isTrue hb =>
      cases hs
      obtain ⟨own', hg, hmk, hsp⟩ :=
        elfLoad_grows (hi.space pd (.inl hb)) hpaged.marked hpaged.managed fun ph hph =>
          hfair ph (copied_subset hph)
      exact ⟨own', xs, hi.of_grows pd hg hmk fun _ => hsp⟩
  | mapStack pd =>
    simp only [Memory.step] at hs
    split at hs
    case isFalse => simp at hs
    case isTrue hb =>
      cases hs
      obtain ⟨own', hg, hmk, hsp⟩ :=
        mapStack_grows (hi.space pd (.inl hb)) hpaged.marked hpaged.managed
          fun k hk => List.mem_range.mp hk
      exact ⟨own', xs, hi.of_grows pd (hg.mono fun _ hp => .inl hp) hmk fun _ => hsp⟩
  | spawn pd =>
    simp only [Memory.step] at hs
    split at hs
    case isFalse => simp at hs
    case isTrue hb =>
      cases hs
      have hoff : Inv { s with built := Function.update s.built pd false } own xs :=
        hi.setBuilt false (by simp)
      cases s.freeSlot with
      | none => exact ⟨own, xs, hoff⟩
      | some i =>
        refine ⟨own, xs, hoff.enter i (hi.space pd (.inl hb)) (hi.cloned pd (.inl hb))
          (fun j hj => ?_) (Function.update_self _ _ _)⟩
        have := hi.built j pd hj
        rw [hb] at this
        simp at this
  | fork slot =>
    simp only [Memory.step, Option.map_eq_some_iff] at hs
    obtain ⟨parentCr3, -, rfl⟩ := hs
    cases s.freeSlot with
    | none => exact ⟨own, xs, hi⟩
    | some i => exact (hi.fork parentCr3 i).imp fun _ h => ⟨xs, h⟩
  | exit slot =>
    cases hs
    exact ⟨own, xs, hi.exit slot⟩
  | store slot virt b => exact ⟨own, xs, hi.store hs⟩
  | fill ptr j b => exact ⟨own, xs, hi.fill hs⟩

/-! ## Exclusive use -/

lemma inv_boot (mem : Mem) (map : List Pmm.Region) : Inv (boot mem map) (fun _ => none) [] := by
  have hno : ∀ pd, ¬ (boot mem map).HasDir pd := by
    rintro pd (hb | ⟨i, hi⟩)
    · simp [boot] at hb
    · simp [boot] at hi
  refine ⟨⟨⟨kernelMap_vmmInit _, managed_pmmInit map, by simp [Marked], by simp,
    (by decide : heapStart % pageSize = 0), le_rfl, (by decide : heapStart ≤ heapMax),
    fun q hlo hhi => ?_⟩, ⟨trivial, le_rfl, by simp⟩, rfl⟩, fun pd hd => absurd hd (hno pd),
    fun pd hd => absurd hd (hno pd), by simp [boot], by simp [boot], by simp [boot]⟩
  exact absurd (lt_of_lt_of_le hhi hlo) (lt_irrefl _)

def Machine.roleOf (s : Machine) : Use → Option Role
  | .heapPage _ => some .heap
  | .directory slot => (s.procs slot).map .dir
  | .pageTable slot di => (s.procs slot).map fun pd => .table pd di
  | .userPage slot vpage => (s.procs slot).map fun pd => .user pd vpage

lemma Inv.heapPage_eq {vpage : Nat} (hi : Inv s own xs) (hu : s.Plays f (.heapPage vpage)) :
    vpage = f := by
  obtain ⟨hlo, hhi, hw⟩ := hu
  have hmax := hi.heap.paged.le_max
  simp only [heapStart, heapMax, pageSize] at hlo hhi hmax
  have hid : walk s.mem pageDirAddr vpage = some vpage :=
    KernelMap.walk_eq hi.heap.paged.kernel (by omega) (by omega)
  exact Option.some.inj (hid.symm.trans hw)

/-- **Every use is in the books.** -/
lemma Inv.own_of_plays {u : Use} (hi : Inv s own xs) (hlo : 1024 ≤ f) (hu : s.Plays f u) :
    ∃ r, s.roleOf u = some r ∧ own f = some r := by
  have hpaged := hi.heap.paged
  cases u with
  | heapPage vpage =>
    obtain rfl := hi.heapPage_eq hu
    obtain ⟨hvlo, hvhi, -⟩ := hu
    have hal := hpaged.aligned
    simp only [heapStart, pageSize] at hvlo hvhi hal
    refine ⟨.heap, rfl, hpaged.pages vpage ?_ ?_⟩
    all_goals
      simp only [heapStart, pageSize]
      omega
  | directory slot =>
    obtain ⟨pd, hpd, rfl⟩ := hu
    exact ⟨.dir pd, by rw [Machine.roleOf, hpd]; rfl, (hi.space pd (.inr ⟨slot, hpd⟩)).dir⟩
  | pageTable slot di =>
    obtain ⟨hdi, pd, hpd, hp, rfl⟩ := hu
    have hd : s.HasDir pd := .inr ⟨slot, hpd⟩
    have hcl := hi.cloned pd hd
    -- the first two tables are the kernel's, below 4 MB
    have hdi' : 2 ≤ di := by
      by_contra hlt
      obtain rfl | rfl : di = 0 ∨ di = 1 := by omega
      · rw [hcl.low] at hlo
        exact absurd hlo (by decide)
      · rw [hcl.high] at hlo
        exact absurd hlo (by decide)
    exact ⟨.table pd di, by rw [Machine.roleOf, hpd]; rfl, (hi.space pd hd).table di hdi' hdi hp⟩
  | userPage slot vpage =>
    obtain ⟨hv, pd, hpd, hw, huser, -⟩ := hu
    have hd : s.HasDir pd := .inr ⟨slot, hpd⟩
    have hcl := hi.cloned pd hd
    have hv' : 2048 ≤ vpage := by
      by_contra hlt
      have hdi : vpage / 1024 = 0 ∨ vpage / 1024 = 1 := by omega
      rcases hdi with hdi | hdi
      · rw [hdi, hcl.low] at huser
        exact absurd huser (by decide)
      · rw [hdi, hcl.high] at huser
        exact absurd huser (by decide)
    exact ⟨.user pd vpage, by rw [Machine.roleOf, hpd]; rfl,
      (hi.space pd hd).page vpage f hv' hv hw⟩

lemma Machine.roleOf_eq_some {u : Use} {r : Role} (h : s.roleOf u = some r) :
    match r with
    | .heap => ∃ vpage, u = .heapPage vpage
    | .dir pd => ∃ i, s.procs i = some pd ∧ u = .directory i
    | .table pd di => ∃ i, s.procs i = some pd ∧ u = .pageTable i di
    | .user pd vpage => ∃ i, s.procs i = some pd ∧ u = .userPage i vpage := by
  cases u with
  | heapPage vpage =>
    cases h
    exact ⟨vpage, rfl⟩
  | directory i =>
    obtain ⟨pd, hpd, rfl⟩ := Option.map_eq_some_iff.mp h
    exact ⟨i, hpd, rfl⟩
  | pageTable i di =>
    obtain ⟨pd, hpd, rfl⟩ := Option.map_eq_some_iff.mp h
    exact ⟨i, hpd, rfl⟩
  | userPage i vpage =>
    obtain ⟨pd, hpd, rfl⟩ := Option.map_eq_some_iff.mp h
    exact ⟨i, hpd, rfl⟩

lemma Inv.use_ext {u u' : Use} {r : Role} (hi : Inv s own xs) (hu : s.Plays f u)
    (hu' : s.Plays f u') (hr : s.roleOf u = some r) (hr' : s.roleOf u' = some r) : u = u' := by
  have h := Machine.roleOf_eq_some hr
  have h' := Machine.roleOf_eq_some hr'
  cases r with
  | heap =>
    obtain ⟨v, rfl⟩ := h
    obtain ⟨v', rfl⟩ := h'
    rw [hi.heapPage_eq hu, hi.heapPage_eq hu']
  | dir pd =>
    obtain ⟨i, hpd, rfl⟩ := h
    obtain ⟨j, hpd', rfl⟩ := h'
    rw [hi.procs_inj i j pd hpd hpd']
  | table pd di =>
    obtain ⟨i, hpd, rfl⟩ := h
    obtain ⟨j, hpd', rfl⟩ := h'
    rw [hi.procs_inj i j pd hpd hpd']
  | user pd vpage =>
    obtain ⟨i, hpd, rfl⟩ := h
    obtain ⟨j, hpd', rfl⟩ := h'
    rw [hi.procs_inj i j pd hpd hpd']

/-- **The invariant gives exclusive use.** -/
lemma Inv.exclusive (hi : Inv s own xs) : s.Exclusive := by
  intro f hlo hhi
  refine ⟨fun u u' hu hu' => ?_, fun u hu => ?_⟩
  · obtain ⟨r, hr, hown⟩ := hi.own_of_plays hlo hu
    obtain ⟨r', hr', hown'⟩ := hi.own_of_plays hlo hu'
    cases hown.symm.trans hown'
    exact hi.use_ext hu hu' hr hr'
  · obtain ⟨r, -, hown⟩ := hi.own_of_plays hlo hu
    exact (hi.heap.paged.marked f (by simp [hown])).2

/-- **No frame is used twice**, whatever calls are made in whatever order, as long as
`pmm_init` is not called again, only blocks that are out are freed, and programs start their file
data on page boundaries. -/
theorem exclusive_of_fair (h : ReachIf step Boot Fair s) : s.Exclusive := by
  have hinv : ∃ own xs, Inv s own xs := by
    refine h.invariant (I := fun s => ∃ own xs, Inv s own xs) ?_ ?_
    · rintro s ⟨mem, map, rfl⟩
      exact ⟨_, _, inv_boot mem map⟩
    · rintro s a t ⟨own, xs, hi⟩ hfair hs
      exact hi.step hfair hs
  obtain ⟨own, xs, hi⟩ := hinv
  exact hi.exclusive

/-! ## Two runs -/

instance (s : Machine) : DecidablePred (Fair s)
  | .pmmInit _ => isFalse id
  | .kfree ptr => inferInstanceAs (Decidable (ptr = 0 ∨ s.live ptr = true))
  | .elfLoad _ img => inferInstanceAs (Decidable (∀ ph ∈ segments img, ph.Aligned))
  | .heapInit | .kmalloc _ | .createDirectory | .mapStack _ | .spawn _ | .fork _ | .exit _
  | .store _ _ _ | .fill _ _ _ => isTrue trivial

def fewPages (pages : Nat) : List Pmm.Region := [⟨0x400000, pages * pageSize, Pmm.bootMemUsable⟩]

/-- The heap has a page, and a process a directory, a table and a stack. -/
theorem exclusive_firstProcess :
    ∃ s, runIf step Fair (boot (fun _ => 0) (fewPages 16))
        [.kmalloc 100, .createDirectory, .mapStack 0x401000, .spawn 0x401000, .kfree 0x400010] =
          some s ∧
      s.heap.heapEnd = 0x401000 ∧ s.procs 0 = some 0x401000 ∧ s.Exclusive := by
  have hrun : (runIf step Fair (boot (fun _ => 0) (fewPages 16))
      [.kmalloc 100, .createDirectory, .mapStack 0x401000, .spawn 0x401000, .kfree 0x400010]).map
        (fun s => (s.heap.heapEnd, s.procs 0)) = some (0x401000, some 0x401000) := by
    decide +kernel
  obtain ⟨s, hs, hend⟩ := Option.map_eq_some_iff.mp hrun
  obtain ⟨hend, hproc⟩ := Prod.mk.inj hend
  exact ⟨s, hs, hend, hproc, exclusive_of_fair (.of_runIf (.start ⟨_, _, rfl⟩) hs)⟩

def Act.isPmmInit : Act → Bool
  | .pmmInit _ => true
  | _ => false

/-- The same, but for `pmm_init`, which may be called again. -/
def FairOrInit (s : Machine) (a : Act) : Prop := a.isPmmInit = true ∨ Fair s a

instance (s : Machine) : DecidablePred (FairOrInit s) := fun _ =>
  inferInstanceAs (Decidable (_ ∨ Fair s _))

/-- The page that the heap has taken is free again after a second `pmm_init`. -/
theorem heapPage_forgotten : ¬ ∀ s, ReachIf step Boot FairOrInit s → s.Exclusive := by
  intro hall
  have hrun : (runIf step FairOrInit (boot (fun _ => 0) (fewPages 1))
      [.heapInit, .pmmInit (fewPages 1)]).map
        (fun s => (s.heap.heapEnd, walk s.mem pageDirAddr 1024, s.heap.phys.pmm.bitmap 1024)) =
          some (0x401000, some 1024, false) := by
    decide +kernel
  obtain ⟨s, hs, hval⟩ := Option.map_eq_some_iff.mp hrun
  obtain ⟨hend, hval⟩ := Prod.mk.inj hval
  obtain ⟨hwalk, hbit⟩ := Prod.mk.inj hval
  have hmarked := (hall s (.of_runIf (.start ⟨_, _, rfl⟩) hs) 1024 (by omega) (by omega)).2
    (.heapPage 1024) ⟨by decide, by rw [hend]; decide, hwalk⟩
  rw [hbit] at hmarked
  simp at hmarked

end NullOS.Memory
