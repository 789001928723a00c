import NullOS.Memory.HeapOps
import NullOS.Memory.Frames

/-!
# What the heap does to the machine

The machine sees steps of three kinds: a page is added at the end of the heap, bytes inside the heap
are written, the start of the list is moved.  The heap takes the frame whose address is the virtual
address it is mapped at, so that adding a page changes no byte of memory.
-/

namespace NullOS.Memory

open Lib

/-- The kernel's directory maps 4-8 MB to itself. -/
structure KernelMap (m : Mem) : Prop where
  low : pde m pageDirAddr 0 = pageTableStart + vmmKernel
  high : pde m pageDirAddr 1 = pageTableStart + pageSize + vmmKernel
  ident : ∀ ti < 1024, pte m pageDirAddr 1 ti = (1024 + ti) * pageSize + vmmKernel

/-- The heap lies in the part of memory that the kernel maps to itself. -/
structure Mapped (s : Heap) : Prop where
  kernel : KernelMap s.phys.mem
  aligned : s.heapEnd % pageSize = 0
  start_le : heapStart ≤ s.heapEnd
  le_max : s.heapEnd ≤ heapMax

inductive HeapStep : Heap → Heap → Prop
  | page (s : Heap) (hroom : s.heapEnd + pageSize ≤ heapMax)
      (htotal : s.heapEnd / pageSize < s.phys.pmm.total)
      (hfree : s.phys.pmm.bitmap (s.heapEnd / pageSize) = false) :
      HeapStep s { s with
        phys := { s.phys with pmm := s.phys.pmm.take (s.heapEnd / pageSize) }
        heapEnd := s.heapEnd + pageSize }
  | write (s : Heap) (m : Mem) (hw : Within s.phys.mem m heapStart s.heapEnd) :
      HeapStep s (s.withMem m)
  | start (s : Heap) (p : Nat) : HeapStep s { s with startPtr := p }

abbrev HeapSteps : Heap → Heap → Prop := Relation.ReflTransGen HeapStep

/-- The heap is mapped, and its list is the list of its blocks. -/
structure HeapForm (s : Heap) (xs : List Nat) : Prop where
  mapped : Mapped s
  blocks : Blocks s.phys.mem s.heapEnd xs
  start : s.startPtr = xs.headD 0

variable {s t : Heap} {p : Phys} {m m' : Mem} {n x virt : Nat} {xs : List Nat}

/-! ## Steps -/

lemma KernelMap.congr (h : KernelMap m) (hm : ∀ a, a / pageSize < 1024 → m' a = m a) :
    KernelMap m' := by
  have hpde : ∀ di < 1024, pde m' pageDirAddr di = pde m pageDirAddr di := fun di hdi =>
    pde_congr (by decide) hdi fun a ha => hm a (by rw [ha]; decide)
  refine ⟨(hpde 0 (by omega)).trans h.low, (hpde 1 (by omega)).trans h.high, fun ti hti => ?_⟩
  rw [pte_congr hti (hpde 1 (by omega)) fun a ha => hm a (by rw [ha, h.high]; decide)]
  exact h.ident ti hti

lemma KernelMap.vmmMapPage_self (h : KernelMap p.mem) (hal : virt % pageSize = 0)
    (hlo : heapStart ≤ virt) (hhi : virt < heapMax) :
    vmmMapPage p virt virt vmmKernel = (.ok, p) := by
  have hdi : dirIndex virt = 1 := by
    simp only [dirIndex, heapStart, heapMax] at *
    omega
  have hpresent : Present (pde p.mem pageDirAddr 1) := by
    rw [h.high]
    decide
  have hti : tableIndex virt < 1024 := Nat.mod_lt _ (by decide)
  have hentry : frameAddr virt + (vmmKernel % pageSize ||| 1) =
      pte p.mem pageDirAddr 1 (tableIndex virt) := by
    rw [h.ident _ hti]
    have hflags : (vmmKernel % pageSize ||| 1) = vmmKernel := by decide
    rw [hflags]
    simp only [frameAddr, tableIndex, heapStart, heapMax, pageSize] at *
    omega
  rw [vmmMapPage]
  dsimp only
  rw [hdi, if_pos hpresent, hentry, Phys.putPte, pte, Mem.store32_load32_self]

lemma KernelMap.walk_eq (h : KernelMap m) (hlo : 1024 ≤ q) (hhi : q < 2048) :
    walk m pageDirAddr q = some q := by
  have hpte := h.ident (q % 1024) (Nat.mod_lt _ (by omega))
  have hpresent : Present (pde m pageDirAddr 1) := by
    rw [h.high]
    decide
  have hentry : Present ((1024 + q % 1024) * pageSize + vmmKernel) := by
    simp only [Present, pageSize, vmmKernel]
    omega
  rw [walk, show q / 1024 = 1 by omega, hpte, if_pos ⟨hpresent, hentry⟩]
  simp only [pageSize, vmmKernel, Option.some.injEq]
  omega

lemma Mapped.step (h : Mapped s) (hst : HeapStep s t) : Mapped t := by
  obtain ⟨hkernel, hal, hlo, hmax⟩ := h
  cases hst with
  | page hroom =>
    refine ⟨hkernel, ?_, le_trans hlo (Nat.le_add_right _ _), hroom⟩
    show (s.heapEnd + pageSize) % pageSize = 0
    simp only [pageSize] at hal ⊢
    omega
  | write m hw =>
    refine ⟨hkernel.congr fun a ha => hw a (.inl ?_), hal, hlo, hmax⟩
    simp only [heapStart, pageSize] at ha ⊢
    omega
  | start p => exact ⟨hkernel, hal, hlo, hmax⟩

lemma Mapped.steps (h : Mapped s) (hst : HeapSteps s t) : Mapped t := by
  induction hst with
  | refl => exact h
  | tail _ hst ih => exact ih.step hst

lemma HeapSteps.write (hw : Within s.phys.mem m heapStart s.heapEnd) :
    HeapSteps s (s.withMem m) := .single (.write s m hw)

lemma HeapSteps.writeStart (hw : Within s.phys.mem m heapStart s.heapEnd) (p : Nat) :
    HeapSteps s { s.withMem m with startPtr := p } := .tail (HeapSteps.write hw) (.start _ p)

/-! ## Growing -/

def Heap.NextFree (s : Heap) : Prop :=
  s.heapEnd + pageSize ≤ heapMax ∧ s.heapEnd / pageSize < s.phys.pmm.total ∧
    s.phys.pmm.bitmap (s.heapEnd / pageSize) = false

instance (s : Heap) : Decidable s.NextFree := inferInstanceAs (Decidable (_ ∧ _ ∧ _))

def Heap.addPage (s : Heap) : Heap :=
  { s with
    phys := { s.phys with pmm := s.phys.pmm.take (s.heapEnd / pageSize) }
    heapEnd := s.heapEnd + pageSize }

lemma expandPages_succ (n : Nat) (h : Mapped s) : s.expandPages (n + 1) =
    if s.NextFree then s.addPage.expandPages n else (false, s) := by
  rw [Heap.expandPages]
  by_cases hroom : heapMax < s.heapEnd + pageSize
  · rw [if_pos hroom, if_neg fun hfree => absurd hfree.1 (Nat.not_le.mpr hroom)]
  · rw [if_neg hroom, Pmm.pmmAllocPageAt, if_neg (not_not.mpr h.aligned)]
    by_cases hused : s.phys.pmm.total ≤ s.heapEnd / pageSize ∨
        s.phys.pmm.bitmap (s.heapEnd / pageSize) = true
    · rw [if_pos hused, if_neg]
      · rfl
      · rintro ⟨-, htotal, hfree⟩
        rcases hused with hle | hset
        · omega
        · exact absurd (hfree.symm.trans hset) (by decide)
    · rw [if_neg hused]
      rw [not_or, not_le, Bool.not_eq_true] at hused
      have hlo := h.start_le
      have hz : ¬ s.heapEnd = 0 := by
        simp only [heapStart] at hlo
        omega
      have hroom' : s.heapEnd + pageSize ≤ heapMax := by omega
      have hmap : vmmMapPage { s.phys with pmm := s.phys.pmm.take (s.heapEnd / pageSize) }
          s.heapEnd s.heapEnd vmmKernel = (.ok, { s.phys with
            pmm := s.phys.pmm.take (s.heapEnd / pageSize) }) :=
        KernelMap.vmmMapPage_self h.kernel h.aligned hlo (by
          simp only [pageSize] at hroom'
          omega)
      dsimp only
      rw [if_neg hz, hmap, if_pos ⟨hroom', hused⟩]
      rfl

/-- **What `heap_expand` does**: it adds pages to the heap, all it was asked for or fewer, and
changes no byte. -/
lemma expandPages_spec (n : Nat) (h : Mapped s) :
    ∃ ok t, s.expandPages n = (ok, t) ∧ HeapSteps s t ∧
      t.phys.mem = s.phys.mem ∧ t.startPtr = s.startPtr ∧ s.heapEnd ≤ t.heapEnd ∧
      (ok = true → t.heapEnd = s.heapEnd + n * pageSize) := by
  induction n generalizing s with
  | zero => exact ⟨true, s, rfl, .refl, rfl, rfl, le_rfl, fun _ => by simp⟩
  | succ n ih =>
    rw [expandPages_succ n h]
    split
    case isFalse => exact ⟨false, s, rfl, .refl, rfl, rfl, le_rfl, by simp⟩
    case isTrue hfree =>
      have hst := HeapStep.page s hfree.1 hfree.2.1 hfree.2.2
      obtain ⟨ok, t, heq, hsteps, hmem, hstart, hle, hend⟩ := ih (h.step hst)
      refine ⟨ok, t, heq, .head hst hsteps, hmem, hstart,
        le_trans (Nat.le_add_right _ _) hle, fun hok => ?_⟩
      rw [hend hok]
      simp only [Nat.add_mul, Nat.one_mul]
      omega

/-- **What is left when `heap_expand` fails**: nothing has changed exactly if the first page could
not be added. -/
lemma expandPages_failed (h : Mapped s) (heq : s.expandPages n = (false, t)) :
    t = s ↔ ¬ s.NextFree := by
  cases n with
  | zero => exact absurd (congrArg Prod.fst heq) (by decide : true ≠ false)
  | succ n =>
    rw [expandPages_succ n h] at heq
    split at heq
    case isFalse hused => exact iff_of_true (congrArg Prod.snd heq).symm hused
    case isTrue hfree =>
      refine iff_of_false ?_ (not_not.mpr hfree)
      rintro rfl
      -- the page that was added is still there
      have hst := HeapStep.page t hfree.1 hfree.2.1 hfree.2.2
      obtain ⟨ok, u, heq', -, -, -, hle, -⟩ := expandPages_spec n (h.step hst)
      obtain rfl : u = t := congrArg Prod.snd (heq'.symm.trans heq)
      have hend : u.heapEnd + pageSize ≤ u.heapEnd := hle
      simp only [pageSize] at hend
      omega

def Heap.CanGrow (s : Heap) (n : Nat) : Prop :=
  s.heapEnd + n * pageSize ≤ heapMax ∧ ∀ q, s.heapEnd / pageSize ≤ q →
    q < s.heapEnd / pageSize + n → q < s.phys.pmm.total ∧ s.phys.pmm.bitmap q = false

lemma Heap.CanGrow.expandPages (hm : Mapped s) (h : s.CanGrow n) : (s.expandPages n).1 = true := by
  induction n generalizing s with
  | zero => rfl
  | succ n ih =>
    obtain ⟨hmax, hfree⟩ := h
    rw [Nat.add_mul, Nat.one_mul] at hmax
    have hnext : s.NextFree := ⟨by omega, hfree _ le_rfl (by omega)⟩
    rw [expandPages_succ n hm, if_pos hnext]
    have hend : s.addPage.heapEnd = s.heapEnd + pageSize := rfl
    have hdiv : (s.heapEnd + pageSize) / pageSize = s.heapEnd / pageSize + 1 :=
      Nat.add_div_right _ (by decide)
    refine ih (hm.step (.page s hnext.1 hnext.2.1 hnext.2.2)) ⟨by rw [hend]; omega, fun q hlo hhi =>
      ?_⟩
    rw [hend, hdiv] at hlo hhi
    obtain ⟨htotal, hbit⟩ := hfree q (by omega) (by omega)
    exact ⟨htotal, (Pmm.take_bitmap_of_ne (by omega)).trans hbit⟩

lemma HeapSteps.pages (hst : HeapSteps s t) : s.heapEnd ≤ t.heapEnd ∧
    t.phys.pmm.total = s.phys.pmm.total ∧
    (∀ q, t.phys.pmm.bitmap q = true ↔ s.phys.pmm.bitmap q = true ∨
      s.heapEnd / pageSize ≤ q ∧ q < t.heapEnd / pageSize) ∧
    ∀ q, s.heapEnd / pageSize ≤ q → q < t.heapEnd / pageSize →
      q < s.phys.pmm.total ∧ s.phys.pmm.bitmap q = false := by
  induction hst with
  | refl => exact ⟨le_rfl, rfl, fun q => (or_iff_left (by omega)).symm, fun q hlo hhi => by omega⟩
  | @tail u _ _ hst ih =>
    obtain ⟨hle, htotal, hbits, hfree⟩ := ih
    cases hst with
    | page _ hlt hnext =>
      have hdiv : (u.heapEnd + pageSize) / pageSize = u.heapEnd / pageSize + 1 :=
        Nat.add_div_right _ (by decide)
      have hdiv' := Nat.div_le_div_right (c := pageSize) hle
      have hnew : s.phys.pmm.bitmap (u.heapEnd / pageSize) = false := by
        by_contra hused
        have := (hbits _).mpr (.inl (by simpa using hused))
        simp [hnext] at this
      refine ⟨Nat.le_add_right_of_le hle, htotal, fun q => ?_, fun q hlo hhi => ?_⟩
      · dsimp only
        rw [hdiv]
        by_cases hq : q = u.heapEnd / pageSize
        · rw [hq, Pmm.take_bitmap_self]
          simp [hdiv']
        · rw [Pmm.take_bitmap_of_ne hq, hbits q]
          exact or_congr_right (by omega)
      · dsimp only at hhi
        rw [hdiv] at hhi
        by_cases hq : q = u.heapEnd / pageSize
        · rw [hq]
          exact ⟨htotal ▸ hlt, hnew⟩
        · exact hfree q hlo (by omega)
    | write m hw => exact ⟨hle, htotal, hbits, hfree⟩
    | start p => exact ⟨hle, htotal, hbits, hfree⟩

/-- The pages that `kmalloc` adds to the heap: none if a free block is large enough. -/
def Heap.growth (s : Heap) (size : Nat) : Nat :=
  match Heap.search s.phys.mem ((size + 3) / 4 * 4) Heap.listFuel s.startPtr with
  | .exhausted => ((size + 3) / 4 * 4 + headerSize + 0xFFF) / pageSize
  | _ => 0

lemma heapExpand_initial (s : Heap) : s.heapExpand heapInitialSize = s.expandPages 64 :=
  congrArg s.expandPages (by decide)

/-! ## The operations of the heap -/

/-- **`heap_init`**: there is one free block, or none is added. -/
lemma HeapForm.heapInit (h : HeapForm s xs) :
    ∃ xs', HeapSteps s s.heapInit ∧ HeapForm s.heapInit xs' ∧
      (Settled (magics s.phys.mem xs) → Settled (magics s.heapInit.phys.mem xs')) ∧
      ((s.heapExpand heapInitialSize).1 = true → xs' = [heapStart] ∧
        (∀ x, ¬ InUse s.heapInit.phys.mem xs' x) ∧
        heapStart + span s.heapInit.phys.mem xs' = s.heapInit.heapEnd) := by
  obtain ⟨ok, t, heq, hsteps, hmem, hstart, hle, hend⟩ := expandPages_spec 64 h.mapped
  have hmapped := h.mapped.steps hsteps
  unfold Heap.heapInit
  rw [heapExpand_initial, heq]
  cases ok with
  | false =>
    exact ⟨xs, hsteps, ⟨hmapped, hmem ▸ h.blocks.mono hle, hstart.trans h.start⟩,
      fun hset => hmem ▸ hset, nofun⟩
  | true =>
    have hend' := hend rfl
    have hlo := h.mapped.start_le
    have hal := hmapped.aligned
    have hmax := hmapped.le_max
    simp only [heapStart, heapMax, pageSize] at hend' hlo hal hmax
    obtain ⟨n, hn⟩ : ∃ n, t.heapEnd - heapStart - headerSize = n := ⟨_, rfl⟩
    have hsum : heapStart + headerSize + n = t.heapEnd := by
      simp only [heapStart, headerSize] at hn ⊢
      omega
    obtain ⟨m', hm'⟩ : ∃ m', Heap.writeHeader t.phys.mem heapStart magicFree n 0 0 = m' := ⟨_, rfl⟩
    have hhdr : header m' heapStart = ⟨magicFree, n, 0, 0⟩ := by
      rw [← hm']
      exact header_writeHeader_self (by decide) (by omega) (by decide) (by decide)
    have hsteps' : HeapSteps t { t.withMem m' with startPtr := heapStart } :=
      HeapSteps.writeStart (hm' ▸ within_writeHeader le_rfl (by omega)) _
    dsimp only
    rw [hn, hm']
    refine ⟨[heapStart], hsteps.trans hsteps', ⟨hmapped.steps hsteps', ⟨?_, ?_, ?_⟩, rfl⟩,
      fun _ => .singleton _, fun _ => ⟨rfl, fun x hx => ?_, ?_⟩⟩
    · simp [Dlseg, Heap.withMem, hhdr]
    · refine ⟨le_rfl, by decide, ?_, ?_⟩
      · simp only [Heap.withMem, hhdr]
        simp only [heapStart, headerSize] at hn
        omega
      · simp only [Heap.withMem, hhdr]
        exact hsum.le
    · simp [Heap.withMem, hhdr]
    · have hfree := hx.2
      rw [List.mem_singleton.mp hx.1] at hfree
      simp only [Heap.withMem, hhdr] at hfree
      exact absurd hfree (by decide)
    · simp only [span, Heap.withMem, List.map_cons, List.map_nil, List.sum_singleton, hhdr]
      omega

/-- What `kmalloc` leaves: the blocks that were in use, and the one at `x`, new, of `size` bytes
at least. -/
structure HandsOut (s t : Heap) (xs xs' : List Nat) (x size : Nat) : Prop where
  steps : HeapSteps s t
  form : HeapForm t xs'
  keeps : Keeps s.phys.mem t.phys.mem xs xs'
  settled : Settled (magics s.phys.mem xs) → Settled (magics t.phys.mem xs')
  inUse : InUse t.phys.mem xs' x
  fresh : ¬ InUse s.phys.mem xs x
  size_le : size ≤ (header t.phys.mem x).size
  only : ∀ z, InUse t.phys.mem xs' z → z = x ∨ InUse s.phys.mem xs z
  span_eq : span t.phys.mem xs' + s.heapEnd = span s.phys.mem xs + t.heapEnd
  end_eq : t.heapEnd = s.heapEnd + s.growth size * pageSize

lemma kmallocRetry_of_fits (retries size : Nat) (h : HeapForm s xs) (hsize : size ≠ 0)
    (hmax : size ≤ heapMax - heapStart)
    (hfits : ∃ z ∈ xs, (header s.phys.mem z).magic = magicFree ∧
      (size + 3) / 4 * 4 ≤ (header s.phys.mem z).size) :
    ∃ x t xs', Heap.kmallocRetry (retries + 1) s size = some (x + headerSize, t) ∧
      HandsOut s t xs xs' x size ∧ t.heapEnd = s.heapEnd := by
  have hle := h.mapped.le_max
  obtain ⟨cur, hcur, hfound, hfree, hcsize⟩ | ⟨-, hno⟩ := search_spec (n := (size + 3) / 4 * 4)
    h.blocks.links h.blocks.magic (fun _ hx => h.blocks.ne_zero hx) (h.blocks.length_lt hle)
  · obtain ⟨xs', hb, hhead, huse, hsz, hkeep, hset, honly, hspan, hw⟩ :=
      h.blocks.take hle hcur (Nat.mul_mod_left _ 4) hfree hcsize
    have hsteps := HeapSteps.write hw
    have hgrowth : s.growth size = 0 := by rw [Heap.growth, h.start, hfound]
    refine ⟨cur, _, xs', ?_, ⟨hsteps, ⟨h.mapped.steps hsteps, hb, h.start.trans hhead.symm⟩, hkeep,
      hset, huse, fun hu => absurd (hu.2.symm.trans hfree) (by decide), le_trans (by omega) hsz,
      honly, congrArg (· + s.heapEnd) hspan, by simp [hgrowth, Heap.withMem]⟩, rfl⟩
    rw [Heap.kmallocRetry, if_neg (by omega)]
    dsimp only
    rw [h.start, hfound]
  · obtain ⟨z, hz, hfree, hfit⟩ := hfits
    exact absurd (hno z hz hfree) (by omega)

/-- `kmalloc` returns 0: the size is not possible, or the heap could not grow.  The list stays as
it was. -/
structure Refuses (s t : Heap) (xs : List Nat) (size : Nat) : Prop where
  steps : HeapSteps s t
  form : HeapForm t xs
  mem_eq : t.phys.mem = s.phys.mem
  cause : (size = 0 ∨ heapMax - heapStart < size) ∧ t = s ∨
    size ≠ 0 ∧ size ≤ heapMax - heapStart ∧
      Heap.search s.phys.mem ((size + 3) / 4 * 4) Heap.listFuel s.startPtr = .exhausted ∧
      s.heapExpand ((size + 3) / 4 * 4 + headerSize) = (false, t)

lemma Refuses.reason {size : Nat} (h : Refuses s t xs size) :
    size = 0 ∨ heapMax - heapStart < size ∨
      (s.heapExpand ((size + 3) / 4 * 4 + headerSize)).1 = false := by
  rcases h.cause with ⟨hbad, -⟩ | ⟨-, -, -, hexpand⟩
  · exact hbad.imp_right .inl
  · exact .inr (.inr (by rw [hexpand]))

/-- **`kmalloc`** returns, after entering itself once more at most: 0, or a block that is in use
from now on. -/
lemma HeapForm.kmalloc (h : HeapForm s xs) (retries size : Nat) :
    ∃ ptr t xs', Heap.kmallocRetry (retries + 2) s size = some (ptr, t) ∧
      (ptr = 0 ∧ xs' = xs ∧ Refuses s t xs size ∨
        ∃ x, ptr = x + headerSize ∧ HandsOut s t xs xs' x size) := by
  by_cases hbad : size = 0 ∨ heapMax - heapStart < size
  · refine ⟨0, s, xs, ?_, .inl ⟨rfl, rfl, .refl, h, rfl, .inl ⟨hbad, rfl⟩⟩⟩
    rw [Heap.kmallocRetry, if_pos hbad]
  · obtain ⟨hsize, hmax⟩ := not_or.mp hbad
    rw [not_lt] at hmax
    have hle := h.mapped.le_max
    obtain ⟨n, hn⟩ : ∃ n, (size + 3) / 4 * 4 = n := ⟨_, rfl⟩
    obtain hfits | ⟨hno, -⟩ := search_spec (n := n)
      h.blocks.links h.blocks.magic (fun _ hx => h.blocks.ne_zero hx) (h.blocks.length_lt hle)
    · obtain ⟨cur, hcur, -, hfree, hfit⟩ := hfits
      obtain ⟨x, t, xs', heq, hout, -⟩ :=
        kmallocRetry_of_fits (retries + 1) size h hsize hmax ⟨cur, hcur, hfree, hn ▸ hfit⟩
      exact ⟨_, t, xs', heq, .inr ⟨x, rfl, hout⟩⟩
    · have hmax' : n ≤ 0x400000 := by
        simp only [heapMax, heapStart] at hmax
        omega
      obtain ⟨k, hk⟩ : ∃ k, (n + headerSize + 0xFFF) % 0x100000000 / pageSize = k := ⟨_, rfl⟩
      have hk' : n + headerSize ≤ k * pageSize ∧ 1 ≤ k := by
        simp only [headerSize, pageSize] at hk ⊢
        omega
      obtain ⟨ok, t, heq, hsteps, hmem, hstart, hle', hend⟩ := expandPages_spec k h.mapped
      have hmapped := h.mapped.steps hsteps
      have hexpand : s.heapExpand (n + headerSize) = (ok, t) := by
        rw [Heap.heapExpand, hk, heq]
      rw [Heap.kmallocRetry, if_neg hbad]
      dsimp only
      rw [hn, h.start, hno, hexpand]
      cases ok with
      | false =>
        exact ⟨0, t, xs, rfl, .inl ⟨rfl, rfl, hsteps, ⟨hmapped, hmem ▸ h.blocks.mono hle',
          hstart.trans h.start⟩, hmem, .inr ⟨hsize, hmax, by rw [hn, h.start, hno],
            by rw [hn, hexpand]⟩⟩⟩
      | true =>
        have hend' := hend rfl
        have hal := h.mapped.aligned
        have hal' := hmapped.aligned
        simp only [pageSize] at hend' hal hal' hk'
        have hb : Blocks t.phys.mem s.heapEnd xs := hmem ▸ h.blocks
        obtain ⟨m', xs₁, happ, hgrown⟩ :=
          appendBlock_spec hb (hstart.trans h.start) (by omega) h.mapped.start_le (by omega)
            (by simp only [headerSize] at hk' ⊢; omega) hmapped.le_max
        have hsteps₁ : HeapSteps t { t.withMem m' with startPtr := xs₁.headD 0 } :=
          HeapSteps.writeStart hgrown.within _
        rw [hmem] at hgrown
        obtain ⟨z, hz, hfree, hfit⟩ := hgrown.room
        have hround : (n + 3) / 4 * 4 = n := by omega
        obtain ⟨x, u, xs₂, heq₂, hout, hsame⟩ :=
          kmallocRetry_of_fits retries n ⟨hmapped.steps hsteps₁, hgrown.blocks, rfl⟩ (by omega) (by
            simp only [heapMax, heapStart]
            omega) ⟨z, hz, hfree, by
              rw [hround]
              refine le_trans ?_ hfit
              simp only [headerSize] at hk' ⊢
              omega⟩
        refine ⟨x + headerSize, u, xs₂, ?_, .inr ⟨x, rfl, (hsteps.trans hsteps₁).trans hout.steps,
          hout.form, hgrown.keeps.trans hout.keeps, fun hset => hout.settled (hgrown.settled hset),
          hout.inUse, fun hu => hout.fresh (hgrown.keeps x hu).1, le_trans (by omega) hout.size_le,
          fun z hu => (hout.only z hu).imp_right (hgrown.only z), ?_, ?_⟩⟩
        · dsimp only
          rw [happ, Option.bind_some]
          exact heq₂
        · have hspan := hout.span_eq
          have hspan₁ := hgrown.span_eq
          simp only [Heap.withMem] at hspan
          omega
        · have hgrowth : s.growth size = k := by
            rw [Heap.growth, hn, h.start, hno, ← hk, Nat.mod_eq_of_lt
              (by simp only [headerSize]; omega)]
          rw [hsame, hgrowth]
          exact hend rfl

/-- **When `kmalloc` succeeds**: the pages that it needs are free. -/
lemma HeapForm.kmalloc_iff (h : HeapForm s xs) {size ptr : Nat} (hsize : size ≠ 0)
    (hmax : size ≤ heapMax - heapStart) (heq : s.kmalloc size = some (ptr, t)) :
    (ptr ≠ 0 ↔ s.CanGrow (s.growth size)) ∧
      (ptr ≠ 0 → t.phys.pmm.total = s.phys.pmm.total ∧ ∀ q, t.phys.pmm.bitmap q = true ↔
        s.phys.pmm.bitmap q = true ∨ s.heapEnd / pageSize ≤ q ∧
          q < s.heapEnd / pageSize + s.growth size) := by
  obtain ⟨ptr', t', xs', heq', hcase⟩ := h.kmalloc 1 size
  obtain ⟨rfl, rfl⟩ := Prod.mk.inj (Option.some.inj (heq.symm.trans heq'))
  rcases hcase with ⟨rfl, -, hno⟩ | ⟨x, rfl, hout⟩
  · refine ⟨iff_of_false (by simp) fun hgrow => ?_, by simp⟩
    rcases hno.cause with ⟨hbad, -⟩ | ⟨-, -, hexhausted, hexpand⟩
    · omega
    · have hgrowth : s.growth size =
          ((size + 3) / 4 * 4 + headerSize + 0xFFF) % 0x100000000 / pageSize := by
        simp only [heapMax, heapStart] at hmax
        rw [Heap.growth, hexhausted, Nat.mod_eq_of_lt (by simp only [headerSize]; omega)]
      have hok := hgrow.expandPages h.mapped
      rw [hgrowth, ← Heap.heapExpand, hexpand] at hok
      simp at hok
  · obtain ⟨-, htotal, hbits, hfree⟩ := hout.steps.pages
    have hdiv : t.heapEnd / pageSize = s.heapEnd / pageSize + s.growth size := by
      rw [hout.end_eq, Nat.add_mul_div_right _ _ (by decide)]
    rw [hdiv] at hbits hfree
    refine ⟨iff_of_true (by simp [headerSize]) ⟨?_, hfree⟩, fun _ => ⟨htotal, hbits⟩⟩
    rw [← hout.end_eq]
    exact hout.form.mapped.le_max

/-- What `kfree` leaves: the blocks that were in use but for the one at `x`. -/
structure GivesBack (s t : Heap) (xs xs' : List Nat) (x : Nat) : Prop where
  steps : HeapSteps s t
  form : HeapForm t xs'
  keeps : ∀ z, z ≠ x → InUse s.phys.mem xs z → InUse t.phys.mem xs' z
  sizes : SizesKept s.phys.mem t.phys.mem xs x
  settled : Settled (magics s.phys.mem xs) → Settled (magics t.phys.mem xs')
  only : ∀ z, InUse t.phys.mem xs' z → z ≠ x ∧ InUse s.phys.mem xs z
  span_eq : span t.phys.mem xs' = span s.phys.mem xs
  end_eq : t.heapEnd = s.heapEnd

/-- **`kfree`** of a block in use. -/
lemma HeapForm.kfree (h : HeapForm s xs) (hx : InUse s.phys.mem xs x) :
    ∃ xs', GivesBack s (s.kfree (x + headerSize)) xs xs' x := by
  obtain ⟨m', xs', heq, hrel, hsz, hset, hgone⟩ := kfree_spec h.blocks h.mapped.le_max hx
  have hsteps := HeapSteps.write hrel.within
  rw [heq]
  exact ⟨xs', hsteps, ⟨h.mapped.steps hsteps, hrel.blocks, h.start.trans hrel.head.symm⟩,
    hrel.keeps, hsz, hset, fun z hu => ⟨fun heq => hgone (heq ▸ hu), hrel.only z hu⟩,
    hrel.span_eq, rfl⟩

end NullOS.Memory
