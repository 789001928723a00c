import NullOS.Memory.HeapSteps
import NullOS.Memory.ElfSpace

/-!
# The heap and the page allocator

Each step of the heap keeps the machine to the books: a page it adds becomes a heap page, and the
bytes it writes lie in heap pages.
-/

namespace NullOS.Memory

open Lib

/-- The machine keeps to the books: every frame with a role is marked and in [4 MB, 8 MB), and
the frames of the heap have the role of a heap page. -/
structure Paged (s : Heap) (own : Own) : Prop where
  kernel : KernelMap s.phys.mem
  managed : Managed s.phys.pmm
  marked : Marked s.phys.pmm own
  above : ∀ q, own q ≠ none → 1024 ≤ q
  aligned : s.heapEnd % pageSize = 0
  start_le : heapStart ≤ s.heapEnd
  le_max : s.heapEnd ≤ heapMax
  pages : ∀ q, heapStart / pageSize ≤ q → q < s.heapEnd / pageSize → own q = some .heap

def Role.IsHeap (r : Role) : Prop := r = .heap

variable {s t : Heap} {m' : Mem} {own own' : Own} {x : Nat} {xs : List Nat} {W : Role → Prop}

/-! ## Steps -/

lemma Paged.of_grows (h : Paged s own) (hg : Grows W s.phys t.phys own own')
    (hmk : Marked t.phys.pmm own') (hend : t.heapEnd = s.heapEnd) : Paged t own' := by
  have hlow : ∀ q < 1024, own q = none := by
    intro q hq
    by_contra hne
    have := h.above q hne
    omega
  refine ⟨h.kernel.congr fun a ha => ?_, hg.managed h.managed, hmk, fun q hq => ?_,
    hend ▸ h.aligned, hend ▸ h.start_le, hend ▸ h.le_max, fun q hlo hhi => ?_⟩
  · by_contra hne
    obtain hfree | ⟨r, hr, -⟩ := hg.writes a hne
    · rw [h.managed.low _ ha] at hfree
      simp at hfree
    · rw [hlow _ ha] at hr
      simp at hr
  · by_contra hlt
    have hfree := hg.fresh q (hlow q (by omega)) hq
    rw [h.managed.low q (by omega)] at hfree
    simp at hfree
  · have hq := h.pages q hlo (hend ▸ hhi)
    rw [hg.keeps q (by simp [hq]), hq]

lemma Paged.takePage (h : Paged s own) (hroom : s.heapEnd + pageSize ≤ heapMax)
    (htotal : s.heapEnd / pageSize < s.phys.pmm.total)
    (hfree : s.phys.pmm.bitmap (s.heapEnd / pageSize) = false) :
    let t : Heap := { s with
      phys := { s.phys with pmm := s.phys.pmm.take (s.heapEnd / pageSize) }
      heapEnd := s.heapEnd + pageSize }
    let own' := Function.update own (s.heapEnd / pageSize) (some .heap)
    Grows W s.phys t.phys own own' ∧ Paged t own' := by
  intro t own'
  have hg : Grows W s.phys t.phys own own' :=
    .take hfree .heap h.marked fun a ha => absurd rfl ha
  have hmk : Marked t.phys.pmm own' := h.marked.take htotal .heap
  have hsame := h.of_grows (t := { t with heapEnd := s.heapEnd }) hg hmk rfl
  have hal := h.aligned
  have hlo := h.start_le
  refine ⟨hg, hsame.kernel, hsame.managed, hmk, hsame.above, ?_, ?_, hroom, fun q hqlo hqhi => ?_⟩
  · show (s.heapEnd + pageSize) % pageSize = 0
    simp only [pageSize] at hal ⊢
    omega
  · exact le_trans hlo (Nat.le_add_right _ _)
  · by_cases hq : q = s.heapEnd / pageSize
    · rw [hq]
      exact Function.update_self _ _ _
    · refine hsame.pages q hqlo ?_
      have hqhi' : q < (s.heapEnd + pageSize) / pageSize := hqhi
      show q < s.heapEnd / pageSize
      simp only [pageSize] at hq hqhi' ⊢
      omega

lemma Paged.write (h : Paged s own) (hw : Within s.phys.mem m' heapStart s.heapEnd) :
    Grows Role.IsHeap s.phys (s.withMem m').phys own own ∧ Paged (s.withMem m') own := by
  have hg : Grows Role.IsHeap s.phys (s.withMem m').phys own own := by
    refine .of_pmm_eq rfl fun a ha => ⟨.heap, ?_, rfl, trivial⟩
    have hin : heapStart ≤ a ∧ a < s.heapEnd := by
      by_contra hout
      exact ha (hw a (by omega))
    have hal := h.aligned
    simp only [heapStart, pageSize] at hin hal
    refine h.pages _ ?_ ?_
    all_goals
      simp only [heapStart, pageSize]
      omega
  exact ⟨hg, h.of_grows hg h.marked rfl⟩

lemma Paged.withStart (h : Paged s own) (p : Nat) : Paged { s with startPtr := p } own :=
  ⟨h.kernel, h.managed, h.marked, h.above, h.aligned, h.start_le, h.le_max, h.pages⟩

lemma Paged.step (h : Paged s own) (hst : HeapStep s t) :
    ∃ own', Grows Role.IsHeap s.phys t.phys own own' ∧ Paged t own' := by
  cases hst with
  | page hroom htotal hfree => exact ⟨_, h.takePage hroom htotal hfree⟩
  | write m hw => exact ⟨own, h.write hw⟩
  | start p => exact ⟨own, .refl _ _ _, h.withStart p⟩

lemma Paged.steps (h : Paged s own) (hst : HeapSteps s t) :
    ∃ own', Grows Role.IsHeap s.phys t.phys own own' ∧ Paged t own' := by
  induction hst with
  | refl => exact ⟨own, .refl _ _ _, h⟩
  | tail _ hst ih =>
    obtain ⟨own₁, hg₁, h₁⟩ := ih
    obtain ⟨own₂, hg₂, h₂⟩ := h₁.step hst
    exact ⟨own₂, hg₁.trans hg₂, h₂⟩

/-! ## The operations of the heap -/

/-- The heap is in order: it keeps to the books, and its list is the list of its blocks. -/
structure HeapOk (s : Heap) (own : Own) (xs : List Nat) : Prop where
  paged : Paged s own
  blocks : Blocks s.phys.mem s.heapEnd xs
  start : s.startPtr = xs.headD 0

lemma HeapOk.form (h : HeapOk s own xs) : HeapForm s xs :=
  ⟨⟨h.paged.kernel, h.paged.aligned, h.paged.start_le, h.paged.le_max⟩, h.blocks, h.start⟩

lemma HeapForm.ok (h : HeapForm s xs) (hpaged : Paged s own) : HeapOk s own xs :=
  ⟨hpaged, h.blocks, h.start⟩

/-- **`heap_init`**: the heap is in order afterwards. -/
lemma heapInit_spec (h : HeapOk s own xs) :
    ∃ own' xs', Grows Role.IsHeap s.phys s.heapInit.phys own own' ∧ HeapOk s.heapInit own' xs' := by
  obtain ⟨xs', hsteps, hform, -⟩ := h.form.heapInit
  obtain ⟨own', hg, hpaged⟩ := h.paged.steps hsteps
  exact ⟨own', xs', hg, hform.ok hpaged⟩

/-- **`kmalloc`** returns: a block that is in use from now on, or 0.  Blocks that are in use
stay so. -/
lemma kmalloc_spec (h : HeapOk s own xs) (size : Nat) :
    ∃ ptr t own' xs', s.kmalloc size = some (ptr, t) ∧
      Grows Role.IsHeap s.phys t.phys own own' ∧ HeapOk t own' xs' ∧
      (∀ z, InUse s.phys.mem xs z → InUse t.phys.mem xs' z) ∧
      (ptr = 0 ∨ ∃ x, ptr = x + headerSize ∧ InUse t.phys.mem xs' x) := by
  obtain ⟨ptr, t, xs', heq, ⟨rfl, rfl, hno⟩ | ⟨x, rfl, hout⟩⟩ := h.form.kmalloc 1 size
  · obtain ⟨own', hg, hpaged⟩ := h.paged.steps hno.steps
    exact ⟨0, t, own', _, heq, hg, hno.form.ok hpaged, fun _ hu => hno.mem_eq ▸ hu, .inl rfl⟩
  · obtain ⟨own', hg, hpaged⟩ := h.paged.steps hout.steps
    exact ⟨_, t, own', xs', heq, hg, hout.form.ok hpaged, fun z hu => (hout.keeps z hu).1,
      .inr ⟨x, rfl, hout.inUse⟩⟩

/-- **`kfree`** of a block in use: the heap stays in order, and so do the other blocks. -/
lemma HeapOk.kfree (h : HeapOk s own xs) (hx : InUse s.phys.mem xs x) :
    ∃ own' xs', Grows Role.IsHeap s.phys (s.kfree (x + headerSize)).phys own own' ∧
      HeapOk (s.kfree (x + headerSize)) own' xs' ∧
      ∀ z, z ≠ x → InUse s.phys.mem xs z → InUse (s.kfree (x + headerSize)).phys.mem xs' z := by
  obtain ⟨xs', hback⟩ := h.form.kfree hx
  obtain ⟨own', hg, hpaged⟩ := h.paged.steps hback.steps
  exact ⟨own', xs', hg, hback.form.ok hpaged, hback.keeps⟩

end NullOS.Memory
