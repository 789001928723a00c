import NullOS.Memory.Boot
import NullOS.Lib.Run

/-!
# Clients of the heap

Any sequence of `kmalloc` and `kfree` after `heap_init`, with the clients writing into their blocks
in between.  At every `kmalloc` the allocator may be in any state, so that it refuses any page.
-/

namespace NullOS.Memory

open Lib

/-- The heap, and the sizes asked for of the blocks that are out, by their addresses. -/
structure HeapUse where
  heap : Heap
  out : Nat → Option Nat

inductive HeapCall
  | kmalloc (pmm : Pmm) (size : Nat)
  | kfree (ptr : Nat)
  | fill (ptr i : Nat) (b : UInt8)

namespace HeapUse

def withPmm (s : HeapUse) (pmm : Pmm) : Heap := { s.heap with phys := { s.heap.phys with pmm } }

def step (s : HeapUse) : HeapCall → Option HeapUse
  | .kmalloc pmm size =>
      ((s.withPmm pmm).kmalloc size).map fun (ptr, t) =>
        { heap := t
          out := if ptr = 0 then s.out else Function.update s.out ptr (some size) }
  | .kfree ptr => some { heap := s.heap.kfree ptr, out := Function.update s.out ptr none }
  | .fill ptr i b =>
      if ∃ n ∈ s.out ptr, i < n then
        some { s with heap := s.heap.withMem (s.heap.phys.mem.blit (ptr + i) 1 fun _ => b) }
      else none

def bootHeap (mem : Mem) (pmm : Pmm) : Heap where
  phys := vmmInit { mem, pmm, ptNext := pageTableStart }
  startPtr := 0
  heapEnd := heapStart

def Started (s : HeapUse) : Prop :=
  ∃ mem pmm, s = { heap := (bootHeap mem pmm).heapInit, out := fun _ => none }

/-- `kfree` gets NULL or a block that is out. -/
def Proper (s : HeapUse) : HeapCall → Prop
  | .kfree ptr => ptr = 0 ∨ s.out ptr ≠ none
  | _ => True

/-- What clients rely on.  The blocks `xs` are linked in increasing order, and no two neighbours are
free.  The blocks that are out are aligned, hold what was asked for, lie in mapped memory, and
overlap neither each other nor any header.  And `kmalloc` returns, with a block if the heap can
grow; never with one that is out. -/
structure Safe (s : HeapUse) (xs : List Nat) : Prop where
  linked : Dlseg (fun x => (header s.heap.phys.mem x).next)
    (fun x => (header s.heap.phys.mem x).prev) 0 xs 0
  start : s.heap.startPtr = xs.headD 0
  increasing : xs.Pairwise (· < ·)
  magic : ∀ x ∈ xs, (header s.heap.phys.mem x).magic = magicFree ∨
    (header s.heap.phys.mem x).magic = magicUsed
  merged : xs.IsChain fun x y => ¬ ((header s.heap.phys.mem x).magic = magicFree ∧
    (header s.heap.phys.mem y).magic = magicFree)
  block : ∀ ptr n, s.out ptr = some n → ∃ x, ptr = x + headerSize ∧ InUse s.heap.phys.mem xs x ∧
    n ≤ (header s.heap.phys.mem x).size
  aligned : ∀ ptr n, s.out ptr = some n → ptr % 4 = 0
  inside : ∀ ptr n, s.out ptr = some n → heapStart ≤ ptr ∧ ptr + n ≤ s.heap.heapEnd
  mapped : ∀ ptr n, s.out ptr = some n → ∀ i < n,
    walk s.heap.phys.mem pageDirAddr ((ptr + i) / pageSize) = some ((ptr + i) / pageSize)
  noHeader : ∀ ptr n, s.out ptr = some n → ∀ x ∈ xs, ptr + n ≤ x ∨ x + headerSize ≤ ptr
  disjoint : ∀ ptr n ptr' n', s.out ptr = some n → s.out ptr' = some n' → ptr ≠ ptr' →
    ptr + n ≤ ptr' ∨ ptr' + n' ≤ ptr
  fresh : ∀ pmm size ptr t, (s.withPmm pmm).kmalloc size = some (ptr, t) → s.out ptr = none
  returns : ∀ pmm size, ∃ ptr t, Heap.kmallocRetry 2 (s.withPmm pmm) size = some (ptr, t) ∧
    (ptr = 0 → size = 0 ∨ heapMax - heapStart < size ∨
      ((s.withPmm pmm).heapExpand ((size + 3) / 4 * 4 + headerSize)).1 = false)

structure Inv (s : HeapUse) (xs : List Nat) : Prop where
  form : HeapForm s.heap xs
  settled : Settled (magics s.heap.phys.mem xs)
  out : ∀ ptr n, s.out ptr = some n → ∃ x, ptr = x + headerSize ∧ InUse s.heap.phys.mem xs x ∧
    n ≤ (header s.heap.phys.mem x).size

variable {s t : HeapUse} {xs : List Nat}

/-! ## The invariant -/

lemma bootHeap_form (mem : Mem) (pmm : Pmm) : HeapForm (bootHeap mem pmm) [] := by
  have hend : (bootHeap mem pmm).heapEnd = heapStart := rfl
  refine ⟨⟨kernelMap_vmmInit _, ?_, hend.ge, ?_⟩, ⟨trivial, hend.ge, by simp⟩, rfl⟩
  · rw [hend]
    decide
  · rw [hend]
    decide

lemma inv_started (h : Started s) : ∃ xs, Inv s xs := by
  obtain ⟨mem, pmm, hs⟩ := h
  obtain ⟨xs, -, hform, hset, -⟩ := (bootHeap_form mem pmm).heapInit
  obtain ⟨heap, hheap⟩ : ∃ heap, (bootHeap mem pmm).heapInit = heap := ⟨_, rfl⟩
  rw [hheap] at hs hform hset
  subst hs
  exact ⟨xs, hform, hset .nil, by simp⟩

lemma Inv.withPmm (hi : Inv s xs) (pmm : Pmm) : HeapForm (s.withPmm pmm) xs :=
  ⟨⟨hi.form.mapped.kernel, hi.form.mapped.aligned, hi.form.mapped.start_le, hi.form.mapped.le_max⟩,
    hi.form.blocks, hi.form.start⟩

/-- What a call has done to the blocks `xs`, of which there are `xs'` then. -/
inductive Did (s : HeapUse) (xs : List Nat) : HeapCall → HeapUse → List Nat → Prop
  | refused {pmm : Pmm} {size : Nat} {t : HeapUse} (hno : Refuses (s.withPmm pmm) t.heap xs size)
      (hout : t.out = s.out) : Did s xs (.kmalloc pmm size) t xs
  | handedOut {pmm : Pmm} {size x : Nat} {t : HeapUse} {xs' : List Nat}
      (hnew : HandsOut (s.withPmm pmm) t.heap xs xs' x size)
      (hout : t.out = Function.update s.out (x + headerSize) (some size)) :
      Did s xs (.kmalloc pmm size) t xs'
  | null {t : HeapUse} (hheap : t.heap = s.heap) (hout : t.out = Function.update s.out 0 none) :
      Did s xs (.kfree 0) t xs
  | givenBack {x : Nat} {t : HeapUse} {xs' : List Nat} (hback : GivesBack s.heap t.heap xs xs' x)
      (hout : t.out = Function.update s.out (x + headerSize) none) :
      Did s xs (.kfree (x + headerSize)) t xs'
  | filled {ptr i : Nat} {b : UInt8} {t : HeapUse} (hform : HeapForm t.heap xs)
      (hend : t.heap.heapEnd = s.heap.heapEnd)
      (hsame : ∀ z ∈ xs, header t.heap.phys.mem z = header s.heap.phys.mem z)
      (hout : t.out = s.out) : Did s xs (.fill ptr i b) t xs

lemma add_headerSize_ne_zero (x : Nat) : x + headerSize ≠ 0 := by
  simp only [headerSize]
  omega

lemma Inv.did {a : HeapCall} (hi : Inv s xs) (hok : s.Proper a) (hs : s.step a = some t) :
    ∃ xs', Did s xs a t xs' := by
  cases a with
  | kmalloc pmm size =>
    obtain ⟨ptr, u, xs', heq, ⟨rfl, rfl, hno⟩ | ⟨x, rfl, hnew⟩⟩ := (hi.withPmm pmm).kmalloc 1 size
    all_goals
      have heq' : (s.withPmm pmm).kmalloc size = _ := heq
      simp only [step, heq', Option.map_some, Option.some.injEq] at hs
      subst hs
    · exact ⟨_, .refused hno rfl⟩
    · refine ⟨xs', .handedOut hnew ?_⟩
      rw [if_neg (add_headerSize_ne_zero x)]
  | kfree ptr =>
    simp only [step, Option.some.injEq] at hs
    subst hs
    rcases hok with rfl | hne
    · exact ⟨xs, .null rfl rfl⟩
    · obtain ⟨n, hn⟩ := Option.ne_none_iff_exists'.mp hne
      obtain ⟨x, rfl, hx, -⟩ := hi.out ptr n hn
      obtain ⟨xs', hback⟩ := hi.form.kfree hx
      exact ⟨xs', .givenBack hback rfl⟩
  | fill ptr i b =>
    simp only [step] at hs
    split at hs
    case isFalse => simp at hs
    case isTrue hc =>
      cases hs
      obtain ⟨n, hn, hin⟩ := hc
      obtain ⟨x, rfl, hx, hle⟩ := hi.out ptr n hn
      obtain ⟨hw, hsame⟩ := hi.form.blocks.fill hx.1
        (show i + 1 ≤ _ from lt_of_lt_of_le hin hle) fun _ => b
      exact ⟨xs, .filled ⟨hi.form.mapped.steps (HeapSteps.write hw), hi.form.blocks.congr hsame,
        hi.form.start⟩ rfl hsame rfl⟩

lemma update_none_eq_some {f : Nat → Option Nat} {p k n : Nat}
    (h : Function.update f p none k = some n) : k ≠ p ∧ f k = some n := by
  by_cases hkp : k = p
  · rw [hkp, Function.update_self] at h
    simp at h
  · exact ⟨hkp, by rwa [Function.update_of_ne hkp] at h⟩

lemma Did.inv {a : HeapCall} {xs' : List Nat} (h : Did s xs a t xs') (hi : Inv s xs) :
    Inv t xs' := by
  cases h with
  | refused hno hout =>
    have hmem : t.heap.phys.mem = s.heap.phys.mem := hno.mem_eq
    refine ⟨hno.form, hmem ▸ hi.settled, ?_⟩
    rw [hout, hmem]
    exact hi.out
  | @handedOut pmm size x _ _ hnew hout =>
    refine ⟨hnew.form, hnew.settled hi.settled, fun ptr n hptr => ?_⟩
    rw [hout] at hptr
    by_cases hp : ptr = x + headerSize
    · rw [hp, Function.update_self, Option.some.injEq] at hptr
      exact ⟨x, hp, hnew.inUse, hptr ▸ hnew.size_le⟩
    · rw [Function.update_of_ne hp] at hptr
      obtain ⟨y, rfl, hu, hn⟩ := hi.out ptr n hptr
      obtain ⟨hu', hsz⟩ := hnew.keeps y hu
      exact ⟨y, rfl, hu', hsz.symm ▸ hn⟩
  | null hheap hout =>
    refine ⟨hheap ▸ hi.form, hheap ▸ hi.settled, fun k n hk => ?_⟩
    rw [hout] at hk
    rw [hheap]
    exact hi.out k n (update_none_eq_some hk).2
  | givenBack hback hout =>
    refine ⟨hback.form, hback.settled hi.settled, fun k n hk => ?_⟩
    rw [hout] at hk
    obtain ⟨hkx, hk⟩ := update_none_eq_some hk
    obtain ⟨y, rfl, hy, hle⟩ := hi.out k n hk
    have hyx : y ≠ _ := fun heq => hkx (congrArg (· + headerSize) heq)
    exact ⟨y, rfl, hback.keeps y hyx hy, (hback.sizes y hyx hy).symm ▸ hle⟩
  | filled hform _ hsame hout =>
    refine ⟨hform, ?_, fun k n hk => ?_⟩
    · rw [magics_congr fun z hz => congrArg Header.magic (hsame z hz)]
      exact hi.settled
    · rw [hout] at hk
      obtain ⟨y, rfl, hy, hle⟩ := hi.out k n hk
      have hy' := hsame y hy.1
      exact ⟨y, rfl, ⟨hy.1, (congrArg Header.magic hy').trans hy.2⟩,
        (congrArg Header.size hy').symm ▸ hle⟩

lemma inv_of_reach (h : ReachIf step Started Proper s) : ∃ xs, Inv s xs := by
  refine h.invariant (I := fun s => ∃ xs, Inv s xs) (fun _ => inv_started) ?_
  rintro s a t ⟨xs, hi⟩ hok hs
  obtain ⟨xs', hdid⟩ := hi.did hok hs
  exact ⟨xs', hdid.inv hi⟩

/-! ## What it gives -/

lemma Inv.not_out (hi : Inv s xs) {pmm : Pmm} {size ptr : Nat} {u : Heap}
    (hk : (s.withPmm pmm).kmalloc size = some (ptr, u)) : s.out ptr = none := by
  rw [← Option.not_isSome_iff_eq_none, Option.isSome_iff_exists]
  rintro ⟨n, hn⟩
  obtain ⟨y, rfl, hy, -⟩ := hi.out ptr n hn
  obtain ⟨ptr', u', xs', heq, ⟨rfl, -⟩ | ⟨x, rfl, hnew⟩⟩ := (hi.withPmm pmm).kmalloc 1 size
  all_goals
    obtain ⟨hptr, -⟩ := Prod.mk.inj (Option.some.inj (hk.symm.trans heq))
  · exact add_headerSize_ne_zero y hptr
  · obtain rfl : y = x := Nat.add_right_cancel hptr
    exact hnew.fresh hy

lemma Inv.safe (hi : Inv s xs) : s.Safe xs := by
  have hb := hi.form.blocks
  have hbound : ∀ ptr n, s.out ptr = some n → heapStart ≤ ptr ∧ ptr + n ≤ s.heap.heapEnd := by
    intro ptr n hptr
    obtain ⟨x, rfl, hx, hle⟩ := hi.out ptr n hptr
    have := hb.bounds hx.1
    omega
  refine ⟨hb.links, hi.form.start, hb.sorted.imp fun h => ?_, hb.magic, ?_, hi.out,
    fun ptr n hptr => ?_, hbound, fun ptr n hptr i hin => ?_, fun ptr n hptr z hz => ?_,
    fun ptr n ptr' n' hptr hptr' hne => ?_, fun pmm size ptr t hk => hi.not_out hk,
    fun pmm size => ?_⟩
  · simp only [headerSize] at h
    omega
  · exact (List.isChain_map _).mp hi.settled |>.imp fun _ _ h hc => h.elim (· hc.1) (· hc.2)
  · obtain ⟨x, rfl, hx, -⟩ := hi.out ptr n hptr
    have := hb.bounds hx.1
    simp only [headerSize]
    omega
  · have := hbound ptr n hptr
    have hmax := hi.form.mapped.le_max
    refine hi.form.mapped.kernel.walk_eq ?_ ?_
    all_goals
      simp only [heapStart, heapMax, pageSize] at *
      omega
  · obtain ⟨x, rfl, hx, hle⟩ := hi.out ptr n hptr
    by_cases hzx : z = x
    · exact .inr (by rw [hzx])
    · have := hb.laid.apart hx.1 hz (Ne.symm hzx)
      omega
  · obtain ⟨x, rfl, hx, hle⟩ := hi.out ptr n hptr
    obtain ⟨y, rfl, hy, hle'⟩ := hi.out ptr' n' hptr'
    have := hb.laid.apart hx.1 hy.1 fun heq => hne (by rw [heq])
    omega
  · obtain ⟨ptr, u, xs', heq, ⟨-, -, hno⟩ | ⟨x, rfl, -⟩⟩ := (hi.withPmm pmm).kmalloc 0 size
    · exact ⟨ptr, u, heq, fun _ => hno.reason⟩
    · refine ⟨_, u, heq, fun h0 => ?_⟩
      simp only [headerSize] at h0
      omega

/-- **The heap is safe**, whatever is allocated and freed in whatever order and whichever pages
the allocator refuses. -/
theorem safe_of_proper (h : ReachIf step Started Proper s) : ∃ xs, s.Safe xs :=
  (inv_of_reach h).imp fun _ hi => hi.safe

instance (s : HeapUse) : DecidablePred s.Proper
  | .kfree ptr => inferInstanceAs (Decidable (ptr = 0 ∨ s.out ptr ≠ none))
  | .kmalloc _ _ | .fill _ _ _ => isTrue trivial

/-- An allocator of `total` frames, of which those from `first` on are free. -/
def freeFrom (first total : Nat) : Pmm := { bitmap := fun q => q < first, total, used := first }

/-- `heap_init` gets one page of 64.  Two blocks are out, the first is given back, and a request
for which the heap cannot grow by all the pages it needs is refused. -/
theorem safe_twoBlocks :
    ∃ s, runIf step Proper
        { heap := (bootHeap (fun _ => 0) (freeFrom 1024 1025)).heapInit, out := fun _ => none }
        [.kmalloc (freeFrom 1025 1026) 10, .kmalloc (freeFrom 1026 1026) 100,
          .fill 0x40102c 99 7, .kfree 0x401010, .kmalloc (freeFrom 1026 1027) 0x2000] = some s ∧
      s.out 0x40102c = some 100 ∧ s.heap.heapEnd = 0x403000 ∧ ∃ xs, s.Safe xs := by
  have hrun : (runIf step Proper
      { heap := (bootHeap (fun _ => 0) (freeFrom 1024 1025)).heapInit, out := fun _ => none }
      [.kmalloc (freeFrom 1025 1026) 10, .kmalloc (freeFrom 1026 1026) 100,
        .fill 0x40102c 99 7, .kfree 0x401010, .kmalloc (freeFrom 1026 1027) 0x2000]).map
        (fun s => (s.out 0x40102c, s.heap.heapEnd)) = some (some 100, 0x403000) := by
    decide +kernel
  obtain ⟨s, hs, hval⟩ := Option.map_eq_some_iff.mp hrun
  obtain ⟨hout, hend⟩ := Prod.mk.inj hval
  exact ⟨s, hs, hout, hend, safe_of_proper (.of_runIf (.start ⟨_, _, rfl⟩) hs)⟩

end HeapUse

end NullOS.Memory
