import NullOS.Memory.HeapSafety

/-!
# What the heap is made of

As long as every expansion succeeds completely, the blocks take up the whole heap, and there is one
free block when nothing is out.  An expansion that stops part way keeps the pages that it has got so
far, although `kmalloc` returns 0 and no block gets them.
-/

namespace NullOS.Memory

open Lib

variable {m : Mem} {xs : List Nat}

/-! ## The free bytes -/

def freeSum (m : Mem) (xs : List Nat) : Nat :=
  (xs.map fun x => if (header m x).magic = magicFree then (header m x).size else 0).sum

lemma freeBytesFrom_spec {p fuel free : Nat}
    (hl : Dlseg (fun x => (header m x).next) (fun x => (header m x).prev) p xs 0)
    (hz : ∀ x ∈ xs, x ≠ 0) (hfuel : xs.length < fuel) (hfree : free + freeSum m xs < 0x100000000) :
    Heap.freeBytesFrom m fuel (xs.headD 0) free = some (free + freeSum m xs) := by
  induction xs generalizing p fuel free with
  | nil =>
    obtain ⟨fuel, rfl⟩ := Nat.exists_eq_succ_of_ne_zero (by simp at hfuel; omega : fuel ≠ 0)
    rfl
  | cons x xs ih =>
    obtain ⟨fuel, rfl⟩ := Nat.exists_eq_succ_of_ne_zero (by simp at hfuel; omega : fuel ≠ 0)
    obtain ⟨-, hnext, hrest⟩ := hl
    have hnext' : getField m .next x = xs.headD 0 := hnext
    have hsum : freeSum m (x :: xs) =
        (if (header m x).magic = magicFree then (header m x).size else 0) + freeSum m xs := rfl
    rw [List.headD_cons, Heap.freeBytesFrom, if_neg (hz x (by simp)), hnext']
    have hacc : (if getField m .magic x = magicFree then (free + getField m .size x) % 0x100000000
        else free) = free + if (header m x).magic = magicFree then (header m x).size else 0 := by
      have hmagic : getField m .magic x = (header m x).magic := rfl
      have hsize : getField m .size x = (header m x).size := rfl
      rw [hmagic, hsize]
      split
      case isTrue hfree' =>
        rw [if_pos hfree'] at hsum
        exact Nat.mod_eq_of_lt (by omega)
      case isFalse => rfl
    rw [hacc, ih hrest (fun y hy => hz y (by simp [hy])) (by simpa using hfuel) (by omega), hsum,
      Nat.add_assoc]

lemma freeSum_le_span : freeSum m xs ≤ span m xs := by
  induction xs with
  | nil => exact le_rfl
  | cons x xs ih =>
    have hsum : freeSum m (x :: xs) =
        (if (header m x).magic = magicFree then (header m x).size else 0) + freeSum m xs := rfl
    rw [hsum, span_cons]
    split <;> omega

lemma le_span {x : Nat} (hx : x ∈ xs) : headerSize ≤ span m xs := by
  obtain ⟨pre, post, rfl⟩ := List.append_of_mem hx
  rw [span_middle]
  omega

/-! ## A heap without gaps -/

namespace HeapUse

variable {s t : HeapUse}

def FullyStarted (s : HeapUse) : Prop :=
  ∃ mem pmm, ((bootHeap mem pmm).heapExpand heapInitialSize).1 = true ∧
    s = { heap := (bootHeap mem pmm).heapInit, out := fun _ => none }

/-- If `kmalloc` has to expand the heap, that succeeds completely. -/
def Expands (s : HeapUse) : HeapCall → Prop
  | .kmalloc pmm size => size ≠ 0 → size ≤ heapMax - heapStart →
      Heap.search s.heap.phys.mem ((size + 3) / 4 * 4) Heap.listFuel s.heap.startPtr = .exhausted →
      ((s.withPmm pmm).heapExpand ((size + 3) / 4 * 4 + headerSize)).1 = true
  | _ => True

/-- The blocks take up the heap, and those in use are out. -/
structure Whole (s : HeapUse) (xs : List Nat) : Prop extends Inv s xs where
  pos : heapStart < s.heap.heapEnd
  only : ∀ x, InUse s.heap.phys.mem xs x → s.out (x + headerSize) ≠ none
  span_eq : heapStart + span s.heap.phys.mem xs = s.heap.heapEnd

lemma whole_started (h : FullyStarted s) : ∃ xs, Whole s xs := by
  obtain ⟨mem, pmm, hok, hs⟩ := h
  obtain ⟨xs, -, hform, hset, hinit⟩ := (bootHeap_form mem pmm).heapInit
  obtain ⟨heap, hheap⟩ : ∃ heap, (bootHeap mem pmm).heapInit = heap := ⟨_, rfl⟩
  rw [hheap] at hs hform hset hinit
  subst hs
  obtain ⟨rfl, hnone, hspan⟩ := hinit hok
  have hpos : headerSize ≤ span heap.phys.mem [heapStart] := le_span (List.mem_singleton_self _)
  simp only [headerSize] at hpos
  exact ⟨[heapStart], ⟨hform, hset .nil, by simp⟩, by dsimp only; omega,
    fun x hx => absurd hx (hnone x), hspan⟩

lemma Did.whole {a : HeapCall} {xs' : List Nat} (h : Did s xs a t xs') (hw : Whole s xs)
    (hexp : s.Expands a) : Whole t xs' := by
  have hi := h.inv hw.toInv
  have hspan := hw.span_eq
  cases h with
  | refused hno hout =>
    -- the size was not possible, for there was no expansion that failed
    rcases hno.cause with ⟨-, hheap⟩ | ⟨h0, hmax, hsearch, hfail⟩
    · have hmem : t.heap.phys.mem = s.heap.phys.mem := hno.mem_eq
      refine ⟨hi, ?_, ?_, ?_⟩
      · rw [hheap]
        exact hw.pos
      · rw [hout, hmem]
        exact hw.only
      · rw [hmem, hheap]
        exact hspan
    · have hok := hexp h0 hmax hsearch
      rw [hfail] at hok
      simp at hok
  | @handedOut pmm size x _ _ hnew hout =>
    have hgrown : span t.heap.phys.mem xs' + s.heap.heapEnd =
        span s.heap.phys.mem xs + t.heap.heapEnd := hnew.span_eq
    have hpos := le_span (m := t.heap.phys.mem) hnew.inUse.1
    simp only [headerSize] at hpos
    refine ⟨hi, by omega, fun z hz => ?_, by omega⟩
    · rw [hout]
      by_cases hzx : z = x
      · rw [hzx, Function.update_self]
        exact Option.some_ne_none _
      · rw [Function.update_of_ne fun heq => hzx (Nat.add_right_cancel heq)]
        exact hw.only z ((hnew.only z hz).resolve_left hzx)
  | null hheap hout =>
    refine ⟨hi, hheap ▸ hw.pos, fun z hz => ?_, hheap ▸ hspan⟩
    rw [hheap] at hz
    rw [hout, Function.update_of_ne (add_headerSize_ne_zero z)]
    exact hw.only z hz
  | givenBack hback hout =>
    refine ⟨hi, hback.end_eq ▸ hw.pos, fun z hz => ?_, ?_⟩
    · obtain ⟨hzx, hz⟩ := hback.only z hz
      rw [hout, Function.update_of_ne fun heq => hzx (Nat.add_right_cancel heq)]
      exact hw.only z hz
    · rw [hback.span_eq, hback.end_eq]
      exact hspan
  | filled hform hend hsame hout =>
    refine ⟨hi, hend ▸ hw.pos, fun z hz => ?_, ?_⟩
    · rw [hout]
      refine hw.only z ⟨hz.1, ?_⟩
      rw [← hsame z hz.1]
      exact hz.2
    · rw [hend, span_congr fun z hz => congrArg Header.size (hsame z hz)]
      exact hspan

lemma whole_of_reach (h : ReachIf step FullyStarted (fun s a => s.Proper a ∧ s.Expands a) s) :
    ∃ xs, Whole s xs := by
  refine h.invariant (I := fun s => ∃ xs, Whole s xs) (fun _ => whole_started) ?_
  rintro s a t ⟨xs, hw⟩ ⟨hok, hexp⟩ hs
  obtain ⟨xs', hdid⟩ := hw.toInv.did hok hs
  exact ⟨xs', hdid.whole hw hexp⟩

lemma settled_all_free {mgs : List Nat} (h : Settled mgs) (hfree : ∀ mg ∈ mgs, mg = magicFree) :
    mgs.length ≤ 1 := by
  match mgs, h with
  | [], _ => exact Nat.zero_le 1
  | [_], _ => exact le_rfl
  | a :: b :: mgs, h =>
    rcases (List.isChain_cons_cons.mp h).1 with ha | hb
    · exact absurd (hfree a (by simp)) ha
    · exact absurd (hfree b (by simp)) hb

lemma Whole.single (hw : Whole s xs) (hout : s.out = fun _ => none) :
    xs = [heapStart] ∧ (header s.heap.phys.mem heapStart).magic = magicFree ∧
      (header s.heap.phys.mem heapStart).size = s.heap.heapEnd - heapStart - headerSize := by
  have hfree : ∀ x ∈ xs, (header s.heap.phys.mem x).magic = magicFree := fun x hx =>
    (hw.form.blocks.magic x hx).resolve_right fun hused => hw.only x ⟨hx, hused⟩ (congrFun hout _)
  have hlen := settled_all_free hw.settled fun mg hmg => by
    obtain ⟨x, hx, rfl⟩ := List.mem_map.mp hmg
    exact hfree x hx
  rw [magics, List.length_map] at hlen
  have hspan := hw.span_eq
  obtain _ | ⟨x, _ | ⟨y, ys⟩⟩ := xs
  · have hpos := hw.pos
    simp only [span, List.map_nil, List.sum_nil] at hspan
    omega
  · have hb := hw.form.blocks.bounds (List.mem_singleton_self x)
    simp only [span, List.map_cons, List.map_nil, List.sum_singleton] at hspan
    obtain rfl : x = heapStart := by omega
    exact ⟨rfl, hfree _ (List.mem_singleton_self _), by omega⟩
  · simp at hlen

/-- **Freeing everything restores the whole heap.** -/
theorem whole_heap (h : ReachIf step FullyStarted (fun s a => s.Proper a ∧ s.Expands a) s) :
    ∃ xs, Dlseg (fun x => (header s.heap.phys.mem x).next)
        (fun x => (header s.heap.phys.mem x).prev) 0 xs 0 ∧
      s.heap.startPtr = xs.headD 0 ∧
      (xs.map fun x => (header s.heap.phys.mem x).size + headerSize).sum =
        s.heap.heapEnd - heapStart ∧
      (s.out = (fun _ => none) → xs = [heapStart] ∧
        (header s.heap.phys.mem heapStart).magic = magicFree ∧
        (header s.heap.phys.mem heapStart).size = s.heap.heapEnd - heapStart - headerSize ∧
        s.heap.heapFreeBytes = some (s.heap.heapEnd - heapStart - headerSize)) := by
  obtain ⟨xs, hw⟩ := whole_of_reach h
  have hblocks := hw.form.blocks
  have hmax := hw.form.mapped.le_max
  have hspan := hw.span_eq
  refine ⟨xs, hblocks.links, hw.form.start, ?_, fun hout => ?_⟩
  · have hsum : (xs.map fun x => (header s.heap.phys.mem x).size + headerSize).sum =
        span s.heap.phys.mem xs :=
      congrArg List.sum (List.map_congr_left fun x _ => Nat.add_comm _ _)
    omega
  · obtain ⟨rfl, hfree, hsize⟩ := hw.single hout
    refine ⟨rfl, hfree, hsize, ?_⟩
    have hle : freeSum s.heap.phys.mem [heapStart] ≤ _ := freeSum_le_span
    simp only [heapMax] at hmax
    rw [Heap.heapFreeBytes, hw.form.start, freeBytesFrom_spec hblocks.links
      (fun x hx => hblocks.ne_zero hx) (hblocks.length_lt hw.form.mapped.le_max) (by omega),
      Nat.zero_add, freeSum, List.map_singleton, List.sum_singleton, if_pos hfree, hsize]

instance (s : HeapUse) : DecidablePred s.Expands
  | .kmalloc _ _ => inferInstanceAs (Decidable (_ → _ → _ → _))
  | .kfree _ | .fill _ _ _ => isTrue trivial

def firstUse : HeapUse where
  heap := (bootHeap (fun _ => 0) (freeFrom 1024 1088)).heapInit
  out := fun _ => none

/-- Two blocks are handed out and given back, the first one first. -/
theorem whole_twoBlocks : ∃ s,
    runIf step (fun s a => s.Proper a ∧ s.Expands a) firstUse
      [.kmalloc (freeFrom 1088 1088) 10, .kmalloc (freeFrom 1088 1088) 100, .kfree 0x400010,
        .kfree 0x40002c] = some s ∧
      ∃ xs : List Nat, s.heap.startPtr = xs.headD 0 ∧
        (xs.map fun x => (header s.heap.phys.mem x).size + headerSize).sum =
          s.heap.heapEnd - heapStart := by
  have hrun : (runIf step (fun s a => s.Proper a ∧ s.Expands a) firstUse
      [.kmalloc (freeFrom 1088 1088) 10, .kmalloc (freeFrom 1088 1088) 100, .kfree 0x400010,
        .kfree 0x40002c]).isSome = true := by decide +kernel
  obtain ⟨s, hs⟩ := Option.isSome_iff_exists.mp hrun
  obtain ⟨xs, -, hstart, hsum, -⟩ := whole_heap (.of_runIf (.start ⟨fun _ => 0, freeFrom 1024 1088,
    by decide +kernel, rfl⟩) hs)
  exact ⟨s, hs, xs, hstart, hsum⟩

/-! ## A request that is refused -/

/-- **A failed `kmalloc` has changed nothing** exactly if the size was not possible or the page at
the end of the heap was not free. -/
theorem kmalloc_failed_iff {pmm : Pmm} {size : Nat} {u : Heap} (h : ReachIf step Started Proper s)
    (hno : (s.withPmm pmm).kmalloc size = some (0, u)) :
    u = s.withPmm pmm ↔
      size = 0 ∨ heapMax - heapStart < size ∨ ¬ (s.withPmm pmm).NextFree := by
  obtain ⟨xs, hi⟩ := inv_of_reach h
  obtain ⟨ptr, v, xs', heq, hcase⟩ := (hi.withPmm pmm).kmalloc 1 size
  have heq' : (s.withPmm pmm).kmalloc size = some (ptr, v) := heq
  obtain ⟨rfl, rfl⟩ : 0 = ptr ∧ u = v := Prod.ext_iff.mp (Option.some.inj (hno.symm.trans heq'))
  rcases hcase with ⟨-, -, hrefuses⟩ | ⟨x, h0, -⟩
  · rcases hrefuses.cause with ⟨hbad, hsame⟩ | ⟨hsize, hmax, -, hexpand⟩
    · exact iff_of_true hsame (hbad.imp_right .inl)
    · rw [expandPages_failed (hi.withPmm pmm).mapped hexpand]
      refine ⟨fun hfree => .inr (.inr hfree), fun hreason => ?_⟩
      rcases hreason with h0 | hlt | hfree
      · exact absurd h0 hsize
      · omega
      · exact hfree
  · exact absurd h0.symm (add_headerSize_ne_zero x)

/-- A request for which the heap would have to grow, when no frame is free. -/
theorem kmalloc_failed_full : ∃ u,
    (firstUse.withPmm (freeFrom 1088 1088)).kmalloc 0x40000 = some (0, u) ∧
      u = firstUse.withPmm (freeFrom 1088 1088) := by
  have hrun : ((firstUse.withPmm (freeFrom 1088 1088)).kmalloc 0x40000).map Prod.fst = some 0 := by
    decide +kernel
  obtain ⟨⟨ptr, u⟩, hu, rfl⟩ := Option.map_eq_some_iff.mp hrun
  have hused : ¬ (firstUse.withPmm (freeFrom 1088 1088)).NextFree := by decide +kernel
  exact ⟨u, hu, (kmalloc_failed_iff (.start ⟨_, _, rfl⟩) hu).mpr (.inr (.inr hused))⟩

/-- **A page is lost.**  One frame is free behind the heap; a request for which 65 are needed is
refused, and takes it. -/
theorem kmalloc_takes_page : ∃ u,
    Started firstUse ∧ (firstUse.withPmm (freeFrom 1088 1089)).kmalloc 0x40000 = some (0, u) ∧
    u.heapEnd = firstUse.heap.heapEnd + pageSize ∧
    (freeFrom 1088 1089).pmmFreePages = 1 ∧ u.phys.pmm.pmmFreePages = 0 := by
  have hrun : ((firstUse.withPmm (freeFrom 1088 1089)).kmalloc 0x40000).map
      (fun p => (p.1, p.2.heapEnd, p.2.phys.pmm.pmmFreePages)) = some (0, 0x441000, 0) := by
    decide +kernel
  have hend : firstUse.heap.heapEnd = 0x440000 := by decide +kernel
  obtain ⟨⟨ptr, u⟩, hu, hval⟩ := Option.map_eq_some_iff.mp hrun
  obtain ⟨rfl, hval⟩ := Prod.ext_iff.mp hval
  obtain ⟨hend', hfree⟩ := Prod.ext_iff.mp hval
  exact ⟨u, ⟨_, _, rfl⟩, hu, by rw [hend]; exact hend', by decide, hfree⟩

end HeapUse

end NullOS.Memory
