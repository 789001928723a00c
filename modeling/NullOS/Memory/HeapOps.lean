import NullOS.Memory.HeapBlocks

/-!
# Growing the list and giving blocks back

The two operations that change which blocks there are: `kmalloc` appends the new space at the
end of the list, and `kfree` lets a free block swallow the free block after it.
-/

namespace NullOS.Memory

open Lib

variable {m m' : Mem} {x y z w e n old new : Nat} {xs pre post : List Nat}

/-! ## A block swallows the next one -/

lemma header_absorb (hxw : w = 0 ∨ Apart w x)
    (hn : (header m x).size + (headerSize + n) < 0x100000000) (hw : w < 0x100000000)
    (hx : x < 0x100000000)
    (hm' : m' = Heap.setPrevOf (setField (setField m .size x
      ((header m x).size + (headerSize + n))) .next x w) w x) :
    header m' x = { header m x with size := (header m x).size + (headerSize + n), next := w } ∧
      (w ≠ 0 → header m' w = { header m w with prev := x }) ∧
      ∀ z, Apart x z → (w = 0 ∨ Apart w z) → header m' z = header m z := by
  refine ⟨?_, fun hw0 => ?_, fun z hxz hwz => ?_⟩
  · rw [hm', header_setPrevOf_of_apart hxw, header_setField_self hw, header_setField_self hn]
    rfl
  · have hxw' := (hxw.resolve_left hw0).symm
    rw [hm', header_setPrevOf_self hw0 hx, header_setField_of_apart hxw',
      header_setField_of_apart hxw']
  · rw [hm', header_setPrevOf_of_apart hwz, header_setField_of_apart hxz,
      header_setField_of_apart hxz]

lemma Blocks.absorb (h : Blocks m e (pre ++ x :: y :: post)) (he : e ≤ heapMax)
    (hm' : m' = Heap.setPrevOf (setField (setField m .size x
      ((header m x).size + (headerSize + (header m y).size))) .next x (post.headD 0))
        (post.headD 0) x) :
    Blocks m' e (pre ++ x :: post) ∧
      (∀ z ∈ pre ++ x :: post, (header m' z).magic = (header m z).magic ∧
        (z ≠ x → (header m' z).size = (header m z).size)) ∧
      (header m' x).size = (header m x).size + (headerSize + (header m y).size) ∧
      span m' (pre ++ x :: post) = span m (pre ++ x :: y :: post) ∧
      Within m m' heapStart e := by
  obtain ⟨hlpre, hlx, hlsx, hlxy, hly, hlsy, hlpost⟩ := Laid.middle_iff.mp h.laid
  have hb := h.bounds (x := x) (by simp)
  have hend := hlpost.le
  have hsorted : (pre ++ x :: post).Pairwise fun a b => a + headerSize ≤ b :=
    h.sorted.sublist (by simp)
  have hwb : post.headD 0 = 0 ∨ _ := h.head_bounds fun z hz => by simp [hz]
  have hxpost : x ∉ post := fun hmem => h.nodup.2 (List.mem_cons_of_mem _ hmem)
  simp only [heapMax] at he
  have hwlt : post.headD 0 < 0x100000000 := by
    rcases hwb with hw | hw <;> omega
  obtain ⟨hx', hw', hother⟩ := header_absorb (head_apart hsorted (.inr (.inl rfl))) (by
    simp only at hlxy hend
    omega) hwlt (by omega) hm'
  have hp : Patched m m' pre x post ((header m x).size + (headerSize + (header m y).size))
      (post.headD 0) x := by
    refine ⟨hx', fun w ws hpost => ?_, fun z hz => ?_⟩
    · rw [hpost, List.headD_cons] at hw'
      exact hw' (h.ne_zero (by simp [hpost]))
    · refine hother z ?_ (head_apart hsorted (hz.imp_right .inr))
      obtain ⟨-, hpost, hpre⟩ := List.pairwise_append.mp hsorted
      rcases hz with hz | hz
      · exact .inr (hpre z hz x (by simp))
      · exact .inl ((List.pairwise_cons.mp hpost).1 z (List.mem_of_mem_tail hz))
  have hnexty : (header m y).next = post.headD 0 :=
    (Dlseg.middle_iff.mp h.links).2.2.2.2.1
  have hspan : span m' (pre ++ x :: post) = span m (pre ++ x :: y :: post) := by
    obtain ⟨hpre, hpost⟩ := hp.spans hxpost
    rw [span_middle, span_middle, span_cons, hpre, hpost, hx']
    dsimp only
    omega
  refine ⟨⟨?_, Laid.middle_iff.mpr ⟨hlpre.congr fun z hz => ?_, hlx, ?_, ?_⟩, fun z hz => ?_⟩,
    fun z hz => hp.keep hz, by rw [hx'], hspan, ?_⟩
  · refine h.links.remove (fun z hz => ?_) ?_ (fun w ws hpost => ?_) fun w ws hpost z hz => ?_
    · simp only [hp.same z (.inl hz), and_self]
    · simp [hx', hnexty]
    · simp only [hp.head w ws hpost, and_self]
    · simp only [hp.same z (.inr (by simp [hpost, hz])), and_self]
  · rw [hp.same z (.inl hz)]
  · simp only [hx']
    simp only [headerSize] at hlsx hlsy ⊢
    omega
  · refine (hlpost.congr fun z hz => hp.size_post hxpost hz).mono ?_ le_rfl
    simp only [hx']
    simp only [headerSize] at hlxy ⊢
    omega
  · rw [(hp.keep hz).1]
    exact h.magic z (by grind)
  · rw [hm']
    exact ((within_setField hb.1 (by omega)).trans (within_setField hb.1 (by omega))).trans
      (within_setPrevOf hwb)

/-- The blocks after an operation on `xs`: those in use, but for `x`, still are, and no others;
together the blocks take up what they did. -/
structure Released (m m' : Mem) (e : Nat) (xs xs' : List Nat) (x : Nat) : Prop where
  blocks : Blocks m' e xs'
  head : xs'.headD 0 = xs.headD 0
  keeps : ∀ z, z ≠ x → InUse m xs z → InUse m' xs' z
  only : ∀ z, InUse m' xs' z → InUse m xs z
  span_eq : span m' xs' = span m xs
  within : Within m m' heapStart e

lemma Released.refl (h : Blocks m e xs) (x : Nat) : Released m m e xs xs x :=
  ⟨h, rfl, fun _ _ hu => hu, fun _ hu => hu, rfl, .refl _ _ _⟩

def SizesKept (m m' : Mem) (xs : List Nat) (x : Nat) : Prop :=
  ∀ z, z ≠ x → InUse m xs z → (header m' z).size = (header m z).size

lemma mergeNext_spec (h : Blocks m e (pre ++ x :: post)) (he : e ≤ heapMax) :
    ∃ post', Released m (Heap.mergeNext m x) e (pre ++ x :: post) (pre ++ x :: post') x ∧
      SizesKept m (Heap.mergeNext m x) (pre ++ x :: post) x ∧
      (header (Heap.mergeNext m x) x).magic = (header m x).magic ∧
      magics (Heap.mergeNext m x) pre = magics m pre ∧
      magics (Heap.mergeNext m x) post' = dropFree (magics m post) := by
  have hnext : getField m .next x = post.headD 0 := h.next_eq
  by_cases hfree : post.headD 0 ≠ 0 ∧ getField m .magic (post.headD 0) = magicFree
  · cases post with
    | nil => exact absurd rfl hfree.1
    | cons y post =>
      rw [List.headD_cons] at hfree hnext
      have hy : (header m y).next = post.headD 0 := (Dlseg.middle_iff.mp h.links).2.2.2.2.1
      have hxy : Apart x y := h.apart (by simp) (by simp) fun heq => h.nodup.2 (by simp [heq])
      have hnext' : ∀ w, getField (setField m .size x w) .next y = post.headD 0 := fun w =>
        (getField_setField_of_apart hxy).trans hy
      have hlt : post.headD 0 < 0x100000000 := hy ▸ getField_lt
      have hstay : ∀ z, InUse m (pre ++ x :: y :: post) z → z ∈ pre ++ x :: post := by
        intro z hu
        have hzy : z ≠ y := by
          rintro rfl
          exact absurd (hu.2.symm.trans hfree.2) (by decide)
        have := hu.1
        grind
      obtain ⟨hb, hkeep, -, hspan, hwithin⟩ := h.absorb he rfl
      have hback : ∀ z ∈ pre ++ x :: post, z ∈ pre ++ x :: y :: post := by
        intro z hz
        grind
      have hdrop : dropFree (magics m (y :: post)) = magics m post := if_pos hfree.2
      have hmerge : Heap.mergeNext m x = Heap.setPrevOf (setField (setField m .size x
          ((header m x).size + (headerSize + (header m y).size))) .next x (post.headD 0))
            (post.headD 0) x := by
        rw [Heap.mergeNext, hnext, if_pos hfree]
        dsimp only
        rw [hnext', getField_setField_self hlt]
        rfl
      rw [hmerge]
      refine ⟨post, ⟨?_, by cases pre <;> rfl, fun z hz hu => ?_, fun z hu => ?_, ?_, ?_⟩,
        fun z hz hu => ?_, ?_, ?_, ?_⟩
      · exact hb
      · exact ⟨hstay z hu, (hkeep z (hstay z hu)).1.trans hu.2⟩
      · exact ⟨hback z hu.1, (hkeep z hu.1).1.symm.trans hu.2⟩
      · exact hspan
      · exact hwithin
      · exact (hkeep z (hstay z hu)).2 hz
      · exact (hkeep x (by simp)).1
      · exact magics_congr fun z hz => (hkeep z (by simp [hz])).1
      · rw [hdrop]
        exact magics_congr fun z hz => (hkeep z (by simp [hz])).1
  · have hsame : Heap.mergeNext m x = m := by
      rw [Heap.mergeNext, hnext]
      exact if_neg hfree
    rw [hsame]
    refine ⟨post, .refl h x, fun _ _ _ => rfl, rfl, rfl, ?_⟩
    cases post with
    | nil => rfl
    | cons y post =>
      exact (if_neg fun hy => hfree ⟨h.ne_zero (by simp), hy⟩).symm

lemma mergePrev_eq_mergeNext {p : Nat} (h : Blocks m e (pre ++ p :: x :: post))
    (hp : (header m p).magic = magicFree) (hx : (header m x).magic = magicFree) :
    Heap.mergePrev m x = Heap.mergeNext m p := by
  have hlinks := Dlseg.middle_iff.mp h.links
  have hprev : getField m .prev x = p := hlinks.2.2.2.1
  have hnext : getField m .next p = x := hlinks.2.2.1
  have hpx : Apart p x := h.apart (by simp) (by simp) fun heq => h.nodup.2 (by simp [heq])
  rw [Heap.mergePrev, Heap.mergeNext, hprev, hnext, if_pos ⟨h.ne_zero (by simp), hp⟩,
    if_pos ⟨h.ne_zero (by simp), hx⟩]
  dsimp only
  rw [getField_setField_of_apart hpx, getField_setField_of_apart hpx,
    getField_setField_of_apart hpx, getField_setField_self getField_lt]

lemma mergePrev_spec (h : Blocks m e (pre ++ x :: post)) (he : e ≤ heapMax)
    (hx : (header m x).magic = magicFree) :
    ∃ xs', Released m (Heap.mergePrev m x) e (pre ++ x :: post) xs' x ∧
      SizesKept m (Heap.mergePrev m x) (pre ++ x :: post) x ∧
      (Settled (magics m pre) → Settled (magics m post) →
        (∀ mg ∈ (magics m post).head?, mg ≠ magicFree) →
        Settled (magics (Heap.mergePrev m x) xs')) := by
  have hprev : getField m .prev x = pre.getLastD 0 := h.prev_eq
  have hmgs : magics m (pre ++ x :: post) = magics m pre ++ magicFree :: magics m post := by
    rw [magics, List.map_append, List.map_cons, hx]
    rfl
  rcases List.eq_nil_or_concat pre with rfl | ⟨pre, p, rfl⟩
  · have hsame : Heap.mergePrev m x = m := by
      rw [Heap.mergePrev, hprev]
      exact if_neg fun hc => hc.1 rfl
    rw [hsame]
    refine ⟨_, .refl h x, fun _ _ _ => rfl, fun hpre hpost hhead => ?_⟩
    rw [hmgs]
    exact settled_free_middle hpre hpost (by simp [magics]) hhead
  · rw [List.concat_eq_append] at hmgs hprev ⊢
    rw [List.concat_eq_append, List.append_assoc, List.singleton_append] at h
    by_cases hp : (header m p).magic = magicFree
    · rw [mergePrev_eq_mergeNext h hp hx, List.append_assoc, List.singleton_append]
      obtain ⟨post', hrel, hsz, hmg, hmpre, hmpost⟩ := mergeNext_spec h he
      have hzp : ∀ z, InUse m (pre ++ p :: x :: post) z → z ≠ p := by
        rintro z hu rfl
        exact absurd (hu.2.symm.trans hp) (by decide)
      refine ⟨_, ⟨hrel.blocks, hrel.head, fun z _ hu => hrel.keeps z (hzp z hu) hu, hrel.only,
        hrel.span_eq, hrel.within⟩,
        fun z _ hu => hsz z (hzp z hu) hu, fun hpre hpost hhead => ?_⟩
      have hdrop : dropFree (magics m (x :: post)) = magics m post := if_pos hx
      simp only [magics, List.map_append, List.map_cons, List.map_nil, hp] at hpre hmpre hmpost ⊢
      rw [hmpre, hmg, hp, hmpost]
      exact hdrop ▸ settled_free_middle hpre.sides.1 hpost hpre.used_of_free.2.2.1 hhead
    · have hsame : Heap.mergePrev m x = m := by
        have hlast : (pre ++ [p]).getLastD 0 = p := by simp
        rw [Heap.mergePrev, hprev, hlast]
        exact if_neg fun hc => hp hc.2
      rw [hsame]
      refine ⟨_, .refl (by simpa using h) x, fun _ _ _ => rfl, fun hpre hpost hhead => ?_⟩
      rw [hmgs]
      exact settled_free_middle hpre hpost (by simpa [magics] using hp) hhead

/-- **`kfree` gives one block back**, and every other one that is in use stays so. -/
lemma kfree_spec {s : Heap} (h : Blocks s.phys.mem s.heapEnd xs) (he : s.heapEnd ≤ heapMax)
    (hx : InUse s.phys.mem xs x) :
    ∃ m' xs', s.kfree (x + headerSize) = s.withMem m' ∧
      Released s.phys.mem m' s.heapEnd xs xs' x ∧ SizesKept s.phys.mem m' xs x ∧
      (Settled (magics s.phys.mem xs) → Settled (magics m' xs')) ∧ ¬ InUse m' xs' x := by
  obtain ⟨pre, post, rfl⟩ := List.append_of_mem hx.1
  obtain ⟨hb₁, hself, hother, hw₁⟩ := h.mark hx.1 (.inl rfl)
  obtain ⟨post', hrel₂, hsz₂, hmg₂, hpre₂, hpost₂⟩ := mergeNext_spec hb₁ he
  obtain ⟨xs', hrel₃, hsz₃, hset₃⟩ := mergePrev_spec hrel₂.blocks he (by rw [hmg₂, hself])
  have huse₁ : ∀ z, z ≠ x → InUse s.phys.mem (pre ++ x :: post) z →
      InUse (setField s.phys.mem .magic x magicFree) (pre ++ x :: post) z := by
    intro z hz hu
    rw [InUse, hother z hu.1 hz]
    exact hu
  have honly : ∀ z, InUse (Heap.mergePrev
      (Heap.mergeNext (setField s.phys.mem .magic x magicFree) x) x) xs' z →
      z ≠ x ∧ InUse s.phys.mem (pre ++ x :: post) z := by
    intro z hu
    have hu₁ := hrel₂.only z (hrel₃.only z hu)
    have hzx : z ≠ x := by
      rintro rfl
      rw [InUse, hself] at hu₁
      exact absurd hu₁.2 (by decide : magicFree ≠ magicUsed)
    rw [InUse, hother z hu₁.1 hzx] at hu₁
    exact ⟨hzx, hu₁⟩
  have hspan₁ : span (setField s.phys.mem .magic x magicFree) (pre ++ x :: post) =
      span s.phys.mem (pre ++ x :: post) := by
    refine span_congr fun z hz => ?_
    by_cases hzx : z = x
    · rw [hzx, hself]
    · rw [hother z hz hzx]
  refine ⟨_, xs', ?_, ⟨hrel₃.blocks, hrel₃.head.trans hrel₂.head, fun z hz hu => ?_,
    fun z hu => (honly z hu).2, (hrel₃.span_eq.trans hrel₂.span_eq).trans hspan₁,
    (hw₁.trans hrel₂.within).trans hrel₃.within⟩, fun z hz hu => ?_, fun hset => ?_,
    fun hu => (honly x hu).1 rfl⟩
  · have hhdr : x + headerSize - headerSize = x := Nat.add_sub_cancel _ _
    have hptr : ¬ x + headerSize = 0 := by
      simp only [headerSize]
      omega
    rw [Heap.kfree, if_neg hptr, hhdr]
    exact if_neg (not_not.mpr hx.2)
  · exact hrel₃.keeps z hz (hrel₂.keeps z hz (huse₁ z hz hu))
  · have hu₁ := huse₁ z hz hu
    rw [hsz₃ z hz (hrel₂.keeps z hz hu₁), hsz₂ z hz hu₁, hother z hu.1 hz]
  · rw [magics, List.map_append, List.map_cons] at hset
    have hmpre : magics (setField s.phys.mem .magic x magicFree) pre = magics s.phys.mem pre :=
      magics_congr fun z hz => by
        rw [hother z (by simp [hz]) fun heq => h.nodup.1 (heq ▸ hz)]
    have hmpost : magics (setField s.phys.mem .magic x magicFree) post = magics s.phys.mem post :=
      magics_congr fun z hz => by
        rw [hother z (by simp [hz]) fun heq => h.nodup.2 (heq ▸ hz)]
    obtain ⟨hsa, hsb⟩ := hset.sides
    rw [hmpre] at hpre₂
    rw [hmpost] at hpost₂
    rw [hpre₂, hpost₂] at hset₃
    exact hset₃ hsa hsb.dropFree.1 hsb.dropFree.2

/-! ## The heap grows -/

lemma Blocks.writeNew (h : Blocks m old xs) (hn : n < 0x100000000)
    (hm' : m' = Heap.writeHeader m old magicFree n 0 0) :
    Blocks m' old xs ∧ header m' old = ⟨magicFree, n, 0, 0⟩ ∧
      ∀ z ∈ xs, header m' z = header m z := by
  have hsame : ∀ z ∈ xs, header m' z = header m z := by
    intro z hz
    have := (h.bounds hz).2.1
    rw [hm', header_writeHeader_of_apart (.inr (by omega))]
  refine ⟨h.congr hsame, ?_, hsame⟩
  rw [hm']
  exact header_writeHeader_self (by decide) hn (by decide) (by decide)

lemma Blocks.link {t : Nat} (h : Blocks m old (pre ++ [t])) (hold : old % 4 = 0) (hn4 : n % 4 = 0)
    (hnew : header m old = ⟨magicFree, n, 0, 0⟩) (hle : old + headerSize + n ≤ new)
    (hmax : new ≤ heapMax)
    (hm' : m' = setField (setField m .next t old) .prev old t) :
    Blocks m' new (pre ++ t :: [old]) ∧ header m' old = ⟨magicFree, n, 0, t⟩ ∧
      header m' t = { header m t with next := old } ∧ ∀ z ∈ pre, header m' z = header m z := by
  have ht := h.bounds (x := t) (by simp)
  have hsorted := (List.pairwise_append.mp h.sorted).2.2
  have hto : Apart t old := .inl (by omega)
  simp only [heapMax] at hmax
  have ho : header m' old = ⟨magicFree, n, 0, t⟩ := by
    rw [hm', header_setField_self (by omega), header_setField_of_apart hto, hnew]
    rfl
  have ht' : header m' t = { header m t with next := old } := by
    rw [hm', header_setField_of_apart hto.symm, header_setField_self (by omega)]
    rfl
  have hpre : ∀ z ∈ pre, header m' z = header m z := by
    intro z hz
    have hzt := hsorted z hz t (by simp)
    rw [hm', header_setField_of_apart (.inr (by omega)), header_setField_of_apart (.inr hzt)]
  obtain ⟨hlpre, hlt, hls, hlend⟩ := Laid.middle_iff.mp h.laid
  refine ⟨⟨?_, Laid.middle_iff.mpr ⟨hlpre.congr fun z hz => ?_, hlt, ?_, ?_⟩, fun z hz => ?_⟩, ho,
    ht', hpre⟩
  · refine h.links.insert (fun z hz => ?_) ?_ ?_ (by simp) (by simp)
    · simp only [hpre z hz, and_self]
    · simp [ht']
    · simp [ho, h.next_eq]
  · rw [hpre z hz]
  · rw [ht']
    exact hls
  · refine ⟨?_, hold, ?_, ?_⟩
    · rw [ht']
      exact hlend.le
    · simp only [ho]
      exact hn4
    · simp only [ho]
      exact hle
  · rcases List.mem_append.mp hz with hz | hz
    · rw [hpre z hz]
      exact h.magic z (by simp [hz])
    · rcases List.mem_cons.mp hz with rfl | hz
      · rw [ht']
        exact h.magic z (by simp)
      · rw [List.mem_singleton.mp hz, ho]
        exact .inl rfl

/-- The blocks after the heap has grown from `old` to `e`: those in use still are, and no others,
and a free one holds what is new. -/
structure Grown (m m' : Mem) (old e : Nat) (xs xs' : List Nat) : Prop where
  blocks : Blocks m' e xs'
  keeps : Keeps m m' xs xs'
  settled : Settled (magics m xs) → Settled (magics m' xs')
  within : Within m m' heapStart e
  only : ∀ z, InUse m' xs' z → InUse m xs z
  span_eq : span m' xs' = span m xs + (e - old)
  room : ∃ z ∈ xs', (header m' z).magic = magicFree ∧ e - old - headerSize ≤ (header m' z).size

lemma grown_first (hold : old % 4 = 0) (hold' : heapStart ≤ old) (hn4 : n % 4 = 0)
    (hsum : old + headerSize + n = e) (hnew : header m' old = ⟨magicFree, n, 0, 0⟩)
    (hw : Within m m' heapStart e) : Grown m m' old e [] [old] := by
  refine ⟨⟨?_, ⟨hold', hold, ?_, ?_⟩, ?_⟩, ?_, fun _ => .singleton _, hw, fun z hu => ?_, ?_, old,
    by simp, by rw [hnew], ?_⟩
  · simp [Dlseg, hnew]
  · simp only [hnew]
    exact hn4
  · simp only [hnew]
    exact hsum.le
  · simp [hnew]
  · rintro z ⟨hz, -⟩
    simp at hz
  · have hfree := hu.2
    rw [List.mem_singleton.mp hu.1, hnew] at hfree
    exact absurd hfree (by decide : magicFree ≠ magicUsed)
  · rw [span_cons, hnew]
    simp only [span, List.map_nil, List.sum_nil]
    omega
  · simp only [hnew]
    omega

section Linked

variable {t : Nat} (hb : Blocks m' e (pre ++ t :: [old]))
  (hnew : header m' old = ⟨magicFree, n, 0, t⟩)
  (hkeep : ∀ z ∈ pre ++ [t], (header m' z).magic = (header m z).magic ∧
    (header m' z).size = (header m z).size)
  (hsum : old + headerSize + n = e) (hw : Within m m' heapStart e)

include hnew hkeep hsum in
lemma span_linked : span m' (pre ++ t :: [old]) = span m (pre ++ [t]) + (e - old) := by
  have hkept : span m' (pre ++ [t]) = span m (pre ++ [t]) :=
    span_congr fun z hz => (hkeep z hz).2
  rw [span_middle] at hkept ⊢
  rw [span_cons, hnew]
  simp only [span, List.map_nil, List.sum_nil] at hkept ⊢
  omega

include hb hnew hkeep hsum hw

lemma grown_linked (hused : (header m' t).magic ≠ magicFree) :
    Grown m m' old e (pre ++ [t]) (pre ++ t :: [old]) := by
  refine ⟨hb, fun z hu => ⟨⟨?_, (hkeep z hu.1).1.trans hu.2⟩, (hkeep z hu.1).2⟩, fun hset => ?_, hw,
    fun z hu => ?_, span_linked hnew hkeep hsum, old, by simp, by rw [hnew], ?_⟩
  · have := hu.1
    grind
  · have hmagics : magics m' (pre ++ [t]) = magics m (pre ++ [t]) :=
      magics_congr fun z hz => (hkeep z hz).1
    have happ : magics m' (pre ++ t :: [old]) = magics m' (pre ++ [t]) ++ [magicFree] := by
      simp [magics, hnew]
    have hlast : (magics m' (pre ++ [t])).getLast? = some (header m' t).magic := by
      simp [magics]
    rw [happ]
    refine settled_free_middle (hmagics ▸ hset) .nil ?_ (by simp)
    rw [hlast]
    simpa using hused
  · have hne : z ≠ old := by
      rintro rfl
      exact absurd (hu.2.symm.trans (congrArg Header.magic hnew))
        (by decide : magicUsed ≠ magicFree)
    have hz : z ∈ pre ++ [t] := by
      have := hu.1
      grind
    exact ⟨hz, (hkeep z hz).1.symm.trans hu.2⟩
  · simp only [hnew]
    omega

/-- The last block is free and swallows the new one. -/
lemma grown_absorbed {m₃ : Mem} (hmax : e ≤ heapMax) (hfree : (header m' t).magic = magicFree)
    (hm₃ : m₃ = Heap.setPrevOf (setField (setField m' .size t
      ((header m' t).size + (headerSize + (header m' old).size))) .next t 0) 0 t) :
    Grown m m₃ old e (pre ++ [t]) (pre ++ [t]) := by
  obtain ⟨hb₃, hkeep₃, hsize₃, hspan₃, hw₃⟩ := hb.absorb hmax hm₃
  have hmagic : ∀ z ∈ pre ++ [t], (header m₃ z).magic = (header m z).magic := fun z hz =>
    (hkeep₃ z hz).1.trans (hkeep z hz).1
  refine ⟨hb₃, fun z hu => ⟨⟨hu.1, (hmagic z hu.1).trans hu.2⟩, ?_⟩, fun hset => ?_, hw.trans hw₃,
    fun z hu => ⟨hu.1, (hmagic z hu.1).symm.trans hu.2⟩,
    hspan₃.trans (span_linked hnew hkeep hsum), t, by simp, ?_, ?_⟩
  · have hzt : z ≠ t := by
      rintro rfl
      exact absurd (((hkeep z hu.1).1.symm.trans hfree).symm.trans hu.2) (by decide)
    rw [(hkeep₃ z hu.1).2 hzt, (hkeep z hu.1).2]
  · rw [magics_congr hmagic]
    exact hset
  · rw [(hkeep₃ t (by simp)).1]
    exact hfree
  · have hsize : (header m' old).size = n := congrArg Header.size hnew
    omega

end Linked

/-- **The new space becomes a block**: one of its own, or part of the last one if that is
free. -/
lemma appendBlock_spec {s : Heap} (h : Blocks s.phys.mem old xs) (hstart : s.startPtr = xs.headD 0)
    (hold : old % 4 = 0) (hold' : heapStart ≤ old) (he4 : s.heapEnd % 4 = 0)
    (hle : old + headerSize ≤ s.heapEnd) (hmax : s.heapEnd ≤ heapMax) :
    ∃ m' xs', s.appendBlock old = some { s.withMem m' with startPtr := xs'.headD 0 } ∧
      Grown s.phys.mem m' old s.heapEnd xs xs' := by
  obtain ⟨n, hn⟩ : ∃ n, s.heapEnd - old - headerSize = n := ⟨_, rfl⟩
  obtain ⟨m₁, hm₁⟩ : ∃ m₁, Heap.writeHeader s.phys.mem old magicFree n 0 0 = m₁ := ⟨_, rfl⟩
  have hsum : old + headerSize + n = s.heapEnd := by omega
  have hmax' := hmax
  have hsum' := hsum
  simp only [heapMax, headerSize] at hmax' hsum'
  obtain ⟨hb₁, hnew, hsame⟩ := h.writeNew (by omega) hm₁.symm
  have htail := tailOf_spec hb₁.links (fun _ hx => hb₁.ne_zero hx)
    (hb₁.length_lt (by simp only [heapMax]; omega))
  rw [Heap.appendBlock, hn, hm₁, hstart, htail, Option.map_some]
  have hw₁ : Within s.phys.mem m₁ heapStart s.heapEnd := hm₁ ▸ within_writeHeader hold' hle
  rcases List.eq_nil_or_concat xs with rfl | ⟨pre, t, rfl⟩
  · exact ⟨m₁, [old], rfl, grown_first hold hold' (by omega) hsum hnew hw₁⟩
  · rw [List.concat_eq_append] at h hb₁ hsame hstart ⊢
    have ht := hb₁.bounds (x := t) (by simp)
    have hlast : (pre ++ [t]).getLastD 0 = t := by simp
    obtain ⟨m₂, hm₂⟩ : ∃ m₂, setField (setField m₁ .next t old) .prev old t = m₂ := ⟨_, rfl⟩
    obtain ⟨hb₂, hold₂, ht₂, hpre₂⟩ := hb₁.link hold (by omega) hnew hsum.le hmax hm₂.symm
    have hw₂ : Within s.phys.mem m₂ heapStart s.heapEnd :=
      hw₁.trans (hm₂ ▸ (within_setField ht.1 (by omega)).trans (within_setField hold' hle))
    have hkeep₂ : ∀ z ∈ pre ++ [t], (header m₂ z).magic = (header s.phys.mem z).magic ∧
        (header m₂ z).size = (header s.phys.mem z).size := by
      intro z hz
      rw [← hsame z hz]
      rcases List.mem_append.mp hz with hz | hz
      · rw [hpre₂ z hz]
        exact ⟨rfl, rfl⟩
      · rw [List.mem_singleton.mp hz, ht₂]
        exact ⟨rfl, rfl⟩
    rw [hlast, if_neg (hb₁.ne_zero (by simp))]
    dsimp only
    rw [hm₂]
    by_cases hfree : getField m₂ .magic t = magicFree
    · refine ⟨_, pre ++ [t], ?_, grown_absorbed hb₂ hold₂ hkeep₂ hsum hw₂ hmax hfree rfl⟩
      rw [if_pos hfree, ← hstart]
      rfl
    · have hhead : (pre ++ [t]).headD 0 = (pre ++ t :: [old]).headD 0 := by cases pre <;> rfl
      refine ⟨m₂, pre ++ t :: [old], ?_, grown_linked hb₂ hold₂ hkeep₂ hsum hw₂ hfree⟩
      rw [if_neg hfree, ← hhead, ← hstart]
      rfl

end NullOS.Memory
