import Mathlib.Data.List.Chain
import NullOS.Memory.Heap
import NullOS.Lib.DList

/-!
# The blocks of the heap

The blocks form a doubly linked list in the order of their addresses, each with its header and
its bytes before the next one, all below `heap_end`.  Each operation on the list keeps that.
-/

namespace NullOS.Memory

open Lib

structure Header where
  magic : Nat
  size : Nat
  next : Nat
  prev : Nat

def header (m : Mem) (x : Nat) : Header :=
  ⟨getField m .magic x, getField m .size x, getField m .next x, getField m .prev x⟩

def Header.put (h : Header) (w : Nat) : Field → Header
  | .magic => { h with magic := w }
  | .size => { h with size := w }
  | .next => { h with next := w }
  | .prev => { h with prev := w }

/-- Blocks of sizes `sz` at the addresses `xs`, one after the other between `lo` and `hi`. -/
def Laid (sz : Nat → Nat) : Nat → List Nat → Nat → Prop
  | lo, [], hi => lo ≤ hi
  | lo, x :: xs, hi => lo ≤ x ∧ x % 4 = 0 ∧ sz x % 4 = 0 ∧ Laid sz (x + headerSize + sz x) xs hi

/-- The blocks at `xs` are linked in this order and laid out between 4 MB and `e`. -/
structure Blocks (m : Mem) (e : Nat) (xs : List Nat) : Prop where
  links : Dlseg (fun x => (header m x).next) (fun x => (header m x).prev) 0 xs 0
  laid : Laid (fun x => (header m x).size) heapStart xs e
  magic : ∀ x ∈ xs, (header m x).magic = magicFree ∨ (header m x).magic = magicUsed

def InUse (m : Mem) (xs : List Nat) (x : Nat) : Prop := x ∈ xs ∧ (header m x).magic = magicUsed

/-- Blocks in use stay in use, with their size. -/
def Keeps (m m' : Mem) (xs xs' : List Nat) : Prop :=
  ∀ z, InUse m xs z → InUse m' xs' z ∧ (header m' z).size = (header m z).size

def magics (m : Mem) (xs : List Nat) : List Nat := xs.map fun x => (header m x).magic

/-- The memory that the blocks take up with their headers. -/
def span (m : Mem) (xs : List Nat) : Nat := (xs.map fun x => headerSize + (header m x).size).sum

/-- No two neighbours are free. -/
def Settled (mgs : List Nat) : Prop := mgs.IsChain fun a b => a ≠ magicFree ∨ b ≠ magicFree

variable {m m' : Mem} {f : Field} {sz sz' : Nat → Nat} {x y z w lo lo' hi hi' e n : Nat}
  {xs xs' pre post : List Nat}

lemma Keeps.trans {m'' : Mem} {xs'' : List Nat} (h : Keeps m m' xs xs')
    (h' : Keeps m' m'' xs' xs'') : Keeps m m'' xs xs'' := fun z hu =>
  ⟨(h' z (h z hu).1).1, (h' z (h z hu).1).2.trans (h z hu).2⟩

lemma span_middle : span m (pre ++ x :: post) =
    span m pre + (headerSize + (header m x).size) + span m post := by
  rw [span, List.map_append, List.sum_append, List.map_cons, List.sum_cons, ← Nat.add_assoc]
  rfl

lemma span_cons : span m (x :: xs) = headerSize + (header m x).size + span m xs := rfl

lemma span_congr (h : ∀ x ∈ xs, (header m' x).size = (header m x).size) : span m' xs = span m xs :=
  congrArg List.sum (List.map_congr_left fun x hx => by rw [h x hx])

lemma magics_congr (h : ∀ x ∈ xs, (header m' x).magic = (header m x).magic) :
    magics m' xs = magics m xs :=
  List.map_congr_left h

/-! ## Layout -/

namespace Laid

lemma le (h : Laid sz lo xs hi) : lo ≤ hi := by
  induction xs generalizing lo with
  | nil => exact h
  | cons x xs ih =>
    have := ih h.2.2.2
    have := h.1
    omega

lemma mono (h : Laid sz lo xs hi) (hlo : lo' ≤ lo) (hhi : hi ≤ hi') : Laid sz lo' xs hi' := by
  induction xs generalizing lo lo' with
  | nil => exact le_trans hlo (le_trans h hhi)
  | cons x xs ih => exact ⟨le_trans hlo h.1, h.2.1, h.2.2.1, ih h.2.2.2 le_rfl⟩

lemma congr (h : Laid sz lo xs hi) (hsz : ∀ x ∈ xs, sz' x = sz x) : Laid sz' lo xs hi := by
  induction xs generalizing lo with
  | nil => exact h
  | cons x xs ih =>
    obtain ⟨hlo, hx, hs, hrest⟩ := h
    have hx' := hsz x (by simp)
    refine ⟨hlo, hx, by rw [hx']; exact hs, ?_⟩
    rw [hx']
    exact ih hrest fun y hy => hsz y (List.mem_cons_of_mem _ hy)

lemma middle_iff :
    Laid sz lo (pre ++ x :: post) hi ↔
      Laid sz lo pre x ∧ x % 4 = 0 ∧ sz x % 4 = 0 ∧ Laid sz (x + headerSize + sz x) post hi := by
  induction pre generalizing lo with
  | nil => rfl
  | cons y pre ih =>
    rw [List.cons_append, Laid, Laid, ih]
    constructor
    · rintro ⟨h1, h2, h3, h4, h5⟩
      exact ⟨⟨h1, h2, h3, h4⟩, h5⟩
    · rintro ⟨⟨h1, h2, h3, h4⟩, h5⟩
      exact ⟨h1, h2, h3, h4, h5⟩

lemma bounds (h : Laid sz lo xs hi) (hx : x ∈ xs) :
    lo ≤ x ∧ x + headerSize + sz x ≤ hi ∧ x % 4 = 0 ∧ sz x % 4 = 0 := by
  obtain ⟨pre, post, rfl⟩ := List.append_of_mem hx
  obtain ⟨hpre, hal, hs, hpost⟩ := middle_iff.mp h
  exact ⟨hpre.le, hpost.le, hal, hs⟩

lemma apart (h : Laid sz lo xs hi) (hx : x ∈ xs) (hy : y ∈ xs) (hne : x ≠ y) :
    x + headerSize + sz x ≤ y ∨ y + headerSize + sz y ≤ x := by
  obtain ⟨pre, post, rfl⟩ := List.append_of_mem hx
  obtain ⟨hpre, -, -, hpost⟩ := middle_iff.mp h
  rcases List.mem_append.mp hy with hy | hy
  · exact .inr (hpre.bounds hy).2.1
  · rcases List.mem_cons.mp hy with rfl | hy
    · exact absurd rfl hne
    · exact .inl (hpost.bounds hy).1

lemma length_le (h : Laid sz lo xs hi) : lo + headerSize * xs.length ≤ hi := by
  induction xs generalizing lo with
  | nil => simpa using h.le
  | cons x xs ih =>
    have := ih h.2.2.2
    have := h.1
    simp only [headerSize, List.length_cons] at *
    omega

end Laid

/-! ## Headers -/

lemma header_congr (hm : ∀ a, x ≤ a → a < x + headerSize → m' a = m a) :
    header m' x = header m x := by
  have hfield : ∀ f, getField m' f x = getField m f x := by
    intro f
    refine Mem.load32_congr fun j hj => hm _ (by omega) ?_
    simp only [headerSize]
    cases f <;> simp only [Field.offset] <;> omega
  simp only [header, hfield]

lemma header_setField_self (hw : w < 0x100000000) :
    header (setField m f x w) x = (header m x).put w f := by
  cases f
  all_goals
    simp only [header, Header.put, getField_setField_self hw]
    simp [getField_setField_of_ne]

lemma header_setField_of_apart (h : x + headerSize ≤ y ∨ y + headerSize ≤ x) :
    header (setField m f x w) y = header m y := by
  simp only [header, getField_setField_of_apart h]

lemma header_setPrevOf_of_apart (h : x = 0 ∨ x + headerSize ≤ y ∨ y + headerSize ≤ x) :
    header (Heap.setPrevOf m x w) y = header m y := by
  rw [Heap.setPrevOf]
  split
  case isTrue => rfl
  case isFalse hx => exact header_setField_of_apart (h.resolve_left hx)

lemma header_setPrevOf_self (hx : x ≠ 0) (hw : w < 0x100000000) :
    header (Heap.setPrevOf m x w) x = { header m x with prev := w } := by
  rw [Heap.setPrevOf, if_neg hx, header_setField_self hw]
  rfl

lemma header_writeHeader_self {mg s nx pv : Nat} (hmg : mg < 0x100000000) (hs : s < 0x100000000)
    (hnx : nx < 0x100000000) (hpv : pv < 0x100000000) :
    header (Heap.writeHeader m x mg s nx pv) x = ⟨mg, s, nx, pv⟩ := by
  rw [Heap.writeHeader, header_setField_self hpv, header_setField_self hnx,
    header_setField_self hs, header_setField_self hmg]
  rfl

lemma header_writeHeader_of_apart {mg s nx pv : Nat}
    (h : x + headerSize ≤ y ∨ y + headerSize ≤ x) :
    header (Heap.writeHeader m x mg s nx pv) y = header m y := by
  simp only [Heap.writeHeader, header_setField_of_apart h]

/-- Only the memory between `lo` and `hi` changes. -/
def Within (m m' : Mem) (lo hi : Nat) : Prop := ∀ a, a < lo ∨ hi ≤ a → m' a = m a

lemma Within.refl (m : Mem) (lo hi : Nat) : Within m m lo hi := fun _ _ => rfl

lemma Within.trans {m'' : Mem} (h : Within m m' lo hi) (h' : Within m' m'' lo hi) :
    Within m m'' lo hi := fun a ha => (h' a ha).trans (h a ha)

lemma within_setField (hlo : lo ≤ x) (hhi : x + headerSize ≤ hi) :
    Within m (setField m f x w) lo hi := fun _ ha => setField_of_not_mem (by omega)

lemma within_setPrevOf (h : x = 0 ∨ lo ≤ x ∧ x + headerSize ≤ hi) :
    Within m (Heap.setPrevOf m x w) lo hi := by
  rw [Heap.setPrevOf]
  split
  case isTrue => exact .refl _ _ _
  case isFalse hx => exact within_setField (h.resolve_left hx).1 (h.resolve_left hx).2

lemma within_writeHeader {mg s nx pv : Nat} (hlo : lo ≤ x) (hhi : x + headerSize ≤ hi) :
    Within m (Heap.writeHeader m x mg s nx pv) lo hi :=
  ((within_setField hlo hhi).trans (within_setField hlo hhi)).trans
    ((within_setField hlo hhi).trans (within_setField hlo hhi))

/-! ## The list -/

namespace Blocks

lemma congr (h : Blocks m e xs) (hs : ∀ x ∈ xs, header m' x = header m x) : Blocks m' e xs := by
  refine ⟨h.links.congr fun z hz => ?_, h.laid.congr fun z hz => ?_, fun z hz => ?_⟩
  · simp only [hs z hz, and_self]
  · rw [hs z hz]
  · rw [hs z hz]
    exact h.magic z hz

lemma mono (h : Blocks m e xs) (he : e ≤ n) : Blocks m n xs :=
  ⟨h.links, h.laid.mono le_rfl he, h.magic⟩

lemma bounds (h : Blocks m e xs) (hx : x ∈ xs) :
    heapStart ≤ x ∧ x + headerSize + (header m x).size ≤ e ∧ x % 4 = 0 ∧
      (header m x).size % 4 = 0 :=
  h.laid.bounds hx

lemma ne_zero (h : Blocks m e xs) (hx : x ∈ xs) : x ≠ 0 := by
  have := (h.bounds hx).1
  simp only [heapStart] at this
  omega

lemma apart (h : Blocks m e xs) (hx : x ∈ xs) (hy : y ∈ xs) (hne : x ≠ y) :
    x + headerSize ≤ y ∨ y + headerSize ≤ x := by
  have := h.laid.apart hx hy hne
  omega

lemma next_eq (h : Blocks m e (pre ++ x :: post)) : (header m x).next = post.headD 0 :=
  (Dlseg.middle_iff.mp h.links).2.2.1

lemma prev_eq (h : Blocks m e (pre ++ x :: post)) : (header m x).prev = pre.getLastD 0 :=
  (Dlseg.middle_iff.mp h.links).2.1

lemma nodup (h : Blocks m e (pre ++ x :: post)) : x ∉ pre ∧ x ∉ post := by
  obtain ⟨hpre, -, -, hpost⟩ := Laid.middle_iff.mp h.laid
  constructor
  · intro hx
    have := (hpre.bounds hx).2.1
    simp only [headerSize] at this
    omega
  · intro hx
    have := (hpost.bounds hx).1
    simp only [headerSize] at this
    omega

lemma sorted (h : Blocks m e xs) : xs.Pairwise fun a b => a + headerSize ≤ b := by
  have hl := h.laid
  clear h
  generalize heapStart = lo at hl
  induction xs generalizing lo with
  | nil => exact .nil
  | cons x xs ih =>
    refine List.pairwise_cons.mpr ⟨fun y hy => ?_, ih _ hl.2.2.2⟩
    have := (hl.2.2.2.bounds hy).1
    omega

lemma mark (h : Blocks m e xs) (hx : x ∈ xs) {mg : Nat} (hmg : mg = magicFree ∨ mg = magicUsed) :
    let m' := setField m .magic x mg
    Blocks m' e xs ∧ header m' x = { header m x with magic := mg } ∧
      (∀ z ∈ xs, z ≠ x → header m' z = header m z) ∧ Within m m' heapStart e := by
  intro m'
  have hlt : mg < 0x100000000 := by
    rcases hmg with rfl | rfl <;> decide
  have hself : header m' x = { header m x with magic := mg } := header_setField_self hlt
  have hother : ∀ z ∈ xs, z ≠ x → header m' z = header m z := fun z hz hne =>
    header_setField_of_apart (h.apart hx hz (Ne.symm hne))
  have hlinks : ∀ z ∈ xs, (header m' z).next = (header m z).next ∧
      (header m' z).prev = (header m z).prev ∧ (header m' z).size = (header m z).size := by
    intro z hz
    by_cases hzx : z = x
    · rw [hzx, hself]
      exact ⟨rfl, rfl, rfl⟩
    · rw [hother z hz hzx]
      exact ⟨rfl, rfl, rfl⟩
  have hb := h.bounds hx
  refine ⟨⟨h.links.congr fun z hz => ⟨(hlinks z hz).1, (hlinks z hz).2.1⟩,
    h.laid.congr fun z hz => (hlinks z hz).2.2, fun z hz => ?_⟩, hself, hother,
    within_setField hb.1 (by omega)⟩
  by_cases hzx : z = x
  · rw [hzx, hself]
    exact hmg
  · rw [hother z hz hzx]
    exact h.magic z hz

lemma fill {j len : Nat} (h : Blocks m e xs) (hx : x ∈ xs) (hj : j + len ≤ (header m x).size)
    (src : Nat → UInt8) :
    Within m (m.blit (x + headerSize + j) len src) heapStart e ∧
      ∀ z ∈ xs, header (m.blit (x + headerSize + j) len src) z = header m z := by
  have hb := h.bounds hx
  refine ⟨fun a ha => Mem.blit_of_not_mem (by omega), fun z hz => ?_⟩
  refine header_congr fun a hlo hhi => Mem.blit_of_not_mem ?_
  by_cases hzx : z = x
  · omega
  · have := h.laid.apart hx hz (Ne.symm hzx)
    omega

end Blocks

/-! ## Neighbours -/

section Settled

variable {as bs bs' : List Nat} {mg : Nat}

lemma Settled.used_of_free (h : Settled (as ++ magicFree :: bs)) :
    Settled as ∧ Settled bs ∧ (∀ mg ∈ as.getLast?, mg ≠ magicFree) ∧
      ∀ mg ∈ bs.head?, mg ≠ magicFree := by
  obtain ⟨has, hbs, hlast⟩ := List.isChain_append.mp h
  refine ⟨has, hbs.tail, fun mg hmg => ?_, fun mg hmg => ?_⟩
  · exact (hlast mg hmg magicFree (by simp)).resolve_right (by simp)
  · cases bs with
    | nil => simp at hmg
    | cons b bs =>
      obtain rfl : b = mg := by simpa using hmg
      exact (List.isChain_cons_cons.mp hbs).1.resolve_left (by simp)

lemma Settled.sides (h : Settled (as ++ mg :: bs)) : Settled as ∧ Settled bs :=
  ⟨(List.isChain_append.mp h).1, (List.isChain_append.mp h).2.1.tail⟩

lemma settled_used_middle (has : Settled as) (hbs : Settled bs) :
    Settled (as ++ magicUsed :: bs) := by
  refine List.isChain_append.mpr ⟨has, ?_, fun a _ b hb => ?_⟩
  · cases bs with
    | nil => exact .singleton _
    | cons b bs => exact .cons_cons (.inl (by decide)) hbs
  · obtain rfl : magicUsed = b := by simpa using hb
    exact .inr (by decide)

lemma settled_free_middle (has : Settled as) (hbs : Settled bs)
    (hlast : ∀ mg ∈ as.getLast?, mg ≠ magicFree) (hhead : ∀ mg ∈ bs.head?, mg ≠ magicFree) :
    Settled (as ++ magicFree :: bs) := by
  refine List.isChain_append.mpr ⟨has, ?_, fun a ha _ _ => .inl (hlast a ha)⟩
  cases bs with
  | nil => exact .singleton _
  | cons b bs => exact .cons_cons (.inr (hhead b (by simp))) hbs

/-- What is left after a block has swallowed the free block that may come next. -/
def dropFree : List Nat → List Nat
  | [] => []
  | mg :: mgs => if mg = magicFree then mgs else mg :: mgs

lemma Settled.dropFree (h : Settled bs) :
    Settled (dropFree bs) ∧ ∀ mg ∈ (dropFree bs).head?, mg ≠ magicFree := by
  cases bs with
  | nil => exact ⟨.nil, by simp [Memory.dropFree]⟩
  | cons b bs =>
    rw [Memory.dropFree]
    split
    case isTrue hb =>
      subst hb
      exact ⟨h.tail, (show Settled ([] ++ magicFree :: bs) from h).used_of_free.2.2.2⟩
    case isFalse hb => exact ⟨h, by simpa using hb⟩

lemma Settled.take (h : Settled (as ++ magicFree :: bs)) (hbs : bs' = bs ∨ bs' = magicFree :: bs) :
    Settled (as ++ magicUsed :: bs') := by
  obtain ⟨has, hb, -, hhead⟩ := h.used_of_free
  refine settled_used_middle has ?_
  rcases hbs with rfl | rfl
  · exact hb
  · show Settled ([] ++ magicFree :: bs)
    exact settled_free_middle .nil hb (by simp) hhead

end Settled

/-! ## Handing out a block -/

/-- Two headers that do not overlap. -/
def Apart (x y : Nat) : Prop := x + headerSize ≤ y ∨ y + headerSize ≤ x

lemma Apart.symm (h : Apart x y) : Apart y x := Or.symm h

/-- The headers after a split: of the block, of the new block and of the block `w` after them,
and all others. -/
lemma header_split (hw : getField m .next x = w) (hxy : Apart x (x + headerSize + n))
    (hxw : w = 0 ∨ Apart w x) (hyw : w = 0 ∨ Apart w (x + headerSize + n))
    (hlt : x + headerSize + n < 0x100000000) (hlo : lo ≤ x)
    (hhi : x + headerSize + n + headerSize ≤ hi) (hwb : w = 0 ∨ lo ≤ w ∧ w + headerSize ≤ hi)
    (hm' : m' = Heap.split m x n) :
    header m' x = { header m x with size := n, next := x + headerSize + n } ∧
      header m' (x + headerSize + n) =
        ⟨magicFree, (header m x).size - n - headerSize, w, x⟩ ∧
      (w ≠ 0 → header m' w = { header m w with prev := x + headerSize + n }) ∧
      (∀ z, Apart x z → Apart (x + headerSize + n) z → (w = 0 ∨ Apart w z) →
        header m' z = header m z) ∧ Within m m' lo hi := by
  set y := x + headerSize + n
  set m₁ := Heap.writeHeader m y magicFree (getField m .size x - n - headerSize) w x with hm₁
  have hx₁ : header m₁ x = header m x := header_writeHeader_of_apart hxy.symm
  have hnext : getField m₁ .next x = w := (congrArg Header.next hx₁).trans hw
  replace hm' : m' = setField (setField (Heap.setPrevOf m₁ w y) .next x y) .size x n := by
    rw [hm', Heap.split, hw, ← hm₁, hnext]
  have hsize : (header m x).size < 0x100000000 := getField_lt
  have hwlt : w < 0x100000000 := by rw [← hw]; exact getField_lt
  refine ⟨?_, ?_, fun hw0 => ?_, fun z hxz hyz hwz => ?_, ?_⟩
  · rw [hm', header_setField_self (by omega), header_setField_self (by omega),
      header_setPrevOf_of_apart hxw, hx₁]
    rfl
  · rw [hm', header_setField_of_apart hxy, header_setField_of_apart hxy,
      header_setPrevOf_of_apart hyw, hm₁]
    exact header_writeHeader_self (by decide) (by simp only [header] at hsize; omega) hwlt
      (by omega)
  · have hxw' := (hxw.resolve_left hw0).symm
    have hyw' := (hyw.resolve_left hw0).symm
    rw [hm', header_setField_of_apart hxw', header_setField_of_apart hxw',
      header_setPrevOf_self hw0 (by omega), hm₁, header_writeHeader_of_apart hyw']
  · rw [hm', header_setField_of_apart hxz, header_setField_of_apart hxz,
      header_setPrevOf_of_apart hwz, hm₁, header_writeHeader_of_apart hyz]
  · rw [hm', hm₁]
    exact ((within_writeHeader (by omega) (by omega)).trans (within_setPrevOf hwb)).trans
      ((within_setField hlo (by omega)).trans (within_setField hlo (by omega)))

lemma head_apart (h : (pre ++ x :: post).Pairwise fun a b => a + headerSize ≤ b)
    (hz : z ∈ pre ∨ z = x ∨ z ∈ post.tail) : post.headD 0 = 0 ∨ Apart (post.headD 0) z := by
  cases post with
  | nil => exact .inl rfl
  | cons w ws =>
    obtain ⟨-, hpost, hpre⟩ := List.pairwise_append.mp h
    obtain ⟨hx, hw⟩ := List.pairwise_cons.mp hpost
    right
    rcases hz with hz | rfl | hz
    · exact .inr (hpre z hz w (by simp))
    · exact .inr (hx w (by simp))
    · exact .inl ((List.pairwise_cons.mp hw).1 z hz)

lemma Blocks.head_bounds (h : Blocks m e xs) (hsub : ∀ z ∈ post, z ∈ xs) :
    post.headD 0 = 0 ∨ heapStart ≤ post.headD 0 ∧ post.headD 0 + headerSize ≤ e := by
  cases post with
  | nil => exact .inl rfl
  | cons w ws =>
    have := h.bounds (hsub w (by simp))
    rw [List.headD_cons]
    exact .inr ⟨this.1, by omega⟩

/-- The headers after a change between the block `x` and the blocks `post`: `x` has another size and
another successor, and the first block of `post` has the predecessor `p`. -/
structure Patched (m m' : Mem) (pre : List Nat) (x : Nat) (post : List Nat) (n nx p : Nat) :
    Prop where
  self : header m' x = { header m x with size := n, next := nx }
  head : ∀ w ws, post = w :: ws → header m' w = { header m w with prev := p }
  same : ∀ z, z ∈ pre ∨ z ∈ post.tail → header m' z = header m z

section Patched

variable {nx p : Nat}

lemma Patched.keep (h : Patched m m' pre x post n nx p) (hz : z ∈ pre ++ x :: post) :
    (header m' z).magic = (header m z).magic ∧
      (z ≠ x → (header m' z).size = (header m z).size) := by
  rcases List.mem_append.mp hz with hz | hz
  · rw [h.same z (.inl hz)]
    exact ⟨rfl, fun _ => rfl⟩
  · rcases List.mem_cons.mp hz with rfl | hz
    · rw [h.self]
      exact ⟨rfl, fun hne => absurd rfl hne⟩
    · cases post with
      | nil => simp at hz
      | cons w ws =>
        rcases List.mem_cons.mp hz with rfl | hz
        · rw [h.head z ws rfl]
          exact ⟨rfl, fun _ => rfl⟩
        · rw [h.same z (.inr hz)]
          exact ⟨rfl, fun _ => rfl⟩

lemma Patched.size_post (h : Patched m m' pre x post n nx p) (hx : x ∉ post) (hz : z ∈ post) :
    (header m' z).size = (header m z).size :=
  (h.keep (by simp [hz])).2 fun heq => hx (heq ▸ hz)

lemma Patched.spans (h : Patched m m' pre x post n nx p) (hx : x ∉ post) :
    span m' pre = span m pre ∧ span m' post = span m post :=
  ⟨span_congr fun z hz => by rw [h.same z (.inl hz)], span_congr fun _ hz => h.size_post hx hz⟩

end Patched

lemma Blocks.split (h : Blocks m e (pre ++ x :: post)) (he : e ≤ heapMax) (hn4 : n % 4 = 0)
    (hn : n + headerSize + 4 ≤ (header m x).size) (hm' : m' = Heap.split m x n) :
    Blocks m' e (pre ++ x :: (x + headerSize + n) :: post) ∧ (header m' x).size = n ∧
      (header m' (x + headerSize + n)).magic = magicFree ∧
      (∀ z ∈ pre ++ x :: post, (header m' z).magic = (header m z).magic ∧
        (z ≠ x → (header m' z).size = (header m z).size)) ∧
      span m' (pre ++ x :: (x + headerSize + n) :: post) = span m (pre ++ x :: post) ∧
      Within m m' heapStart e := by
  have hxmem : x ∈ pre ++ x :: post := by simp
  have hb := h.bounds hxmem
  simp only [heapMax, headerSize] at he hn hb
  -- the new header lies inside the old block, away from all others
  have hyz : ∀ z ∈ pre ++ x :: post, z ≠ x → Apart (x + headerSize + n) z := by
    intro z hz hne
    have := h.laid.apart hz hxmem hne
    simp only [Apart, headerSize] at this ⊢
    omega
  have hxy : Apart x (x + headerSize + n) := .inl (Nat.le_add_right _ _)
  have hyw : post.headD 0 = 0 ∨ Apart (post.headD 0) (x + headerSize + n) := by
    cases post with
    | nil => exact .inl rfl
    | cons w ws => exact .inr (hyz w (by simp) fun heq => h.nodup.2 (by simp [heq])).symm
  obtain ⟨hx, hy, hw, hother, hwithin⟩ := header_split h.next_eq hxy
    (head_apart h.sorted (.inr (.inl rfl))) hyw (by simp only [headerSize]; omega) hb.1
    (by simp only [headerSize]; omega) (h.head_bounds fun z hz => by simp [hz]) hm'
  have hp : Patched m m' pre x post n (x + headerSize + n) (x + headerSize + n) := by
    refine ⟨hx, fun w ws hpost => ?_, fun z hz => ?_⟩
    · rw [hpost, List.headD_cons] at hw
      exact hw (h.ne_zero (by simp [hpost]))
    · have hzmem : z ∈ pre ++ post := by
        rcases hz with hz | hz
        · exact List.mem_append_left _ hz
        · exact List.mem_append_right _ (List.mem_of_mem_tail hz)
      have hzx : z ≠ x := by
        rintro rfl
        rcases List.mem_append.mp hzmem with hz | hz
        · exact h.nodup.1 hz
        · exact h.nodup.2 hz
      have hzmem' : z ∈ pre ++ x :: post := by grind
      exact hother z (h.apart hxmem hzmem' (Ne.symm hzx)) (hyz z hzmem' hzx)
        (head_apart h.sorted (hz.imp_right .inr))
  obtain ⟨hlpre, hlx, hlsz, hlpost⟩ := Laid.middle_iff.mp h.laid
  have hspan : span m' (pre ++ x :: (x + headerSize + n) :: post) = span m (pre ++ x :: post) := by
    obtain ⟨hpre, hpost⟩ := hp.spans h.nodup.2
    rw [span_middle, span_middle, span_cons, hpre, hpost, hx, hy]
    simp only [headerSize]
    omega
  refine ⟨⟨?_, ?_, ?_⟩, by rw [hx], by rw [hy], fun z hz => hp.keep hz, hspan, hwithin⟩
  · refine h.links.insert (fun z hz => ?_) ?_ ?_ (fun w ws hpost => ?_) fun w ws hpost z hz => ?_
    · simp only [hp.same z (.inl hz), and_self]
    · simp [hx]
    · simp [hy, h.next_eq]
    · simp only [hp.head w ws hpost, and_self]
    · simp only [hp.same z (.inr (by simp [hpost, hz])), and_self]
  · refine Laid.middle_iff.mpr ⟨hlpre.congr fun z hz => ?_, hlx, ?_, ?_⟩
    · rw [hp.same z (.inl hz)]
    · rw [hx]
      exact hn4
    · rw [hx]
      refine ⟨le_rfl, ?_, ?_, ?_⟩
      · simp only [headerSize] at hlx ⊢
        omega
      · simp only [hy]
        simp only [headerSize] at hlsz ⊢
        omega
      · refine (hlpost.congr fun z hz => hp.size_post h.nodup.2 hz).mono ?_ le_rfl
        simp only [hy]
        simp only [headerSize] at hn ⊢
        omega
  · intro z hz
    have hz' : z = x + headerSize + n ∨ z ∈ pre ++ x :: post := by grind
    rcases hz' with rfl | hz'
    · rw [hy]
      exact .inl rfl
    · rw [(hp.keep hz').1]
      exact h.magic z hz'

lemma Blocks.trySplit (h : Blocks m e (pre ++ x :: post)) (he : e ≤ heapMax) (hn4 : n % 4 = 0)
    (hn : n ≤ (header m x).size)
    (hm' : m' = if n + headerSize + 4 ≤ (header m x).size then Heap.split m x n else m) :
    ∃ post', Blocks m' e (pre ++ x :: post') ∧ n ≤ (header m' x).size ∧
      (magics m' post' = magics m post ∨ magics m' post' = magicFree :: magics m post) ∧
      (∀ z ∈ post, z ∈ post') ∧
      (∀ z ∈ pre ++ x :: post, (header m' z).magic = (header m z).magic ∧
        (z ≠ x → (header m' z).size = (header m z).size)) ∧
      (∀ z, InUse m' (pre ++ x :: post') z → InUse m (pre ++ x :: post) z) ∧
      span m' (pre ++ x :: post') = span m (pre ++ x :: post) ∧
      Within m m' heapStart e := by
  split at hm'
  case isTrue hbig =>
    obtain ⟨hb, hsz, hfree, hsame, hspan, hwithin⟩ := h.split he hn4 hbig hm'
    refine ⟨_ :: post, hb, by omega, .inr ?_, fun z hz => List.mem_cons_of_mem _ hz, hsame,
      fun z hz => ?_, hspan, hwithin⟩
    · rw [magics, List.map_cons, hfree]
      exact congrArg _ (magics_congr fun z hz => (hsame z (by simp [hz])).1)
    · have hne : z ≠ x + headerSize + n := by
        rintro rfl
        exact absurd (hz.2.symm.trans hfree) (by decide)
      have hmem : z ∈ pre ++ x :: post := by
        have := hz.1
        grind
      exact ⟨hmem, (hsame z hmem).1.symm.trans hz.2⟩
  case isFalse =>
    subst hm'
    exact ⟨post, h, hn, .inl rfl, fun _ hz => hz, fun _ _ => ⟨rfl, fun _ => rfl⟩, fun _ hz => hz,
      rfl, .refl _ _ _⟩

lemma Blocks.take (h : Blocks m e xs) (he : e ≤ heapMax) (hx : x ∈ xs) (hn4 : n % 4 = 0)
    (hfree : (header m x).magic = magicFree) (hn : n ≤ (header m x).size) :
    ∃ xs', Blocks (Heap.takeBlock m x n) e xs' ∧ xs'.headD 0 = xs.headD 0 ∧
      InUse (Heap.takeBlock m x n) xs' x ∧
      n ≤ (header (Heap.takeBlock m x n) x).size ∧
      Keeps m (Heap.takeBlock m x n) xs xs' ∧
      (Settled (magics m xs) → Settled (magics (Heap.takeBlock m x n) xs')) ∧
      (∀ z, InUse (Heap.takeBlock m x n) xs' z → z = x ∨ InUse m xs z) ∧
      span (Heap.takeBlock m x n) xs' = span m xs ∧
      Within m (Heap.takeBlock m x n) heapStart e := by
  obtain ⟨pre, post, rfl⟩ := List.append_of_mem hx
  obtain ⟨m₁, hm₁⟩ : ∃ m₁, m₁ =
    (if n + headerSize + 4 ≤ (header m x).size then Heap.split m x n else m) := ⟨_, rfl⟩
  obtain ⟨post', hb, hsz, hmgs, hsub, hsame, honly, hspan, hwithin⟩ := h.trySplit he hn4 hn hm₁
  have htake : Heap.takeBlock m x n = setField m₁ .magic x magicUsed := by
    rw [hm₁]
    rfl
  have hx' : x ∈ pre ++ x :: post' := by simp
  obtain ⟨hb', hself, hother, hwithin'⟩ := hb.mark hx' (.inr rfl)
  rw [htake]
  refine ⟨pre ++ x :: post', hb', by cases pre <;> rfl, ⟨hx', by rw [hself]⟩,
    by rw [hself]; exact hsz, fun z hz => ?_, fun hset => ?_, fun z hz => ?_, ?_,
    hwithin.trans hwithin'⟩
  · have hzx : z ≠ x := by
      rintro rfl
      exact absurd (hz.2.symm.trans hfree) (by decide)
    have hz' : z ∈ pre ++ x :: post' := by
      have := hz.1
      grind
    rw [InUse, hother z hz' hzx, (hsame z hz.1).1, (hsame z hz.1).2 hzx]
    exact ⟨⟨hz', hz.2⟩, rfl⟩
  · have hpre : magics (setField m₁ .magic x magicUsed) pre = magics m pre :=
      magics_congr fun z hz => by
        rw [hother z (by simp [hz]) fun heq => h.nodup.1 (heq ▸ hz)]
        exact (hsame z (by simp [hz])).1
    have hpost : magics (setField m₁ .magic x magicUsed) post' = magics m₁ post' :=
      magics_congr fun z hz => by
        rw [hother z (by simp [hz]) fun heq => hb.nodup.2 (heq ▸ hz)]
    simp only [magics, List.map_append, List.map_cons, hself] at hset hpre hpost hmgs ⊢
    rw [hpre, hpost]
    rw [hfree] at hset
    exact hset.take hmgs
  · by_cases hzx : z = x
    · exact .inl hzx
    · refine .inr (honly z ⟨hz.1, ?_⟩)
      rw [← hother z hz.1 hzx]
      exact hz.2
  · rw [← hspan]
    refine span_congr fun z hz => ?_
    by_cases hzx : z = x
    · rw [hzx, hself]
    · rw [hother z hz hzx]

/-! ## Loops over the list -/

/-- The search of `kmalloc` ends: with the first free block that is large enough, or because
there is none. -/
lemma search_spec {p fuel : Nat}
    (hl : Dlseg (fun x => (header m x).next) (fun x => (header m x).prev) p xs 0)
    (hmg : ∀ x ∈ xs, (header m x).magic = magicFree ∨ (header m x).magic = magicUsed)
    (hz : ∀ x ∈ xs, x ≠ 0) (hfuel : xs.length < fuel) :
    (∃ cur ∈ xs, Heap.search m n fuel (xs.headD 0) = .found cur ∧
      (header m cur).magic = magicFree ∧ n ≤ (header m cur).size) ∨
      Heap.search m n fuel (xs.headD 0) = .exhausted ∧
        ∀ x ∈ xs, (header m x).magic = magicFree → (header m x).size < n := by
  induction xs generalizing p fuel with
  | nil =>
    obtain ⟨fuel, rfl⟩ := Nat.exists_eq_succ_of_ne_zero (by simp at hfuel; omega : fuel ≠ 0)
    exact .inr ⟨by simp [Heap.search], by simp⟩
  | cons x xs ih =>
    obtain ⟨fuel, rfl⟩ := Nat.exists_eq_succ_of_ne_zero (by simp at hfuel; omega : fuel ≠ 0)
    obtain ⟨-, hnext, hrest⟩ := hl
    have hx0 := hz x (by simp)
    have hok : ¬ (getField m .magic x ≠ magicFree ∧ getField m .magic x ≠ magicUsed) := fun hbad =>
      (hmg x (by simp)).elim hbad.1 hbad.2
    rw [List.headD_cons, Heap.search, if_neg hx0, if_neg hok]
    by_cases hfit : getField m .magic x = magicFree ∧ n ≤ getField m .size x
    · rw [if_pos hfit]
      exact .inl ⟨x, by simp, rfl, hfit.1, hfit.2⟩
    · rw [if_neg hfit]
      have hnext' : getField m .next x = xs.headD 0 := hnext
      rw [hnext']
      rcases ih hrest (fun y hy => hmg y (by simp [hy])) (fun y hy => hz y (by simp [hy]))
        (by simpa using hfuel) with ⟨cur, hcur, hfound, hfree, hsz⟩ | ⟨hno, hall⟩
      · exact .inl ⟨cur, by simp [hcur], hfound, hfree, hsz⟩
      · refine .inr ⟨hno, fun y hy hfree => ?_⟩
        rcases List.mem_cons.mp hy with rfl | hy
        · by_contra hge
          exact hfit ⟨hfree, not_lt.mp hge⟩
        · exact hall y hy hfree

lemma tailOf_spec {p fuel : Nat}
    (hl : Dlseg (fun x => (header m x).next) (fun x => (header m x).prev) p xs 0)
    (hz : ∀ x ∈ xs, x ≠ 0) (hfuel : xs.length < fuel) :
    Heap.tailOf m fuel (xs.headD 0) = some (xs.getLastD 0) := by
  induction xs generalizing p fuel with
  | nil =>
    obtain ⟨fuel, rfl⟩ := Nat.exists_eq_succ_of_ne_zero (by simp at hfuel; omega : fuel ≠ 0)
    simp [Heap.tailOf]
  | cons x xs ih =>
    obtain ⟨fuel, rfl⟩ := Nat.exists_eq_succ_of_ne_zero (by simp at hfuel; omega : fuel ≠ 0)
    obtain ⟨-, hnext, hrest⟩ := hl
    have hnext' : getField m .next x = xs.headD 0 := hnext
    rw [List.headD_cons, Heap.tailOf, hnext']
    cases xs with
    | nil => simp
    | cons y ys =>
      have hy0 := hz y (by simp)
      rw [if_pos ⟨hz x (by simp), by rwa [List.headD_cons]⟩]
      rw [ih hrest (fun w hw => hz w (List.mem_cons_of_mem _ hw)) (by simpa using hfuel)]
      rfl

lemma Blocks.length_lt (h : Blocks m e xs) (he : e ≤ heapMax) : xs.length < Heap.listFuel := by
  have hlen := h.laid.length_le
  simp only [heapMax, heapStart, headerSize, Heap.listFuel] at *
  omega

end NullOS.Memory
