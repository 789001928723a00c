import Mathlib.Logic.Function.Basic
import Mathlib.Algebra.GroupWithZero.Nat

/-!
# Byte memories

A memory is a function from addresses to bytes.  Loops that fill or copy a range are one
operation each, with the equations of the loop as lemmas.  Words are little endian.
-/

namespace NullOS.Lib

abbrev Mem := Nat → UInt8

namespace Mem

variable {m m' : Mem} {a b dst len w : Nat} {v : UInt8} {src : Nat → UInt8}

/-- `len` bytes from `dst` on become `src 0`, `src 1` and so on. -/
def blit (m : Mem) (dst len : Nat) (src : Nat → UInt8) : Mem :=
  fun a => if dst ≤ a ∧ a < dst + len then src (a - dst) else m a

def fill (m : Mem) (dst len : Nat) (v : UInt8) : Mem := m.blit dst len fun _ => v

/-- The bytes `src 0`, `src 1` and so on, `len` of them, are stored one after the other, each at
its own address. -/
def scatter (m : Mem) (addr : Nat → Nat) : Nat → (Nat → UInt8) → Mem
  | 0, _ => m
  | len + 1, src => Function.update (m.scatter addr len src) (addr len) (src len)

def load16 (m : Mem) (a : Nat) : Nat := (m a).toNat + 0x100 * (m (a + 1)).toNat

def load32 (m : Mem) (a : Nat) : Nat := m.load16 a + 0x10000 * m.load16 (a + 2)

def byteOf (w i : Nat) : UInt8 := .ofNat (w / 0x100 ^ i)

def store16 (m : Mem) (a w : Nat) : Mem := m.blit a 2 (byteOf w)

def store32 (m : Mem) (a w : Nat) : Mem := m.blit a 4 (byteOf w)

/-! ## Ranges -/

lemma blit_of_mem (h : dst ≤ a) (h' : a < dst + len) : m.blit dst len src a = src (a - dst) :=
  if_pos ⟨h, h'⟩

lemma blit_of_not_mem (h : a < dst ∨ dst + len ≤ a) : m.blit dst len src a = m a :=
  if_neg (by omega)

@[simp] lemma blit_zero : m.blit dst 0 src = m := by
  funext a
  exact blit_of_not_mem (by omega)

lemma blit_succ :
    m.blit dst (len + 1) src = Function.update (m.blit dst len src) (dst + len) (src len) := by
  funext a
  by_cases ha : a = dst + len
  · subst ha
    rw [Function.update_self, blit_of_mem (by omega) (by omega), Nat.add_sub_cancel_left]
  · rw [Function.update_of_ne ha]
    by_cases hin : dst ≤ a ∧ a < dst + len
    · rw [blit_of_mem hin.1 (by omega), blit_of_mem hin.1 hin.2]
    · rw [blit_of_not_mem (by omega), blit_of_not_mem (by omega)]

lemma scatter_of_not_mem {addr : Nat → Nat} (h : ∀ i < len, a ≠ addr i) :
    m.scatter addr len src a = m a := by
  induction len with
  | zero => rfl
  | succ len ih =>
    rw [scatter, Function.update_of_ne (h len (by omega))]
    exact ih fun i hi => h i (by omega)

lemma scatter_of_mem {addr : Nat → Nat} {i : Nat} (hi : i < len)
    (hinj : ∀ j < len, addr j = addr i → j = i) : m.scatter addr len src (addr i) = src i := by
  induction len with
  | zero => omega
  | succ len ih =>
    rw [scatter]
    by_cases hlast : addr i = addr len
    · obtain rfl : len = i := hinj len (by omega) hlast.symm
      rw [Function.update_self]
    · rw [Function.update_of_ne hlast]
      have hne : i ≠ len := fun h => hlast (congrArg addr h)
      exact ih (by omega) fun j hj => hinj j (by omega)

lemma fill_of_mem (h : dst ≤ a) (h' : a < dst + len) : m.fill dst len v a = v := blit_of_mem h h'

lemma fill_of_not_mem (h : a < dst ∨ dst + len ≤ a) : m.fill dst len v a = m a :=
  blit_of_not_mem h

/-! ## Words -/

lemma load16_lt : m.load16 a < 0x10000 := by
  have h0 := (m a).toNat_lt
  have h1 := (m (a + 1)).toNat_lt
  unfold load16
  omega

lemma load32_lt : m.load32 a < 0x100000000 := by
  have h0 := load16_lt (m := m) (a := a)
  have h1 := load16_lt (m := m) (a := a + 2)
  unfold load32
  omega

lemma load16_congr (h : ∀ i < 2, m (a + i) = m' (b + i)) : m.load16 a = m'.load16 b := by
  have h0 := h 0 (by omega)
  have h1 := h 1 (by omega)
  rw [load16, load16, h1]
  simp only [Nat.add_zero] at h0
  rw [h0]

lemma load32_congr (h : ∀ i < 4, m (a + i) = m' (b + i)) : m.load32 a = m'.load32 b := by
  have hhigh : m.load16 (a + 2) = m'.load16 (b + 2) := by
    refine load16_congr fun i hi => ?_
    rw [Nat.add_assoc, Nat.add_assoc]
    exact h (2 + i) (by omega)
  rw [load32, load32, load16_congr fun i hi => h i (by omega), hhigh]

lemma load16_blit_of_disjoint (h : a + 2 ≤ dst ∨ dst + len ≤ a) :
    (m.blit dst len src).load16 a = m.load16 a :=
  load16_congr fun i hi => blit_of_not_mem (by omega)

lemma load32_blit_of_disjoint (h : a + 4 ≤ dst ∨ dst + len ≤ a) :
    (m.blit dst len src).load32 a = m.load32 a :=
  load32_congr fun i hi => blit_of_not_mem (by omega)

lemma load32_fill_of_disjoint (h : a + 4 ≤ dst ∨ dst + len ≤ a) :
    (m.fill dst len v).load32 a = m.load32 a :=
  load32_blit_of_disjoint h

lemma load32_fill_zero (h : dst ≤ a) (h' : a + 4 ≤ dst + len) :
    (m.fill dst len 0).load32 a = 0 := by
  have hz : ∀ i < 4, m.fill dst len 0 (a + i) = 0 := fun i hi =>
    fill_of_mem (by omega) (by omega)
  have h0 := hz 0 (by omega)
  rw [Nat.add_zero] at h0
  simp [load32, load16, h0, hz 1, hz 2, hz 3, Nat.add_assoc]

lemma load16_store16 (h : w < 0x10000) : (m.store16 a w).load16 a = w := by
  have h0 : m.store16 a w a = byteOf w 0 := by
    rw [store16, blit_of_mem (by omega) (by omega), Nat.sub_self]
  have h1 : m.store16 a w (a + 1) = byteOf w 1 := by
    rw [store16, blit_of_mem (by omega) (by omega), Nat.add_sub_cancel_left]
  rw [load16, h0, h1]
  simp only [byteOf, UInt8.toNat_ofNat']
  omega

lemma load32_store32 (h : w < 0x100000000) : (m.store32 a w).load32 a = w := by
  have hb : ∀ i < 4, m.store32 a w (a + i) = byteOf w i := fun i hi => by
    rw [store32, blit_of_mem (by omega) (by omega), Nat.add_sub_cancel_left]
  have h0 := hb 0 (by omega)
  rw [Nat.add_zero] at h0
  simp only [load32, load16, h0, hb 1 (by omega), hb 2 (by omega), hb 3 (by omega), Nat.add_assoc,
    Nat.reduceAdd, byteOf, UInt8.toNat_ofNat']
  omega

lemma load32_store32_of_disjoint (h : b + 4 ≤ a ∨ a + 4 ≤ b) :
    (m.store32 a w).load32 b = m.load32 b :=
  load32_blit_of_disjoint h

lemma store32_of_not_mem (h : b < a ∨ a + 4 ≤ b) : m.store32 a w b = m b := blit_of_not_mem h

lemma byteOf_load16 {i : Nat} (hi : i < 2) : byteOf (m.load16 a) i = m (a + i) := by
  have h0 := (m a).toNat_lt
  have h1 := (m (a + 1)).toNat_lt
  obtain rfl | rfl : i = 0 ∨ i = 1 := by omega
  all_goals
    refine UInt8.toNat_inj.mp ?_
    simp only [byteOf, load16, UInt8.toNat_ofNat', Nat.add_zero]
    omega

lemma byteOf_load32 {i : Nat} (hi : i < 4) : byteOf (m.load32 a) i = m (a + i) := by
  have h0 := load16_lt (m := m) (a := a)
  by_cases hlow : i < 2
  · rw [← byteOf_load16 (m := m) (a := a) hlow]
    obtain rfl | rfl : i = 0 ∨ i = 1 := by omega
    all_goals
      refine UInt8.toNat_inj.mp ?_
      simp only [byteOf, load32, UInt8.toNat_ofNat']
      omega
  · obtain ⟨j, rfl⟩ := Nat.exists_eq_add_of_le (Nat.le_of_not_lt hlow)
    rw [← Nat.add_assoc, ← byteOf_load16 (m := m) (a := a + 2) (by omega)]
    obtain rfl | rfl : j = 0 ∨ j = 1 := by omega
    all_goals
      refine UInt8.toNat_inj.mp ?_
      simp only [byteOf, load32, UInt8.toNat_ofNat']
      omega

lemma load32_blit_words {f : Nat → Nat} {i : Nat} (hi : 4 * i + 4 ≤ len) (hf : f i < 0x100000000) :
    (m.blit dst len fun off => byteOf (f (off / 4)) (off % 4)).load32 (dst + 4 * i) = f i := by
  refine Eq.trans (load32_congr (b := dst + 4 * i) fun j hj => ?_)
    (load32_store32 (m := m) (a := dst + 4 * i) hf)
  have hoff : dst + 4 * i + j - dst = 4 * i + j := by omega
  rw [store32, blit_of_mem (by omega) (by omega), blit_of_mem (by omega) (by omega), hoff,
    show (4 * i + j) / 4 = i by omega, show (4 * i + j) % 4 = j by omega, Nat.add_sub_cancel_left]

lemma store32_load32_self : m.store32 a (m.load32 a) = m := by
  funext b
  by_cases hb : a ≤ b ∧ b < a + 4
  · rw [store32, blit_of_mem hb.1 hb.2, byteOf_load32 (by omega), Nat.add_sub_cancel' hb.1]
  · exact store32_of_not_mem (by omega)

end Mem

end NullOS.Lib
