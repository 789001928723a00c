import Mathlib.Data.List.Basic

/-!
# Doubly linked lists

A segment of a doubly linked list is given by the two maps that its links are.  The segment
starts after `p` and is followed by `q`, so that a list can be cut open at any node.
-/

namespace NullOS.Lib

variable {α : Type*}

/-- The nodes `xs` are linked in this order, between `p` and `q`. -/
def Dlseg (next prev : α → α) : α → List α → α → Prop
  | _, [], _ => True
  | p, x :: xs, q => prev x = p ∧ next x = xs.headD q ∧ Dlseg next prev x xs q

namespace Dlseg

variable {next prev next' prev' : α → α} {p q x y : α} {xs ys pre post : List α}

lemma congr (h : Dlseg next prev p xs q) (hl : ∀ z ∈ xs, next' z = next z ∧ prev' z = prev z) :
    Dlseg next' prev' p xs q := by
  induction xs generalizing p with
  | nil => trivial
  | cons x xs ih =>
    obtain ⟨hp, hn, hrest⟩ := h
    obtain ⟨hn', hp'⟩ := hl x (by simp)
    exact ⟨hp'.trans hp, hn'.trans hn, ih hrest fun z hz => hl z (List.mem_cons_of_mem _ hz)⟩

lemma append_iff :
    Dlseg next prev p (xs ++ ys) q ↔
      Dlseg next prev p xs (ys.headD q) ∧ Dlseg next prev (xs.getLastD p) ys q := by
  induction xs generalizing p with
  | nil => simp [Dlseg]
  | cons x xs ih =>
    have hhead : (xs ++ ys).headD q = xs.headD (ys.headD q) := by cases xs <;> rfl
    have hlast : (x :: xs).getLastD p = xs.getLastD x := by cases xs <;> rfl
    rw [List.cons_append, Dlseg, Dlseg, ih, hhead, hlast, and_assoc, and_assoc]

lemma middle_iff :
    Dlseg next prev p (pre ++ x :: post) q ↔
      Dlseg next prev p pre x ∧ prev x = pre.getLastD p ∧ next x = post.headD q ∧
        Dlseg next prev x post q := by
  rw [append_iff]
  rfl

lemma hook (h : Dlseg next prev x post q)
    (hhead : ∀ w ws, post = w :: ws → next' w = next w ∧ prev' w = y)
    (htail : ∀ w ws, post = w :: ws → ∀ z ∈ ws, next' z = next z ∧ prev' z = prev z) :
    Dlseg next' prev' y post q := by
  cases post with
  | nil => trivial
  | cons w ws =>
    obtain ⟨-, hn, hrest⟩ := h
    obtain ⟨hn', hp'⟩ := hhead w ws rfl
    exact ⟨hp', hn'.trans hn, hrest.congr (htail w ws rfl)⟩

lemma insert (h : Dlseg next prev p (pre ++ x :: post) q)
    (hpre : ∀ z ∈ pre, next' z = next z ∧ prev' z = prev z)
    (hx : next' x = y ∧ prev' x = prev x) (hy : next' y = next x ∧ prev' y = x)
    (hhead : ∀ w ws, post = w :: ws → next' w = next w ∧ prev' w = y)
    (htail : ∀ w ws, post = w :: ws → ∀ z ∈ ws, next' z = next z ∧ prev' z = prev z) :
    Dlseg next' prev' p (pre ++ x :: y :: post) q := by
  obtain ⟨hp, hpx, hnx, hq⟩ := middle_iff.mp h
  exact middle_iff.mpr ⟨hp.congr hpre, hx.2.trans hpx, hx.1,
    hy.2, hy.1.trans hnx, hq.hook hhead htail⟩

lemma remove (h : Dlseg next prev p (pre ++ x :: y :: post) q)
    (hpre : ∀ z ∈ pre, next' z = next z ∧ prev' z = prev z)
    (hx : next' x = next y ∧ prev' x = prev x)
    (hhead : ∀ w ws, post = w :: ws → next' w = next w ∧ prev' w = x)
    (htail : ∀ w ws, post = w :: ws → ∀ z ∈ ws, next' z = next z ∧ prev' z = prev z) :
    Dlseg next' prev' p (pre ++ x :: post) q := by
  obtain ⟨hp, hpx, -, -, hny, hq⟩ := middle_iff.mp h
  exact middle_iff.mpr ⟨hp.congr hpre, hx.2.trans hpx, hx.1.trans hny, hq.hook hhead htail⟩

end Dlseg

end NullOS.Lib
