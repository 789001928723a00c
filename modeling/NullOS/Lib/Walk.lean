import Mathlib.Data.List.Basic
import Mathlib.Data.List.Nodup
import Mathlib.Logic.Function.Basic
import Mathlib.Data.Finset.Card
import Mathlib.Data.Nat.Find

/-!
# Walks in a linked table

A table gives every place its successor, and some places end a walk.  From a given place there is
at most one walk, so a walk that ends has no place twice.
-/

namespace NullOS.Lib

variable {α : Type*}

/-- Following `next` from `x`, the places `l` are met in this order before the first one that
ends the walk. -/
def Walk (next : α → α) (stop : α → Prop) : α → List α → Prop
  | x, [] => stop x
  | x, y :: l => x = y ∧ ¬ stop x ∧ Walk next stop (next x) l

namespace Walk

variable {next next' : α → α} {stop : α → Prop} {x y z : α} {l l' : List α}

lemma unique (h : Walk next stop x l) (h' : Walk next stop x l') : l = l' := by
  induction l generalizing x l' with
  | nil =>
    cases l' with
    | nil => rfl
    | cons y l' => exact absurd h h'.2.1
  | cons y l ih =>
    obtain ⟨rfl, hx, hl⟩ := h
    cases l' with
    | nil => exact absurd h' hx
    | cons z l' =>
      obtain ⟨rfl, -, hl'⟩ := h'
      rw [ih hl hl']

lemma not_stop (h : Walk next stop x l) (hy : y ∈ l) : ¬ stop y := by
  induction l generalizing x with
  | nil => simp at hy
  | cons z l ih =>
    obtain ⟨rfl, hx, hl⟩ := h
    rcases List.mem_cons.mp hy with rfl | hy
    · exact hx
    · exact ih hl hy

lemma congr (h : Walk next stop x l) (hn : ∀ y ∈ l, next' y = next y) : Walk next' stop x l := by
  induction l generalizing x with
  | nil => exact h
  | cons y l ih =>
    obtain ⟨rfl, hx, hl⟩ := h
    refine ⟨rfl, hx, ?_⟩
    rw [hn x (by simp)]
    exact ih hl fun z hz => hn z (List.mem_cons_of_mem _ hz)

lemma congr_stop (h : Walk next stop x l)
    (hn : ∀ y, next' y = next y ∨ stop (next y) ∧ stop (next' y)) : Walk next' stop x l := by
  induction l generalizing x with
  | nil => exact h
  | cons y l ih =>
    obtain ⟨rfl, hx, hl⟩ := h
    refine ⟨rfl, hx, ?_⟩
    rcases hn x with heq | ⟨hstop, hstop'⟩
    · rw [heq]
      exact ih hl
    · cases l with
      | nil => exact hstop'
      | cons z l => exact absurd hstop hl.2.1

lemma drop (h : Walk next stop x (l ++ y :: l')) : Walk next stop y (y :: l') := by
  induction l generalizing x with
  | nil =>
    obtain ⟨rfl, hx, hl⟩ := h
    exact ⟨rfl, hx, hl⟩
  | cons z l ih =>
    obtain ⟨rfl, -, hl⟩ := h
    exact ih hl

lemma nodup (h : Walk next stop x l) : l.Nodup := by
  induction l generalizing x with
  | nil => exact List.nodup_nil
  | cons y l ih =>
    obtain ⟨rfl, hx, hl⟩ := h
    refine List.nodup_cons.mpr ⟨fun hmem => ?_, ih hl⟩
    -- coming back to `x` would make its walk a part of itself
    obtain ⟨l₁, l₂, rfl⟩ := List.append_of_mem hmem
    have heq := (show Walk next stop x (x :: (l₁ ++ x :: l₂)) from ⟨rfl, hx, hl⟩).unique hl.drop
    have hlen := congrArg List.length heq
    simp only [List.length_cons, List.length_append] at hlen
    omega

lemma succ {i : Nat} (h : Walk next stop x l) (hi : l[i]? = some y) :
    i + 1 = l.length ∧ stop (next y) ∨ l[i + 1]? = some (next y) := by
  induction l generalizing x i with
  | nil => simp at hi
  | cons a l ih =>
    obtain ⟨rfl, -, hl⟩ := h
    cases i with
    | zero =>
      obtain rfl : x = y := by simpa using hi
      cases l with
      | nil => exact .inl ⟨rfl, hl⟩
      | cons b l =>
        obtain ⟨rfl, -⟩ := hl
        exact .inr rfl
    | succ i =>
      rw [List.getElem?_cons_succ] at hi
      rcases ih hl hi with ⟨hlen, hstop⟩ | hnext
      · exact .inl ⟨by rw [List.length_cons, hlen], hstop⟩
      · exact .inr (by rwa [List.getElem?_cons_succ])

lemma link (h : Walk next stop x (l ++ [y])) (hn : ∀ a ∈ l, next' a = next a) (hy : next' y = z)
    (hz : Walk next' stop z l') : Walk next' stop x (l ++ y :: l') := by
  induction l generalizing x with
  | nil =>
    obtain ⟨rfl, hx, -⟩ := h
    refine ⟨rfl, hx, ?_⟩
    rw [hy]
    exact hz
  | cons a l ih =>
    obtain ⟨rfl, hx, hl⟩ := h
    refine ⟨rfl, hx, ?_⟩
    rw [hn x (by simp)]
    exact ih hl fun b hb => hn b (List.mem_cons_of_mem _ hb)

end Walk

/-! ## Following a table that may go round in circles -/

/-- Following `next` from `x`, the first `n` places are different and none of them ends a walk, and
the next one ends it or was there before. -/
structure Trail (next : α → α) (stop : α → Prop) (x : α) (n : Nat) : Prop where
  go : ∀ k < n, ¬ stop (next^[k] x)
  differ : ∀ j k, j < k → k < n → next^[j] x ≠ next^[k] x
  ends : stop (next^[n] x) ∨ ∃ j < n, next^[j] x = next^[n] x

namespace Trail

variable {next : α → α} {stop : α → Prop} {x : α} {m n : Nat}

lemma le (hm : Trail next stop x m) (hn : Trail next stop x n) : n ≤ m := by
  by_contra hlt
  obtain hstop | ⟨j, hj, heq⟩ := hm.ends
  · exact hn.go m (by omega) hstop
  · exact hn.differ j m hj (by omega) heq

lemma unique (hm : Trail next stop x m) (hn : Trail next stop x n) : n = m :=
  Nat.le_antisymm (hm.le hn) (hn.le hm)

lemma exists_trail [DecidableEq α] (places : Finset α) (h : ∀ y, ¬ stop y → y ∈ places) (x : α) :
    ∃ n, Trail next stop x n := by
  classical
  have hex : ∃ n, stop (next^[n] x) ∨ ∃ j < n, next^[j] x = next^[n] x := by
    by_contra hno
    push Not at hno
    have hmaps : Set.MapsTo (fun k => next^[k] x) (Finset.range (places.card + 1)) places :=
      fun k _ => h _ (hno k).1
    obtain ⟨j, -, k, -, hne, heq⟩ := Finset.exists_ne_map_eq_of_card_lt_of_maps_to (by simp) hmaps
    rcases Nat.lt_or_gt_of_ne hne with hlt | hlt
    · exact (hno k).2 j hlt heq
    · exact (hno j).2 k hlt heq.symm
  refine ⟨Nat.find hex, ?_, ?_, Nat.find_spec hex⟩
  · intro k hk hstop
    exact Nat.find_min hex hk (.inl hstop)
  · intro j k hjk hk heq
    exact Nat.find_min hex hk (.inr ⟨j, hjk, heq⟩)

end Trail

end NullOS.Lib
