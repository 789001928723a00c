import Mathlib.Algebra.BigOperators.Ring.Finset
import Mathlib.Algebra.BigOperators.Group.Finset.Piecewise

/-!
# Counting the entries of a table

How many entries of a table `f : ι → α`, over a finite set of indices, satisfy a predicate,
and how that number changes when one entry is overwritten.
-/

namespace NullOS.Lib

variable {ι α : Type*} {S : Finset ι} {f : ι → α} {p : α → Prop}
  [DecidablePred p]

def count (S : Finset ι) (f : ι → α) (p : α → Prop) [DecidablePred p] : Nat :=
  (S.filter fun i => p (f i)).card

/-- **One entry overwritten**: the count moves by what the old and the new entry weigh. -/
theorem count_update [DecidableEq ι] {i : ι} (hi : i ∈ S) (a : α) :
    count S (Function.update f i a) p + (if p (f i) then 1 else 0) =
      count S f p + (if p a then 1 else 0) := by
  have hrest : ∑ k ∈ S.erase i, (if p (Function.update f i a k) then 1 else 0) =
      ∑ k ∈ S.erase i, (if p (f k) then 1 else 0) := by
    refine Finset.sum_congr rfl fun k hk => ?_
    rw [Function.update_of_ne (Finset.ne_of_mem_erase hk)]
  have hself : (if p (Function.update f i a i) then 1 else 0) = if p a then 1 else 0 := by
    rw [Function.update_self]
  rw [count, count, Finset.card_filter, Finset.card_filter, ← Finset.add_sum_erase S _ hi,
    ← Finset.add_sum_erase S (fun k => if p (f k) then 1 else 0) hi, hrest, hself]
  omega

lemma count_pos {i : ι} (hi : i ∈ S) (h : p (f i)) : 0 < count S f p :=
  Finset.card_pos.mpr ⟨i, Finset.mem_filter.mpr ⟨hi, h⟩⟩

lemma count_eq_zero (h : ∀ i ∈ S, ¬ p (f i)) : count S f p = 0 := by
  rw [count, Finset.card_eq_zero, Finset.filter_eq_empty_iff]
  exact h

end NullOS.Lib
