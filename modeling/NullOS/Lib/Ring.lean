import Mathlib.Logic.Function.Basic
import Mathlib.Data.List.Basic
import Mathlib.Data.Nat.ModEq

/-!
# Ring buffers

A ring of `cap` cells holds `count` elements from the cell `tail` on, wrapping around.
`ringList` reads them out, oldest first; adding at the free end appends, and taking at `tail`
removes the head.
-/

namespace NullOS.Lib

variable {α : Type*} {cap tail count : Nat} {buf : Nat → α} {x : α}

def ringList (cap : Nat) (buf : Nat → α) (tail count : Nat) : List α :=
  (List.range count).map fun k => buf ((tail + k) % cap)

@[simp] lemma length_ringList : (ringList cap buf tail count).length = count := by
  simp [ringList]

@[simp] lemma ringList_zero : ringList cap buf tail 0 = [] := rfl

lemma ringList_pop (ht : tail < cap) :
    ringList cap buf tail (count + 1) =
      buf tail :: ringList cap buf ((tail + 1) % cap) count := by
  rw [ringList, List.range_succ_eq_map, List.map_cons, List.map_map, Nat.add_zero,
    Nat.mod_eq_of_lt ht]
  refine congrArg _ (List.map_congr_left fun k _ => ?_)
  show buf ((tail + (k + 1)) % cap) = buf (((tail + 1) % cap + k) % cap)
  rw [Nat.mod_add_mod, Nat.add_right_comm, Nat.add_assoc]

lemma ringList_push (hc : count < cap) :
    ringList cap (Function.update buf ((tail + count) % cap) x) tail (count + 1) =
      ringList cap buf tail count ++ [x] := by
  rw [ringList, List.range_succ, List.map_append, List.map_singleton, Function.update_self]
  refine congrArg (· ++ [x]) (List.map_congr_left fun k hk => Function.update_of_ne ?_ _ _)
  have hk' := List.mem_range.mp hk
  -- two cells fewer than `cap` apart are different
  intro heq
  have hmod : k ≡ count [MOD cap] := Nat.ModEq.add_left_cancel' tail heq
  rw [Nat.ModEq, Nat.mod_eq_of_lt hc, Nat.mod_eq_of_lt (by omega)] at hmod
  omega

end NullOS.Lib
