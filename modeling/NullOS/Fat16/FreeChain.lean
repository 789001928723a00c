import NullOS.Fat16.Calls

/-!
# Freeing a chain of any FAT

`fat16_free_chain` clears every entry before it goes on, so that a cluster that comes a second time
leads to 0, which ends the loop.  What it clears is the trail of the FAT from the start on.
-/

namespace NullOS.Fat16

open Lib

variable {g : Geo} {s : St} {start n : Nat}

lemma fat16FreeChain_succ {c : Nat} (hstop : ¬ Stop c) (hc : c < g.fatEntries) :
    fat16FreeChain g (n + 1) c s =
      fat16FreeChain g n (s.vol.fat c) (s.withFat (Function.update s.vol.fat c 0)) := by
  rw [fat16FreeChain, if_neg hstop]
  show EStateM.bind (getFat g c) _ s = _
  rw [EStateM.bind, getFat, if_pos (.inl hc)]
  show EStateM.bind (setFat g c 0) _ s = _
  rw [EStateM.bind, setFat, if_pos (.inl hc)]
  rfl

def cleared (s : St) (start k : Nat) : St :=
  s.withFat fun c => if ∃ j < k, s.vol.fat^[j] start = c then 0 else s.vol.fat c

lemma cleared_fat (c k : Nat) : (cleared s start k).vol.fat c =
    if ∃ j < k, s.vol.fat^[j] start = c then 0 else s.vol.fat c := rfl

lemma cleared_zero : cleared s start 0 = s := by
  have hfat : (cleared s start 0).vol.fat = s.vol.fat := by
    funext c
    rw [cleared_fat, if_neg]
    rintro ⟨j, hj, -⟩
    exact Nat.not_lt_zero j hj
  exact congrArg s.withFat hfat

lemma cleared_succ (k : Nat) :
    (cleared s start k).withFat
      (Function.update (cleared s start k).vol.fat (s.vol.fat^[k] start) 0) =
        cleared s start (k + 1) := by
  refine congrArg s.withFat (funext fun c => ?_)
  by_cases hc : c = s.vol.fat^[k] start
  · rw [hc, Function.update_self, if_pos ⟨k, Nat.lt_succ_self k, rfl⟩]
  · rw [Function.update_of_ne hc, cleared_fat]
    refine if_congr ?_ rfl rfl
    constructor
    · rintro ⟨j, hj, heq⟩
      exact ⟨j, Nat.lt_succ_of_lt hj, heq⟩
    · rintro ⟨j, hj, heq⟩
      refine ⟨j, ?_, heq⟩
      rcases Nat.lt_succ_iff_lt_or_eq.mp hj with hlt | rfl
      · exact hlt
      · exact absurd heq.symm hc

lemma cleared_again {c k : Nat} (h : ∃ j < k, s.vol.fat^[j] start = c) :
    (cleared s start k).withFat (Function.update (cleared s start k).vol.fat c 0) =
      cleared s start k := by
  refine congrArg s.withFat (funext fun b => ?_)
  by_cases hb : b = c
  · rw [hb, Function.update_self, if_pos h]
  · rw [Function.update_of_ne hb]
    rfl

section Run

variable {len : Nat} (htrail : Trail s.vol.fat Stop start len)
  (hin : ∀ k, (∀ j ≤ k, ¬ Stop (s.vol.fat^[j] start)) → s.vol.fat^[k] start < g.fatEntries)
include htrail hin

lemma freeChain_end : fat16FreeChain g (n + 2) (s.vol.fat^[len] start) (cleared s start len) =
    .ok () (cleared s start len) := by
  by_cases hstop : Stop (s.vol.fat^[len] start)
  · rw [fat16FreeChain, if_pos hstop]
    rfl
  · have hagain := htrail.ends.resolve_left hstop
    have hlt : s.vol.fat^[len] start < g.fatEntries := by
      refine hin len fun j hj => ?_
      rcases Nat.lt_or_eq_of_le hj with hj | rfl
      · exact htrail.go j hj
      · exact hstop
    have hzero : (cleared s start len).vol.fat (s.vol.fat^[len] start) = 0 := by
      rw [cleared_fat, if_pos hagain]
    rw [fat16FreeChain_succ hstop hlt, hzero, cleared_again hagain, fat16FreeChain,
      if_pos (.inl (by decide))]
    rfl

/-- The loop from the `k`-th cluster of the trail on.  The induction is on the number of clusters
that are left. -/
lemma freeChain_from (left : Nat) : ∀ k, k + left = len →
    fat16FreeChain g (n + 2 + left) (s.vol.fat^[k] start) (cleared s start k) =
      .ok () (cleared s start len) := by
  induction left with
  | zero =>
    rintro k rfl
    exact freeChain_end htrail hin
  | succ left ih =>
    intro k hk
    have hstop : ¬ Stop (s.vol.fat^[k] start) := htrail.go k (by omega)
    have hlt : s.vol.fat^[k] start < g.fatEntries :=
      hin k fun j hj => htrail.go j (by omega)
    have hnext : (cleared s start k).vol.fat (s.vol.fat^[k] start) = s.vol.fat^[k + 1] start := by
      rw [cleared_fat, if_neg, Function.iterate_succ_apply']
      rintro ⟨j, hj, heq⟩
      exact htrail.differ j k hj (by omega) heq
    rw [← Nat.add_assoc, fat16FreeChain_succ hstop hlt, hnext, cleared_succ]
    exact ih (k + 1) (by omega)

end Run

/-- **`fat16_free_chain` on any FAT.**  As long as the clusters that are visited are in the table,
the loop ends at the first value that ends a chain or the first repeated cluster, and it sets
exactly the entries before to 0. -/
theorem fat16FreeChain_any (g : Geo) (s : St) (start : Nat)
    (hin : ∀ k, (∀ j ≤ k, ¬ Stop (s.vol.fat^[j] start)) → s.vol.fat^[k] start < g.fatEntries) :
    ∃ len, Trail s.vol.fat Stop start len ∧ (∀ m, Trail s.vol.fat Stop start m → m = len) ∧
      ∀ fuel, len + 2 ≤ fuel → fat16FreeChain g fuel start s =
        .ok () (s.withFat fun c =>
          if ∃ k < len, s.vol.fat^[k] start = c then 0 else s.vol.fat c) := by
  obtain ⟨len, htrail⟩ : ∃ len, Trail s.vol.fat Stop start len := by
    refine Trail.exists_trail (Finset.range 0xFFF8) (fun y hy => ?_) start
    rw [Stop, not_or] at hy
    exact Finset.mem_range.mpr (Nat.lt_of_not_le hy.2)
  refine ⟨len, htrail, fun m hm => htrail.unique hm, fun fuel hfuel => ?_⟩
  obtain ⟨n, rfl⟩ : ∃ n, fuel = n + 2 + len := ⟨fuel - (len + 2), by omega⟩
  have hrun := freeChain_from (n := n) htrail hin len 0 (Nat.zero_add len)
  rw [cleared_zero] at hrun
  exact hrun

def cyclicFat (c : Nat) : Nat := if c = 3 then 4 else 3

def cyclicState : St := Vol.start ⟨true, cyclicFat, fun _ _ => 0⟩

lemma cyclicFat_le (k : Nat) : cyclicFat^[k] 2 ≤ 4 := by
  cases k with
  | zero => decide
  | succ k =>
    rw [Function.iterate_succ_apply', cyclicFat]
    split <;> decide

/-- The three clusters of the cycle are freed. -/
theorem fat16FreeChain_any_cyclic :
    (∃ len, Trail cyclicState.vol.fat Stop 2 len ∧
      (∀ m, Trail cyclicState.vol.fat Stop 2 m → m = len) ∧
      ∀ fuel, len + 2 ≤ fuel → fat16FreeChain smallGeo fuel 2 cyclicState =
        .ok () (cyclicState.withFat fun c =>
          if ∃ k < len, cyclicState.vol.fat^[k] 2 = c then 0 else cyclicState.vol.fat c)) ∧
    Trail cyclicState.vol.fat Stop 2 3 := by
  refine ⟨fat16FreeChain_any smallGeo cyclicState 2 fun k _ =>
    Nat.lt_of_le_of_lt (cyclicFat_le k) (by decide), ?_, ?_, .inr ⟨1, by decide, by decide⟩⟩
  · decide
  · have hall : ∀ k < 3, ∀ j < k, cyclicState.vol.fat^[j] 2 ≠ cyclicState.vol.fat^[k] 2 := by decide
    exact fun j k hjk hk => hall k hk j hjk

end NullOS.Fat16
