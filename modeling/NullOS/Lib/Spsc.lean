import NullOS.Lib.Ring
import Mathlib.Tactic.Lemma

/-!
# A ring between an interrupt handler and a reader

The handler adds at `head` and runs to completion.  The reader takes at `tail` in separate loads and
stores, or empties the ring with two stores, and the handler may run between any two of them.
`accepted` and `gone` are bookkeeping: what the handler stored, and what has left the ring.
-/

namespace NullOS.Lib

variable {α : Type*}

inductive Stage (α : Type*)
  | idle
  /-- It has seen that the ring is not empty. -/
  | load
  /-- It has read the oldest element. -/
  | move (x : α)
  /-- It has reset `tail`, and will reset `head`. -/
  | wipe

structure Spsc (α : Type*) where
  buf : Nat → α
  head : Nat
  tail : Nat
  stage : Stage α
  accepted : List α
  gone : List (α × Bool)

/-- What the reader can do: start one of its calls, or go on. -/
inductive ReaderAct
  | take
  | flush
  | step

namespace Spsc

def count (cap head tail : Nat) : Nat := if tail ≤ head then head - tail else head + cap - tail

/-- What the reader will get.  While the ring is being emptied that is nothing. -/
def pending (cap : Nat) (r : Spsc α) : List α :=
  match r.stage with
  | .wipe => []
  | _ => ringList cap r.buf r.tail (count cap r.head r.tail)

/-- An element that comes while the ring is being emptied is lost. -/
def dropped (r : Spsc α) (x : α) : List (α × Bool) :=
  match r.stage with
  | .wipe => [(x, false)]
  | _ => []

def add (cap : Nat) (r : Spsc α) (x : α) : Spsc α :=
  { r with
    buf := Function.update r.buf r.head x
    head := (r.head + 1) % cap
    accepted := r.accepted ++ [x]
    gone := r.gone ++ r.dropped x }

def push (cap : Nat) (r : Spsc α) (x : α) : Spsc α :=
  if (r.head + 1) % cap = r.tail then r else r.add cap x

def reader (cap : Nat) (r : Spsc α) (a : ReaderAct) : Option (Spsc α) :=
  match r.stage, a with
  | .idle, .take => some (if r.head = r.tail then r else { r with stage := .load })
  | .idle, .flush => some { r with
      tail := 0, stage := .wipe, gone := r.gone ++ (r.pending cap).map (·, false) }
  | .load, .step => some { r with stage := .move (r.buf r.tail) }
  | .move x, .step => some { r with
      tail := (r.tail + 1) % cap, stage := .idle, gone := r.gone ++ [(x, true)] }
  | .wipe, .step => some { r with head := 0, stage := .idle }
  | _, _ => none

/-- **What the two sides can rely on.** -/
structure InOrder (cap : Nat) (r : Spsc α) : Prop where
  /-- Nothing is lost, invented, repeated or overtaken. -/
  history : r.accepted = r.gone.map Prod.fst ++ r.pending cap
  /-- Outside a flush an element is refused only when the ring is full. -/
  refused : r.stage ≠ .wipe → ∀ x, r.push cap x = r → (r.pending cap).length = cap - 1

structure Inv (cap : Nat) (r : Spsc α) : Prop where
  head_lt : r.head < cap
  tail_lt : r.tail < cap
  history : r.accepted = r.gone.map Prod.fst ++ r.pending cap
  load : r.stage = .load → r.head ≠ r.tail
  move : ∀ x, r.stage = .move x → r.head ≠ r.tail ∧ r.buf r.tail = x
  wipe : r.stage = .wipe → r.tail = 0

variable {cap : Nat} {r r' : Spsc α} {x : α}

lemma pending_of_ne (h : r.stage ≠ .wipe) :
    r.pending cap = ringList cap r.buf r.tail (count cap r.head r.tail) := by
  cases hs : r.stage <;> simp_all [pending]

lemma pending_wipe (h : r.stage = .wipe) : r.pending cap = [] := by
  rw [pending, h]

lemma dropped_of_ne (h : r.stage ≠ .wipe) : r.dropped x = [] := by
  cases hs : r.stage <;> simp_all [dropped]

lemma mod_succ {n : Nat} (h : n < cap) : (n + 1) % cap = if n + 1 = cap then 0 else n + 1 := by
  split
  case isTrue he => rw [he, Nat.mod_self]
  case isFalse hne => exact Nat.mod_eq_of_lt (by omega)

lemma Inv.cell (h : Inv cap r) : (r.tail + count cap r.head r.tail) % cap = r.head := by
  have hh := h.head_lt
  have ht := h.tail_lt
  unfold count
  split
  · rw [Nat.add_sub_of_le ‹_›, Nat.mod_eq_of_lt hh]
  · rw [Nat.add_sub_of_le (by omega), Nat.add_mod_right, Nat.mod_eq_of_lt hh]

lemma Inv.push (h : Inv cap r) : Inv cap (r.push cap x) := by
  have hh := h.head_lt
  have ht := h.tail_lt
  unfold Spsc.push
  split
  case isTrue => exact h
  case isFalse hfull =>
    refine ⟨Nat.mod_lt _ (by omega), ht, ?_, fun _ => hfull, fun y hs => ⟨hfull, ?_⟩, h.wipe⟩
    · show r.accepted ++ [x] = (r.gone ++ r.dropped x).map Prod.fst ++ (r.add cap x).pending cap
      by_cases hw : r.stage = .wipe
      · rw [pending_wipe (r := r.add cap x) hw, h.history, pending_wipe hw, dropped, hw]
        simp
      · -- the cell at `head` is free, so the ring grows by the new element
        rw [mod_succ hh] at hfull
        have hlt : count cap r.head r.tail < cap := by
          unfold count
          split <;> omega
        have hcount : count cap (r.add cap x).head r.tail = count cap r.head r.tail + 1 := by
          unfold count add
          dsimp only
          rw [mod_succ hh]
          split_ifs at hfull ⊢ <;> omega
        have hbuf : (r.add cap x).buf = Function.update r.buf
          ((r.tail + count cap r.head r.tail) % cap) x := by
          rw [h.cell]
          rfl
        rw [pending_of_ne (r := r.add cap x) hw, show (r.add cap x).tail = r.tail from rfl, hcount,
          hbuf, ringList_push hlt, dropped_of_ne hw, List.append_nil, h.history, pending_of_ne hw,
          List.append_assoc]
    · obtain ⟨hne, hx⟩ := h.move y hs
      rw [← hx]
      exact Function.update_of_ne (Ne.symm hne) _ _

lemma Inv.reader {a : ReaderAct} (h : Inv cap r) (hs : r.reader cap a = some r') :
    Inv cap r' := by
  have hh := h.head_lt
  have ht := h.tail_lt
  unfold Spsc.reader at hs
  split at hs
  case h_1 hst =>
    split at hs
    all_goals cases hs
    · exact h
    case isFalse hne =>
      refine ⟨hh, ht, ?_, fun _ => hne, nofun, nofun⟩
      rw [pending_of_ne (by simp), h.history, pending_of_ne (by simp [hst])]
  case h_2 hst =>
    cases hs
    refine ⟨hh, by dsimp only; omega, ?_, nofun, nofun, fun _ => rfl⟩
    show r.accepted = (r.gone ++ (r.pending cap).map (·, false)).map Prod.fst ++ []
    rw [h.history]
    simp [Function.comp_def]
  case h_3 hst =>
    cases hs
    refine ⟨hh, ht, ?_, nofun, fun y hy => ?_, nofun⟩
    · rw [pending_of_ne (by simp), h.history, pending_of_ne (by simp [hst])]
    · exact ⟨h.load hst, Stage.move.inj hy⟩
  case h_4 y hst =>
    cases hs
    obtain ⟨hne, hx⟩ := h.move y hst
    refine ⟨hh, Nat.mod_lt _ (by omega), ?_, nofun, nofun, nofun⟩
    -- what was read is the oldest element
    have hcount : count cap r.head r.tail = count cap r.head ((r.tail + 1) % cap) + 1 := by
      unfold count
      rw [mod_succ ht]
      split_ifs <;> omega
    rw [pending_of_ne (by simp), h.history, pending_of_ne (by simp [hst]), hcount, ringList_pop ht,
      hx]
    simp
  case h_5 hst =>
    cases hs
    have ht0 := h.wipe hst
    refine ⟨by dsimp only; omega, ht, ?_, nofun, nofun, nofun⟩
    rw [pending_of_ne (by simp), h.history, pending_wipe hst]
    simp [count, ht0]
  case h_6 => simp at hs

lemma reader_accepted {a : ReaderAct} (hs : r.reader cap a = some r') :
    r'.accepted = r.accepted := by
  unfold Spsc.reader at hs
  repeat' split at hs
  all_goals cases hs
  all_goals rfl

lemma Inv.inOrder (h : Inv cap r) : InOrder cap r := by
  refine ⟨h.history, fun hw x hx => ?_⟩
  have hh := h.head_lt
  have ht := h.tail_lt
  have hfull : (r.head + 1) % cap = r.tail := by
    by_contra hne
    have hacc := congrArg Spsc.accepted hx
    rw [Spsc.push, if_neg hne] at hacc
    simp [add] at hacc
  rw [mod_succ hh] at hfull
  rw [pending_of_ne hw, length_ringList, count]
  split_ifs at hfull ⊢ <;> omega

end Spsc

end NullOS.Lib
