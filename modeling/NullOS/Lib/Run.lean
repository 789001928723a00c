import Mathlib.Tactic.Lemma
import Mathlib.Data.List.Basic
import Mathlib.Tactic.SplitIfs

/-!
# Runs of a state machine

A machine is a partial step function `step : σ → α → Option σ`.  Nondeterminism is in the choice of
the action.  `Reach` are the reachable states, and `ReachIf` those reached by runs all of whose
steps meet a side condition.  Both have one invariant rule, and `run` executes a list of actions.
-/

namespace NullOS.Lib

variable {σ α : Type*} {step : σ → α → Option σ} {init : σ → Prop}
  {ok : σ → α → Prop}

/-- The states reached from an initial state by steps that all meet the condition `ok`,
which may look at the state before the step and at the action. -/
inductive ReachIf (step : σ → α → Option σ) (init : σ → Prop) (ok : σ → α → Prop) : σ → Prop
  | start {s : σ} : init s → ReachIf step init ok s
  | next {s t : σ} {a : α} : ReachIf step init ok s → ok s a → step s a = some t →
      ReachIf step init ok t

def Reach (step : σ → α → Option σ) (init : σ → Prop) : σ → Prop :=
  ReachIf step init fun _ _ => True

/-- **The invariant rule.**  What holds initially and is kept by every step that meets the
condition holds in every state reached. -/
theorem ReachIf.invariant {I : σ → Prop} (hinit : ∀ s, init s → I s)
    (hstep : ∀ s a t, I s → ok s a → step s a = some t → I t) {s : σ}
    (h : ReachIf step init ok s) : I s := by
  induction h with
  | start h0 => exact hinit _ h0
  | next _ hok hs ih => exact hstep _ _ _ ih hok hs

lemma ReachIf.mono {ok' : σ → α → Prop} (hok : ∀ s a, ok s a → ok' s a) {s : σ}
    (h : ReachIf step init ok s) : ReachIf step init ok' s := by
  induction h with
  | start h0 => exact .start h0
  | next _ ha hs ih => exact ih.next (hok _ _ ha) hs

def run (step : σ → α → Option σ) (s : σ) : List α → Option σ
  | [] => some s
  | a :: as => (step s a).bind fun t => run step t as

@[simp] lemma run_nil (s : σ) : run step s [] = some s := rfl

lemma run_cons (s : σ) (a : α) (as : List α) :
    run step s (a :: as) = (step s a).bind fun t => run step t as := rfl

lemma ReachIf.of_run {s t : σ} {as : List α} (hs : ReachIf step init ok s)
    (hok : ∀ u, ∀ a ∈ as, ok u a) (h : run step s as = some t) : ReachIf step init ok t := by
  induction as generalizing s with
  | nil =>
    simp only [run_nil, Option.some.injEq] at h
    exact h ▸ hs
  | cons a as ih =>
    rw [run_cons, Option.bind_eq_some_iff] at h
    obtain ⟨u, hu, hrest⟩ := h
    exact ih (hs.next (hok s a List.mem_cons_self) hu)
      (fun v b hb => hok v b (List.mem_cons_of_mem a hb)) hrest

def runIf (step : σ → α → Option σ) (ok : σ → α → Prop) [∀ s a, Decidable (ok s a)] (s : σ) :
    List α → Option σ
  | [] => some s
  | a :: as => if ok s a then (step s a).bind fun t => runIf step ok t as else none

theorem ReachIf.of_runIf [∀ s a, Decidable (ok s a)] {s t : σ} {as : List α}
    (hs : ReachIf step init ok s) (h : runIf step ok s as = some t) :
    ReachIf step init ok t := by
  induction as generalizing s with
  | nil =>
    simp only [runIf, Option.some.injEq] at h
    exact h ▸ hs
  | cons a as ih =>
    rw [runIf] at h
    split_ifs at h with hok
    obtain ⟨u, hu, hrest⟩ := Option.bind_eq_some_iff.mp h
    exact ih (hs.next hok hu) hrest

/-- A state that a concrete execution ends in is reachable. -/
theorem Reach.of_run {s t : σ} {as : List α} (hs : init s) (h : run step s as = some t) :
    Reach step init t :=
  ReachIf.of_run (ReachIf.start hs) (fun _ _ _ => trivial) h

end NullOS.Lib
