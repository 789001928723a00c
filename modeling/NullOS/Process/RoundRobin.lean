import NullOS.Process.Basic
import Mathlib.Data.List.Nodup
import Mathlib.Logic.Function.Basic

/-!
# Round robin

`scheduler_run_once` looks for a `READY` slot behind the one it picked last.  While the process it
picks runs, and between two calls, anything may happen to the states of the slots.
-/

namespace NullOS.Scheduler

structure Sched where
  states : Nat → ProcessState
  currentIndex : Nat

def Sched.index (s : Sched) (scanned : Nat) : Nat := (s.currentIndex + 1 + scanned) % processMax

def Sched.pick (s : Sched) : Option Nat :=
  ((List.range processMax).find? fun scanned => s.states (s.index scanned) = .ready).map s.index

structure Turn where
  before : (Nat → ProcessState) → Nat → ProcessState
  during : (Nat → ProcessState) → Nat → ProcessState

/-- `scheduler_run_once`.  An interrupt during the scan only makes slots ready: it counts as one
before the call, or after the pick where the scan has passed. -/
def schedulerRunOnce (s : Sched) (during : (Nat → ProcessState) → Nat → ProcessState) : Sched :=
  match s.pick with
  | none => s
  | some i =>
    let states := during (Function.update s.states i .running)
    -- a process that comes back still running was preempted
    { states := if states i = .running then Function.update states i .ready else states
      currentIndex := i }

def Sched.atCall (s : Sched) (e : Turn) : Sched := { s with states := e.before s.states }

def Sched.turn (s : Sched) (e : Turn) : Sched := schedulerRunOnce (s.atCall e) e.during

def picks (s : Sched) : List Turn → List (Option Nat)
  | [] => []
  | e :: es => (s.atCall e).pick :: picks (s.turn e) es

/-- Slot `i` is ready at every call, until it is picked. -/
def Waiting (i : Nat) (s : Sched) : List Turn → Prop
  | [] => True
  | e :: es => (s.atCall e).states i = .ready ∧
      ((s.atCall e).pick = some i ∨ Waiting i (s.turn e) es)

/-- How many slots are looked at before `i` when `c` was picked last. -/
def dist (c i : Nat) : Nat := (i + processMax - 1 - c) % processMax

variable {s : Sched} {e : Turn} {es : List Turn} {c i j x : Nat}

lemma dist_lt : dist c i < processMax := Nat.mod_lt _ (by decide)

lemma dist_inj (hc : c < processMax) (hi : i < processMax) (hj : j < processMax)
    (h : dist c i = dist c j) : i = j := by
  unfold dist processMax at *
  omega

lemma dist_behind (hc : c < processMax) (hi : i < processMax) (hj : j < processMax)
    (hx : x < processMax) (hlt : dist c j < dist c i) (hle : dist j x ≤ dist j i) :
    dist c x = dist c j + 1 + dist j x := by
  unfold dist processMax at *
  omega

lemma pick_of_ready (hc : s.currentIndex < processMax) (hi : i < processMax)
    (hr : s.states i = .ready) :
    ∃ j, s.pick = some j ∧ j < processMax ∧ dist s.currentIndex j ≤ dist s.currentIndex i := by
  have hindex : s.index (dist s.currentIndex i) = i := by
    unfold Sched.index dist processMax at *
    omega
  cases hf : (List.range processMax).find? fun n => s.states (s.index n) = .ready with
  | none =>
    have hno := List.find?_range_eq_none.mp hf (dist s.currentIndex i) dist_lt
    simp [hindex, hr] at hno
  | some m =>
    obtain ⟨-, hm, hfirst⟩ := List.find?_range_eq_some.mp hf
    refine ⟨s.index m, by rw [Sched.pick, hf, Option.map_some], Nat.mod_lt _ (by decide), ?_⟩
    have hle : m ≤ dist s.currentIndex i := by
      by_contra hgt
      have hno := hfirst _ (Nat.lt_of_not_le hgt)
      simp [hindex, hr] at hno
    have hm := List.mem_range.mp hm
    unfold Sched.index dist processMax at *
    omega

lemma currentIndex_turn (hp : (s.atCall e).pick = some j) : (s.turn e).currentIndex = j := by
  rw [Sched.turn, schedulerRunOnce, hp]

/-- By induction on the calls: what is picked before `i` stands in front of it, in the order of the
scan. -/
lemma picks_of_waiting (hi : i < processMax) (hc : s.currentIndex < processMax)
    (hlen : dist s.currentIndex i < es.length) (hw : Waiting i s es) :
    ∃ (l : List Nat) (rest : List (Option Nat)), picks s es = l.map some ++ some i :: rest ∧
      l.Pairwise (fun x y => dist s.currentIndex x < dist s.currentIndex y) ∧
      ∀ x ∈ l, x < processMax ∧ dist s.currentIndex x < dist s.currentIndex i := by
  induction es generalizing s with
  | nil => exact absurd hlen (Nat.not_lt_zero _)
  | cons e es ih =>
    obtain ⟨hr, hnext⟩ := hw
    obtain ⟨j, hp, hj, hle⟩ := pick_of_ready (s := s.atCall e) hc hi hr
    by_cases hji : j = i
    · subst hji
      exact ⟨[], picks (s.turn e) es, by rw [picks, hp]; rfl, .nil, nofun⟩
    have hw' := hnext.resolve_left (by rw [hp]; simpa using hji)
    have hlt : dist s.currentIndex j < dist s.currentIndex i :=
      Nat.lt_of_le_of_ne hle fun h => hji (dist_inj hc hj hi h)
    have hcur := currentIndex_turn hp
    have hdist := dist_behind hc hi hj hi hlt (Nat.le_refl _)
    rw [List.length_cons] at hlen
    obtain ⟨l, rest, hl, hord, hfront⟩ := ih (hcur ▸ hj) (by rw [hcur]; omega) hw'
    rw [hcur] at hord hfront
    have hshift : ∀ x ∈ l, dist s.currentIndex x = dist s.currentIndex j + 1 + dist j x :=
      fun x hx => dist_behind hc hi hj (hfront x hx).1 hlt (Nat.le_of_lt (hfront x hx).2)
    refine ⟨j :: l, rest, by rw [picks, hp, hl]; rfl, .cons (fun x hx => ?_) ?_, ?_⟩
    · rw [hshift x hx]
      omega
    · refine hord.imp_of_mem fun {x y} hx hy hxy => ?_
      rw [hshift x hx, hshift y hy]
      omega
    · intro x hx
      rcases List.mem_cons.mp hx with rfl | hx
      · exact ⟨hj, hlt⟩
      · have hxd := (hfront x hx).2
        exact ⟨(hfront x hx).1, by rw [hshift x hx]; omega⟩

/-- **Nobody is picked twice while another waits**: a slot that stays ready is picked within
`PROCESS_MAX` calls, and before that every other slot at most once. -/
theorem ready_picked_in_turn (hi : i < processMax) (hc : s.currentIndex < processMax)
    (hlen : processMax ≤ es.length) (hw : Waiting i s es) :
    ∃ (l : List Nat) (rest : List (Option Nat)), picks s es = l.map some ++ some i :: rest ∧
      (l ++ [i]).Nodup ∧ ∀ x ∈ l, x < processMax := by
  obtain ⟨l, rest, hl, hord, hfront⟩ := picks_of_waiting hi hc (Nat.lt_of_lt_of_le dist_lt hlen) hw
  refine ⟨l, rest, hl, ?_, fun x hx => (hfront x hx).1⟩
  have hnodup : l.Nodup := by
    refine List.Pairwise.imp (fun {x y} hxy he => ?_) hord
    exact Nat.ne_of_lt hxy (by rw [he])
  exact hnodup.append (List.nodup_singleton i) fun x hx hxi =>
    Nat.ne_of_lt (hfront x hx).2 (by rw [List.mem_singleton.mp hxi])

def quiet : Turn := ⟨id, id⟩

def threeReady : Sched := ⟨fun i => if i < 3 then .ready else .unused, 0⟩

theorem ready_picked_in_turn_three :
    ∃ (l : List Nat) (rest : List (Option Nat)),
      picks threeReady (List.replicate processMax quiet) = l.map some ++ some 0 :: rest ∧
      (l ++ [0]).Nodup ∧ ∀ x ∈ l, x < processMax :=
  ready_picked_in_turn (by decide) (by decide) (by decide)
    (And.intro rfl (.inr (And.intro rfl (.inr (And.intro rfl (.inl rfl))))))

end NullOS.Scheduler
