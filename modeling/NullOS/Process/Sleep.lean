import NullOS.Process.Basic
import Mathlib.Logic.Function.Basic
import Mathlib.Algebra.Group.Nat.Defs

/-!
# Sleeping

`process_sleep` computes a deadline in 32 bits, and `process_wake_sleepers` compares it with the
tick counter.  If the deadline wraps, it is small and the next tick wakes the process, unless the
counter wraps at that tick too.
-/

namespace NullOS.Sleep

/-- What `process_sleep` and `process_wake_sleepers` use of a `process_t`. -/
structure Sleeper where
  state : ProcessState
  wakeTick : UInt32
deriving DecidableEq

abbrev Table := Nat → Sleeper

def processSleep (table : Table) (slot : Nat) (now ticks : UInt32) : Table :=
  if (table slot).state = .unused then table
  else Function.update table slot ⟨.sleeping, now + ticks⟩

def wakeSleeper (now : UInt32) (p : Sleeper) : Sleeper :=
  if p.state = .sleeping ∧ now ≥ p.wakeTick then { p with state := .ready } else p

def processWakeSleepers (table : Table) (now : UInt32) : Table :=
  fun i => if i < processMax then wakeSleeper now (table i) else table i

/-- The tables after the calls of `process_wake_sleepers` for the ticks after `t`.  Between two
calls only the process of the slot is as the call before left it. -/
def Ticks (slot : Nat) (t : UInt32) (table : Nat → Table) : Prop :=
  ∀ k, ∃ before : Table, before slot = table k slot ∧
    table (k + 1) = processWakeSleepers before (t + UInt32.ofNat (k + 1))

/-- The process sleeps through the calls before the `d`-th, which makes it ready. -/
def Exact (slot : Nat) (d : UInt32) (table : Nat → Table) : Prop :=
  (∀ k < d.toNat, (table k slot).state = .sleeping) ∧ (table d.toNat slot).state = .ready

section Run

variable {slot : Nat} {t d : UInt32} {table : Nat → Table}

lemma Ticks.next (h : Ticks slot t table) (hslot : slot < processMax) (k : Nat) :
    table (k + 1) slot = wakeSleeper (t + UInt32.ofNat (k + 1)) (table k slot) := by
  obtain ⟨before, hbefore, hnext⟩ := h k
  rw [hnext, processWakeSleepers, if_pos hslot, hbefore]

lemma Ticks.asleep (h : Ticks slot t table) (hslot : slot < processMax) {w : UInt32}
    (h0 : table 0 slot = ⟨.sleeping, w⟩) (n : Nat)
    (hearly : ∀ k, k < n → t + UInt32.ofNat (k + 1) < w) : table n slot = ⟨.sleeping, w⟩ := by
  induction n with
  | zero => exact h0
  | succ n ih =>
    have hsleep := ih fun k hk => hearly k (Nat.lt_succ_of_lt hk)
    rw [h.next hslot, hsleep, wakeSleeper, if_neg]
    rintro ⟨-, hle⟩
    exact UInt32.not_le.mpr (hearly n (Nat.lt_succ_self n)) hle

lemma Ticks.awake (h : Ticks slot t table) (hslot : slot < processMax) {w : UInt32} {n : Nat}
    (hsleep : table n slot = ⟨.sleeping, w⟩) (hdue : w ≤ t + UInt32.ofNat (n + 1)) :
    (table (n + 1) slot).state = .ready := by
  rw [h.next hslot, hsleep, wakeSleeper, if_pos ⟨rfl, hdue⟩]

end Run

lemma toNat_tick (t : UInt32) (k : Nat) : (t + UInt32.ofNat k).toNat = (t.toNat + k) % 2 ^ 32 := by
  rw [UInt32.toNat_add, UInt32.toNat_ofNat']
  omega

/-- **When a sleep is exact.**  A process that goes to sleep for `d` ticks sleeps through `d - 1`
ticks and is ready after `d` if and only if the deadline does not wrap, or the tick counter wraps at
the very next tick. -/
theorem sleep_exact_iff (slot : Nat) (t d : UInt32) (start : Table) (table : Nat → Table)
    (hslot : slot < processMax) (hd : 1 ≤ d) (hd' : d < 0x80000000)
    (hused : (start slot).state ≠ .unused) (h0 : table 0 = processSleep start slot t d)
    (h : Ticks slot t table) :
    Exact slot d table ↔ t.toNat + d.toNat < 2 ^ 32 ∨ t = 0xFFFFFFFF := by
  have hd1 : 1 ≤ d.toNat := UInt32.le_iff_toNat_le.mp hd
  have hd2 : d.toNat < 0x80000000 := UInt32.lt_iff_toNat_lt.mp hd'
  have ht := t.toNat_lt
  have hw : (t + d).toNat = (t.toNat + d.toNat) % 2 ^ 32 := UInt32.toNat_add t d
  have hsleep : table 0 slot = ⟨.sleeping, t + d⟩ := by
    rw [h0, processSleep, if_neg hused, Function.update_self]
  constructor
  · rintro ⟨hasleep, -⟩
    by_contra hwrap
    rw [not_or, ← UInt32.toNat_inj] at hwrap
    -- The deadline has wrapped, so the first tick is late enough, and it is not the last one.
    have hmax : (0xFFFFFFFF : UInt32).toNat = 0xFFFFFFFF := rfl
    have hdue : t + d ≤ t + UInt32.ofNat (0 + 1) := by
      rw [UInt32.le_iff_toNat_le, hw, toNat_tick]
      omega
    have hready := h.awake hslot hsleep hdue
    rw [hasleep 1 (by omega)] at hready
    cases hready
  · intro hcase
    have htick : ∀ k, 1 ≤ k → k ≤ d.toNat →
        ((t + UInt32.ofNat k).toNat < (t + d).toNat ↔ k < d.toNat) := by
      intro k hk hle
      rw [hw, toNat_tick]
      rcases hcase with hfit | rfl
      · rw [Nat.mod_eq_of_lt hfit, Nat.mod_eq_of_lt (by omega)]
        omega
      · have hmax : (0xFFFFFFFF : UInt32).toNat = 0xFFFFFFFF := rfl
        rw [hmax]
        omega
    have hlast : ∀ n, n < d.toNat → table n slot = ⟨.sleeping, t + d⟩ := by
      intro n hn
      refine h.asleep hslot hsleep n fun k hk => ?_
      exact UInt32.lt_iff_toNat_lt.mpr ((htick (k + 1) (by omega) (by omega)).mpr (by omega))
    refine ⟨fun n hn => by rw [hlast n hn], ?_⟩
    obtain ⟨n, hn⟩ : ∃ n, d.toNat = n + 1 := ⟨d.toNat - 1, by omega⟩
    rw [hn]
    refine h.awake hslot (hlast n (by omega)) ?_
    have hdue := htick (n + 1) (by omega) (by omega)
    rw [UInt32.le_iff_toNat_le]
    omega

def quiet (start : Table) (t : UInt32) : Nat → Table
  | 0 => start
  | k + 1 => processWakeSleepers (quiet start t k) (t + UInt32.ofNat (k + 1))

lemma quiet_ticks (slot : Nat) (start : Table) (t : UInt32) : Ticks slot t (quiet start t) :=
  fun k => ⟨quiet start t k, rfl, rfl⟩

def twoRunning : Table := fun i => if i < 2 then ⟨.running, 0⟩ else ⟨.unused, 0⟩

/-- A sleep of three ticks, while another process sleeps for two. -/
theorem sleep_exact_iff_three :
    let start := processSleep twoRunning 1 5 2
    let table := quiet (processSleep start 0 5 3) 5
    (Exact 0 3 table ↔ (5 : UInt32).toNat + (3 : UInt32).toNat < 2 ^ 32 ∨
      (5 : UInt32) = 0xFFFFFFFF) ∧ Exact 0 3 table := by
  have hiff := sleep_exact_iff 0 5 3 (processSleep twoRunning 1 5 2) (quiet _ 5) (by decide)
    (by decide) (by decide) (by decide) rfl (quiet_ticks 0 _ 5)
  exact ⟨hiff, hiff.mpr (.inl (by decide))⟩

/-- A sleep of three ticks from tick 0xFFFFFFFE on: the deadline is 1, and the first tick wakes the
process. -/
theorem sleep_wrap :
    let table := quiet (processSleep twoRunning 0 0xFFFFFFFE 3) 0xFFFFFFFE
    Ticks 0 0xFFFFFFFE table ∧ (table 0 0).state = .sleeping ∧ (table 1 0).state = .ready ∧
      ¬ Exact 0 3 table :=
  ⟨quiet_ticks 0 _ _, by decide, by decide, fun h => absurd (h.1 1 (by decide)) (by decide)⟩

end NullOS.Sleep
