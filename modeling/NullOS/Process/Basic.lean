import Mathlib.Tactic.Lemma

/-!
# Processes

The process states and the process record of `kernel/process.h`.
-/

namespace NullOS

def processMax : Nat := 16

inductive ProcessState
  | unused
  | ready
  | running
  | sleeping
  /-- Waiting on an external event (a disk interrupt, a pipe, a pid), not on the timer; also
  the state of a slot that is reserved and still being filled. -/
  | blocked
  | zombie
deriving DecidableEq, Repr, Inhabited

/-- `process_t`, without the fields nothing here reads.  All occupants of a slot use the same
kernel stack memory, so what matters of `esp` is whose frames it points to: it is the pid
they were built for. -/
structure Proc where
  pid : Nat
  state : ProcessState
  esp : Nat
  cr3 : Nat
  cwdCluster : Nat
  stdinRedirect : Option Nat
  stdoutRedirect : Option Nat
  waitingForPid : Nat
deriving DecidableEq, Repr, Inhabited

namespace Proc

def init : Proc :=
  { pid := 0, state := .unused, esp := 0, cr3 := 0, cwdCluster := 0, stdinRedirect := none,
    stdoutRedirect := none, waitingForPid := 0 }

def wake (p : Proc) : Proc := if p.state = .blocked then { p with state := .ready } else p

/-- The test and the two stores of `process_exit`'s scan. -/
def wakeFor (exitedPid : Nat) (p : Proc) : Proc :=
  if p.state = .blocked ∧ p.waitingForPid = exitedPid then
    { p with waitingForPid := 0, state := .ready }
  else p

@[simp] lemma wake_pid (p : Proc) : p.wake.pid = p.pid := by
  unfold wake
  split <;> rfl

@[simp] lemma wake_stdinRedirect (p : Proc) : p.wake.stdinRedirect = p.stdinRedirect := by
  unfold wake
  split <;> rfl

@[simp] lemma wake_stdoutRedirect (p : Proc) : p.wake.stdoutRedirect = p.stdoutRedirect := by
  unfold wake
  split <;> rfl

@[simp] lemma wake_unused (p : Proc) : p.wake.state = .unused ↔ p.state = .unused := by
  unfold wake
  split <;> simp_all

@[simp] lemma wakeFor_unused (e : Nat) (p : Proc) :
    (p.wakeFor e).state = .unused ↔ p.state = .unused := by
  unfold wakeFor
  split <;> simp_all

@[simp] lemma wakeFor_pid (e : Nat) (p : Proc) : (p.wakeFor e).pid = p.pid := by
  unfold wakeFor
  split <;> rfl

end Proc

end NullOS
