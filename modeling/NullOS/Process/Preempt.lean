import NullOS.Kernel.Syscall

/-!
# System calls under preemption

The calls that create and end processes, as step sequences.  Interrupts are on inside a call, and
the timer may preempt the current process between any two steps as long as its slot is `RUNNING`;
the scheduler then picks any `READY` slot.  A thread is identified by the pid of its process, and
what it does next is its continuation `Cont`.  The saved stack pointer of a slot names the thread
that runs when the slot is picked.

`dirOf`, `rowOf`, `waitBy` and `rets` are bookkeeping: the directory and the descriptor row a
process was created with, who last entered `sys_wait` on a slot, and the pids allocated and
returned.
-/

namespace NullOS.Preempt

open Vfs

/-- The process a call is creating: its slot, the pid it was given, its page directory and,
for `sys_exec_pipe`, where its redirects come from.  `oom` says that `fork` will run out of
memory. -/
structure Build where
  slot : Nat
  pid : Nat
  dir : Nat
  startBlocked : Bool := false
  oom : Bool := false
  inSrc : Option Nat := none
  outSrc : Option Nat := none

inductive Cont
  /-- Ring 3, or anywhere in the kernel outside the calls modelled here. -/
  | user
  -- `process_spawn_user`, after the slot is claimed.
  | spawnEsp (b : Build)
  | spawnCr3 (b : Build)
  | spawnRedirects (b : Build)
  | spawnPublish (b : Build)
  -- The rest of `sys_exec_pipe`.
  | seedStdin (b : Build)
  | seedStdout (b : Build)
  | makeReadyTest (b : Build)
  | makeReadySet (b : Build)
  /-- `return p->pid;` of `sys_exec`, `sys_exec_pipe` and `sys_fork`. -/
  | readPid (b : Build)
  -- `process_fork`, after the slot is claimed, and the rest of `sys_fork`.
  | forkFill (b : Build)
  | forkWait (b : Build)
  | forkCopy (b : Build)
  | forkUnused (b : Build)
  | forkPid (b : Build)
  | forkCr3 (b : Build)
  | forkEsp (b : Build)
  | forkReady (b : Build)
  | forkRow (b : Build) (j : Nat)
  -- `sys_exit`.
  | exitClose (j : Nat)
  | exitEnd
  -- `sys_kill`, and `process_exit` of another process.
  | killScan (pid i : Nat)
  | killTest (i : Nat)
  | killRead (i : Nat)
  | killUnused (i exitedPid : Nat)
  | killPid (i exitedPid : Nat)
  | killWake (exitedPid j : Nat)
  | killWaiting (exitedPid j : Nat)
  | killReady (exitedPid j : Nat)
  -- `sys_wait`.
  | waitCheck (pid : Nat)
  | waitClear (pid : Nat)

structure Sys where
  k : Kernel
  thread : Nat
  conts : Nat → Cont
  dirOf : Nat → Nat
  rowOf : Nat → Nat → VfsFd
  waitBy : Nat → Nat
  rets : List (Nat × Nat)

namespace Sys

def goto (s : Sys) (c : Cont) : Sys := { s with conts := Function.update s.conts s.thread c }

def setProc (s : Sys) (i : Nat) (p : Proc) : Sys := { s with k := s.k.setProc i p }

def cont (s : Sys) : Cont := s.conts s.thread

end Sys

def placeFd (row : Nat → VfsFd) : Option VfsFd → Nat → VfsFd
  | none => row
  | some fd =>
      match (List.range fdPerProc).find? fun j => !(row j).used with
      | none => row
      | some j => Function.update row j fd

def stepThread (s : Sys) (c : Nat) : Option Sys :=
  match s.cont with
  | .user => none
  | .spawnEsp b =>
      some ((s.setProc b.slot { s.k.procs b.slot with esp := b.pid }).goto (.spawnCr3 b))
  | .spawnCr3 b =>
      some ((s.setProc b.slot { s.k.procs b.slot with cr3 := b.dir }).goto (.spawnRedirects b))
  | .spawnRedirects b =>
      some ((s.setProc b.slot { s.k.procs b.slot with
        stdinRedirect := none, stdoutRedirect := none }).goto (.spawnPublish b))
  | .spawnPublish b =>
      some (if b.startBlocked then s.goto (.seedStdin b)
        else (s.setProc b.slot { s.k.procs b.slot with state := .ready }).goto (.readPid b))
  | .seedStdin b =>
      -- without a free descriptor the new process is ended again
      match s.k.seedStdin b.slot c b.inSrc with
      | none => some (s.goto (.killTest b.slot))
      | some k => some ({ s with k }.goto (.seedStdout b))
  | .seedStdout b =>
      match s.k.seedStdout b.slot c b.outSrc with
      | none => some (s.goto (.killTest b.slot))
      | some k => some ({ s with k }.goto (.makeReadyTest b))
  | .makeReadyTest b =>
      some (s.goto (if (s.k.procs b.slot).state = .blocked then .makeReadySet b else .readPid b))
  | .makeReadySet b =>
      some ((s.setProc b.slot { s.k.procs b.slot with state := .ready }).goto (.readPid b))
  | .readPid b =>
      some ({ s with rets := (b.pid, (s.k.procs b.slot).pid) :: s.rets }.goto .user)
  | .forkFill b =>
      some ((s.setProc b.slot { s.k.procs b.slot with
        cwdCluster := (s.k.procs c).cwdCluster
        stdinRedirect := (s.k.procs c).stdinRedirect
        stdoutRedirect := (s.k.procs c).stdoutRedirect }).goto (.forkWait b))
  | .forkWait b =>
      some ((s.setProc b.slot { s.k.procs b.slot with waitingForPid := 0 }).goto (.forkCopy b))
  | .forkCopy b => some (s.goto (if b.oom then .forkUnused b else .forkCr3 b))
  | .forkUnused b =>
      some ((s.setProc b.slot { s.k.procs b.slot with state := .unused }).goto (.forkPid b))
  | .forkPid b => some ((s.setProc b.slot { s.k.procs b.slot with pid := 0 }).goto .user)
  | .forkCr3 b =>
      some ((s.setProc b.slot { s.k.procs b.slot with cr3 := b.dir }).goto (.forkEsp b))
  | .forkEsp b =>
      some ((s.setProc b.slot { s.k.procs b.slot with esp := b.pid }).goto (.forkReady b))
  | .forkReady b =>
      some ((s.setProc b.slot { s.k.procs b.slot with state := .ready }).goto (.forkRow b 0))
  | .forkRow b j =>
      some (if j < fdPerProc then
          { s with k := s.k.copyFd b.slot j (s.k.fdTable c j) }.goto (.forkRow b (j + 1))
        else s.goto (.readPid b))
  | .exitClose j =>
      some (if j < fdPerProc then
          { s with
            k := if (s.k.fdTable c j).used then s.k.vfsClose c j else s.k
            rowOf := Function.update s.rowOf s.thread (Function.update (s.rowOf s.thread) j
              { s.k.fdTable c j with used := false }) }.goto (.exitClose (j + 1))
        else s.goto .exitEnd)
  | .exitEnd =>
      -- with its slot no longer `RUNNING` the timer leaves the process alone: `process_exit`
      -- and the switch to the scheduler are one step
      some { s with k := { s.k.processExit c with current := none } }
  | .killScan pid i =>
      some (s.goto (if processMax ≤ i then .user
        else if (s.k.procs i).pid = pid ∧ (s.k.procs i).state ≠ .unused then .killTest i
        else .killScan pid (i + 1)))
  | .killTest i =>
      some (s.goto (if (s.k.procs i).state = .unused then .user else .killRead i))
  | .killRead i => some (s.goto (.killUnused i (s.k.procs i).pid))
  | .killUnused i e =>
      some ((s.setProc i { s.k.procs i with state := .unused }).goto (.killPid i e))
  | .killPid i e => some ((s.setProc i { s.k.procs i with pid := 0 }).goto (.killWake e 0))
  | .killWake e j =>
      some (s.goto (if processMax ≤ j then .user
        else if (s.k.procs j).state = .blocked ∧ (s.k.procs j).waitingForPid = e then
          .killWaiting e j
        else .killWake e (j + 1)))
  | .killWaiting e j =>
      some ((s.setProc j { s.k.procs j with waitingForPid := 0 }).goto (.killReady e j))
  | .killReady e j =>
      some ((s.setProc j { s.k.procs j with state := .ready }).goto (.killWake e (j + 1)))
  | .waitCheck pid =>
      -- once `BLOCKED` the process is not preempted before it has switched away
      some (if ∃ i < processMax, (s.k.procs i).pid = pid ∧ (s.k.procs i).state ≠ .unused then
          { s with
            k := { s.k.setProc c { s.k.procs c with
              waitingForPid := pid, state := .blocked, esp := s.thread } with current := none }
            waitBy := Function.update s.waitBy c s.thread }.goto (.waitClear pid)
        else s.goto .user)
  | .waitClear pid =>
      some ((s.setProc c { s.k.procs c with waitingForPid := 0 }).goto (.waitCheck pid))

/-! ## The machine -/

inductive Act
  | exec (dir : Nat)
  | execPipe (dir stdinFd stdoutFd : Nat)
  | fork (dir : Nat) (oom : Bool)
  | exit
  | kill (pid : Nat)
  | wait (pid : Nat)
  /-- Any other call by which it changes one of its own descriptors. -/
  | ownFd (j : Nat) (fd : VfsFd)
  | step
  | preempt
  | run (j : Nat)
  /-- It picks slot `j`, and the timer fires in `scheduler_run_once` when `state = RUNNING` is
  stored and `ticks_run` is not: the stack pointer saved in the slot is that of `kmain`. -/
  | tickInRun (j : Nat)
  | spawn (dir : Nat)

def noFiles : Nat → VfsFd := fun _ => default

/-- The number that stands for the thread of `kmain`. -/
def kmain : Nat := 0

/-- A claimed slot: its new occupant gets a thread that has not run, and its books are opened
with the directory `dir` and the row `row`. -/
def Sys.openBooks (s : Sys) (k : Kernel) (slot dir : Nat) (row : Nat → VfsFd) : Sys :=
  { s with
    k
    conts := Function.update s.conts (k.procs slot).pid .user
    dirOf := Function.update s.dirOf (k.procs slot).pid dir
    rowOf := Function.update s.rowOf (k.procs slot).pid row }

def call (s : Sys) (c : Nat) : Act → Option Sys
  | .exec dir =>
      match s.k.spawnClaim with
      | none => some s
      | some (slot, k) =>
          some ((s.openBooks k slot dir noFiles).goto
            (.spawnEsp { slot, pid := (k.procs slot).pid, dir }))
  | .execPipe dir stdinFd stdoutFd =>
      match s.k.redirectSrc c stdinFd, s.k.redirectSrc c stdoutFd with
      | some inSrc, some outSrc =>
          match s.k.spawnClaim with
          | none => some s
          | some (slot, k) =>
              some ((s.openBooks k slot dir (placeFd (placeFd noFiles
                (inSrc.map (s.rowOf s.thread))) (outSrc.map (s.rowOf s.thread)))).goto
                (.spawnEsp { slot, pid := (k.procs slot).pid, dir, startBlocked := true,
                             inSrc, outSrc }))
      | _, _ => some s
  | .fork dir oom =>
      match s.k.forkClaim with
      | none => some s
      | some (slot, k) =>
          some ((s.openBooks k slot dir (s.rowOf s.thread)).goto
            (.forkFill { slot, pid := (k.procs slot).pid, dir, oom }))
  | .exit => some (s.goto (.exitClose 0))
  | .kill pid => some (s.goto (.killScan pid 0))
  | .wait pid => some (s.goto (.waitCheck pid))
  | .ownFd j fd =>
      some { s with
        k := s.k.setFd c j fd
        rowOf := Function.update s.rowOf s.thread (Function.update (s.rowOf s.thread) j fd) }
  | _ => none

def step (s : Sys) (a : Act) : Option Sys :=
  match s.k.current, a with
  | some c, .step => stepThread s c
  | some c, .preempt =>
      if (s.k.procs c).state = .running then
        some { s with k := { s.k.setProc c { s.k.procs c with
          state := .ready, esp := s.thread } with current := none } }
      else none
  | none, .run j =>
      if j < processMax ∧ (s.k.procs j).state = .ready then
        some { s with
          k := { s.k.setProc j { s.k.procs j with state := .running } with current := some j }
          thread := (s.k.procs j).esp }
      else none
  | none, .spawn dir =>
      (s.k.processSpawnUser dir 0 false).map fun (slot, k) =>
        s.openBooks k slot dir noFiles
  | none, .tickInRun j =>
      if j < processMax ∧ (s.k.procs j).state = .ready then
        some (s.setProc j { s.k.procs j with esp := kmain })
      else none
  | some c, a =>
      match s.cont with
      | .user => call s c a
      | _ => none
  | none, _ => none

lemma step_cases {s t : Sys} {a : Act} (hs : step s a = some t) :
    (∃ c, s.k.current = some c ∧ a = .step ∧ stepThread s c = some t) ∨
    (∃ c, s.k.current = some c ∧ a = .preempt ∧ (s.k.procs c).state = .running ∧
      t = { s with k := { s.k.setProc c { s.k.procs c with
        state := .ready, esp := s.thread } with current := none } }) ∨
    (∃ j, s.k.current = none ∧ a = .run j ∧ j < processMax ∧ (s.k.procs j).state = .ready ∧
      t = { s with
        k := { s.k.setProc j { s.k.procs j with state := .running } with current := some j }
        thread := (s.k.procs j).esp }) ∨
    (∃ dir slot k, s.k.current = none ∧ a = .spawn dir ∧
      s.k.processSpawnUser dir 0 false = some (slot, k) ∧
      t = s.openBooks k slot dir noFiles) ∨
    (∃ c, s.k.current = some c ∧ s.cont = .user ∧ call s c a = some t) ∨
    ∃ j, a = .tickInRun j ∧ t = s.setProc j { s.k.procs j with esp := kmain } := by
  unfold step at hs
  split at hs
  case h_1 c hc => exact .inl ⟨c, hc, rfl, hs⟩
  case h_2 c hc =>
    split_ifs at hs with hr
    cases hs
    exact .inr (.inl ⟨c, hc, rfl, hr, rfl⟩)
  case h_3 j hc =>
    split_ifs at hs with hr
    cases hs
    exact .inr (.inr (.inl ⟨j, hc, rfl, hr.1, hr.2, rfl⟩))
  case h_4 dir hc =>
    obtain ⟨⟨slot, k⟩, hk, rfl⟩ := Option.map_eq_some_iff.mp hs
    exact .inr (.inr (.inr (.inl ⟨dir, slot, k, hc, rfl, hk, rfl⟩)))
  case h_5 j _ =>
    split_ifs at hs
    cases hs
    exact .inr (.inr (.inr (.inr (.inr ⟨j, rfl, rfl⟩))))
  case h_6 c hc _ _ =>
    split at hs
    case h_1 hu => exact .inr (.inr (.inr (.inr (.inl ⟨c, hc, hu, hs⟩))))
    case h_2 => simp at hs
  case h_7 => simp at hs

def Act.Spawns : Act → Prop
  | .exec _ | .execPipe _ _ _ => True
  | _ => False

def Act.Forks : Act → Prop
  | .fork _ _ => True
  | _ => False

/-- The call `a` of slot `c` claims a slot: `x` is what it puts there, `b` the process it goes on
to build at the point `n`, and `row` the row that process must start with. -/
structure Claim (s : Sys) (c : Nat) (a : Act) (b : Build) (x : Proc) (row : Nat → VfsFd)
    (n : Cont) : Prop where
  free : s.k.freeSlot = some b.slot
  pid : x.pid = s.k.nextPid
  state : x.state = .blocked
  buildPid : b.pid = s.k.nextPid
  point : (a.Spawns ∧ n = .spawnEsp b ∧ x.waitingForPid = 0 ∧
      row = placeFd (placeFd noFiles (b.inSrc.map (s.rowOf s.thread)))
        (b.outSrc.map (s.rowOf s.thread)) ∧
      (∀ idx ∈ b.inSrc, ∃ fd, s.k.redirectSrc c fd = some (some idx)) ∧
      (∀ idx ∈ b.outSrc, ∃ fd, s.k.redirectSrc c fd = some (some idx)) ∧
      (b.startBlocked = false → b.inSrc = none ∧ b.outSrc = none)) ∨
    (a.Forks ∧ n = .forkFill b ∧ x.waitingForPid = (s.k.procs b.slot).waitingForPid ∧
      row = s.rowOf s.thread)

def Sys.claim (s : Sys) (b : Build) (x : Proc) (row : Nat → VfsFd) (n : Cont) : Sys :=
  (s.openBooks { s.k with
    nextPid := (s.k.nextPid + 1) % 0x100000000
    procs := Function.update s.k.procs b.slot x } b.slot b.dir row).goto n

section Claim

variable {s t : Sys} {c : Nat} {a : Act} {b : Build} {x : Proc} {row : Nat → VfsFd} {n : Cont}

lemma Claim.lt (h : Claim s c a b x row n) : b.slot < processMax :=
  (Kernel.find?_range_some h.free).1

lemma Claim.unused (h : Claim s c a b x row n) : (s.k.procs b.slot).state = .unused := by
  simpa using (Kernel.find?_range_some h.free).2

lemma Claim.acts (h : Claim s c a b x row n) : a.Spawns ∨ a.Forks :=
  h.point.imp (·.1) (·.1)

lemma call_cases (hs : call s c a = some t) :
    t = s ∨ (∃ b x row n, Claim s c a b x row n ∧ t = s.claim b x row n) ∨
      (∃ n, (n = .exitClose 0 ∨ (∃ pid, n = .killScan pid 0) ∨ ∃ pid, n = .waitCheck pid) ∧
        t = s.goto n) ∨
      ∃ j fd, t = { s with
        k := s.k.setFd c j fd
        rowOf := Function.update s.rowOf s.thread (Function.update (s.rowOf s.thread) j fd) } := by
  cases a with
  | exec dir =>
    simp only [call] at hs
    split at hs
    case h_1 =>
      cases hs
      exact .inl rfl
    case h_2 slot k hk =>
      obtain ⟨-, -, hkeq⟩ := Kernel.spawnClaim_some hk
      have hpid : (k.procs slot).pid = s.k.nextPid := by simp [hkeq]
      rw [hpid, hkeq] at hs
      cases hs
      refine .inr (.inl ⟨{ slot, pid := s.k.nextPid, dir }, _, _,
        _, ?_, rfl⟩)
      exact ⟨Kernel.freeSlot_of_spawnClaim hk, rfl, rfl, rfl,
        .inl ⟨trivial, rfl, rfl, rfl, by simp, by simp, fun _ => ⟨rfl, rfl⟩⟩⟩
  | execPipe dir stdinFd stdoutFd =>
    simp only [call] at hs
    split at hs
    case h_2 =>
      cases hs
      exact .inl rfl
    case h_1 inSrc outSrc hin hout =>
      split at hs
      case h_1 =>
        cases hs
        exact .inl rfl
      case h_2 slot k hk =>
        obtain ⟨-, -, hkeq⟩ := Kernel.spawnClaim_some hk
        have hpid : (k.procs slot).pid = s.k.nextPid := by simp [hkeq]
        rw [hpid, hkeq] at hs
        cases hs
        refine .inr (.inl ⟨{ slot, pid := s.k.nextPid, dir, startBlocked := true, inSrc, outSrc },
          _, _, _, ?_, rfl⟩)
        refine ⟨Kernel.freeSlot_of_spawnClaim hk, rfl, rfl, rfl,
          .inl ⟨trivial, rfl, rfl, rfl, fun idx hidx => ⟨stdinFd, ?_⟩,
            fun idx hidx => ⟨stdoutFd, ?_⟩, by simp⟩⟩
        · exact hin.trans (congrArg some (Option.mem_def.mp hidx))
        · exact hout.trans (congrArg some (Option.mem_def.mp hidx))
  | fork dir oom =>
    simp only [call] at hs
    split at hs
    case h_1 =>
      cases hs
      exact .inl rfl
    case h_2 slot k hk =>
      obtain ⟨-, -, hkeq⟩ := Kernel.forkClaim_some hk
      have hpid : (k.procs slot).pid = s.k.nextPid := by simp [hkeq]
      rw [hpid, hkeq] at hs
      cases hs
      refine .inr (.inl ⟨{ slot, pid := s.k.nextPid, dir, oom }, _, _,
        _, ?_, rfl⟩)
      exact ⟨Kernel.freeSlot_of_forkClaim hk, rfl, rfl, rfl, .inr ⟨trivial, rfl, rfl, rfl⟩⟩
  | exit =>
    cases hs
    exact .inr (.inr (.inl ⟨_, .inl rfl, rfl⟩))
  | kill pid =>
    cases hs
    exact .inr (.inr (.inl ⟨_, .inr (.inl ⟨pid, rfl⟩), rfl⟩))
  | wait pid =>
    cases hs
    exact .inr (.inr (.inl ⟨_, .inr (.inr ⟨pid, rfl⟩), rfl⟩))
  | ownFd j fd =>
    cases hs
    exact .inr (.inr (.inr ⟨j, fd, rfl⟩))
  | step | preempt | run | tickInRun | spawn => simp [call] at hs

end Claim

/-- Entry `idx` of the caller's row has become descriptor `j` of the process `b`, and its redirects
have been set. -/
def Sys.seeded (s : Sys) (c : Nat) (b : Build) (j idx : Nat) (r w : Option Nat) : Sys :=
  { s with k := s.k.copyFd b.slot j (s.k.fdTable c idx) }.setProc b.slot
    { s.k.procs b.slot with stdinRedirect := r, stdoutRedirect := w }

/-- Everything a step of `sys_exec_pipe` over a redirect can be.  Without a free descriptor the new
process is ended again. -/
lemma seed_cases {s t : Sys} {c : Nat} {b : Build}
    (hcont : s.cont = .seedStdin b ∨ s.cont = .seedStdout b) (hs : stepThread s c = some t) :
    t = s.goto (.killTest b.slot) ∨
      ∃ src n, (s.cont = .seedStdin b ∧ src = b.inSrc ∧ n = .seedStdout b ∨
          s.cont = .seedStdout b ∧ src = b.outSrc ∧ n = .makeReadyTest b) ∧
        (src = none ∧ t = s.goto n ∨ ∃ idx j r w, src = some idx ∧ s.k.freeFd b.slot = some j ∧
          t = (s.seeded c b j idx r w).goto n) := by
  have hcopy : ∀ {j : Nat} {fd : VfsFd}, (s.k.copyFd b.slot j fd).procs b.slot =
      s.k.procs b.slot := by simp
  unfold stepThread at hs
  rcases hcont with hcont | hcont
  all_goals
    rw [hcont] at hs
    dsimp only at hs
  · split at hs
    · cases hs
      exact .inl rfl
    case h_2 k hk =>
      cases hs
      refine .inr ⟨_, _, .inl ⟨hcont, rfl, rfl⟩, ?_⟩
      cases hsrc : b.inSrc with
      | none =>
        rw [hsrc] at hk
        cases hk
        exact .inl ⟨rfl, rfl⟩
      | some idx =>
        rw [hsrc] at hk
        obtain ⟨j, hj, rfl⟩ := Option.map_eq_some_iff.mp hk
        refine .inr ⟨idx, j, some (fdBase + j), (s.k.procs b.slot).stdoutRedirect, rfl, hj, ?_⟩
        rw [Sys.seeded, ← hcopy]
        rfl
  · split at hs
    · cases hs
      exact .inl rfl
    case h_2 k hk =>
      cases hs
      refine .inr ⟨_, _, .inr ⟨hcont, rfl, rfl⟩, ?_⟩
      cases hsrc : b.outSrc with
      | none =>
        rw [hsrc] at hk
        cases hk
        exact .inl ⟨rfl, rfl⟩
      | some idx =>
        rw [hsrc] at hk
        obtain ⟨j, hj, rfl⟩ := Option.map_eq_some_iff.mp hk
        refine .inr ⟨idx, j, (s.k.procs b.slot).stdinRedirect, some (fdBase + j), rfl, hj, ?_⟩
        rw [Sys.seeded, ← hcopy]
        rfl

lemma stepThread_conts {s t : Sys} {c : Nat} (hs : stepThread s c = some t) :
    t.thread = s.thread ∧ ∃ n, t.conts = Function.update s.conts s.thread n := by
  unfold stepThread at hs
  cases hcont : s.cont
  all_goals
    rw [hcont] at hs
    dsimp only at hs
  case user => simp at hs
  case exitEnd =>
    cases hs
    exact ⟨rfl, s.conts s.thread, by simp⟩
  case seedStdin | seedStdout | spawnPublish | forkRow | exitClose | waitCheck =>
    split at hs
    all_goals
      cases hs
      exact ⟨rfl, _, rfl⟩
  all_goals
    cases hs
    exact ⟨rfl, _, rfl⟩

def boot : Sys :=
  { k := Kernel.boot, thread := 0, conts := fun _ => .user, dirOf := fun _ => 0,
    rowOf := fun _ _ => default, waitBy := fun _ => 0, rets := [] }

end NullOS.Preempt
