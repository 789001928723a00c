import NullOS.Kernel.State
import Mathlib.Tactic.SplitIfs

/-!
# System calls on descriptors and processes

The calls of `kernel/syscall.c` that create, copy or drop descriptors, each run to completion.  A
result `none` is the `(uint32_t)-1` of the source.  What a call learns from the rest of the system
is an argument: whether `copy_to_user` succeeds, and the page directory that `exec` or `fork`
builds.
-/

namespace NullOS.Kernel

open Ipc Vfs

def pipeEnd (fd : VfsFd) (b : VfsBackend) (i : Nat) : VfsFd :=
  { fd with used := true, backend := b, first := i, size := 0, pos := 0 }

/-- `sys_pipe`.  The two descriptors are what is copied to the caller. -/
def sysPipe (s : Kernel) (copyOk : Bool) : Option (Nat × Nat) × Kernel :=
  match s.current with
  | none => (none, s)
  | some slot =>
      match s.pipeCreate with
      | none => (none, s)
      | some (i, t) =>
          match t.freeFd slot with
          | none => (none, (t.pipeReleaseRead i).pipeReleaseWrite i)
          | some rj =>
              let t := t.setFd slot rj (pipeEnd (t.fdTable slot rj) .pipeRead i)
              match (List.range fdPerProc).find? fun j => j ≠ rj && !(t.fdTable slot j).used with
              | none => (none, (t.vfsClose slot rj).pipeReleaseWrite i)
              | some wj =>
                  let t := t.setFd slot wj (pipeEnd (t.fdTable slot wj) .pipeWrite i)
                  if copyOk then (some (fdBase + rj, fdBase + wj), t)
                  else (none, (t.vfsClose slot rj).vfsClose slot wj)

/-- The entry of the caller's row that an open descriptor number names. -/
def userFd (s : Kernel) (slot fd : Nat) : Option Nat :=
  if fd < fdBase then none
  else if fdPerProc ≤ fd - fdBase ∨ (s.fdTable slot (fd - fdBase)).used = false then none
  else some (fd - fdBase)

lemma userFd_some {s : Kernel} {slot fd j : Nat} (h : s.userFd slot fd = some j) :
    j < fdPerProc ∧ (s.fdTable slot j).used = true := by
  unfold userFd at h
  split_ifs at h with hbase hfree
  cases h
  rw [not_or] at hfree
  exact ⟨Nat.not_le.mp hfree.1, by simpa using hfree.2⟩

/-- `sys_open` and `sys_create`: the first free entry gets what the lookup found, if
anything. -/
def sysOpen (s : Kernel) (file : Option VfsFd) : Option Nat × Kernel :=
  match s.current with
  | none => (none, s)
  | some slot =>
      match s.freeFd slot, file with
      | some j, some fd => (some (fdBase + j), s.setFd slot j fd)
      | _, _ => (none, s)

def sysClose (s : Kernel) (fd : Nat) : Option Nat × Kernel :=
  match s.current with
  | none => (none, s)
  | some slot =>
      match s.userFd slot fd with
      | none => (none, s)
      | some j => (some 0, s.vfsClose slot j)

def forkRow (s : Kernel) (parent child : Nat) : Nat → Kernel
  | 0 => s
  | n + 1 =>
      let t := forkRow s parent child n
      t.copyFd child n (t.fdTable parent n)

def sysFork (s : Kernel) (dir : Option Nat) : Option Nat × Kernel :=
  match s.current with
  | none => (none, s)
  | some parent =>
      match s.processFork parent dir with
      | (none, t) => (none, t)
      | (some child, t) =>
          let t := t.forkRow parent child fdPerProc
          (some (t.procs child).pid, t)

/-- `exec`, from the point on where the program is loaded. -/
def exec (s : Kernel) (dir : Option Nat) (cwdCluster : Nat) (startBlocked : Bool) :
    Option (Nat × Kernel) :=
  dir.bind fun cr3 => s.processSpawnUser cr3 cwdCluster startBlocked

def sysExec (s : Kernel) (dir : Option Nat) : Option Nat × Kernel :=
  match s.current with
  | none => (none, s)
  | some slot =>
      match s.exec dir (s.procs slot).cwdCluster false with
      | none => (none, s)
      | some (new, t) => (some (t.procs new).pid, t)

/-- The source of a redirect: nothing for `(uint32_t)-1`, else an open descriptor of the
caller. -/
def redirectSrc (s : Kernel) (slot fd : Nat) : Option (Option Nat) :=
  if fd = 0xFFFFFFFF then some none else (s.userFd slot fd).map some

/-- The caller's entry `idx` becomes the first free descriptor of the new process, and its
descriptor 0. -/
def seedStdin (s : Kernel) (new slot : Nat) : Option Nat → Option Kernel
  | none => some s
  | some idx =>
      (s.freeFd new).map fun j =>
        let t := s.copyFd new j (s.fdTable slot idx)
        t.setProc new { t.procs new with stdinRedirect := some (fdBase + j) }

def seedStdout (s : Kernel) (new slot : Nat) : Option Nat → Option Kernel
  | none => some s
  | some idx =>
      (s.freeFd new).map fun j =>
        let t := s.copyFd new j (s.fdTable slot idx)
        t.setProc new { t.procs new with stdoutRedirect := some (fdBase + j) }

def sysExecPipe (s : Kernel) (dir : Option Nat) (stdinFd stdoutFd : Nat) :
    Option Nat × Kernel :=
  match s.current with
  | none => (none, s)
  | some slot =>
      match s.redirectSrc slot stdinFd, s.redirectSrc slot stdoutFd with
      | some inSrc, some outSrc =>
          match s.exec dir (s.procs slot).cwdCluster true with
          | none => (none, s)
          | some (new, t) =>
              match t.seedStdin new slot inSrc with
              | none => (none, t.processExit new)
              | some u =>
                  match u.seedStdout new slot outSrc with
                  | none => (none, u.processExit new)
                  | some v =>
                      let v := v.processMakeReady new
                      (some (v.procs new).pid, v)
      | _, _ => (none, s)

def closeRow (s : Kernel) (slot : Nat) : Nat → Kernel
  | 0 => s
  | n + 1 =>
      let t := closeRow s slot n
      if (t.fdTable slot n).used then t.vfsClose slot n else t

/-- `sys_exit`: the descriptors are closed, the slot is given up, and the caller never runs
again. -/
def sysExit (s : Kernel) : Kernel :=
  match s.current with
  | none => s
  | some slot => { (s.closeRow slot fdPerProc).processExit slot with current := none }

def killTarget (s : Kernel) (pid : Nat) : Option Nat :=
  (List.range processMax).find? fun i =>
    (s.procs i).pid = pid && (s.procs i).state ≠ .unused

def sysKill (s : Kernel) (pid : Nat) : Option Nat × Kernel :=
  match s.killTarget pid with
  | none => (none, s)
  | some slot => (some 0, s.processExit slot)

/-! ## The machine -/

inductive Act
  | pipe (copyOk : Bool)
  | openFile (file : Option VfsFd)
  | close (fd : Nat)
  | fork (dir : Option Nat)
  | exec (dir : Option Nat)
  | execPipe (dir : Option Nat) (stdinFd stdoutFd : Nat)
  | exit
  | kill (pid : Nat)
  | schedule (j : Nat)
  | spawn (cr3 : Nat)

def yieldCurrent (s : Kernel) : Kernel :=
  match s.current with
  | none => s
  | some c =>
      if (s.procs c).state = .running then s.setProc c { s.procs c with state := .ready } else s

def runSlot (s : Kernel) (j : Nat) : Kernel :=
  { s.setProc j { s.procs j with state := .running } with current := some j }

def step (s : Kernel) : Act → Option Kernel
  | .pipe copyOk => some (s.sysPipe copyOk).2
  | .openFile file =>
      -- `vfs_open` and `vfs_create` only ever produce open ramfs and FAT16 descriptors
      if ∀ fd ∈ file, fd.used = true ∧ (fd.backend = .ramfs ∨ fd.backend = .fat16) then
        some (s.sysOpen file).2
      else none
  | .close fd => some (s.sysClose fd).2
  | .fork dir => some (s.sysFork dir).2
  | .exec dir => some (s.sysExec dir).2
  | .execPipe dir stdinFd stdoutFd => some (s.sysExecPipe dir stdinFd stdoutFd).2
  | .exit => some s.sysExit
  | .kill pid => some (s.sysKill pid).2
  | .schedule j =>
      if j < processMax ∧ (s.procs j).state = .ready then some (s.yieldCurrent.runSlot j)
      else none
  | .spawn cr3 => (s.processSpawnUser cr3 0 false).map Prod.snd

end NullOS.Kernel
