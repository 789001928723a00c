import NullOS.Process.Basic
import NullOS.Ipc.Pipe
import NullOS.Vfs.Fd

/-!
# The kernel's tables

The process table (`kernel/process.c`), the descriptor table (`kernel/syscall.c`) and the
pipe table (`kernel/pipe.c`), with the functions that work on them.
-/

namespace NullOS

open Ipc Vfs

def fdPerProc : Nat := 8

def fdBase : Nat := 3

structure Kernel where
  procs : Nat → Proc
  nextPid : Nat
  current : Option Nat
  fdTable : Nat → Nat → VfsFd
  pipeTable : Nat → Pipe

namespace Kernel

def boot : Kernel :=
  { procs := fun _ => Proc.init, nextPid := 1, current := none, fdTable := fun _ _ => default,
    pipeTable := fun _ => default }

def setProc (s : Kernel) (i : Nat) (p : Proc) : Kernel :=
  { s with procs := Function.update s.procs i p }

def setFd (s : Kernel) (slot j : Nat) (fd : VfsFd) : Kernel :=
  { s with fdTable := Function.update s.fdTable slot (Function.update (s.fdTable slot) j fd) }

def setPipe (s : Kernel) (i : Nat) (p : Pipe) : Kernel :=
  { s with pipeTable := Function.update s.pipeTable i p }

/-! ## Pipes -/

def wakeSlot (s : Kernel) : Option Nat → Kernel
  | none => s
  | some w => s.setProc w (s.procs w).wake

def pipeCreate (s : Kernel) : Option (Nat × Kernel) :=
  ((List.range pipeMax).find? fun i => !(s.pipeTable i).used).map fun i =>
    (i, s.setPipe i (s.pipeTable i).create)

def pipeReleaseRead (s : Kernel) (i : Nat) : Kernel :=
  if pipeMax ≤ i then s
  else (s.setPipe i (s.pipeTable i).releaseRead).wakeSlot (s.pipeTable i).releaseReadWakes

def pipeReleaseWrite (s : Kernel) (i : Nat) : Kernel :=
  if pipeMax ≤ i then s
  else (s.setPipe i (s.pipeTable i).releaseWrite).wakeSlot (s.pipeTable i).releaseWriteWakes

def pipeAddReadRef (s : Kernel) (i : Nat) : Kernel :=
  if pipeMax ≤ i then s else s.setPipe i (s.pipeTable i).addReadRef

def pipeAddWriteRef (s : Kernel) (i : Nat) : Kernel :=
  if pipeMax ≤ i then s else s.setPipe i (s.pipeTable i).addWriteRef

/-! ## Descriptors -/

def vfsClose (s : Kernel) (slot j : Nat) : Kernel :=
  let fd := s.fdTable slot j
  let t :=
    if fd.used then
      match fd.backend with
      | .pipeRead => s.pipeReleaseRead fd.first
      | .pipeWrite => s.pipeReleaseWrite fd.first
      | _ => s
    else s
  t.setFd slot j { fd with used := false }

def vfsDup (s : Kernel) (fd : VfsFd) : Kernel :=
  if fd.used then
    match fd.backend with
    | .pipeRead => s.pipeAddReadRef fd.first
    | .pipeWrite => s.pipeAddWriteRef fd.first
    | _ => s
  else s

def copyFd (s : Kernel) (slot j : Nat) (fd : VfsFd) : Kernel := (s.setFd slot j fd).vfsDup fd

def freeFd (s : Kernel) (slot : Nat) : Option Nat :=
  (List.range fdPerProc).find? fun j => !(s.fdTable slot j).used

/-! ## Processes -/

def allocPid (s : Kernel) : Nat × Kernel :=
  (s.nextPid, { s with nextPid := (s.nextPid + 1) % 0x100000000 })

def freeSlot (s : Kernel) : Option Nat :=
  (List.range processMax).find? fun i => (s.procs i).state = .unused

/-- The interrupts-off section of `process_spawn_user`: the slot is taken and gets its pid. -/
def spawnClaim (s : Kernel) : Option (Nat × Kernel) :=
  s.freeSlot.map fun slot =>
    let (pid, t) := s.allocPid
    (slot, t.setProc slot { t.procs slot with state := .blocked, pid, waitingForPid := 0 })

def processSpawnUser (s : Kernel) (cr3 cwdCluster : Nat) (startBlocked : Bool) :
    Option (Nat × Kernel) :=
  s.spawnClaim.map fun (slot, t) =>
    let p := t.procs slot
    (slot, t.setProc slot { p with
      esp := p.pid
      cr3
      cwdCluster
      stdinRedirect := none
      stdoutRedirect := none
      state := if startBlocked then p.state else .ready })

def processMakeReady (s : Kernel) (slot : Nat) : Kernel := s.setProc slot (s.procs slot).wake

def forkClaim (s : Kernel) : Option (Nat × Kernel) :=
  s.freeSlot.map fun slot =>
    let (pid, t) := s.allocPid
    (slot, t.setProc slot { t.procs slot with state := .blocked, pid })

/-- `process_fork`; `dir` is the child's directory, or `none` when memory runs out while it is
built. -/
def processFork (s : Kernel) (parent : Nat) (dir : Option Nat) : Option Nat × Kernel :=
  match s.forkClaim with
  | none => (none, s)
  | some (slot, t) =>
      let p := { t.procs slot with
        cwdCluster := (t.procs parent).cwdCluster
        stdinRedirect := (t.procs parent).stdinRedirect
        stdoutRedirect := (t.procs parent).stdoutRedirect
        waitingForPid := 0 }
      match dir with
      | none => (none, t.setProc slot { p with state := .unused, pid := 0 })
      | some cr3 => (some slot, t.setProc slot { p with cr3, esp := p.pid, state := .ready })

/-- `process_exit`: the slot is given up, then everyone waiting for its pid is woken. -/
def processExit (s : Kernel) (slot : Nat) : Kernel :=
  if (s.procs slot).state = .unused then s
  else
    let t := s.setProc slot { s.procs slot with state := .unused, pid := 0 }
    { t with procs := fun i =>
        if i < processMax then (t.procs i).wakeFor (s.procs slot).pid else t.procs i }

/-! ## Projections -/

section projections

variable (s : Kernel) (i slot j : Nat) (p : Proc) (q : Pipe) (fd : VfsFd)

@[simp] lemma setProc_procs_self : (s.setProc i p).procs i = p := by simp [setProc]
@[simp] lemma setProc_fdTable : (s.setProc i p).fdTable = s.fdTable := rfl
@[simp] lemma setProc_pipeTable : (s.setProc i p).pipeTable = s.pipeTable := rfl
@[simp] lemma setProc_current : (s.setProc i p).current = s.current := rfl
@[simp] lemma setProc_nextPid : (s.setProc i p).nextPid = s.nextPid := rfl

lemma setProc_procs_of_ne {k : Nat} (h : k ≠ i) : (s.setProc i p).procs k = s.procs k := by
  simp [setProc, h]

@[simp] lemma setFd_procs : (s.setFd slot j fd).procs = s.procs := rfl
@[simp] lemma setFd_pipeTable : (s.setFd slot j fd).pipeTable = s.pipeTable := rfl
@[simp] lemma setFd_current : (s.setFd slot j fd).current = s.current := rfl
@[simp] lemma setFd_nextPid : (s.setFd slot j fd).nextPid = s.nextPid := rfl

@[simp] lemma setFd_fdTable_self : (s.setFd slot j fd).fdTable slot j = fd := by
  simp [setFd]

lemma setFd_fdTable_of_ne {slot' j' : Nat} (h : slot' ≠ slot ∨ j' ≠ j) :
    (s.setFd slot j fd).fdTable slot' j' = s.fdTable slot' j' := by
  by_cases hs : slot' = slot
  · subst hs
    have hj : j' ≠ j := h.resolve_left fun hne => hne rfl
    simp [setFd, hj]
  · simp [setFd, hs]

@[simp] lemma setPipe_procs : (s.setPipe i q).procs = s.procs := rfl
@[simp] lemma setPipe_fdTable : (s.setPipe i q).fdTable = s.fdTable := rfl
@[simp] lemma setPipe_current : (s.setPipe i q).current = s.current := rfl
@[simp] lemma setPipe_nextPid : (s.setPipe i q).nextPid = s.nextPid := rfl
@[simp] lemma setPipe_pipeTable_self : (s.setPipe i q).pipeTable i = q := by simp [setPipe]

lemma setPipe_pipeTable_of_ne {k : Nat} (h : k ≠ i) :
    (s.setPipe i q).pipeTable k = s.pipeTable k := by
  simp [setPipe, h]

variable (w : Option Nat)

@[simp] lemma wakeSlot_fdTable : (s.wakeSlot w).fdTable = s.fdTable := by cases w <;> rfl
@[simp] lemma wakeSlot_pipeTable : (s.wakeSlot w).pipeTable = s.pipeTable := by cases w <;> rfl
@[simp] lemma wakeSlot_current : (s.wakeSlot w).current = s.current := by cases w <;> rfl

@[simp] lemma wakeSlot_unused :
    ((s.wakeSlot w).procs i).state = .unused ↔ (s.procs i).state = .unused := by
  cases w with
  | none => rfl
  | some k =>
    by_cases hk : i = k
    · subst hk
      simp [wakeSlot]
    · rw [wakeSlot, setProc_procs_of_ne _ _ _ hk]

lemma of_wakeSlot_blocked (h : ((s.wakeSlot w).procs i).state = .blocked) :
    (s.procs i).state = .blocked := by
  cases w with
  | none => exact h
  | some k =>
    by_cases hk : i = k
    · subst hk
      by_contra hne
      rw [wakeSlot, setProc_procs_self, Proc.wake, if_neg hne] at h
      exact hne h
    · rwa [wakeSlot, setProc_procs_of_ne _ _ _ hk] at h

end projections

/-! ## What the operations leave alone -/

variable {s t : Kernel} {slot j i : Nat} {fd : VfsFd}

lemma find?_range_some {n k : Nat} {p : Nat → Bool} (h : (List.range n).find? p = some k) :
    k < n ∧ p k = true :=
  ⟨List.mem_range.mp (List.mem_of_find?_eq_some h), List.find?_some h⟩

lemma freeFd_some (h : s.freeFd slot = some j) :
    j < fdPerProc ∧ (s.fdTable slot j).used = false := by
  simpa using find?_range_some h

@[simp] lemma pipeReleaseRead_fdTable (s : Kernel) (i : Nat) :
    (s.pipeReleaseRead i).fdTable = s.fdTable := by
  unfold pipeReleaseRead
  split <;> simp

@[simp] lemma pipeReleaseWrite_fdTable (s : Kernel) (i : Nat) :
    (s.pipeReleaseWrite i).fdTable = s.fdTable := by
  unfold pipeReleaseWrite
  split <;> simp

@[simp] lemma pipeReleaseRead_current (s : Kernel) (i : Nat) :
    (s.pipeReleaseRead i).current = s.current := by
  unfold pipeReleaseRead
  split <;> simp

@[simp] lemma pipeReleaseWrite_current (s : Kernel) (i : Nat) :
    (s.pipeReleaseWrite i).current = s.current := by
  unfold pipeReleaseWrite
  split <;> simp

@[simp] lemma pipeReleaseRead_unused (s : Kernel) (i k : Nat) :
    ((s.pipeReleaseRead i).procs k).state = .unused ↔ (s.procs k).state = .unused := by
  unfold pipeReleaseRead
  split <;> simp

@[simp] lemma pipeReleaseWrite_unused (s : Kernel) (i k : Nat) :
    ((s.pipeReleaseWrite i).procs k).state = .unused ↔ (s.procs k).state = .unused := by
  unfold pipeReleaseWrite
  split <;> simp

@[simp] lemma vfsClose_unused (s : Kernel) (slot j k : Nat) :
    ((s.vfsClose slot j).procs k).state = .unused ↔ (s.procs k).state = .unused := by
  unfold vfsClose
  dsimp only
  split
  · split <;> simp
  · simp

@[simp] lemma vfsClose_current (s : Kernel) (slot j : Nat) :
    (s.vfsClose slot j).current = s.current := by
  unfold vfsClose
  dsimp only
  split
  · split <;> simp
  · simp

@[simp] lemma vfsClose_nextPid (s : Kernel) (slot j : Nat) :
    (s.vfsClose slot j).nextPid = s.nextPid := by
  have hwake : ∀ (u : Kernel) (w : Option Nat), (u.wakeSlot w).nextPid = u.nextPid :=
    fun u w => by cases w <;> rfl
  unfold vfsClose pipeReleaseRead pipeReleaseWrite
  dsimp only
  split
  · split
    · split <;> simp [hwake]
    · split <;> simp [hwake]
    · rfl
  · rfl

@[simp] lemma vfsClose_fdTable_self (s : Kernel) (slot j : Nat) :
    ((s.vfsClose slot j).fdTable slot j).used = false := by
  unfold vfsClose
  simp

lemma vfsClose_fdTable_of_ne (s : Kernel) {slot j k : Nat} (h : k ≠ j) :
    (s.vfsClose slot j).fdTable slot k = s.fdTable slot k := by
  unfold vfsClose
  dsimp only
  rw [setFd_fdTable_of_ne _ _ _ _ (.inr h)]
  split
  · split <;> simp
  · rfl

@[simp] lemma vfsDup_procs (s : Kernel) (fd : VfsFd) : (s.vfsDup fd).procs = s.procs := by
  unfold vfsDup pipeAddReadRef pipeAddWriteRef
  split
  · split
    · split <;> rfl
    · split <;> rfl
    · rfl
  · rfl

@[simp] lemma vfsDup_fdTable (s : Kernel) (fd : VfsFd) :
    (s.vfsDup fd).fdTable = s.fdTable := by
  unfold vfsDup pipeAddReadRef pipeAddWriteRef
  split
  · split
    · split <;> rfl
    · split <;> rfl
    · rfl
  · rfl

@[simp] lemma vfsDup_current (s : Kernel) (fd : VfsFd) :
    (s.vfsDup fd).current = s.current := by
  unfold vfsDup pipeAddReadRef pipeAddWriteRef
  split
  · split
    · split <;> rfl
    · split <;> rfl
    · rfl
  · rfl

@[simp] lemma vfsDup_nextPid (s : Kernel) (fd : VfsFd) :
    (s.vfsDup fd).nextPid = s.nextPid := by
  unfold vfsDup pipeAddReadRef pipeAddWriteRef
  split
  · split
    · split <;> rfl
    · split <;> rfl
    · rfl
  · rfl

@[simp] lemma copyFd_procs (s : Kernel) (slot j : Nat) (fd : VfsFd) :
    (s.copyFd slot j fd).procs = s.procs := by simp [copyFd]

@[simp] lemma copyFd_current (s : Kernel) (slot j : Nat) (fd : VfsFd) :
    (s.copyFd slot j fd).current = s.current := by simp [copyFd]

@[simp] lemma copyFd_nextPid (s : Kernel) (slot j : Nat) (fd : VfsFd) :
    (s.copyFd slot j fd).nextPid = s.nextPid := by simp [copyFd]

@[simp] lemma copyFd_fdTable (s : Kernel) (slot j : Nat) (fd : VfsFd) :
    (s.copyFd slot j fd).fdTable = (s.setFd slot j fd).fdTable := by simp [copyFd]

lemma processSpawnUser_some {cr3 cwd new : Nat} {sb : Bool}
    (h : s.processSpawnUser cr3 cwd sb = some (new, t)) :
    new < processMax ∧ (s.procs new).state = .unused ∧ (t.procs new).state ≠ .unused ∧
      (t.procs new).stdinRedirect = none ∧ (∀ k, k ≠ new → t.procs k = s.procs k) ∧
      t.fdTable = s.fdTable ∧ t.pipeTable = s.pipeTable ∧ t.current = s.current := by
  obtain ⟨⟨slot, u⟩, hu, hpair⟩ := Option.map_eq_some_iff.mp h
  obtain ⟨k, hk, hpair'⟩ := Option.map_eq_some_iff.mp hu
  obtain ⟨rfl, rfl⟩ := Prod.mk.inj hpair'
  obtain ⟨rfl, rfl⟩ := Prod.mk.inj hpair
  obtain ⟨hlt, hunused⟩ := find?_range_some hk
  refine ⟨hlt, by simpa using hunused, ?_, by simp, fun m hm => ?_, rfl, rfl, rfl⟩
  · cases sb <;> simp [setProc]
  · simp [setProc, hm]

lemma setProc_same {α : Type*} (f : Proc → α) {i : Nat} {x : Proc} (hx : f x = f (s.procs i))
    (q : Nat) : f ((s.setProc i x).procs q) = f (s.procs q) := by
  by_cases hqi : q = i
  · rw [hqi, setProc_procs_self, hx]
  · rw [setProc_procs_of_ne s i x hqi]

lemma setProc_live {i : Nat} {x : Proc} (hi : (s.procs i).state ≠ .unused) (q : Nat)
    (hq : ((s.setProc i x).procs q).state ≠ .unused) : (s.procs q).state ≠ .unused := by
  by_cases hqi : q = i
  · rwa [hqi]
  · rwa [setProc_procs_of_ne s i x hqi] at hq

/-- A slot is overwritten by one that is live only if it was, under the same pid. -/
lemma setProc_kept {i : Nat} {x : Proc}
    (hx : x.state ≠ .unused → (s.procs i).state ≠ .unused ∧ x.pid = (s.procs i).pid) (q : Nat)
    (hq : ((s.setProc i x).procs q).state ≠ .unused) :
    (s.procs q).state ≠ .unused ∧ ((s.setProc i x).procs q).pid = (s.procs q).pid := by
  by_cases hqi : q = i
  · subst hqi
    rw [setProc_procs_self] at hq ⊢
    exact hx hq
  · rw [setProc_procs_of_ne s i x hqi] at hq ⊢
    exact ⟨hq, rfl⟩

lemma freeSlot_of_spawnClaim {new : Nat} (h : s.spawnClaim = some (new, t)) :
    s.freeSlot = some new := by
  obtain ⟨slot, hslot, heq⟩ := Option.map_eq_some_iff.mp h
  rw [hslot, (Prod.mk.inj heq).1]

lemma freeSlot_of_forkClaim {new : Nat} (h : s.forkClaim = some (new, t)) :
    s.freeSlot = some new := by
  obtain ⟨slot, hslot, heq⟩ := Option.map_eq_some_iff.mp h
  rw [hslot, (Prod.mk.inj heq).1]

lemma freeSlot_of_processSpawnUser {new cr3 cwd : Nat} {blocked : Bool}
    (h : s.processSpawnUser cr3 cwd blocked = some (new, t)) : s.freeSlot = some new := by
  obtain ⟨⟨slot, u⟩, hclaim, heq⟩ := Option.map_eq_some_iff.mp h
  rw [freeSlot_of_spawnClaim hclaim, (Prod.mk.inj heq).1]

lemma spawnClaim_some {new : Nat} (h : s.spawnClaim = some (new, t)) :
    new < processMax ∧ (s.procs new).state = .unused ∧ t = { s with
      nextPid := (s.nextPid + 1) % 0x100000000
      procs := Function.update s.procs new
        { s.procs new with state := .blocked, pid := s.nextPid, waitingForPid := 0 } } := by
  obtain ⟨k, hk, hpair⟩ := Option.map_eq_some_iff.mp h
  obtain ⟨rfl, rfl⟩ := Prod.mk.inj hpair
  obtain ⟨hlt, hunused⟩ := find?_range_some hk
  exact ⟨hlt, by simpa using hunused, rfl⟩

lemma forkClaim_some {new : Nat} (h : s.forkClaim = some (new, t)) :
    new < processMax ∧ (s.procs new).state = .unused ∧ t = { s with
      nextPid := (s.nextPid + 1) % 0x100000000
      procs := Function.update s.procs new
        { s.procs new with state := .blocked, pid := s.nextPid } } := by
  obtain ⟨k, hk, hpair⟩ := Option.map_eq_some_iff.mp h
  obtain ⟨rfl, rfl⟩ := Prod.mk.inj hpair
  obtain ⟨hlt, hunused⟩ := find?_range_some hk
  exact ⟨hlt, by simpa using hunused, rfl⟩

/-- `process_fork` touches the process table only, and there only one slot that was unused:
after a failure it is unused again. -/
lemma processFork_frame (s : Kernel) (parent : Nat) (dir : Option Nat) :
    (s.processFork parent dir).2.fdTable = s.fdTable ∧
      (s.processFork parent dir).2.pipeTable = s.pipeTable ∧
      (s.processFork parent dir).2.current = s.current := by
  unfold processFork forkClaim
  cases s.freeSlot with
  | none => exact ⟨rfl, rfl, rfl⟩
  | some slot => cases dir <;> exact ⟨rfl, rfl, rfl⟩

lemma processFork_none (parent : Nat) (dir : Option Nat)
    (h : (s.processFork parent dir).1 = none) (k : Nat) :
    ((s.processFork parent dir).2.procs k).state = .unused ↔ (s.procs k).state = .unused := by
  unfold processFork forkClaim at h ⊢
  cases hslot : s.freeSlot with
  | none => rfl
  | some slot =>
    have hunused : (s.procs slot).state = .unused := by
      simpa using (find?_range_some hslot).2
    cases dir with
    | none =>
      by_cases hk : k = slot
      · subst hk
        simp [hunused]
      · simp [setProc, allocPid, hk]
    | some cr3 =>
      rw [hslot] at h
      simp at h

lemma processFork_some (parent : Nat) {child : Nat} (dir : Option Nat)
    (h : (s.processFork parent dir).1 = some child) :
    child < processMax ∧ (s.procs child).state = .unused ∧
      ((s.processFork parent dir).2.procs child).state ≠ .unused ∧
      ∀ k, k ≠ child → (s.processFork parent dir).2.procs k = s.procs k := by
  unfold processFork forkClaim at h ⊢
  cases hslot : s.freeSlot with
  | none =>
    rw [hslot] at h
    simp at h
  | some slot =>
    obtain ⟨hlt, hunused⟩ := find?_range_some hslot
    rw [hslot] at h
    cases dir with
    | none => simp at h
    | some cr3 =>
      cases h
      refine ⟨hlt, by simpa using hunused, by simp, fun k hk => ?_⟩
      simp [setProc, allocPid, hk]

lemma processExit_unused (s : Kernel) (slot k : Nat) :
    ((s.processExit slot).procs k).state = .unused ↔
      (s.procs k).state = .unused ∨ k = slot := by
  unfold processExit
  split
  case isTrue hu =>
    refine ⟨.inl, ?_⟩
    rintro (h | rfl)
    · exact h
    · exact hu
  case isFalse hu =>
    have hset : ((s.setProc slot { s.procs slot with state := .unused, pid := 0 }).procs
        k).state = .unused ↔ (s.procs k).state = .unused ∨ k = slot := by
      by_cases hk : k = slot
      · subst hk
        simp
      · simp [setProc, hk]
    dsimp only
    split
    · rw [Proc.wakeFor_unused, hset]
    · exact hset

@[simp] lemma processExit_nextPid (s : Kernel) (slot : Nat) :
    (s.processExit slot).nextPid = s.nextPid := by
  unfold processExit
  split <;> rfl

lemma processExit_frame (s : Kernel) (slot : Nat) :
    (s.processExit slot).fdTable = s.fdTable ∧ (s.processExit slot).pipeTable = s.pipeTable ∧
      (s.processExit slot).current = s.current := by
  unfold processExit
  split <;> exact ⟨rfl, rfl, rfl⟩

/-- The other slots only see whether the process they wait for has ended. -/
lemma processExit_procs_of_ne {k slot : Nat} (hl : (s.procs slot).state ≠ .unused)
    (hk : k < processMax) (hne : k ≠ slot) :
    (s.processExit slot).procs k = (s.procs k).wakeFor (s.procs slot).pid := by
  unfold processExit
  rw [if_neg hl]
  simp only [if_pos hk, setProc_procs_of_ne _ _ _ hne]

end Kernel

end NullOS
