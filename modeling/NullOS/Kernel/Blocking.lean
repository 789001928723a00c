import NullOS.Process.StepFrame
import NullOS.Ata.Completion

/-!
# Blocking calls over the process table

The calls that put their caller to sleep until somebody lets it go through a registered pointer:
`pipe_read` and `pipe_write`, the gate of the disk driver and its wait for the interrupt; and
`sys_sleep`.  They run interleaved with everything that creates and ends processes: a thread is
inside one of them while its program point there is `Cont.user`.  The pid in a `Ptr` and `wakes` are
bookkeeping: who stored the pointer, and every change to `READY` that was made through one.
-/

namespace NullOS.Blocking

open Preempt Vfs Ipc

inductive Wait
  | pipeRead (i : Nat)
  | pipeWrite (i : Nat)
  | gate
  | irq
deriving DecidableEq

inductive Io
  | idle
  | reading (i len : Nat)
  | readBlocked (i len : Nat)
  | writing (i : Nat) (buf : List UInt8) (written : Nat)
  | writeBlocked (i : Nat) (buf : List UInt8) (written : Nat)
  | disk (pc : Ata.Pc)
deriving DecidableEq

/-- The wait in which a thread at this point is blocked. -/
def Io.wait : Io → Option Wait
  | .readBlocked i _ => some (.pipeRead i)
  | .writeBlocked i _ _ => some (.pipeWrite i)
  | .disk (.gateBlocked _) => some .gate
  | .disk (.irqBlocked _) => some .irq
  | _ => none

/-- A pointer into the process table, and who stored it. -/
structure Ptr where
  slot : Nat
  pid : Nat
deriving DecidableEq

/-- A slot was made `READY` through a pointer: what the pointer was registered for, and who
occupied the slot and in which wait it was. -/
structure Wake where
  wait : Wait
  ptr : Ptr
  occupant : Nat
  blockedIn : Option Wait
deriving DecidableEq

structure World where
  sys : Sys
  io : Nat → Io
  /-- Who stored the waiters of each pipe. -/
  readBy : Nat → Nat
  writeBy : Nat → Nat
  ataBusy : Bool
  gateWaiters : List Ptr
  irqFired : Bool
  irqWaiter : Option Ptr
  wakes : List Wake

namespace World

def proc (s : World) (i : Nat) : Proc := s.sys.k.procs i

def goto (s : World) (io : Io) : World :=
  { s with io := Function.update s.io s.sys.thread io }

/-- The current process, in slot `c`, gives up the processor in the given state. -/
def leave (s : World) (c : Nat) (state : ProcessState) : World :=
  { s with sys := { s.sys with k := { s.sys.k.setProc c { s.proc c with
      state, esp := s.sys.thread } with current := none } } }

/-- `self->state = PROCESS_BLOCKED` and `scheduler_block_current`. -/
def block (s : World) (c : Nat) (io : Io) : World := (s.leave c .blocked).goto io

def setPipe (s : World) (i : Nat) (p : Pipe) : World :=
  { s with sys := { s.sys with k := s.sys.k.setPipe i p } }

def note (s : World) (w : Wait) (ptr : Ptr) : List Wake :=
  if (s.proc ptr.slot).state = .blocked then
    [{ wait := w, ptr, occupant := (s.proc ptr.slot).pid,
       blockedIn := (s.io (s.proc ptr.slot).pid).wait }]
  else []

def wake (s : World) (w : Wait) (ptr : Ptr) : World :=
  { s with
    sys := s.sys.setProc ptr.slot (s.proc ptr.slot).wake
    wakes := s.note w ptr ++ s.wakes }

def wakeSlot (s : World) (w : Wait) (pid : Nat) : Option Nat → World
  | none => s
  | some slot => s.wake w { slot, pid }

/-! ## Pipes -/

def pipeReadStep (s : World) (c i len : Nat) : World :=
  let p := s.sys.k.pipeTable i
  let t := s.setPipe i (p.readSection c len).2
  match (p.readSection c len).1 with
  | .data _ => (t.wakeSlot (.pipeWrite i) (s.writeBy i) p.readSectionWakes).goto .idle
  | .eof => t.goto .idle
  | .block =>
      { t.block c (.readBlocked i len) with readBy := Function.update s.readBy i s.sys.thread }

def pipeWriteStep (s : World) (c i : Nat) (buf : List UInt8) (written : Nat) : World :=
  let p := s.sys.k.pipeTable i
  let t := s.setPipe i (p.writeSection c buf written).2
  let copied (io : Io) := (t.wakeSlot (.pipeRead i) (s.readBy i) p.writeSectionWakes).goto io
  match (p.writeSection c buf written).1 with
  | .done => copied .idle
  | .again written' => copied (.writing i buf written')
  | .broken => t.goto .idle
  | .block =>
      { t.block c (.writeBlocked i buf written) with
        writeBy := Function.update s.writeBy i s.sys.thread }

def closeNote (s : World) (fd : VfsFd) : List Wake :=
  if fd.used ∧ fd.first < pipeMax then
    match fd.backend with
    | .pipeRead =>
        ((s.sys.k.pipeTable fd.first).releaseReadWakes.map fun slot =>
          s.note (.pipeWrite fd.first) { slot, pid := s.writeBy fd.first }).getD []
    | .pipeWrite =>
        ((s.sys.k.pipeTable fd.first).releaseWriteWakes.map fun slot =>
          s.note (.pipeRead fd.first) { slot, pid := s.readBy fd.first }).getD []
    | _ => []
  else []

def close (s : World) (c j : Nat) : World :=
  { s with
    sys := { s.sys with k := s.sys.k.vfsClose c j }
    wakes := s.closeNote (s.sys.k.fdTable c j) ++ s.wakes }

/-! ## The disk -/

def ataGateRelease (s : World) : World :=
  s.gateWaiters.foldl (fun t ptr => t.wake .gate ptr)
    { s with ataBusy := false, gateWaiters := [] }

def ataIrqHandler (s : World) : World :=
  match s.irqWaiter with
  | none => { s with irqFired := true }
  | some ptr => { s with irqFired := true, irqWaiter := none }.wake .irq ptr

/-- One step in the disk driver; `good` is what the hardware answers where the driver asks. -/
def diskStep (s : World) (c : Nat) (good : Bool) : Ata.Pc → Option World
  | .idle => none
  | .gateTry op =>
      some (if s.ataBusy then
          { s.block c (.disk (.gateBlocked op)) with
            gateWaiters := if s.gateWaiters.length < processMax
              then s.gateWaiters ++ [{ slot := c, pid := s.sys.thread }] else s.gateWaiters }
        else { s.goto (.disk (.waitNotBusy op)) with ataBusy := true })
  | .gateBlocked op => some (s.goto (.disk (.gateTry op)))
  | .waitNotBusy op => some (s.goto (.disk (if good then .sendCmd op.cmd else .gateRelease)))
  | .sendCmd cmd => some (s.goto (.disk (.clearFlag cmd)))
  | .clearFlag cmd => some { s.goto (.disk (Ata.afterClear cmd)) with irqFired := false }
  | .waitDrq => some (s.goto (.disk (if good then .sendData else .gateRelease)))
  | .sendData => some (s.goto (.disk (.waitIrq .write)))
  | .waitIrq cmd =>
      some (if s.irqFired then { s.goto (.disk (.checkStatus cmd)) with irqFired := false }
        else
          { s.block c (.disk (.irqBlocked cmd)) with
            irqWaiter := some { slot := c, pid := s.sys.thread } })
  | .irqBlocked cmd => some (s.goto (.disk (.consumeFlag cmd)))
  | .consumeFlag cmd => some { s.goto (.disk (.checkStatus cmd)) with irqFired := false }
  | .checkStatus cmd =>
      some (s.goto (.disk (if good || cmd = .flush then Ata.afterCheck cmd else .gateRelease)))
  | .readData => some (s.goto (.disk .gateRelease))
  | .gateRelease => some (s.ataGateRelease.goto .idle)

/-! ## The machine -/

/-- The slot of the process that is in ring 3, or anywhere outside the calls modelled. -/
def ring3 (s : World) : Option Nat :=
  match s.sys.k.current, s.sys.cont, s.io s.sys.thread with
  | some c, .user, .idle => some c
  | _, _, _ => none

def go (s : World) (good : Bool) : Option World :=
  match s.sys.k.current, s.sys.cont with
  | some c, .user =>
      match s.io s.sys.thread with
      | .idle => none
      | .reading i len => some (s.pipeReadStep c i len)
      | .readBlocked i len => some (s.goto (.reading i len))
      | .writing i buf written => some (s.pipeWriteStep c i buf written)
      | .writeBlocked i buf written => some (s.goto (.writing i buf written))
      | .disk pc => s.diskStep c good pc
  | _, _ => none

end World

def isCall : Preempt.Act → Bool
  | .exec _ | .execPipe _ _ _ | .fork _ _ | .exit | .kill _ | .wait _ | .ownFd _ _ => true
  | .step | .preempt | .run _ | .tickInRun _ | .spawn _ => false

def exitCloses (s : Sys) : Preempt.Act → Option VfsFd
  | .step =>
      match s.k.current, s.cont with
      | some c, .exitClose j => if j < fdPerProc then some (s.k.fdTable c j) else none
      | _, _ => none
  | _ => none

/-- A step of the process table.  The thread of a new process starts in ring 3. -/
def baseStep (s : World) (a : Preempt.Act) : Option World :=
  if isCall a ∧ s.ring3 = none then none
  else
    (Preempt.step s.sys a).map fun sys =>
      { s with
        sys
        io := if sys.k.nextPid = s.sys.k.nextPid then s.io
          else Function.update s.io s.sys.k.nextPid .idle
        wakes := ((exitCloses s.sys a).map s.closeNote).getD [] ++ s.wakes }

inductive Act
  | base (a : Preempt.Act)
  | pipeCreate
  | pipeRead (i len : Nat)
  | pipeWrite (i : Nat) (buf : List UInt8)
  | disk (op : Ata.Op)
  | close (j : Nat)
  | sleep
  | go (good : Bool)
  | wakeSleeper (i : Nat)
  | irq

def step (s : World) : Act → Option World
  | .base a => baseStep s a
  | .pipeCreate => s.ring3.map fun _ =>
      match s.sys.k.pipeCreate with
      | none => s
      | some (_, k) => { s with sys := { s.sys with k } }
  | .pipeRead i len => s.ring3.map fun _ =>
      if pipeMax ≤ i then s else s.goto (.reading i len)
  | .pipeWrite i buf => s.ring3.map fun _ =>
      if pipeMax ≤ i then s else s.goto (.writing i buf 0)
  | .disk op => s.ring3.map fun _ => s.goto (.disk (.gateTry op))
  | .close j => s.ring3.map fun c => s.close c j
  | .sleep => s.ring3.map fun c => s.leave c .sleeping
  | .go good => s.go good
  | .wakeSleeper i =>
      if i < processMax ∧ (s.proc i).state = .sleeping then
        some { s with sys := s.sys.setProc i { s.proc i with state := .ready } }
      else none
  | .irq => some s.ataIrqHandler

def boot : World :=
  { sys := Preempt.boot, io := fun _ => .idle, readBy := fun _ => 0, writeBy := fun _ => 0,
    ataBusy := false, gateWaiters := [], irqFired := false, irqWaiter := none, wakes := [] }

/-! ## What is claimed of it -/

def Waiting (s : World) (i : Nat) (w : Wait) : Prop :=
  (s.proc i).state = .blocked ∧ (s.io (s.proc i).pid).wait = some w

/-- A thread at this point has got the gate and has not released it. -/
def Io.HasGate : Io → Prop
  | .disk pc => pc.Inside
  | _ => False

def Holder (s : World) (i : Nat) : Prop :=
  i < processMax ∧ (s.proc i).state ≠ .unused ∧ (s.io (s.proc i).pid).HasGate

/-- Whoever is in ring 3 is `RUNNING`, under its own pid. -/
def RunsAsItself (s : World) : Prop :=
  ∀ c, s.ring3 = some c →
    (s.proc c).state = .running ∧ (s.proc c).pid = s.sys.thread ∧ s.sys.thread ≠ 0

/-- Every wake-up through a pointer has reached the process that stored it, in that very wait. -/
def WokenForOwnWait (s : World) : Prop :=
  ∀ x ∈ s.wakes, x.occupant = x.ptr.pid ∧ x.blockedIn = some x.wait

/-- The gate has a live holder, and only one, when it is taken; nobody waits for it otherwise. -/
structure GateHeld (s : World) : Prop where
  unique : ∀ i j, Holder s i → Holder s j → i = j
  held : s.ataBusy = true → ∃ i, Holder s i
  free : s.ataBusy = false → ∀ i < processMax, ¬ Waiting s i .gate

/-- `sys_kill` is about to end a process that is blocked in none of the waits. -/
def KillsNoWaiter (s : World) : Cont → Prop
  | .killUnused i _ => ∀ w ∈ (s.io (s.proc i).pid).wait, ¬ Waiting s i w
  | _ => True

/-- `sys_kill` is about to end a process that does not have the gate. -/
def KillsNoHolder (s : World) : Cont → Prop
  | .killUnused i _ => ¬ Holder s i
  | _ => True

def Orderly (s : World) : Act → Prop
  | .base a => Careful s.sys a ∧ (a = .step → KillsNoWaiter s s.sys.cont)
  | _ => True

def GateSafe (s : World) (a : Act) : Prop :=
  Orderly s a ∧ (a = .base .step → KillsNoHolder s s.sys.cont)

instance (s : World) (i : Nat) (w : Wait) : Decidable (Waiting s i w) :=
  inferInstanceAs (Decidable (_ ∧ _))

instance : DecidablePred Io.HasGate := by
  intro io
  cases io
  case disk pc =>
    cases pc
    case idle | gateTry | gateBlocked => exact .isFalse id
    all_goals exact .isTrue trivial
  all_goals exact .isFalse id

instance (s : World) (i : Nat) : Decidable (Holder s i) :=
  inferInstanceAs (Decidable (_ ∧ _ ∧ Io.HasGate _))

instance (s : World) : DecidablePred (KillsNoWaiter s) := by
  intro n
  induction n using Cont.casesOn
  case killUnused i _ =>
    exact inferInstanceAs (Decidable (∀ w ∈ Io.wait _, ¬ Waiting s i w))
  all_goals exact .isTrue trivial

instance (s : World) : DecidablePred (KillsNoHolder s) := by
  intro n
  induction n using Cont.casesOn
  case killUnused i _ => exact inferInstanceAs (Decidable (¬ Holder s i))
  all_goals exact .isTrue trivial

instance (a : Preempt.Act) : Decidable (a = .step) := by
  cases a
  case step => exact .isTrue rfl
  all_goals exact .isFalse (by simp)

instance (s : World) : DecidablePred (Orderly s) := by
  intro a
  cases a
  case base a =>
    exact inferInstanceAs (Decidable (Careful s.sys a ∧ (a = .step → KillsNoWaiter s s.sys.cont)))
  all_goals exact .isTrue trivial

instance (a : Act) : Decidable (a = .base .step) := by
  cases a
  case base a => exact decidable_of_iff (a = .step) (by simp)
  all_goals exact .isFalse (by simp)

instance (s : World) : DecidablePred (GateSafe s) := fun a =>
  inferInstanceAs (Decidable (Orderly s a ∧ (a = .base .step → KillsNoHolder s s.sys.cont)))

end NullOS.Blocking
