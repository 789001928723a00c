import NullOS.Lib.Run
import NullOS.Process.Basic
import Mathlib.Logic.Function.Basic

/-!
# The disk driver as a step system

`ata_read_sector` and `ata_write_sector` (`kernel/drivers/ata.c`), run by any number of processes.
One step is one access to shared data made with interrupts on, or one whole `cli`/`sti` section.
Only the interrupt-driven path is here; the polled one of the boot leaves an arbitrary value of
`g_irq_fired`.  The serial numbers of commands are not in the driver: they say which command an
interrupt belongs to.
-/

namespace NullOS.Ata

inductive Cmd
  | read
  | write
  | flush
deriving DecidableEq, Repr

inductive Op
  | readSector
  | writeSector
deriving DecidableEq, Repr

def Op.cmd : Op → Cmd
  | .readSector => .read
  | .writeSector => .write

inductive Pc
  /-- Not in the driver. -/
  | idle
  | gateTry (op : Op)
  | gateBlocked (op : Op)
  /-- Holds the gate, in the first `wait_not_busy`. -/
  | waitNotBusy (op : Op)
  /-- About to write the command register. -/
  | sendCmd (c : Cmd)
  /-- About to reset `g_irq_fired` for the command just sent. -/
  | clearFlag (c : Cmd)
  /-- Polling for DRQ (WRITE only). -/
  | waitDrq
  /-- About to send the 256 data words (WRITE only). -/
  | sendData
  | waitIrq (c : Cmd)
  | irqBlocked (c : Cmd)
  /-- Resumed in `ata_wait_irq`, about to consume the flag. -/
  | consumeFlag (c : Cmd)
  /-- `ata_wait_irq` has returned; about to look at the status register. -/
  | checkStatus (c : Cmd)
  /-- About to read the 256 data words (READ only). -/
  | readData
  /-- About to release the gate. -/
  | gateRelease
deriving DecidableEq, Repr

structure Proc where
  pc : Pc
  state : ProcessState
  /-- Serial number of the last command this process sent. -/
  cmdId : Nat
deriving DecidableEq, Repr

/-- The shared state of the driver and of the drive. -/
structure St where
  procs : Nat → Proc
  irqFired : Bool
  irqWaiter : Option Nat
  ataBusy : Bool
  gateWaiters : List Nat
  /-- Number of commands sent so far; also the next serial number. -/
  sent : Nat
  /-- Commands whose completion interrupt the drive has still to raise. -/
  pending : List Nat
  /-- Commands whose completion interrupt has been delivered. -/
  delivered : List Nat

def St.setProc (s : St) (i : Nat) (p : Proc) : St :=
  { s with procs := Function.update s.procs i p }

def St.goto (s : St) (i : Nat) (pc : Pc) : St :=
  s.setProc i { s.procs i with pc := pc }

def wake (p : Proc) : Proc :=
  if p.state = .blocked then { p with state := .ready } else p

def ataIrqHandler (s : St) (k : Nat) : St :=
  let s := { s with
    pending := s.pending.erase k
    delivered := k :: s.delivered
    irqFired := true }
  match s.irqWaiter with
  | none => s
  | some w => { s.setProc w (wake (s.procs w)) with irqWaiter := none }

def ataGateAcquire (s : St) (i : Nat) (op : Op) : St :=
  if s.ataBusy then
    let s' := if s.gateWaiters.length < processMax
      then { s with gateWaiters := s.gateWaiters ++ [i] } else s
    s'.setProc i { s.procs i with pc := .gateBlocked op, state := .blocked }
  else
    { s.goto i (.waitNotBusy op) with ataBusy := true }

def ataGateRelease (s : St) (i : Nat) : St :=
  let woken : St := { s with
    ataBusy := false
    procs := fun j => if j ∈ s.gateWaiters then wake (s.procs j) else s.procs j
    gateWaiters := [] }
  woken.goto i .idle

def ataWaitIrq (s : St) (i : Nat) (c : Cmd) : St :=
  if s.irqFired then
    { s.goto i (.checkStatus c) with irqFired := false }
  else
    { s.setProc i { s.procs i with pc := .irqBlocked c, state := .blocked } with
      irqWaiter := some i }

/-- Writing the command register: from here on the drive may raise the interrupt of a READ
or of a FLUSH; that of a WRITE has to wait for the data. -/
def sendCommand (s : St) (i : Nat) (c : Cmd) : St :=
  { s.setProc i { s.procs i with pc := .clearFlag c, cmdId := s.sent } with
    sent := s.sent + 1
    pending := if c = .write then s.pending else s.sent :: s.pending }

def afterClear : Cmd → Pc
  | .write => .waitDrq
  | c => .waitIrq c

def afterCheck : Cmd → Pc
  | .read => .readData
  | .write => .sendCmd .flush
  | .flush => .gateRelease

/-- One step of process `i`; `good` is what the hardware answers where the driver asks
(a poll that does not time out, a status without the error bit). -/
def procStep (s : St) (i : Nat) (good : Bool) : Option St :=
  match (s.procs i).pc with
  | .idle => none
  | .gateTry op => some (ataGateAcquire s i op)
  | .gateBlocked op =>
      if (s.procs i).state = .blocked then none else some (s.goto i (.gateTry op))
  | .waitNotBusy op => some (s.goto i (if good then .sendCmd op.cmd else .gateRelease))
  | .sendCmd c => some (sendCommand s i c)
  | .clearFlag c => some { s.goto i (afterClear c) with irqFired := false }
  | .waitDrq => some (s.goto i (if good then .sendData else .gateRelease))
  | .sendData => some { s.goto i (.waitIrq .write) with
      pending := (s.procs i).cmdId :: s.pending }
  | .waitIrq c => some (ataWaitIrq s i c)
  | .irqBlocked c =>
      if (s.procs i).state = .blocked then none else some (s.goto i (.consumeFlag c))
  | .consumeFlag c => some { s.goto i (.checkStatus c) with irqFired := false }
  | .checkStatus c =>
      -- the flush is best effort: its status is not looked at
      some (s.goto i (if good || c = .flush then afterCheck c else .gateRelease))
  | .readData => some (s.goto i .gateRelease)
  | .gateRelease => some (ataGateRelease s i)

inductive Act
  | call (i : Nat) (op : Op)
  | proc (i : Nat) (good : Bool)
  | irq (k : Nat)
deriving DecidableEq, Repr

def step (s : St) : Act → Option St
  | .call i op => if (s.procs i).pc = .idle then some (s.goto i (.gateTry op)) else none
  | .proc i good => procStep s i good
  | .irq k => if k ∈ s.pending then some (ataIrqHandler s k) else none

/-- No process is in the driver and no command is under way; `g_irq_fired` is whatever the
polled commands of the boot left in it. -/
def Init (s : St) : Prop :=
  (∀ i, (s.procs i).pc = .idle) ∧ s.irqWaiter = none ∧ s.ataBusy = false ∧
    s.gateWaiters = [] ∧ s.sent = 0 ∧ s.pending = [] ∧ s.delivered = []

/-- Nobody sleeps for a command whose interrupt has been delivered, and nobody has come back from
`ata_wait_irq` before its interrupt. -/
def NoLostCompletion (s : St) : Prop :=
  (∀ i c, (s.procs i).pc = .irqBlocked c → (s.procs i).state = .blocked →
      (s.procs i).cmdId ∉ s.delivered) ∧
    ∀ i c, (s.procs i).pc = .checkStatus c → (s.procs i).cmdId ∈ s.delivered

end NullOS.Ata
