import NullOS.Kernel.Syscall
import NullOS.Memory.UserBuffer
import NullOS.Vfs.Files
import NullOS.Lib.Outcome

/-!
# `sys_read` and `sys_write`

The bytes go through an array of 128 bytes on the kernel's stack, one chunk after the other, and the
descriptor may be a file or the end of a pipe.  When the caller goes to sleep in `pipe_read` or
`pipe_write` the model stops there.
-/

namespace NullOS.Transfer

open Lib Memory Fat16 Vfs Ipc

/-- What the calls work on; `console` is what was put there. -/
structure State where
  k : Kernel
  mem : Mem
  disk : St
  console : List UInt8

/-- Why a call has not returned. -/
inductive Stop
  /-- The caller is blocked in `pipe_read` or `pipe_write`. -/
  | asleep
  /-- From here on `sys_read` reads the keyboard. -/
  | keyboard
  | fault (f : Fault)
deriving DecidableEq

abbrev Sys := EStateM Stop State

def minusOne : Nat := 0xFFFFFFFF

/-- `(total > 0) ? total : (uint32_t)-1`. -/
def soFar (total : Nat) : Nat := if 0 < total then total else minusOne

/-! ## What they call -/

def onDisk {α : Type} (m : Fs α) : Sys α := fun s =>
  match m s.disk with
  | .ok a disk => .ok a { s with disk }
  | .error e disk => .error (.fault e) { s with disk }

def sleep {α : Type} (self : Nat) (k : Kernel) : Sys α := fun s =>
  .error .asleep { s with k := k.setProc self { k.procs self with state := .blocked } }

def pipeRead (self i len : Nat) : Sys (Int × List UInt8) := fun s =>
  if pipeMax ≤ i then .ok (-1, []) s
  else
    let p := s.k.pipeTable i
    let k := s.k.setPipe i (p.readSection self len).2
    match (p.readSection self len).1 with
    | .data bytes => .ok (bytes.length, bytes) { s with k := k.wakeSlot p.readSectionWakes }
    | .eof => .ok (0, []) { s with k }
    | .block => sleep self k s

def pipeWriteLoop (self i : Nat) (buf : List UInt8) : Nat → Nat → Sys Int
  | 0, _, s => .error (.fault .outOfFuel) s
  | fuel + 1, written, s =>
      let p := s.k.pipeTable i
      let k := s.k.setPipe i (p.writeSection self buf written).2
      match (p.writeSection self buf written).1 with
      | .done => .ok 0 { s with k := k.wakeSlot p.writeSectionWakes }
      | .again written => pipeWriteLoop self i buf fuel written
          { s with k := k.wakeSlot p.writeSectionWakes }
      | .broken => .ok (-1) { s with k }
      | .block => sleep self k s

/-- `pipe_write`.  A pass that does not come to the end leaves the pipe full. -/
def pipeWrite (self i : Nat) (buf : List UInt8) : Sys Int :=
  if pipeMax ≤ i then pure (-1) else pipeWriteLoop self i buf 2 0

def vfsReadFd (g : Geo) (ram : Option Ramfs) (slot j len : Nat) : Sys (Int × List UInt8) := do
  let s ← get
  let fd := s.k.fdTable slot j
  if fd.used ∧ len ≠ 0 ∧ fd.backend = .pipeRead then pipeRead slot fd.first len
  else do
    let (r, bytes, fd) ← onDisk (vfsRead g ram fd len)
    modify fun s => { s with k := s.k.setFd slot j fd }
    pure (r, bytes)

def vfsWriteFd (g : Geo) (n slot j : Nat) (buf : List UInt8) : Sys Int := do
  let s ← get
  let fd := s.k.fdTable slot j
  if fd.used ∧ fd.backend = .pipeWrite then pipeWrite slot fd.first buf
  else do
    let (r, fd) ← onDisk (vfsWrite g n fd buf)
    modify fun s => { s with k := s.k.setFd slot j fd }
    pure r

def copyOut (cr3 udst ksrc len : Nat) : Sys Bool := fun s =>
  match copyToUser s.mem (some cr3) udst ksrc len with
  | none => .error (.fault .outOfFuel) s
  | some (r, mem) => .ok (decide (0 ≤ r)) { s with mem }

def copyIn (cr3 kdst usrc len : Nat) : Sys Bool := fun s =>
  match copyFromUser s.mem (some cr3) kdst usrc len with
  | none => .error (.fault .outOfFuel) s
  | some (r, mem) => .ok (decide (0 ≤ r)) { s with mem }

/-! ## The calls -/

def sysReadChunk : Nat := 128

def sysWriteChunk : Nat := 128

/-- The loop of `sys_read`, with `total` bytes delivered.  Every turn delivers at least one byte, so
that `len` turns are enough. -/
def readChunks (g : Geo) (ram : Option Ramfs) (kchunk slot cr3 j buf len : Nat) :
    Nat → Nat → Sys Nat
  | 0, total => pure total
  | fuel + 1, total =>
      if total < len then do
        let want := min (len - total) sysReadChunk
        let (r, bytes) ← vfsReadFd g ram slot j want
        if r < 0 then pure (soFar total)
        else if r = 0 then pure total
        else do
          modify fun s => { s with mem := s.mem.blit kchunk bytes.length fun i => bytes.getD i 0 }
          let copied ← copyOut cr3 ((buf + total) % 0x100000000) kchunk r.toNat
          if copied then
            if r.toNat < want then pure (total + r.toNat)
            else readChunks g ram kchunk slot cr3 j buf len fuel (total + r.toNat)
          else pure (soFar total)
      else pure total

def readTarget (p : Proc) (fd : Nat) : Nat := if fd = 0 then p.stdinRedirect.getD 0 else fd

/-- `sys_read`; `kchunk` is the address of the array. -/
def sysRead (g : Geo) (ram : Option Ramfs) (kchunk fd buf len : Nat) : Sys Nat :=
  if buf = 0 ∨ len = 0 then pure minusOne
  else do
    let s ← get
    match s.k.current with
    | none => pure minusOne
    | some slot =>
        let p := s.k.procs slot
        match userPtrValid s.mem (some p.cr3) buf len with
        | none => throw (.fault .outOfFuel)
        | some false => pure minusOne
        | some true =>
            if fdBase ≤ readTarget p fd then
              match s.k.userFd slot (readTarget p fd) with
              | none => pure minusOne
              | some j => readChunks g ram kchunk slot p.cr3 j buf len len 0
            else if readTarget p fd ≠ 0 then pure minusOne
            else throw .keyboard

def writeChunks (g : Geo) (n kchunk slot cr3 j buf len : Nat) : Nat → Nat → Sys Nat
  | 0, total => pure total
  | fuel + 1, total =>
      if total < len then do
        let want := min (len - total) sysWriteChunk
        let copied ← copyIn cr3 kchunk ((buf + total) % 0x100000000) want
        if copied then do
          let s ← get
          let r ← vfsWriteFd g n slot j (bytesAt s.mem kchunk want)
          if r < 0 then pure (soFar total)
          else writeChunks g n kchunk slot cr3 j buf len fuel (total + want)
        else pure (soFar total)
      else pure total

def writeTarget (p : Proc) (fd : Nat) : Nat :=
  if fd = 1 ∨ fd = 2 then p.stdoutRedirect.getD fd else fd

/-- `sys_write`; `kchunk` is the address of the array. -/
def sysWrite (g : Geo) (n kchunk fd buf len : Nat) : Sys Nat :=
  if buf = 0 then pure minusOne
  else if len = 0 then pure 0
  else do
    let s ← get
    match s.k.current with
    | none => pure minusOne
    | some slot =>
        let p := s.k.procs slot
        match userPtrValid s.mem (some p.cr3) buf len with
        | none => throw (.fault .outOfFuel)
        | some false => pure minusOne
        | some true =>
            if fdBase ≤ writeTarget p fd then
              match s.k.userFd slot (writeTarget p fd) with
              | none => pure minusOne
              | some j => writeChunks g n kchunk slot p.cr3 j buf len len 0
            else do
              set { s with console := s.console ++ userBytes s.mem p.cr3 buf len }
              pure len

end NullOS.Transfer
