import NullOS.Lib.Ring

/-!
# Pipes

The pipes of `kernel/pipe.c`: the record of one pipe and what each function of the file does
to it.  The effects on the process table (whom a release wakes) are with the kernel state.
-/

namespace NullOS.Ipc

def pipeMax : Nat := 8

def pipeBufSize : Nat := 512

/-- `pipe_t`.  Waiters are slots of the process table. -/
structure Pipe where
  buf : Nat → UInt8
  head : Nat
  tail : Nat
  count : Nat
  used : Bool
  readRefs : Nat
  writeRefs : Nat
  readWaiter : Option Nat
  writeWaiter : Option Nat
deriving Inhabited

namespace Pipe

def resetRing (p : Pipe) : Pipe := { p with head := 0, tail := 0, count := 0 }

def markUsed (p : Pipe) : Pipe := { p with used := true }

def initRefs (p : Pipe) : Pipe :=
  { p with readRefs := 1, writeRefs := 1, readWaiter := none, writeWaiter := none }

def create (p : Pipe) : Pipe := p.resetRing.markUsed.initRefs

def addReadRef (p : Pipe) : Pipe := { p with readRefs := p.readRefs + 1 }

def addWriteRef (p : Pipe) : Pipe := { p with writeRefs := p.writeRefs + 1 }

/-- `pipe_release_read`: one reader less; the last one lets go of a blocked writer, and the
last reference of all frees the pipe. -/
def releaseRead (p : Pipe) : Pipe :=
  { p with
    readRefs := p.readRefs - 1
    writeWaiter := if p.readRefs - 1 = 0 then none else p.writeWaiter
    used := if p.readRefs - 1 = 0 ∧ p.writeRefs = 0 then false else p.used }

def releaseReadWakes (p : Pipe) : Option Nat :=
  if p.readRefs - 1 = 0 then p.writeWaiter else none

def releaseWrite (p : Pipe) : Pipe :=
  { p with
    writeRefs := p.writeRefs - 1
    readWaiter := if p.writeRefs - 1 = 0 then none else p.readWaiter
    used := if p.readRefs = 0 ∧ p.writeRefs - 1 = 0 then false else p.used }

def releaseWriteWakes (p : Pipe) : Option Nat :=
  if p.writeRefs - 1 = 0 then p.readWaiter else none

def takeBytes (p : Pipe) : Nat → List UInt8 × Pipe
  | 0 => ([], p)
  | len + 1 =>
      if p.count = 0 then ([], p)
      else
        let (bytes, q) := takeBytes
          { p with tail := (p.tail + 1) % pipeBufSize, count := p.count - 1 } len
        (p.buf p.tail :: bytes, q)

inductive ReadOutcome
  | data (bytes : List UInt8)
  | eof
  | block
deriving DecidableEq

def readSection (p : Pipe) (self len : Nat) : ReadOutcome × Pipe :=
  if 0 < p.count then
    let (bytes, q) := p.takeBytes len
    (.data bytes, { q with writeWaiter := none })
  else if p.writeRefs = 0 then (.eof, p)
  else (.block, { p with readWaiter := some self })

def readSectionWakes (p : Pipe) : Option Nat := if 0 < p.count then p.writeWaiter else none

def putBytes (p : Pipe) : List UInt8 → Pipe
  | [] => p
  | b :: bytes =>
      putBytes { p with
        buf := Function.update p.buf p.head b
        head := (p.head + 1) % pipeBufSize
        count := p.count + 1 } bytes

/-- The bytes that one pass through the interrupts-off section of `pipe_write` copies: as many of
those left as there is space for. -/
def chunk (p : Pipe) (buf : List UInt8) (written : Nat) : List UInt8 :=
  (buf.drop written).take (pipeBufSize - p.count)

inductive WriteOutcome
  | done
  | again (written : Nat)
  | broken
  | block
deriving DecidableEq

def writeSection (p : Pipe) (self : Nat) (buf : List UInt8) (written : Nat) :
    WriteOutcome × Pipe :=
  if p.readRefs = 0 then (.broken, p)
  else if 0 < pipeBufSize - p.count then
    let bytes := p.chunk buf written
    (if written + bytes.length = buf.length then .done else .again (written + bytes.length),
      { p.putBytes bytes with readWaiter := none })
  else (.block, { p with writeWaiter := some self })

def writeSectionWakes (p : Pipe) : Option Nat :=
  if p.readRefs ≠ 0 ∧ 0 < pipeBufSize - p.count then p.readWaiter else none

@[simp] lemma create_used (p : Pipe) : p.create.used = true := rfl
@[simp] lemma create_readRefs (p : Pipe) : p.create.readRefs = 1 := rfl
@[simp] lemma create_writeRefs (p : Pipe) : p.create.writeRefs = 1 := rfl
@[simp] lemma releaseRead_writeRefs (p : Pipe) : p.releaseRead.writeRefs = p.writeRefs := rfl
@[simp] lemma releaseWrite_readRefs (p : Pipe) : p.releaseWrite.readRefs = p.readRefs := rfl
@[simp] lemma releaseRead_readRefs (p : Pipe) : p.releaseRead.readRefs = p.readRefs - 1 := rfl
@[simp] lemma releaseWrite_writeRefs (p : Pipe) :
    p.releaseWrite.writeRefs = p.writeRefs - 1 := rfl
@[simp] lemma markUsed_used (p : Pipe) : p.markUsed.used = true := rfl
@[simp] lemma initRefs_used (p : Pipe) : p.initRefs.used = p.used := rfl

/-! ## The ring -/

/-- The indices of the ring agree. -/
structure Ring (p : Pipe) : Prop where
  tail_lt : p.tail < pipeBufSize
  count_le : p.count ≤ pipeBufSize
  head_eq : p.head = (p.tail + p.count) % pipeBufSize

def content (p : Pipe) : List UInt8 := Lib.ringList pipeBufSize p.buf p.tail p.count

variable {p : Pipe}

lemma takeBytes_spec (len : Nat) (h : p.Ring) :
    ∃ tail count, p.takeBytes len = (p.content.take len, { p with tail, count }) ∧
      Ring { p with tail, count } ∧ content { p with tail, count } = p.content.drop len ∧
      count = p.count - len := by
  induction len generalizing p with
  | zero => exact ⟨p.tail, p.count, rfl, h, rfl, rfl⟩
  | succ len ih =>
    rw [takeBytes]
    by_cases h0 : p.count = 0
    · have hnil : p.content = [] := by rw [content, h0, Lib.ringList_zero]
      refine ⟨p.tail, p.count, ?_, h, ?_, by omega⟩
      · rw [if_pos h0, hnil, List.take_nil]
      · rw [hnil, List.drop_nil]
    · obtain ⟨n, hn⟩ := Nat.exists_eq_succ_of_ne_zero h0
      have hcons : p.content = p.buf p.tail ::
          content { p with tail := (p.tail + 1) % pipeBufSize, count := p.count - 1 } := by
        rw [content, hn, Lib.ringList_pop h.tail_lt]
        rfl
      have hring : Ring { p with tail := (p.tail + 1) % pipeBufSize, count := p.count - 1 } := by
        obtain ⟨ht, hc, hh⟩ := h
        refine ⟨Nat.mod_lt _ (by decide), le_trans (Nat.sub_le _ _) hc, ?_⟩
        show p.head = ((p.tail + 1) % pipeBufSize + (p.count - 1)) % pipeBufSize
        rw [hh, Nat.mod_add_mod]
        congr 1
        omega
      obtain ⟨tail, count, heq, hring', hcont, hcount⟩ := ih hring
      refine ⟨tail, count, ?_, hring', ?_, ?_⟩
      · rw [if_neg h0, heq, hcons, List.take_succ_cons]
      · rw [hcons, List.drop_succ_cons]
        exact hcont
      · simp only at hcount
        omega

@[simp] lemma length_content (p : Pipe) : p.content.length = p.count := Lib.length_ringList

lemma readSection_data (self len : Nat) (h : p.Ring) (hdata : p.content ≠ []) :
    ∃ q : Pipe, p.readSection self len = (.data (p.content.take len), q) ∧ q.Ring ∧
      q.content = p.content.drop len ∧ q.writeRefs = p.writeRefs := by
  have hcount : 0 < p.count := by
    rw [← length_content]
    exact List.length_pos_iff.mpr hdata
  obtain ⟨tail, count, htake, hring, hcontent, -⟩ := takeBytes_spec len h
  refine ⟨{ p with tail, count, writeWaiter := none }, ?_, ⟨hring.tail_lt, hring.count_le,
    hring.head_eq⟩, hcontent, rfl⟩
  rw [readSection, if_pos hcount, htake]

lemma readSection_empty (self len : Nat) (hempty : p.content = []) :
    p.readSection self len =
      if p.writeRefs = 0 then (.eof, p) else (.block, { p with readWaiter := some self }) := by
  have hcount : p.count = 0 := by rw [← length_content, hempty, List.length_nil]
  rw [readSection, if_neg (by omega)]

lemma putBytes_spec (bytes : List UInt8) (h : p.Ring)
    (hfit : p.count + bytes.length ≤ pipeBufSize) :
    ∃ buf head, p.putBytes bytes = { p with buf, head, count := p.count + bytes.length } ∧
      Ring { p with buf, head, count := p.count + bytes.length } ∧
      content { p with buf, head, count := p.count + bytes.length } = p.content ++ bytes := by
  induction bytes generalizing p with
  | nil => exact ⟨p.buf, p.head, rfl, h, (List.append_nil _).symm⟩
  | cons b bytes ih =>
    rw [List.length_cons] at hfit
    obtain ⟨ht, hc, hh⟩ := h
    have hring : Ring { p with
        buf := Function.update p.buf p.head b
        head := (p.head + 1) % pipeBufSize
        count := p.count + 1 } := by
      refine ⟨ht, by simp only; omega, ?_⟩
      show (p.head + 1) % pipeBufSize = (p.tail + (p.count + 1)) % pipeBufSize
      rw [hh, Nat.mod_add_mod, Nat.add_assoc]
    have hpush : content { p with
        buf := Function.update p.buf p.head b
        head := (p.head + 1) % pipeBufSize
        count := p.count + 1 } = p.content ++ [b] := by
      rw [content, content, hh]
      exact Lib.ringList_push (by omega)
    obtain ⟨buf, head, heq, hring', hcont⟩ := ih hring (by simp only; omega)
    have hcount : p.count + 1 + bytes.length = p.count + (b :: bytes).length := by
      rw [List.length_cons]
      omega
    simp only [hcount] at heq hring' hcont
    refine ⟨buf, head, heq, hring', ?_⟩
    rw [hcont, hpush, List.append_assoc, List.singleton_append]

lemma chunk_fits (p : Pipe) (buf : List UInt8) (written : Nat) (h : p.Ring) :
    p.count + (p.chunk buf written).length ≤ pipeBufSize := by
  have := h.count_le
  have := List.length_take_le (pipeBufSize - p.count) (buf.drop written)
  rw [chunk]
  omega

lemma create_ring (p : Pipe) : p.create.Ring := ⟨Nat.zero_lt_succ _, Nat.zero_le _, rfl⟩

@[simp] lemma create_content (p : Pipe) : p.create.content = [] := rfl

end Pipe

end NullOS.Ipc
