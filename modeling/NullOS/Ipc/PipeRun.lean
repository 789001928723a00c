import NullOS.Ipc.Pipe
import NullOS.Lib.Run
import NullOS.Process.Basic

/-!
# Processes on a pipe

Any number of processes inside `pipe_read` and `pipe_write` of one pipe.  One step is one pass
through an interrupts-off section.  `accepted` and `delivered` collect the bytes that have been put
into the ring and taken out, over all processes; `sent` is the part of `accepted` that comes from a
process's own current, or last, call.
-/

namespace NullOS.Ipc

open Lib

inductive Request
  | read (len : Nat)
  | write (buf : List UInt8)
deriving DecidableEq

inductive Call
  | idle
  | reading (len : Nat)
  | readBlocked (len : Nat)
  /-- `pipe_read` has returned the number of these bytes. -/
  | readDone (bytes : List UInt8)
  | writing (buf : List UInt8) (written : Nat)
  | writeBlocked (buf : List UInt8) (written : Nat)
  /-- `pipe_write` has returned this value. -/
  | writeDone (buf : List UInt8) (ret : Int)
deriving DecidableEq

def Call.Over : Call → Prop
  | .idle | .readDone _ | .writeDone _ _ => True
  | _ => False

instance : DecidablePred Call.Over
  | .idle | .readDone _ | .writeDone _ _ => isTrue trivial
  | .reading _ | .readBlocked _ | .writing _ _ | .writeBlocked _ _ => isFalse id

def Request.start : Request → Call
  | .read len => .reading len
  | .write buf => .writing buf 0

def Call.request : Call → Option Request
  | .reading len | .readBlocked len => some (.read len)
  | .writing buf _ | .writeBlocked buf _ => some (.write buf)
  | _ => none

structure Client where
  state : ProcessState
  call : Call
  sent : List UInt8

def Client.wake (p : Client) : Client :=
  if p.state = .blocked then { p with state := .ready } else p

structure PipeSys where
  pipe : Pipe
  clients : Nat → Client
  accepted : List UInt8
  delivered : List UInt8

namespace PipeSys

def set (s : PipeSys) (i : Nat) (p : Client) : PipeSys :=
  { s with clients := Function.update s.clients i p }

/-- A registered waiter is let go. -/
def wake (s : PipeSys) : Option Nat → PipeSys
  | none => s
  | some w => s.set w (s.clients w).wake

def readStep (s : PipeSys) (i len : Nat) : PipeSys :=
  let t := { s with pipe := (s.pipe.readSection i len).2 }
  match (s.pipe.readSection i len).1 with
  | .data bytes =>
      let t := t.wake s.pipe.readSectionWakes
      { t.set i { t.clients i with call := .readDone bytes } with
        delivered := s.delivered ++ bytes }
  | .eof => t.set i { s.clients i with call := .readDone [] }
  | .block => t.set i { s.clients i with call := .readBlocked len, state := .blocked }

def writeStep (s : PipeSys) (i : Nat) (buf : List UInt8) (written : Nat) : PipeSys :=
  let t := { s with pipe := (s.pipe.writeSection i buf written).2 }
  let copied (call : Call) : PipeSys :=
    let t := t.wake s.pipe.writeSectionWakes
    let bytes := s.pipe.chunk buf written
    { t.set i { t.clients i with call, sent := (s.clients i).sent ++ bytes } with
      accepted := s.accepted ++ bytes }
  match (s.pipe.writeSection i buf written).1 with
  | .done => copied (.writeDone buf 0)
  | .again written' => copied (.writing buf written')
  | .broken => t.set i { s.clients i with call := .writeDone buf (-1) }
  | .block => t.set i { s.clients i with call := .writeBlocked buf written, state := .blocked }

end PipeSys

inductive PipeAct
  | call (i : Nat) (r : Request)
  | go (i : Nat)
  | addReadRef
  | addWriteRef
  | releaseRead
  | releaseWrite
deriving DecidableEq

namespace PipeSys

def step (s : PipeSys) : PipeAct → Option PipeSys
  | .call i r =>
      if (s.clients i).call.Over ∧ (s.clients i).state ≠ .blocked then
        some (s.set i { s.clients i with call := r.start, sent := [] })
      else none
  | .go i =>
      if (s.clients i).state = .blocked then none
      else
        match (s.clients i).call with
        | .reading len => some (s.readStep i len)
        | .readBlocked len => some (s.set i { s.clients i with call := .reading len })
        | .writing buf written => some (s.writeStep i buf written)
        | .writeBlocked buf written =>
            some (s.set i { s.clients i with call := .writing buf written })
        | _ => none
  | .addReadRef => some { s with pipe := s.pipe.addReadRef }
  | .addWriteRef => some { s with pipe := s.pipe.addWriteRef }
  | .releaseRead =>
      some ({ s with pipe := s.pipe.releaseRead }.wake s.pipe.releaseReadWakes)
  | .releaseWrite =>
      some ({ s with pipe := s.pipe.releaseWrite }.wake s.pipe.releaseWriteWakes)

def Fresh (s : PipeSys) : Prop :=
  (∃ p : Pipe, s.pipe = p.create) ∧ (∀ i, (s.clients i).call = .idle) ∧
    s.accepted = [] ∧ s.delivered = []

def Positive (_ : PipeSys) : PipeAct → Prop
  | .call _ (.read len) => 0 < len
  | .call _ (.write buf) => buf ≠ []
  | _ => True

variable {s t : PipeSys} {i j len written : Nat} {w : Option Nat} {buf : List UInt8} {p : Client}

/-! ## Projections -/

@[simp] lemma set_clients_self : (s.set i p).clients i = p := by simp [set]

lemma set_clients_of_ne (h : j ≠ i) : (s.set i p).clients j = s.clients j := by simp [set, h]

@[simp] lemma wake_pipe : (s.wake w).pipe = s.pipe := by cases w <;> rfl
@[simp] lemma wake_accepted : (s.wake w).accepted = s.accepted := by cases w <;> rfl
@[simp] lemma wake_delivered : (s.wake w).delivered = s.delivered := by cases w <;> rfl

@[simp] lemma wake_call : ((s.wake w).clients j).call = (s.clients j).call := by
  cases w with
  | none => rfl
  | some k =>
    by_cases hj : j = k
    · subst hj
      simp only [wake, set_clients_self, Client.wake]
      split <;> rfl
    · rw [wake, set_clients_of_ne hj]

@[simp] lemma wake_sent : ((s.wake w).clients j).sent = (s.clients j).sent := by
  cases w with
  | none => rfl
  | some k =>
    by_cases hj : j = k
    · subst hj
      simp only [wake, set_clients_self, Client.wake]
      split <;> rfl
    · rw [wake, set_clients_of_ne hj]

/-! ## Everything a step can be -/

lemma step_call_cases {r : Request} (hs : s.step (.call i r) = some t) :
    ((s.clients i).call.Over ∧ (s.clients i).state ≠ .blocked) ∧
      t = s.set i { s.clients i with call := r.start, sent := [] } := by
  simp only [PipeSys.step] at hs
  split at hs
  case isTrue h => exact ⟨h, (Option.some.inj hs).symm⟩
  case isFalse => simp at hs

lemma step_go_cases (hs : s.step (.go i) = some t) :
    (s.clients i).state ≠ .blocked ∧
      ((∃ len, (s.clients i).call = .reading len ∧ t = s.readStep i len) ∨
        (∃ len, (s.clients i).call = .readBlocked len ∧
          t = s.set i { s.clients i with call := .reading len }) ∨
        (∃ buf n, (s.clients i).call = .writing buf n ∧ t = s.writeStep i buf n) ∨
        ∃ buf n, (s.clients i).call = .writeBlocked buf n ∧
          t = s.set i { s.clients i with call := .writing buf n }) := by
  simp only [PipeSys.step] at hs
  split at hs
  case isTrue => simp at hs
  case isFalse hb =>
    refine ⟨hb, ?_⟩
    split at hs
    case h_1 len hcall => exact .inl ⟨len, hcall, (Option.some.inj hs).symm⟩
    case h_2 len hcall => exact .inr (.inl ⟨len, hcall, (Option.some.inj hs).symm⟩)
    case h_3 buf n hcall => exact .inr (.inr (.inl ⟨buf, n, hcall, (Option.some.inj hs).symm⟩))
    case h_4 buf n hcall => exact .inr (.inr (.inr ⟨buf, n, hcall, (Option.some.inj hs).symm⟩))
    case h_5 => simp at hs

/-! ## First in, first out -/

def SentOk (p : Client) : Prop :=
  match p.call with
  | .writing buf written | .writeBlocked buf written => p.sent = buf.take written
  | .writeDone buf ret => ret = 0 → p.sent = buf
  | _ => True

/-- The bytes read, and then those in the ring, are the bytes accepted. -/
structure Fifo (s : PipeSys) : Prop where
  ring : s.pipe.Ring
  stream : s.accepted = s.delivered ++ s.pipe.content
  sent : ∀ i, SentOk (s.clients i)

lemma Fifo.of_fresh (h : s.Fresh) : s.Fifo := by
  obtain ⟨⟨p, hp⟩, hidle, ha, hd⟩ := h
  refine ⟨hp ▸ p.create_ring, ?_, fun i => ?_⟩
  · rw [ha, hd, hp, Pipe.create_content]
    rfl
  · rw [SentOk, hidle i]
    trivial

lemma Fifo.set (h : s.Fifo) (hsent : SentOk p) : (s.set i p).Fifo := by
  refine ⟨h.ring, h.stream, fun j => ?_⟩
  by_cases hj : j = i
  · subst hj
    rw [set_clients_self]
    exact hsent
  · rw [set_clients_of_ne hj]
    exact h.sent j

lemma Fifo.wake (h : s.Fifo) (w : Option Nat) : (s.wake w).Fifo := by
  refine ⟨by rw [wake_pipe]; exact h.ring, ?_, fun j => ?_⟩
  · rw [wake_accepted, wake_delivered, wake_pipe]
    exact h.stream
  · rw [SentOk, wake_call, wake_sent]
    exact h.sent j

lemma Fifo.withPipe (h : s.Fifo) {q : Pipe} (hring : s.pipe.Ring → q.Ring)
    (hcont : q.content = s.pipe.content) : Fifo { s with pipe := q } :=
  ⟨hring h.ring, by rw [hcont]; exact h.stream, h.sent⟩

lemma Fifo.readStep (h : s.Fifo) (i len : Nat) : (s.readStep i len).Fifo := by
  rw [PipeSys.readStep, Pipe.readSection]
  by_cases hc : 0 < s.pipe.count
  · obtain ⟨tail, count, heq, hring, hcont, -⟩ := s.pipe.takeBytes_spec len h.ring
    rw [if_pos hc, heq]
    dsimp only
    have hbase : Fifo { s with
        pipe := { s.pipe with tail, count, writeWaiter := none }
        delivered := s.delivered ++ s.pipe.content.take len } := by
      refine ⟨⟨hring.tail_lt, hring.count_le, hring.head_eq⟩, ?_, h.sent⟩
      show s.accepted =
        s.delivered ++ s.pipe.content.take len ++ Pipe.content { s.pipe with tail, count }
      rw [hcont, List.append_assoc, List.take_append_drop]
      exact h.stream
    have hset := (hbase.wake s.pipe.readSectionWakes).set (i := i)
      (p := { (s.wake s.pipe.readSectionWakes).clients i with
        call := .readDone (s.pipe.content.take len) }) trivial
    convert hset using 1
    cases s.pipe.readSectionWakes <;> rfl
  · rw [if_neg hc]
    by_cases he : s.pipe.writeRefs = 0
    · rw [if_pos he]
      exact h.set trivial
    · rw [if_neg he]
      have hw : Fifo { s with pipe := { s.pipe with readWaiter := some i } } :=
        h.withPipe (fun hr => ⟨hr.tail_lt, hr.count_le, hr.head_eq⟩) rfl
      exact hw.set trivial

lemma Fifo.writeStep (h : s.Fifo) (hcall : (s.clients i).call = .writing buf written) :
    (s.writeStep i buf written).Fifo := by
  have hsent : (s.clients i).sent = buf.take written := by
    have := h.sent i
    rwa [SentOk, hcall] at this
  rw [PipeSys.writeStep, Pipe.writeSection]
  by_cases hr : s.pipe.readRefs = 0
  · rw [if_pos hr]
    exact h.set fun hret => absurd hret (by decide)
  · rw [if_neg hr]
    by_cases hfree : 0 < pipeBufSize - s.pipe.count
    · obtain ⟨bytes, hbytes⟩ : ∃ bytes, s.pipe.chunk buf written = bytes := ⟨_, rfl⟩
      have hfits := s.pipe.chunk_fits buf written h.ring
      rw [hbytes] at hfits
      obtain ⟨buf', head, heq, hring, hcont⟩ := s.pipe.putBytes_spec bytes h.ring hfits
      have hmore : buf.take written ++ bytes = buf.take (written + bytes.length) := by
        rw [List.take_add, ← List.prefix_iff_eq_take.mp (hbytes ▸ List.take_prefix _ _)]
      have hbase : Fifo { s with
          pipe := { s.pipe.putBytes bytes with readWaiter := none }
          accepted := s.accepted ++ bytes } := by
        rw [heq]
        refine ⟨⟨hring.tail_lt, hring.count_le, hring.head_eq⟩, ?_, h.sent⟩
        show s.accepted ++ bytes = s.delivered ++ Pipe.content { s.pipe with
          buf := buf', head, count := s.pipe.count + bytes.length }
        rw [hcont, h.stream, List.append_assoc]
      rw [if_pos hfree]
      dsimp only
      rw [hbytes]
      split
      case h_1 hdone =>
        have hall : written + bytes.length = buf.length := by
          by_contra hne
          rw [if_neg hne] at hdone
          simp at hdone
        have hset := (hbase.wake s.pipe.writeSectionWakes).set (i := i)
          (p := { (s.wake s.pipe.writeSectionWakes).clients i with
            call := .writeDone buf 0, sent := (s.clients i).sent ++ bytes })
          fun _ => by rw [hsent, hmore, hall, List.take_length]
        convert hset using 1
        cases s.pipe.writeSectionWakes <;> rfl
      case h_2 written' hagain =>
        have hnext : written + bytes.length = written' := by
          split at hagain
          · simp at hagain
          · exact Pipe.WriteOutcome.again.inj hagain
        have hset := (hbase.wake s.pipe.writeSectionWakes).set (i := i)
          (p := { (s.wake s.pipe.writeSectionWakes).clients i with
            call := .writing buf written', sent := (s.clients i).sent ++ bytes })
          (by rw [SentOk, hsent, hmore, hnext])
        convert hset using 1
        cases s.pipe.writeSectionWakes <;> rfl
      all_goals
        rename_i hno
        split at hno <;> simp at hno
    · rw [if_neg hfree]
      have hw : Fifo { s with pipe := { s.pipe with writeWaiter := some i } } :=
        h.withPipe (fun hr => ⟨hr.tail_lt, hr.count_le, hr.head_eq⟩) rfl
      exact hw.set hsent

lemma Fifo.step {a : PipeAct} (h : s.Fifo) (hs : s.step a = some t) : t.Fifo := by
  cases a with
  | call i r =>
    obtain ⟨-, rfl⟩ := step_call_cases hs
    refine h.set ?_
    cases r with
    | read len => trivial
    | write buf => exact List.take_zero.symm
  | go i =>
    have hsent := h.sent i
    obtain ⟨-, ⟨n, -, rfl⟩ | ⟨n, -, rfl⟩ | ⟨buf, n, hcall, rfl⟩ | ⟨buf, n, hcall, rfl⟩⟩ :=
      step_go_cases hs
    · exact h.readStep i n
    · exact h.set trivial
    · exact h.writeStep hcall
    · rw [SentOk, hcall] at hsent
      exact h.set hsent
  | addReadRef | addWriteRef =>
    cases hs
    exact h.withPipe (fun hr => ⟨hr.tail_lt, hr.count_le, hr.head_eq⟩) rfl
  | releaseRead =>
    cases hs
    have hrel : Fifo { s with pipe := s.pipe.releaseRead } :=
      h.withPipe (fun hr => ⟨hr.tail_lt, hr.count_le, hr.head_eq⟩) rfl
    exact hrel.wake _
  | releaseWrite =>
    cases hs
    have hrel : Fifo { s with pipe := s.pipe.releaseWrite } :=
      h.withPipe (fun hr => ⟨hr.tail_lt, hr.count_le, hr.head_eq⟩) rfl
    exact hrel.wake _

/-! ## Who is inside -/

lemma readStep_call (s : PipeSys) (i len j : Nat) :
    ((s.readStep i len).clients j).call = (s.clients j).call ∨
      j = i ∧ (((s.readStep i len).clients j).call = .readBlocked len ∨
        ∃ bytes, ((s.readStep i len).clients j).call = .readDone bytes) := by
  by_cases hj : j = i
  · subst hj
    rw [readStep]
    split
    case h_1 bytes _ => exact .inr ⟨rfl, .inr ⟨bytes, by simp⟩⟩
    · exact .inr ⟨rfl, .inr ⟨[], by simp⟩⟩
    · exact .inr ⟨rfl, .inl (by simp)⟩
  · rw [readStep]
    split
    · refine .inl ?_
      simp only [set_clients_of_ne hj]
      exact wake_call
    · exact .inl (by rw [set_clients_of_ne hj])
    · exact .inl (by rw [set_clients_of_ne hj])

lemma writeStep_call (s : PipeSys) (i : Nat) (buf : List UInt8) (written j : Nat) :
    ((s.writeStep i buf written).clients j).call = (s.clients j).call ∨
      j = i ∧ ((∃ n, ((s.writeStep i buf written).clients j).call = .writing buf n ∨
          ((s.writeStep i buf written).clients j).call = .writeBlocked buf n) ∨
        ∃ ret, ((s.writeStep i buf written).clients j).call = .writeDone buf ret) := by
  by_cases hj : j = i
  · subst hj
    rw [writeStep]
    dsimp only
    split
    · exact .inr ⟨rfl, .inr ⟨0, by simp⟩⟩
    case h_2 n _ => exact .inr ⟨rfl, .inl ⟨n, .inl (by simp)⟩⟩
    · exact .inr ⟨rfl, .inr ⟨-1, by simp⟩⟩
    · exact .inr ⟨rfl, .inl ⟨written, .inr (by simp)⟩⟩
  · rw [writeStep]
    dsimp only
    split
    · refine .inl ?_
      simp only [set_clients_of_ne hj]
      exact wake_call
    · refine .inl ?_
      simp only [set_clients_of_ne hj]
      exact wake_call
    · exact .inl (by rw [set_clients_of_ne hj])
    · exact .inl (by rw [set_clients_of_ne hj])

lemma step_request {a : PipeAct} {r : Request} (hs : s.step a = some t)
    (hj : (t.clients j).call.request = some r) :
    (s.clients j).call.request = some r ∨ a = .call j r := by
  have hset : ∀ {i p}, t = s.set i p → (i = j → p.call.request = some r →
      (s.clients j).call.request = some r ∨ a = .call j r) →
      (s.clients j).call.request = some r ∨ a = .call j r := by
    rintro i p rfl h
    by_cases hji : j = i
    · subst hji
      rw [set_clients_self] at hj
      exact h rfl hj
    · rw [set_clients_of_ne hji] at hj
      exact .inl hj
  cases a with
  | call i q =>
    refine hset (step_call_cases hs).2 fun hij hq => .inr ?_
    have hqr : q = r := by cases q <;> simpa [Request.start, Call.request] using hq
    rw [hij, hqr]
  | go i =>
    obtain ⟨-, ⟨n, hcall, rfl⟩ | ⟨n, hcall, ht⟩ | ⟨buf, n, hcall, rfl⟩ | ⟨buf, n, hcall, ht⟩⟩ :=
      step_go_cases hs
    · left
      rcases readStep_call s i n j with heq | ⟨rfl, heq | ⟨bytes, heq⟩⟩
      · rw [← heq]
        exact hj
      · rw [heq] at hj
        rw [hcall]
        exact hj
      · rw [heq] at hj
        simp [Call.request] at hj
    · refine hset ht fun hij hq => .inl ?_
      rw [← hij, hcall]
      exact hq
    · left
      rcases writeStep_call s i buf n j with heq | ⟨rfl, ⟨k, heq | heq⟩ | ⟨ret, heq⟩⟩
      · rw [← heq]
        exact hj
      · rw [heq] at hj
        rw [hcall]
        exact hj
      · rw [heq] at hj
        rw [hcall]
        exact hj
      · rw [heq] at hj
        simp [Call.request] at hj
    · refine hset ht fun hij hq => .inl ?_
      rw [← hij, hcall]
      exact hq
  | addReadRef | addWriteRef =>
    cases hs
    exact .inl hj
  | releaseRead | releaseWrite =>
    cases hs
    rw [wake_call] at hj
    exact .inl hj

/-! ## Whole runs -/

/-- What the users of a pipe rely on: what was read followed by what is in the ring is what was
accepted, `pipe_write` returns 0 with its whole buffer accepted, and `pipe_read` returns 0 with
everything read and no writer left. -/
structure InOrder (s : PipeSys) : Prop where
  count_le : s.pipe.count ≤ pipeBufSize
  head_eq : s.pipe.head = (s.pipe.tail + s.pipe.count) % pipeBufSize
  stream : s.accepted = s.delivered ++ s.pipe.content
  writeReturns : ∀ i buf, (s.clients i).call = .writeDone buf 0 → (s.clients i).sent = buf
  readReturns : ∀ i len t, (s.clients i).call = .reading len → s.step (.go i) = some t →
    (t.clients i).call = .readDone [] → s.delivered = s.accepted ∧ s.pipe.writeRefs = 0

lemma Fifo.readReturns (h : s.Fifo) (hlen : 0 < len) (hcall : (s.clients i).call = .reading len)
    (hs : s.step (.go i) = some t) (ht : (t.clients i).call = .readDone []) :
    s.delivered = s.accepted ∧ s.pipe.writeRefs = 0 := by
  obtain ⟨-, ⟨n, hn, rfl⟩ | ⟨n, hn, rfl⟩ | ⟨buf, n, hn, rfl⟩ | ⟨buf, n, hn, rfl⟩⟩ :=
    step_go_cases hs
  case inr.inl | inr.inr.inl | inr.inr.inr => exact absurd (hcall.symm.trans hn) (by simp)
  obtain rfl : len = n := by simpa using hcall.symm.trans hn
  rw [PipeSys.readStep, Pipe.readSection] at ht
  by_cases hc : 0 < s.pipe.count
  · obtain ⟨tail, count, heq, -⟩ := s.pipe.takeBytes_spec len h.ring
    rw [if_pos hc, heq] at ht
    have hnil : s.pipe.content.take len = [] := by simpa using ht
    have hlength := congrArg List.length hnil
    rw [List.length_take, Pipe.content, length_ringList, List.length_nil] at hlength
    omega
  · rw [if_neg hc] at ht
    by_cases he : s.pipe.writeRefs = 0
    · refine ⟨?_, he⟩
      rw [h.stream, Pipe.content, Nat.eq_zero_of_not_pos hc, ringList_zero, List.append_nil]
    · rw [if_neg he] at ht
      simp at ht

/-- **A pipe loses, duplicates and reorders nothing**, for any number of readers and writers and
any interleaving of their sections with changes of the references. -/
theorem inOrder_of_positive (h : ReachIf step Fresh Positive s) : s.InOrder := by
  have hinv : s.Fifo ∧ ∀ i len, (s.clients i).call.request = some (.read len) → 0 < len := by
    refine h.invariant (I := fun s => s.Fifo ∧
      ∀ i len, (s.clients i).call.request = some (.read len) → 0 < len) ?_ ?_
    · refine fun s hfresh => ⟨.of_fresh hfresh, fun i len hi => ?_⟩
      rw [hfresh.2.1 i] at hi
      simp [Call.request] at hi
    · rintro s a t ⟨hfifo, hpos⟩ hok hs
      refine ⟨hfifo.step hs, fun i len hi => ?_⟩
      rcases step_request hs hi with hold | rfl
      · exact hpos i len hold
      · exact hok
  obtain ⟨hfifo, hpos⟩ := hinv
  refine ⟨hfifo.ring.count_le, hfifo.ring.head_eq, hfifo.stream, fun i buf hcall => ?_,
    fun i len t hcall hs ht => hfifo.readReturns (hpos i len (by rw [hcall]; rfl)) hcall hs ht⟩
  have hsent := hfifo.sent i
  rw [SentOk, hcall] at hsent
  exact hsent rfl

instance (s : PipeSys) : DecidablePred s.Positive
  | .call _ (.read len) => inferInstanceAs (Decidable (0 < len))
  | .call _ (.write buf) => inferInstanceAs (Decidable (buf ≠ []))
  | .go _ | .addReadRef | .addWriteRef | .releaseRead | .releaseWrite => isTrue trivial

def fresh : PipeSys where
  pipe := (default : Pipe).create
  clients := fun _ => { state := .ready, call := .idle, sent := [] }
  accepted := []
  delivered := []

lemma fresh_fresh : fresh.Fresh := ⟨⟨_, rfl⟩, fun _ => rfl, rfl, rfl⟩

/-- Process 1 waits for process 2 to write, reads in two parts and then sees the end of the
stream. -/
theorem inOrder_untilEof :
    ∃ s, runIf step Positive fresh
        [.call 1 (.read 2), .go 1, .call 2 (.write [10, 20, 30]), .go 2, .go 1, .go 1,
          .releaseWrite, .call 1 (.read 5), .go 1, .call 1 (.read 5), .go 1] = some s ∧
      s.delivered = [10, 20, 30] ∧ (s.clients 1).call = .readDone [] ∧ s.InOrder := by
  have hrun : (runIf step Positive fresh
      [.call 1 (.read 2), .go 1, .call 2 (.write [10, 20, 30]), .go 2, .go 1, .go 1, .releaseWrite,
        .call 1 (.read 5), .go 1, .call 1 (.read 5), .go 1]).map
      (fun s => (s.delivered, (s.clients 1).call)) = some ([10, 20, 30], .readDone []) := by
    decide +kernel
  obtain ⟨s, hs, hval⟩ := Option.map_eq_some_iff.mp hrun
  obtain ⟨hdel, hcall⟩ := Prod.mk.inj hval
  exact ⟨s, hs, hdel, hcall, inOrder_of_positive (.of_runIf (.start fresh_fresh) hs)⟩

end PipeSys

end NullOS.Ipc
