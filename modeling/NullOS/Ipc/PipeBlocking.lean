import NullOS.Ipc.PipeRun

/-!
# One reader and one writer

A pipe has room for one waiter on each side.  With one process reading and one writing that is
enough: whoever is blocked is registered, and is blocked for a reason that still holds.
-/

namespace NullOS.Ipc.PipeSys

open Lib

def ReadSleeps (s : PipeSys) (i : Nat) : Prop :=
  (∃ len, (s.clients i).call = .readBlocked len) ∧ (s.clients i).state = .blocked

def WriteSleeps (s : PipeSys) (i : Nat) : Prop :=
  (∃ buf n, (s.clients i).call = .writeBlocked buf n) ∧ (s.clients i).state = .blocked

def Pair (r w : Nat) (_ : PipeSys) : PipeAct → Prop
  | .call i (.read _) => i = r
  | .call i (.write _) => i = w
  | _ => True

/-- Whoever sleeps is registered and has a reason to. -/
structure Waits (s : PipeSys) (r w : Nat) : Prop where
  reader : s.ReadSleeps r → s.pipe.readWaiter = some r ∧ s.pipe.count = 0 ∧ 0 < s.pipe.writeRefs
  writer : s.WriteSleeps w →
    s.pipe.writeWaiter = some w ∧ s.pipe.count = pipeBufSize ∧ 0 < s.pipe.readRefs
  notBoth : ¬ (s.ReadSleeps r ∧ s.WriteSleeps w)
  releaseWrite : ∀ t, s.step .releaseWrite = some t → t.pipe.writeRefs = 0 → ∀ i, ¬ t.ReadSleeps i
  releaseRead : ∀ t, s.step .releaseRead = some t → t.pipe.readRefs = 0 → ∀ i, ¬ t.WriteSleeps i

/-- The same for every process, which makes it inductive. -/
structure Sides (s : PipeSys) : Prop where
  reader : ∀ i, s.ReadSleeps i →
    s.pipe.readWaiter = some i ∧ s.pipe.count = 0 ∧ 0 < s.pipe.writeRefs
  writer : ∀ i, s.WriteSleeps i →
    s.pipe.writeWaiter = some i ∧ s.pipe.count = pipeBufSize ∧ 0 < s.pipe.readRefs

/-- The invariant: one process at most reads and one at most writes. -/
structure PairInv (s : PipeSys) (r w : Nat) : Prop extends Sides s where
  fifo : s.Fifo
  reads : ∀ i len, (s.clients i).call.request = some (.read len) → i = r
  writes : ∀ i buf, (s.clients i).call.request = some (.write buf) → i = w

variable {s t : PipeSys} {r w i j len written : Nat} {p : Client} {q : Pipe} {buf : List UInt8}
  {k : Option Nat}

/-! ## Sleeping -/

lemma ReadSleeps.request (h : s.ReadSleeps i) :
    ∃ len, (s.clients i).call.request = some (.read len) := by
  obtain ⟨⟨len, hcall⟩, -⟩ := h
  exact ⟨len, by rw [hcall]; rfl⟩

lemma WriteSleeps.request (h : s.WriteSleeps i) :
    ∃ buf, (s.clients i).call.request = some (.write buf) := by
  obtain ⟨⟨buf, n, hcall⟩, -⟩ := h
  exact ⟨buf, by rw [hcall]; rfl⟩

lemma wake_blocked (h : ((s.wake k).clients j).state = .blocked) :
    (s.clients j).state = .blocked ∧ k ≠ some j := by
  cases k with
  | none => exact ⟨h, by simp⟩
  | some i =>
    by_cases hj : j = i
    · subst hj
      rw [wake, set_clients_self, Client.wake] at h
      split at h
      · simp at h
      case isFalse hb => exact absurd h hb
    · rw [wake, set_clients_of_ne hj] at h
      exact ⟨h, fun heq => hj (Option.some.inj heq).symm⟩

lemma readSleeps_of_wake (h : (s.wake k).ReadSleeps j) : s.ReadSleeps j ∧ k ≠ some j := by
  obtain ⟨hcall, hb⟩ := h
  simp only [wake_call] at hcall
  exact ⟨⟨hcall, (wake_blocked hb).1⟩, (wake_blocked hb).2⟩

lemma writeSleeps_of_wake (h : (s.wake k).WriteSleeps j) : s.WriteSleeps j ∧ k ≠ some j := by
  obtain ⟨hcall, hb⟩ := h
  simp only [wake_call] at hcall
  exact ⟨⟨hcall, (wake_blocked hb).1⟩, (wake_blocked hb).2⟩

lemma readSleeps_of_set (h : (s.set i p).ReadSleeps j) :
    j = i ∧ (∃ len, p.call = .readBlocked len) ∧ p.state = .blocked ∨ j ≠ i ∧ s.ReadSleeps j := by
  by_cases hj : j = i
  · subst hj
    rw [ReadSleeps, set_clients_self] at h
    exact .inl ⟨rfl, h⟩
  · rw [ReadSleeps, set_clients_of_ne hj] at h
    exact .inr ⟨hj, h⟩

lemma writeSleeps_of_set (h : (s.set i p).WriteSleeps j) :
    j = i ∧ (∃ buf n, p.call = .writeBlocked buf n) ∧ p.state = .blocked ∨
      j ≠ i ∧ s.WriteSleeps j := by
  by_cases hj : j = i
  · subst hj
    rw [WriteSleeps, set_clients_self] at h
    exact .inl ⟨rfl, h⟩
  · rw [WriteSleeps, set_clients_of_ne hj] at h
    exact .inr ⟨hj, h⟩

/-! ## The steps -/

lemma PairInv.of_fresh (r w : Nat) (h : s.Fresh) : s.PairInv r w := by
  have hidle := h.2.1
  refine ⟨⟨fun i hi => ?_, fun i hi => ?_⟩, .of_fresh h, fun i len hi => ?_, fun i buf hi => ?_⟩
  · simp [ReadSleeps, hidle i] at hi
  · simp [WriteSleeps, hidle i] at hi
  · simp [hidle i, Call.request] at hi
  · simp [hidle i, Call.request] at hi

/-- `r` makes a pass through the section of `pipe_read`.  If there are bytes, the writer that may
sleep is the one woken; if there are none, no writer sleeps. -/
lemma PairInv.readStep (h : s.PairInv r w) (hcall : (s.clients i).call = .reading len) :
    (s.readStep i len).Sides := by
  have hir : i = r := h.reads i len (by rw [hcall]; rfl)
  have honly : ∀ j, j ≠ i → ¬ s.ReadSleeps j := by
    intro j hji hj
    obtain ⟨n, hn⟩ := hj.request
    exact hji ((h.reads j n hn).trans hir.symm)
  rw [PipeSys.readStep, Pipe.readSection]
  by_cases hc : 0 < s.pipe.count
  · rw [if_pos hc]
    dsimp only
    refine ⟨fun j hj => ?_, fun j hj => ?_⟩
    · rcases readSleeps_of_set hj with ⟨-, ⟨n, hn⟩, -⟩ | ⟨hji, hj⟩
      · simp at hn
      · exact absurd (readSleeps_of_wake hj).1 (honly j hji)
    · rcases writeSleeps_of_set hj with ⟨-, ⟨b, n, hn⟩, -⟩ | ⟨hji, hj⟩
      · simp at hn
      · obtain ⟨hs, hne⟩ := writeSleeps_of_wake hj
        rw [Pipe.readSectionWakes, if_pos hc] at hne
        exact absurd (h.writer j hs).1 hne
  · rw [if_neg hc]
    by_cases he : s.pipe.writeRefs = 0
    · rw [if_pos he]
      refine ⟨fun j hj => ?_, fun j hj => ?_⟩
      · rcases readSleeps_of_set hj with ⟨-, ⟨n, hn⟩, -⟩ | ⟨hji, hj⟩
        · simp at hn
        · exact absurd hj (honly j hji)
      · rcases writeSleeps_of_set hj with ⟨-, ⟨b, n, hn⟩, -⟩ | ⟨hji, hj⟩
        · simp at hn
        · exact h.writer j hj
    · rw [if_neg he]
      refine ⟨fun j hj => ?_, fun j hj => ?_⟩
      · rcases readSleeps_of_set hj with ⟨rfl, -⟩ | ⟨hji, hj⟩
        · exact ⟨rfl, Nat.eq_zero_of_not_pos hc, Nat.pos_of_ne_zero he⟩
        · exact absurd hj (honly j hji)
      · rcases writeSleeps_of_set hj with ⟨-, ⟨b, n, hn⟩, -⟩ | ⟨hji, hj⟩
        · simp at hn
        · exact h.writer j hj

lemma PairInv.writeStep (h : s.PairInv r w) (hcall : (s.clients i).call = .writing buf written) :
    (s.writeStep i buf written).Sides := by
  have hiw : i = w := h.writes i buf (by rw [hcall]; rfl)
  have honly : ∀ j, j ≠ i → ¬ s.WriteSleeps j := by
    intro j hji hj
    obtain ⟨b, hb⟩ := hj.request
    exact hji ((h.writes j b hb).trans hiw.symm)
  rw [PipeSys.writeStep, Pipe.writeSection]
  by_cases hr : s.pipe.readRefs = 0
  · rw [if_pos hr]
    refine ⟨fun j hj => ?_, fun j hj => ?_⟩
    · rcases readSleeps_of_set hj with ⟨-, ⟨n, hn⟩, -⟩ | ⟨hji, hj⟩
      · simp at hn
      · exact h.reader j hj
    · rcases writeSleeps_of_set hj with ⟨-, ⟨b, n, hn⟩, -⟩ | ⟨hji, hj⟩
      · simp at hn
      · exact absurd hj (honly j hji)
  · rw [if_neg hr]
    by_cases hfree : 0 < pipeBufSize - s.pipe.count
    · -- bytes were added: the reader that may sleep is the one woken, and `w` does not sleep
      have hread : ∀ (u : PipeSys) (x : Client) (j : Nat), u.clients = s.clients →
          (∀ n, x.call ≠ .readBlocked n) →
          ¬ ((u.wake s.pipe.writeSectionWakes).set i x).ReadSleeps j := by
        intro u x j hu hx hj
        rcases readSleeps_of_set hj with ⟨-, ⟨n, hn⟩, -⟩ | ⟨-, hj⟩
        · exact hx n hn
        · obtain ⟨hs, hne⟩ := readSleeps_of_wake hj
          rw [Pipe.writeSectionWakes, if_pos ⟨hr, hfree⟩] at hne
          rw [ReadSleeps, hu] at hs
          exact hne (h.reader j hs).1
      have hwrite : ∀ (u : PipeSys) (x : Client) (j : Nat), u.clients = s.clients →
          (∀ b n, x.call ≠ .writeBlocked b n) →
          ¬ ((u.wake s.pipe.writeSectionWakes).set i x).WriteSleeps j := by
        intro u x j hu hx hj
        rcases writeSleeps_of_set hj with ⟨-, ⟨b, n, hn⟩, -⟩ | ⟨hji, hj⟩
        · exact hx b n hn
        · have hs := (writeSleeps_of_wake hj).1
          rw [WriteSleeps, hu] at hs
          exact honly j hji hs
      rw [if_pos hfree]
      dsimp only
      split
      case h_3 hno | h_4 hno => split at hno <;> simp at hno
      all_goals exact ⟨fun j hj => absurd hj (hread _ _ j rfl (by simp)),
        fun j hj => absurd hj (hwrite _ _ j rfl (by simp))⟩
    · rw [if_neg hfree]
      refine ⟨fun j hj => ?_, fun j hj => ?_⟩
      · rcases readSleeps_of_set hj with ⟨-, ⟨n, hn⟩, -⟩ | ⟨hji, hj⟩
        · simp at hn
        · exact h.reader j hj
      · rcases writeSleeps_of_set hj with ⟨rfl, -⟩ | ⟨hji, hj⟩
        · have hle := h.fifo.ring.count_le
          exact ⟨rfl, show s.pipe.count = pipeBufSize by omega, Nat.pos_of_ne_zero hr⟩
        · exact absurd hj (honly j hji)

lemma Sides.set (h : s.Sides) (hp : p.state ≠ .blocked) : (s.set i p).Sides := by
  refine ⟨fun j hj => ?_, fun j hj => ?_⟩
  · rcases readSleeps_of_set hj with ⟨-, -, hb⟩ | ⟨-, hj⟩
    · exact absurd hb hp
    · exact h.reader j hj
  · rcases writeSleeps_of_set hj with ⟨-, -, hb⟩ | ⟨-, hj⟩
    · exact absurd hb hp
    · exact h.writer j hj

lemma PairInv.step {a : PipeAct} (h : s.PairInv r w) (hok : Pair r w s a)
    (hs : s.step a = some t) : t.PairInv r w := by
  have hreads : ∀ i len, (t.clients i).call.request = some (.read len) → i = r := fun i len hi =>
    (step_request hs hi).elim (h.reads i len) fun ha => by
      subst ha
      exact hok
  have hwrites : ∀ i buf, (t.clients i).call.request = some (.write buf) → i = w := fun i buf hi =>
    (step_request hs hi).elim (h.writes i buf) fun ha => by
      subst ha
      exact hok
  refine ⟨?_, h.fifo.step hs, hreads, hwrites⟩
  cases a with
  | call i q =>
    obtain ⟨⟨-, hb⟩, rfl⟩ := step_call_cases hs
    exact h.toSides.set hb
  | go i =>
    obtain ⟨hb, ⟨n, hcall, rfl⟩ | ⟨n, hcall, rfl⟩ | ⟨buf, n, hcall, rfl⟩ | ⟨buf, n, hcall, rfl⟩⟩ :=
      step_go_cases hs
    · exact h.readStep hcall
    · exact h.toSides.set hb
    · exact h.writeStep hcall
    · exact h.toSides.set hb
  | addReadRef =>
    cases hs
    exact ⟨h.reader, fun i hi => ⟨(h.writer i hi).1, (h.writer i hi).2.1, Nat.succ_pos _⟩⟩
  | addWriteRef =>
    cases hs
    exact ⟨fun i hi => ⟨(h.reader i hi).1, (h.reader i hi).2.1, Nat.succ_pos _⟩, h.writer⟩
  | releaseRead =>
    cases hs
    refine ⟨fun j hj => ?_, fun j hj => ?_⟩
    · rw [wake_pipe]
      exact h.reader j (readSleeps_of_wake hj).1
    · obtain ⟨hj, hne⟩ := writeSleeps_of_wake hj
      obtain ⟨hreg, hcount, hrefs⟩ := h.writer j hj
      -- with the last reader gone the writer is woken
      have hleft : ¬ s.pipe.readRefs - 1 = 0 := fun h0 =>
        hne (by rw [Pipe.releaseReadWakes, if_pos h0]; exact hreg)
      rw [wake_pipe]
      refine ⟨?_, hcount, Nat.pos_of_ne_zero hleft⟩
      exact (if_neg hleft).trans hreg
  | releaseWrite =>
    cases hs
    refine ⟨fun j hj => ?_, fun j hj => ?_⟩
    · obtain ⟨hj, hne⟩ := readSleeps_of_wake hj
      obtain ⟨hreg, hcount, hrefs⟩ := h.reader j hj
      have hleft : ¬ s.pipe.writeRefs - 1 = 0 := fun h0 =>
        hne (by rw [Pipe.releaseWriteWakes, if_pos h0]; exact hreg)
      rw [wake_pipe]
      refine ⟨?_, hcount, Nat.pos_of_ne_zero hleft⟩
      exact (if_neg hleft).trans hreg
    · rw [wake_pipe]
      exact h.writer j (writeSleeps_of_wake hj).1

lemma PairInv.waits (h : s.PairInv r w) : s.Waits r w := by
  refine ⟨h.reader r, h.writer w, fun hboth => ?_, fun t hs h0 i hi => ?_, fun t hs h0 i hi => ?_⟩
  · have hempty := (h.reader r hboth.1).2.1
    have hfull := (h.writer w hboth.2).2.1
    rw [hempty] at hfull
    exact absurd hfull (by decide)
  · have := ((h.step (a := .releaseWrite) trivial hs).reader i hi).2.2
    omega
  · have := ((h.step (a := .releaseRead) trivial hs).writer i hi).2.2
    omega

/-- **Nobody sleeps on the pipe without a reason**, as long as one process reads and one writes,
whatever becomes of the references. -/
theorem waits_of_pair (h : ReachIf step Fresh (Pair r w) s) : s.Waits r w := by
  have hinv : s.PairInv r w := by
    refine h.invariant (I := fun s => s.PairInv r w) (fun s hs => .of_fresh r w hs) ?_
    exact fun s a t hi hok hs => hi.step hok hs
  exact hinv.waits

instance (r w : Nat) (s : PipeSys) : DecidablePred (Pair r w s)
  | .call i (.read _) => inferInstanceAs (Decidable (i = r))
  | .call i (.write _) => inferInstanceAs (Decidable (i = w))
  | .go _ | .addReadRef | .addWriteRef | .releaseRead | .releaseWrite => isTrue trivial

/-- The writer has more than fits, fills the pipe and sleeps. -/
theorem waits_fullPipe :
    ∃ s, runIf step (Pair 1 2) fresh
        [.call 2 (.write (List.replicate 600 7)), .go 2, .go 2] = some s ∧
      s.WriteSleeps 2 ∧ s.Waits 1 2 := by
  have hrun : (runIf step (Pair 1 2) fresh
      [.call 2 (.write (List.replicate 600 7)), .go 2, .go 2]).map
      (fun s => ((s.clients 2).call, (s.clients 2).state)) =
        some (.writeBlocked (List.replicate 600 7) 512, .blocked) := by
    decide +kernel
  obtain ⟨s, hs, hval⟩ := Option.map_eq_some_iff.mp hrun
  obtain ⟨hcall, hstate⟩ := Prod.mk.inj hval
  exact ⟨s, hs, ⟨⟨_, _, hcall⟩, hstate⟩, waits_of_pair (.of_runIf (.start fresh_fresh) hs)⟩

end NullOS.Ipc.PipeSys
