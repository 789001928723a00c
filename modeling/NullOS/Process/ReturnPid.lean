import NullOS.Process.PreemptRun

/-!
# What `sys_fork`, `sys_exec` and `sys_exec_pipe` return

Each of the three calls makes the new process runnable and reads its pid from the slot afterwards.
A tick in between lets the new process run and exit (`childExitsFirst`).  Without one, in a careful
run, the value returned is always the pid that was allocated.
-/

namespace NullOS.Preempt

open Lib

/-- The new process is runnable and its pid has not been read yet. -/
def Cont.returning : Cont → Option Build
  | .readPid b | .forkRow b _ => some b
  | _ => none

def NoTickBeforeRead (s : Sys) : Act → Prop
  | .preempt => s.cont.returning.isNone
  | _ => True

/-- A careful run in which the timer also stays out of the window before the pid is read. -/
def PidReadInTime (s : Sys) (a : Act) : Prop := Careful s a ∧ NoTickBeforeRead s a

instance (s : Sys) : DecidablePred (NoTickBeforeRead s)
  | .preempt => inferInstanceAs (Decidable (s.cont.returning.isNone = true))
  | .exec _ | .execPipe _ _ _ | .fork _ _ | .spawn _ | .exit | .kill _ | .wait _ | .ownFd _ _
  | .run _ | .tickInRun _ | .step => .isTrue trivial

instance (s : Sys) : DecidablePred (PidReadInTime s) := fun a =>
  inferInstanceAs (Decidable (Careful s a ∧ NoTickBeforeRead s a))

/-- Every creating call that has succeeded returned the pid it allocated. -/
def ReturnsPid (s : Sys) : Prop :=
  ∀ r ∈ s.rets, r.2 = r.1 ∧ r.2 ≠ 0

variable {s t : Sys} {c : Nat} {b : Build}

/-- The invariant: only the thread that runs can be about to read a pid, and then the slot
still has the pid it was given. -/
structure Returning (s : Sys) : Prop where
  only : ∀ g b, (s.conts g).returning = some b → s.k.current ≠ none ∧ s.thread = g
  pid : ∀ b, s.k.current ≠ none → s.cont.returning = some b →
    (s.k.procs b.slot).pid = b.pid ∧ b.pid ≠ 0
  rets : ReturnsPid s

lemma Inv.building_pid (h : Inv s) (hc : s.k.current = some c) (hb : b ∈ s.cont.building) :
    (s.k.procs b.slot).pid = b.pid ∧ b.pid ≠ 0 := by
  have hbd := (h.at_cur hc).building hb
  refine ⟨hbd.pid, ?_⟩
  rw [← hbd.pid]
  exact (h.pid b.slot hbd.lt (by simp [hbd.state])).1

/-- The thread that runs, after its step: what it needs to return the right pid, and what it
has returned. -/
lemma returning_cur (h : Safe s) (hr : Returning s) (hc : s.k.current = some c)
    (hs : stepThread s c = some t) :
    (∀ b, t.cont.returning = some b →
      t.k.current ≠ none ∧ (t.k.procs b.slot).pid = b.pid ∧ b.pid ≠ 0) ∧ ReturnsPid t := by
  have hcur : s.k.current ≠ none := by simp [hc]
  have hbuild := fun b => h.inv.building_pid hc (b := b)
  have hpid := fun b => hr.pid b hcur
  have hat := h.inv.at_cur hc
  unfold stepThread at hs
  cases hcont : s.cont
  all_goals
    rw [hcont] at hs hbuild hpid hat
    dsimp only at hs
  case user => simp at hs
  case readPid b =>
    cases hs
    refine ⟨fun b' hb' => absurd hb' (by simp [Cont.returning]), ?_⟩
    rintro r (_ | ⟨_, hmem⟩)
    · exact ⟨(hpid b rfl).1, by rw [(hpid b rfl).1]; exact (hpid b rfl).2⟩
    · exact hr.rets r hmem
  case forkRow b j =>
    split at hs
    all_goals
      cases hs
      refine ⟨fun b' hb' => ?_, hr.rets⟩
      rw [goto_cont] at hb'
      cases hb'
      simpa [hcur] using hpid b rfl
  case spawnPublish b =>
    split at hs
    all_goals
      cases hs
      refine ⟨fun b' hb' => ?_, hr.rets⟩
      rw [goto_cont] at hb'
      cases hb'
    simpa [hcur] using hbuild b rfl
  case makeReadySet b | forkReady b =>
    cases hs
    refine ⟨fun b' hb' => ?_, hr.rets⟩
    rw [goto_cont] at hb'
    cases hb'
    simpa [hcur] using hbuild b rfl
  case makeReadyTest b =>
    rw [if_pos hat.1.state] at hs
    cases hs
    exact ⟨fun b' hb' => absurd hb' (by simp [Cont.returning]), hr.rets⟩
  case exitEnd =>
    cases hs
    refine ⟨fun b' hb' => ?_, hr.rets⟩
    have hb'' : s.cont.returning = some b' := hb'
    rw [hcont] at hb''
    simp [Cont.returning] at hb''
  case seedStdin | seedStdout | exitClose | waitCheck =>
    split at hs
    all_goals
      cases hs
      exact ⟨fun b' hb' => absurd hb' (by simp [Cont.returning]), hr.rets⟩
  case forkCopy | killScan | killTest | killWake =>
    cases hs
    refine ⟨fun b' hb' => ?_, hr.rets⟩
    rw [goto_cont] at hb'
    split_ifs at hb' <;> simp [Cont.returning] at hb'
  all_goals
    cases hs
    exact ⟨fun b' hb' => absurd hb' (by simp [Cont.returning]), hr.rets⟩

lemma returning_stepThread (h : Safe s) (hr : Returning s) (hc : s.k.current = some c)
    (hs : stepThread s c = some t) : Returning t := by
  obtain ⟨hnow, hrets⟩ := returning_cur h hr hc hs
  obtain ⟨hthread, n, hconts⟩ := stepThread_conts hs
  refine ⟨fun g b hb => ?_, fun b _ hb => (hnow b hb).2, hrets⟩
  by_cases hg : g = s.thread
  · subst hg
    refine ⟨(hnow b ?_).1, hthread⟩
    rw [Sys.cont, hthread]
    exact hb
  · rw [hconts, Function.update_of_ne hg] at hb
    exact absurd (hr.only g b hb).2.symm hg

lemma returning_of_none (hno : ∀ g, (s.conts g).returning = none)
    (hconts : ∀ g, t.conts g = s.conts g ∨ (t.conts g).returning = none)
    (hrets : t.rets = s.rets) (hr : ReturnsPid s) : Returning t := by
  have hno' : ∀ g, (t.conts g).returning = none := by
    intro g
    rcases hconts g with hg | hg
    · rw [hg, hno]
    · exact hg
  refine ⟨fun g b hb => ?_, fun b _ hb => ?_, ?_⟩
  · rw [hno'] at hb
    simp at hb
  · rw [Sys.cont, hno'] at hb
    simp at hb
  · rw [ReturnsPid, hrets]
    exact hr

lemma returning_call {a : Act} (hno : ∀ g, (s.conts g).returning = none) (hr : ReturnsPid s)
    (hs : call s c a = some t) : Returning t := by
  -- a new thread and the next point of the caller are no reads
  have hgoto : ∀ {u : Sys} {m : Cont}, m.returning = none → u.thread = s.thread →
      (∀ g, g ≠ s.thread → u.conts g = s.conts g ∨ (u.conts g).returning = none) →
      ∀ g, (u.goto m).conts g = s.conts g ∨ ((u.goto m).conts g).returning = none := by
    intro u m hm hu hrest g
    by_cases hg : g = s.thread
    · right
      simp [Sys.goto, hu, hg, hm]
    · rw [goto_conts_of_ne u m (hu ▸ hg)]
      exact hrest g hg
  rcases call_cases hs with rfl | ⟨b, x, row, n, hcl, rfl⟩ | ⟨n, hn, rfl⟩ | ⟨j, fd, rfl⟩
  · exact returning_of_none hno (fun _ => .inl rfl) rfl hr
  · refine returning_of_none hno (hgoto ?_ rfl fun g _ => ?_) rfl hr
    · rcases hcl.point with ⟨-, rfl, -⟩ | ⟨-, rfl, -⟩
      all_goals rfl
    · by_cases hp : g = x.pid
      · right
        simp [Sys.openBooks, hp, Cont.returning]
      · left
        simp [Sys.openBooks, hp]
  · refine returning_of_none hno (hgoto ?_ rfl fun g _ => .inl rfl) rfl hr
    rcases hn with rfl | ⟨pid, rfl⟩ | ⟨pid, rfl⟩
    all_goals rfl
  · exact returning_of_none hno (fun _ => .inl rfl) rfl hr

lemma returning_step {a : Act} (h : Safe s) (hr : Returning s) (hok : PidReadInTime s a)
    (hs : step s a = some t) : Returning t := by
  -- when the thread that runs reads nothing, or nobody runs, nobody does
  have hno : s.k.current = none ∨ s.cont.returning = none →
      ∀ g, (s.conts g).returning = none := by
    intro hn g
    cases hg : (s.conts g).returning with
    | none => rfl
    | some b =>
      obtain ⟨hcur, hthread⟩ := hr.only g b hg
      have hz := hn.resolve_left hcur
      rw [Sys.cont, hthread, hg] at hz
      simp at hz
  obtain ⟨c, hc, rfl, hst⟩ | ⟨c, hc, rfl, -, rfl⟩ | ⟨j, hc, rfl, -, -, rfl⟩ |
    ⟨dir, slot, k, hc, rfl, -, rfl⟩ | ⟨c, hc, hu, hst⟩ |
    ⟨j, rfl, rfl⟩ := step_cases hs
  · exact returning_stepThread h hr hc hst
  · exact returning_of_none (hno (.inr (Option.isNone_iff_eq_none.mp hok.2))) (fun _ => .inl rfl)
      rfl hr.rets
  · exact returning_of_none (hno (.inl hc)) (fun _ => .inl rfl) rfl hr.rets
  · refine returning_of_none (hno (.inl hc)) (fun g => ?_) rfl hr.rets
    by_cases hp : g = (k.procs slot).pid
    · right
      simp [Sys.openBooks, hp, Cont.returning]
    · left
      simp [Sys.openBooks, hp]
  · exact returning_call (hno (.inr (by rw [hu]; rfl))) hr.rets hst
  · exact absurd hok.1 id

/-- **The pid returned is the pid allocated** in every state of a careful run in which the
timer does not fire between the publication of a new process and the read of its pid. -/
theorem returnsPid_of_pidReadInTime (h : ReachIf step (· = boot) PidReadInTime s) :
    ReturnsPid s := by
  have hinv : Safe s ∧ Returning s := by
    refine h.invariant (I := fun s => Safe s ∧ Returning s) (fun s hs => ?_)
      fun s a t hi hok hs => ?_
    · subst hs
      refine ⟨safe_boot, fun g b hb => ?_, fun b hb _ => ?_, fun r hr => ?_⟩
      · simp [boot, Cont.returning] at hb
      · exact absurd rfl hb
      · simp [boot] at hr
    · exact ⟨safe_step hi.1 hok.1 hs, returning_step hi.1 hi.2 hok hs⟩
  exact hinv.2.rets

/-- The first process starts a second one with `sys_exec`, then forks; both calls return. -/
def execThenFork : List Act :=
  [.spawn 0x400000, .run 0, .exec 0x500000] ++ List.replicate 5 .step ++
    [.preempt, .run 1, .preempt, .run 0, .fork 0x600000 false] ++ List.replicate 16 .step

theorem returnsPid_execThenFork :
    ∃ s, runIf step PidReadInTime boot execThenFork = some s ∧ s.rets = [(3, 3), (2, 2)] ∧
      ReturnsPid s := by
  have hrun : (runIf step PidReadInTime boot execThenFork).map (fun s => s.rets) =
      some [(3, 3), (2, 2)] := by
    decide +kernel
  obtain ⟨s, hs, hrets⟩ := Option.map_eq_some_iff.mp hrun
  exact ⟨s, hs, hrets, returnsPid_of_pidReadInTime (ReachIf.of_runIf (.start rfl) hs)⟩

def childExits : List Act :=
  [.spawn 0x400000, .run 0, .fork 0x500000 false] ++ List.replicate 6 .step ++
    [.preempt, .run 1, .exit] ++ List.replicate 10 .step ++ [.run 0] ++ List.replicate 10 .step

theorem childExitsFirst : ¬ ∀ s, Reach step (· = boot) s → ReturnsPid s := by
  intro hall
  have hrun : (run step boot childExits).map (fun s => s.rets) = some [(2, 0)] := by
    decide +kernel
  obtain ⟨s, hs, hrets⟩ := Option.map_eq_some_iff.mp hrun
  have hret := hall s (Reach.of_run rfl hs) (2, 0) (by simp [hrets])
  exact absurd hret.1 (by decide)

end NullOS.Preempt
