import NullOS.Process.PreemptRun

/-!
# Waiting for an exit

`sys_wait` blocks its caller until no slot carries the pid any more, and `process_exit` wakes the
waiters in a scan over the table, which can be preempted inside `sys_kill`.  A waiter has somebody
to wake it as long as the pid is carried by a slot, or a live thread that ended it has its scan
still ahead of the waiter.
-/

namespace NullOS.Preempt

open Lib Vfs

/-- A thread here has ended the process `p`, and its scan has not passed slot `i`. -/
def Cont.Scans (p i : Nat) : Cont → Prop
  | .killPid _ e => e = p
  | .killWake e j | .killWaiting e j | .killReady e j => e = p ∧ j ≤ i
  | _ => False

/-- A thread here is inside `process_exit` for `p`, and its scan has not passed slot `i`. -/
def Cont.Ends (p i : Nat) : Cont → Prop
  | .killUnused _ e => e = p
  | n => n.Scans p i

/-- A thread here has ended a process and owes its waiters the wake-up. -/
def Cont.Scanning : Cont → Prop
  | .killPid _ _ | .killWake _ _ | .killWaiting _ _ | .killReady _ _ => True
  | _ => False

def Waits (s : Sys) (i p : Nat) : Prop :=
  i < processMax ∧ (s.k.procs i).state = .blocked ∧ (s.k.procs i).waitingForPid = p ∧ p ≠ 0

/-- Some slot in use carries the pid `p`. -/
def Carried (s : Sys) (p : Nat) : Prop :=
  ∃ j < processMax, (s.k.procs j).state ≠ .unused ∧ (s.k.procs j).pid = p

/-- Some live thread is at a point with the property `P`. -/
def LiveAt (s : Sys) (P : Cont → Prop) : Prop :=
  ∃ q < processMax, (s.k.procs q).state ≠ .unused ∧ P (s.conts (s.k.procs q).pid)

structure NoMissedExit (s : Sys) : Prop where
  waiting : ∀ i p, Waits s i p → Carried s p ∨ LiveAt s (Cont.Ends p i)
  returns : ∀ c p t, s.k.current = some c → s.cont = .waitCheck p → stepThread s c = some t →
    t.cont = .user → ¬ Carried t p

/-- `sys_kill` is about to end the process whose pid it has read, and not one that owes others a
wake-up; `process_fork` does not fail after somebody waits for the child. -/
def GivenUpOk (s : Sys) : Cont → Prop
  | .killUnused i e => (s.k.procs i).pid = e ∧ ¬ (s.conts e).Scanning
  | .forkUnused b => ∀ i < processMax, ¬ Waits s i b.pid
  | _ => True

/-- What a run must avoid on top of `Careful`: giving up a slot without its waiters, and
reserving one for a child with a stale `waiting_for_pid`. -/
def WaitersKept (s : Sys) : Act → Prop
  | .step => GivenUpOk s s.cont
  | .fork _ _ => ∀ slot ∈ s.k.freeSlot, (s.k.procs slot).waitingForPid = 0
  | _ => True

def Attentive (s : Sys) (a : Act) : Prop := Careful s a ∧ WaitersKept s a

instance (p i : Nat) : DecidablePred (Cont.Ends p i) := by
  intro n
  induction n using Cont.casesOn
  case killUnused | killPid => exact inferInstanceAs (Decidable (_ = _))
  case killWake | killWaiting | killReady => exact inferInstanceAs (Decidable (_ ∧ _))
  all_goals exact .isFalse id

instance : DecidablePred Cont.Scanning := by
  intro n
  induction n using Cont.casesOn
  case killPid | killWake | killWaiting | killReady => exact .isTrue trivial
  all_goals exact .isFalse id

instance (s : Sys) (i p : Nat) : Decidable (Waits s i p) :=
  inferInstanceAs (Decidable (_ ∧ _ ∧ _ ∧ _))

instance (s : Sys) (p : Nat) : Decidable (Carried s p) :=
  inferInstanceAs (Decidable (∃ j < processMax, _ ∧ _))

instance (s : Sys) (P : Cont → Prop) [DecidablePred P] : Decidable (LiveAt s P) :=
  inferInstanceAs (Decidable (∃ q < processMax, _ ∧ P _))

instance (s : Sys) : DecidablePred (GivenUpOk s) := by
  intro n
  induction n using Cont.casesOn
  case killUnused i e => exact inferInstanceAs (Decidable (_ ∧ ¬ (s.conts e).Scanning))
  case forkUnused b => exact inferInstanceAs (Decidable (∀ i < processMax, ¬ Waits s i b.pid))
  all_goals exact .isTrue trivial

instance (s : Sys) : DecidablePred (WaitersKept s)
  | .step => inferInstanceAs (Decidable (GivenUpOk s s.cont))
  | .fork _ _ => inferInstanceAs (Decidable (∀ slot ∈ s.k.freeSlot, _))
  | .exec _ | .execPipe _ _ _ | .exit | .kill _ | .wait _ | .ownFd _ _ | .preempt | .run _
  | .tickInRun _ | .spawn _ => .isTrue trivial

instance (s : Sys) : DecidablePred (Attentive s) := fun a =>
  inferInstanceAs (Decidable (Careful s a ∧ WaitersKept s a))

/-! ## The invariant -/

/-- Every waiter has somebody to wake it, and a blocked process owes no wake-up itself. -/
structure Awaited (s : Sys) : Prop where
  waiting : ∀ i p, Waits s i p → Carried s p ∨ LiveAt s (Cont.Scans p i)
  blocked : ∀ i < processMax, (s.k.procs i).state = .blocked →
    ¬ (s.conts (s.k.procs i).pid).Scanning

variable {s t : Sys} {c i j p q slot dir : Nat} {b : Build} {n : Cont}

lemma Cont.Scans.scanning (h : n.Scans p i) : n.Scanning := by
  cases n
  case killPid | killWake | killWaiting | killReady => trivial
  all_goals exact h.elim

lemma Cont.Scans.ends (h : n.Scans p i) : n.Ends p i := by
  cases n
  case killUnused => exact h.elim
  all_goals exact h

/-- The fields of a slot that matter here are the same. -/
def SameWait (x y : Proc) : Prop :=
  x.state = y.state ∧ x.pid = y.pid ∧ x.waitingForPid = y.waitingForPid

lemma Awaited.of_same (h : Awaited s) (hp : ∀ i, SameWait (t.k.procs i) (s.k.procs i))
    (hc : t.conts = s.conts) : Awaited t := by
  obtain ⟨hw, hb⟩ := h
  constructor
  · simpa only [Waits, Carried, LiveAt, (hp _).1, (hp _).2.1, (hp _).2.2, hc] using hw
  · simpa only [(hp _).1, (hp _).2.1, hc] using hb

lemma seeded_sameWait (s : Sys) (c : Nat) (b : Build) (j idx : Nat) (r w : Option Nat) (i : Nat) :
    SameWait ((s.seeded c b j idx r w).k.procs i) (s.k.procs i) := by
  by_cases hi : i = b.slot
  · subst hi
    simp [Sys.seeded, SameWait]
  · simp [Sys.seeded, SameWait, Kernel.setProc_procs_of_ne, hi]

/-- **The current thread changes one slot and moves on.** -/
lemma Awaited.step_slot (h : Awaited s) (hinv : Inv s) (hc : s.k.current = some c) {x : Proc}
    (hpid : x.state ≠ .unused → (s.k.procs i).state ≠ .unused ∧ x.pid = (s.k.procs i).pid)
    (hwait : ∀ p, Waits ((s.setProc i x).goto n) i p → Waits s i p ∨ Carried s p ∧
      x.state ≠ .unused)
    (hblock : x.state = .blocked → (s.k.procs i).state = .blocked ∨ i = c ∧ ¬ n.Scanning)
    (hend : x.state = .unused → (s.k.procs i).state ≠ .unused →
      i ≠ c ∧ ¬ (s.conts (s.k.procs i).pid).Scanning ∧
        ∀ k, Waits s k (s.k.procs i).pid → n.Scans (s.k.procs i).pid k)
    (hscan : ∀ p k, s.cont.Scans p k → Waits ((s.setProc i x).goto n) k p → n.Scans p k) :
    Awaited ((s.setProc i x).goto n) := by
  obtain ⟨hclt, hcrun, hthread⟩ := hinv.cur c hc
  have hlc := hinv.live hc
  have hne := fun k (hk : k ≠ i) => Kernel.setProc_procs_of_ne s.k i x hk
  have hself := Kernel.setProc_procs_self s.k i x
  -- a live slot stays live under its pid, unless it is the one that is given up
  have hlive : ∀ q, (s.k.procs q).state ≠ .unused → (q = i → x.state ≠ .unused) →
      ((s.k.setProc i x).procs q).state ≠ .unused ∧
        ((s.k.setProc i x).procs q).pid = (s.k.procs q).pid := by
    intro q hq hx
    by_cases hqi : q = i
    · subst hqi
      rw [hself]
      exact ⟨hx rfl, (hpid (hx rfl)).2⟩
    · rw [hne q hqi]
      exact ⟨hq, rfl⟩
  have hclive := hlive c hlc fun hci hx => by
    subst hci
    exact (hend hx hlc).1 rfl
  have hcscan : ∀ p k, n.Scans p k → LiveAt ((s.setProc i x).goto n) (Cont.Scans p k) := by
    intro p k hn
    refine ⟨c, hclt, hclive.1, ?_⟩
    show Cont.Scans p k (((s.setProc i x).goto n).conts ((s.k.setProc i x).procs c).pid)
    rwa [hclive.2, ← hthread, show s.thread = (s.setProc i x).thread from rfl, goto_conts_self]
  have hother : ∀ q < processMax, q ≠ c → (s.k.procs q).state ≠ .unused →
      ((s.setProc i x).goto n).conts (s.k.procs q).pid = s.conts (s.k.procs q).pid :=
    fun q hq hqc hql => goto_conts_of_ne (s.setProc i x) n (hinv.pid_ne hc hq hqc hql)
  have hcarried : ∀ p, Carried s p → (x.state = .unused → (s.k.procs i).pid = p →
      (s.k.procs i).state = .unused) → Carried ((s.setProc i x).goto n) p := by
    rintro p ⟨j, hj, hjl, rfl⟩ hx
    obtain ⟨hl, hp⟩ := hlive j hjl fun hji hu => hjl (hji ▸ hx hu (by rw [hji]))
    exact ⟨j, hj, hl, hp⟩
  refine ⟨fun k p hw => ?_, fun k hk hkb hks => ?_⟩
  · have hold : Waits s k p ∨ Carried s p ∧ x.state ≠ .unused := by
      by_cases hki : k = i
      · subst hki
        exact hwait p hw
      · obtain ⟨hk, hb, hp, h0⟩ := hw
        simp only [goto_k, setProc_k, hne k hki] at hb hp
        exact .inl ⟨hk, hb, hp, h0⟩
    rcases hold with hold | ⟨hcar, hx⟩
    · rcases h.waiting k p hold with hcar | ⟨q, hq, hql, hqs⟩
      · by_cases hx : x.state = .unused ∧ (s.k.procs i).pid = p ∧ (s.k.procs i).state ≠ .unused
        · obtain ⟨hx, rfl, hil⟩ := hx
          exact .inr (hcscan _ k ((hend hx hil).2.2 k hold))
        · exact .inl (hcarried p hcar fun h1 h2 => by_contra fun h3 => hx ⟨h1, h2, h3⟩)
      · by_cases hqc : q = c
        · subst hqc
          rw [← hthread] at hqs
          exact .inr (hcscan p k (hscan p k hqs hw))
        · obtain ⟨hl, hp⟩ := hlive q hql fun hqi hx => by
            subst hqi
            exact (hend hx hql).2.1 hqs.scanning
          refine .inr ⟨q, hq, hl, ?_⟩
          show Cont.Scans p k (((s.setProc i x).goto n).conts ((s.k.setProc i x).procs q).pid)
          rwa [hp, hother q hq hqc hql]
    · exact .inl (hcarried p hcar fun hu _ => absurd hu hx)
  · simp only [goto_k, setProc_k] at hkb hks
    by_cases hki : k = i
    · subst hki
      rw [hself] at hkb hks
      obtain ⟨hkl, hp⟩ := hpid (by simp [hkb])
      rw [hp] at hks
      by_cases hkc : k = c
      · subst hkc
        rcases hblock hkb with hb | ⟨-, hn⟩
        · simp [hcrun] at hb
        · rw [← hthread, show s.thread = (s.setProc k x).thread from rfl, goto_conts_self] at hks
          exact hn hks
      · rw [hother k hk hkc hkl] at hks
        rcases hblock hkb with hb | ⟨hc', -⟩
        · exact h.blocked k hk hb hks
        · exact hkc hc'
    · rw [hne k hki] at hkb hks
      have hkc : k ≠ c := by
        rintro rfl
        rw [hcrun] at hkb
        simp at hkb
      rw [hother k hk hkc (by simp [hkb])] at hks
      exact h.blocked k hk hkb hks

lemma Awaited.step_fields (h : Awaited s) (hinv : Inv s) (hc : s.k.current = some c) {x : Proc}
    (hs : x.state = (s.k.procs i).state) (hp : x.pid = (s.k.procs i).pid)
    (hw : x.waitingForPid = (s.k.procs i).waitingForPid ∨ x.waitingForPid = 0)
    (hscan : ∀ p k, s.cont.Scans p k → Waits ((s.setProc i x).goto n) k p → n.Scans p k) :
    Awaited ((s.setProc i x).goto n) := by
  refine h.step_slot hinv hc (fun hl => ⟨hs ▸ hl, hp⟩) (fun p hwt => .inl ?_)
    (fun hb => .inl (hs ▸ hb)) (fun hu hl => absurd (hs ▸ hu) hl) hscan
  obtain ⟨hi, hb, hwp, h0⟩ := hwt
  simp only [goto_k, setProc_k, Kernel.setProc_procs_self] at hb hwp
  rcases hw with hw | hw
  · exact ⟨hi, hs ▸ hb, hw ▸ hwp, h0⟩
  · exact absurd (hwp.symm.trans hw) h0

lemma Awaited.step_goto (h : Awaited s) (hinv : Inv s) (hc : s.k.current = some c)
    (hscan : ∀ p k, s.cont.Scans p k → Waits s k p → n.Scans p k) : Awaited (s.goto n) := by
  have hstep := h.step_fields (n := n) (i := c) (x := s.k.procs c) hinv hc rfl rfl (.inl rfl)
  rw [setProc_self] at hstep
  exact hstep hscan

lemma Awaited.step_ready (h : Awaited s) (hinv : Inv s) (hc : s.k.current = some c)
    (hb : (s.k.procs i).state = .blocked)
    (hscan : ∀ p k, s.cont.Scans p k → k ≠ i → n.Scans p k) :
    Awaited ((s.setProc i { s.k.procs i with state := .ready }).goto n) := by
  refine h.step_slot hinv hc (fun _ => ⟨by simp [hb], rfl⟩) (fun p hw => ?_)
    (fun hx => absurd hx (by simp)) (fun hx => absurd hx (by simp)) fun p k hs hw =>
      hscan p k hs ?_
  · obtain ⟨-, hb', -⟩ := hw
    simp at hb'
  · rintro rfl
    obtain ⟨-, hb', -⟩ := hw
    simp at hb'

lemma Awaited.mono (h : Awaited s) (hw : ∀ i p, Waits t i p → Waits s i p)
    (hcar : ∀ i p, Waits t i p → Carried s p → Carried t p)
    (hscan : ∀ p i, LiveAt s (Cont.Scans p i) → LiveAt t (Cont.Scans p i))
    (hb : ∀ i < processMax, (t.k.procs i).state = .blocked →
      ¬ (t.conts (t.k.procs i).pid).Scanning) : Awaited t := by
  refine ⟨fun i p hwt => ?_, hb⟩
  rcases h.waiting i p (hw i p hwt) with hc | hs
  · exact .inl (hcar i p hwt hc)
  · exact .inr (hscan p i hs)

lemma Awaited.exit (h : Awaited s) (hinv : Inv s) (hc : s.k.current = some c)
    (hcont : s.cont = .exitEnd) :
    Awaited { s with k := { s.k.processExit c with current := none } } := by
  obtain ⟨hclt, hcrun, hthread⟩ := hinv.cur c hc
  have hprocs := fun k hk hkc => Kernel.processExit_procs_of_ne (k := k) (hinv.live hc) hk hkc
  have hcu : ((s.k.processExit c).procs c).state = .unused :=
    (Kernel.processExit_unused s.k c c).mpr (.inr rfl)
  -- whoever is still blocked was not waiting for this process
  have hstill : ∀ k < processMax, ((s.k.processExit c).procs k).state = .blocked →
      (s.k.processExit c).procs k = s.k.procs k ∧ (s.k.procs k).waitingForPid ≠ s.thread := by
    intro k hk hkb
    have hkc : k ≠ c := fun heq => by simp [heq, hcu] at hkb
    rw [hprocs k hk hkc] at hkb ⊢
    rw [hthread]
    unfold Proc.wakeFor at hkb ⊢
    split at hkb
    · simp at hkb
    case isFalse hne =>
      rw [if_neg hne]
      exact ⟨rfl, fun hw => hne ⟨hkb, hw⟩⟩
  have hlive : ∀ q < processMax, q ≠ c → (s.k.procs q).state ≠ .unused →
      ((s.k.processExit c).procs q).state ≠ .unused ∧
        ((s.k.processExit c).procs q).pid = (s.k.procs q).pid := by
    intro q hq hqc hql
    rw [hprocs q hq hqc]
    exact ⟨mt (Proc.wakeFor_unused _ _).mp hql, Proc.wakeFor_pid _ _⟩
  refine h.mono (fun k p hw => ?_) (fun k p hw hcar => ?_) (fun p k hs => ?_) fun k hk hkb => ?_
  · obtain ⟨hk, hb, hp, h0⟩ := hw
    have heq := (hstill k hk hb).1
    dsimp only at hb hp
    rw [heq] at hb hp
    exact ⟨hk, hb, hp, h0⟩
  · obtain ⟨hk, hb, hp, -⟩ := hw
    obtain ⟨heq, hne⟩ := hstill k hk hb
    dsimp only at hp
    rw [heq] at hp
    obtain ⟨j, hj, hjl, hjp⟩ := hcar
    have hjc : j ≠ c := by
      rintro rfl
      rw [hp, ← hjp, hthread] at hne
      exact hne rfl
    obtain ⟨hl, hpid⟩ := hlive j hj hjc hjl
    exact ⟨j, hj, hl, hpid.trans hjp⟩
  · obtain ⟨q, hq, hql, hqs⟩ := hs
    have hqc : q ≠ c := by
      rintro rfl
      rw [← hthread, show s.conts s.thread = s.cont from rfl, hcont] at hqs
      exact hqs
    obtain ⟨hl, hpid⟩ := hlive q hq hqc hql
    refine ⟨q, hq, hl, ?_⟩
    show Cont.Scans p k (s.conts ((s.k.processExit c).procs q).pid)
    rwa [hpid]
  · have heq := (hstill k hk hkb).1
    dsimp only at hkb ⊢
    rw [heq] at hkb ⊢
    exact h.blocked k hk hkb

lemma Awaited.claim (h : Awaited s) (hinv : Inv s) (hn : Claimed s t slot)
    (hwait : (t.k.procs slot).waitingForPid = 0)
    (huser : ∀ c, s.k.current = some c → s.cont = .user) : Awaited t := by
  refine h.mono (fun k p hw => ?_) (fun k p hw hcar => ?_) (fun p k hs => ?_) fun k hk hkb => ?_
  · obtain ⟨hk, hb, hp, h0⟩ := hw
    have hks : k ≠ slot := by
      rintro rfl
      exact h0 (hp.symm.trans hwait)
    rw [hn.procs k hks] at hb hp
    exact ⟨hk, hb, hp, h0⟩
  · obtain ⟨j, hj, hjl, hjp⟩ := hcar
    refine ⟨j, hj, ?_, ?_⟩
    all_goals rwa [hn.procs j (hn.ne_of_live hjl)]
  · obtain ⟨q, hq, hql, hqs⟩ := hs
    -- a thread that scans is not the one that makes the claim
    have hqc : s.k.current ≠ some q := by
      intro hc
      rw [← hinv.thread_eq hc, show s.conts s.thread = s.cont from rfl, huser q hc] at hqs
      exact hqs
    refine ⟨q, hq, ?_, ?_⟩
    · rwa [hn.procs q (hn.ne_of_live hql)]
    · rwa [hn.procs q (hn.ne_of_live hql), hn.conts_eq hinv hq hql hqc]
  · by_cases hks : k = slot
    · rw [hks, hn.pid, hn.newCont]
      exact id
    · rw [hn.procs k hks] at hkb ⊢
      have hkc : s.k.current ≠ some k := by
        intro hc
        rw [(hinv.cur k hc).2.1] at hkb
        simp at hkb
      rw [hn.conts_eq hinv hk (by simp [hkb]) hkc]
      exact h.blocked k hk hkb

/-! ## One step -/

lemma awaited_stepBuild (h : Awaited s) (hinv : Inv s) (hc : s.k.current = some c)
    (hok : WaitersKept s .step) (hb : b ∈ s.cont.building) (hs : stepThread s c = some t) :
    Awaited t := by
  have hbd := (hinv.at_cur hc).building hb
  have hno : ∀ p k, ¬ s.cont.Scans p k := by
    intro p k
    cases hcont : s.cont
    case killPid | killWake | killWaiting | killReady =>
      rw [hcont] at hb
      simp [Cont.building] at hb
    all_goals exact id
  have hgoto : ∀ m : Cont, Awaited (s.goto m) := fun m =>
    h.step_goto hinv hc fun p k hsc => absurd hsc (hno p k)
  have hfields : ∀ (m : Cont) (x : Proc), x.state = (s.k.procs b.slot).state →
      x.pid = (s.k.procs b.slot).pid →
      x.waitingForPid = (s.k.procs b.slot).waitingForPid ∨ x.waitingForPid = 0 →
        Awaited ((s.setProc b.slot x).goto m) := fun m x hst hp hw =>
    h.step_fields hinv hc hst hp hw fun p k hsc => absurd hsc (hno p k)
  have hready : ∀ m : Cont,
      Awaited ((s.setProc b.slot { s.k.procs b.slot with state := .ready }).goto m) := fun m =>
    h.step_ready hinv hc hbd.state fun p k hsc => absurd hsc (hno p k)
  have hseed : ∀ {b : Build}, s.cont = .seedStdin b ∨ s.cont = .seedStdout b → Awaited t := by
    intro b hcont
    rcases seed_cases hcont hs with rfl | ⟨src, n, -, ⟨-, rfl⟩ | ⟨idx, j, r, w, -, -, rfl⟩⟩
    · exact hgoto _
    · exact hgoto n
    · exact (hgoto n).of_same (seeded_sameWait s c b j idx r w) rfl
  unfold stepThread at hs
  cases hcont : s.cont
  all_goals
    rw [hcont] at hs hb
    simp only [Cont.building, Option.mem_def, Option.some.injEq, reduceCtorEq] at hb
  all_goals subst hb
  case spawnEsp | spawnCr3 | spawnRedirects | forkFill | forkCr3 | forkEsp =>
    cases hs
    exact hfields _ _ rfl rfl (.inl rfl)
  case spawnPublish =>
    cases hs
    split
    · exact hgoto _
    · exact hready _
  case seedStdin => exact hseed (.inl hcont)
  case seedStdout => exact hseed (.inr hcont)
  case makeReadyTest | forkCopy =>
    cases hs
    exact hgoto _
  case makeReadySet | forkReady =>
    cases hs
    exact hready _
  case forkWait =>
    cases hs
    exact hfields _ _ rfl rfl (.inr rfl)
  case forkUnused b =>
    cases hs
    rw [WaitersKept, hcont] at hok
    have hblocked := h.blocked b.slot hbd.lt hbd.state
    refine h.step_slot hinv hc (fun hl => absurd rfl hl) (fun p hw => ?_)
      (fun hx => absurd hx (by simp)) (fun _ _ => ⟨hbd.ne, hblocked, fun k hw => ?_⟩)
      fun p k hsc => absurd hsc (hno p k)
    · obtain ⟨-, hb', -⟩ := hw
      simp at hb'
    · rw [hbd.pid] at hw
      exact absurd hw (hok k hw.1)

lemma awaited_stepOther (h : Awaited s) (hsafe : Safe s) (hc : s.k.current = some c)
    (hok : Attentive s .step) (hb : s.cont.building = none) (hs : stepThread s c = some t) :
    Awaited t := by
  obtain ⟨hcareful, hkept⟩ := hok
  have hinv := hsafe.inv
  have hat := hinv.at_cur hc
  obtain ⟨hclt, hcrun, hthread⟩ := hinv.cur c hc
  have hgoto : ∀ m : Cont, (∀ p k, ¬ s.cont.Scans p k) → Awaited (s.goto m) := fun m hno =>
    h.step_goto hinv hc fun p k hsc => absurd hsc (hno p k)
  unfold stepThread at hs
  cases hcont : s.cont
  case user =>
    rw [hcont] at hs
    simp at hs
  case spawnEsp | spawnCr3 | spawnRedirects | spawnPublish | seedStdin | seedStdout
      | makeReadyTest | makeReadySet | forkFill | forkWait | forkCopy | forkUnused | forkCr3
      | forkEsp | forkReady =>
    rw [hcont] at hb
    simp [Cont.building] at hb
  all_goals rw [hcont] at hs hat hgoto
  case readPid =>
    cases hs
    exact (hgoto _ fun _ _ => id).of_same (fun _ => ⟨rfl, rfl, rfl⟩) rfl
  case forkPid b =>
    cases hs
    refine h.step_slot hinv hc (fun hl => absurd hat.2.2 hl) (fun p hw => ?_)
      (fun hx => absurd hx (by simp [hat.2.2])) (fun _ hl => absurd hat.2.2 hl)
      fun p k hsc => absurd hsc (by rw [hcont]; exact id)
    obtain ⟨-, hb', -⟩ := hw
    simp [hat.2.2] at hb'
  case forkRow b j =>
    cases hs
    split
    · refine (hgoto _ fun _ _ => id).of_same (fun i => ?_) rfl
      simp [SameWait]
    · exact hgoto _ fun _ _ => id
  case exitClose j =>
    cases hs
    split
    · refine (hgoto _ fun _ _ => id).of_same (fun i => ?_) rfl
      have hprocs : (if (s.k.fdTable c j).used then s.k.vfsClose c j else s.k).procs =
          s.k.procs := by
        split
        · exact vfsClose_procs hsafe.noWaiters c j
        · rfl
      simp [SameWait, hprocs]
    · exact hgoto _ fun _ _ => id
  case exitEnd =>
    cases hs
    exact h.exit hinv hc hcont
  case killScan | killTest | killRead =>
    cases hs
    exact hgoto _ fun _ _ => id
  case killUnused i e =>
    cases hs
    rw [Careful, hcont] at hcareful
    rw [WaitersKept, hcont] at hkept
    obtain ⟨rfl, hquiet⟩ := hkept
    have hic : i ≠ c := fun he => hcareful.1 (by rw [he]; exact hc)
    refine h.step_slot hinv hc (fun hl => absurd rfl hl) (fun p hw => ?_)
      (fun hx => absurd hx (by simp)) (fun _ _ => ⟨hic, hquiet, fun _ _ => rfl⟩)
      fun p k hsc => absurd hsc (by rw [hcont]; exact id)
    obtain ⟨-, hb', -⟩ := hw
    simp at hb'
  case killPid i e =>
    cases hs
    refine h.step_slot hinv hc (fun hl => absurd hat.2.2.2 hl) (fun p hw => ?_)
      (fun hx => absurd hx (by simp [hat.2.2.2])) (fun _ hl => absurd hat.2.2.2 hl)
      fun p k hsc _ => ?_
    · obtain ⟨-, hb', -⟩ := hw
      simp [hat.2.2.2] at hb'
    · rw [hcont] at hsc
      exact ⟨hsc, Nat.zero_le k⟩
  case killWake e j =>
    cases hs
    refine h.step_goto hinv hc fun p k hsc hw => ?_
    rw [hcont] at hsc
    obtain ⟨rfl, hjk⟩ := hsc
    obtain ⟨hk, hblocked, hwait, -⟩ := hw
    rw [if_neg (by omega)]
    split
    case isTrue => exact ⟨rfl, hjk⟩
    case isFalse hj =>
      refine ⟨rfl, Nat.lt_of_le_of_ne hjk ?_⟩
      rintro rfl
      exact hj ⟨hblocked, hwait⟩
  case killWaiting e j =>
    cases hs
    refine h.step_fields hinv hc rfl rfl (.inr rfl) fun p k hsc _ => ?_
    rw [hcont] at hsc
    exact hsc
  case killReady e j =>
    cases hs
    refine h.step_ready hinv hc hat.2.2.1 fun p k hsc hkj => ?_
    rw [hcont] at hsc
    exact ⟨hsc.1, Nat.lt_of_le_of_ne hsc.2 (Ne.symm hkj)⟩
  case waitCheck pid =>
    cases hs
    split
    case isTrue hcar =>
      obtain ⟨j, hj, hjp, hjl⟩ := hcar
      have hstep := h.step_slot (n := .waitClear pid) (i := c) (x := { s.k.procs c with
        waitingForPid := pid, state := .blocked, esp := s.thread }) hinv hc
        (fun _ => ⟨hinv.live hc, rfl⟩) (fun p hw => .inr ⟨?_, by simp⟩) (fun _ => .inr ⟨rfl, id⟩)
        (fun hx => absurd hx (by simp)) fun p k hsc => absurd hsc (by rw [hcont]; exact id)
      · exact hstep.of_same (fun _ => ⟨rfl, rfl, rfl⟩) rfl
      · obtain ⟨-, -, hwp, -⟩ := hw
        simp only [goto_k, setProc_k, Kernel.setProc_procs_self] at hwp
        exact ⟨j, hj, hjl, hjp.trans hwp⟩
    · exact hgoto _ fun _ _ => id
  case waitClear pid =>
    cases hs
    exact h.step_fields hinv hc rfl rfl (.inr rfl) fun p k hsc _ =>
      absurd hsc (by rw [hcont]; exact id)

lemma awaited_call {a : Act} (h : Awaited s) (hinv : Inv s) (hc : s.k.current = some c)
    (hok : Attentive s a) (huser : s.cont = .user) (hs : call s c a = some t) : Awaited t := by
  rcases call_cases hs with rfl | ⟨b, x, row, n, hcl, rfl⟩ | ⟨n, hn, rfl⟩ | ⟨j, fd, rfl⟩
  · exact h
  · refine h.claim hinv (hcl.claimed hinv hc hok.1) ?_ fun _ _ => huser
    have hself : (s.claim b x row n).k.procs b.slot = x := by simp [Sys.claim, Sys.openBooks]
    rw [hself]
    rcases hcl.point with ⟨-, -, hw, -⟩ | ⟨ha, -, hw, -⟩
    · exact hw
    · cases a with
      | fork => exact hw.trans (hok.2 b.slot hcl.free)
      | _ => simp [Act.Forks] at ha
  · exact h.step_goto hinv hc fun p k hsc => absurd hsc (by rw [huser]; exact id)
  · exact h.of_same (fun _ => ⟨rfl, rfl, rfl⟩) rfl

/-- **One step of an attentive run leaves every waiter somebody to wake it.** -/
lemma awaited_step {a : Act} (h : Awaited s) (hsafe : Safe s) (hok : Attentive s a)
    (hs : step s a = some t) : Awaited t := by
  have hinv := hsafe.inv
  obtain ⟨c, hc, rfl, hst⟩ | ⟨c, hc, rfl, hrun, rfl⟩ | ⟨j, hc, rfl, hj, hready, rfl⟩ |
    ⟨dir, slot, k, hc, rfl, hk, rfl⟩ | ⟨c, hc, hu, hst⟩ |
    ⟨j, rfl, rfl⟩ := step_cases hs
  · cases hb : s.cont.building with
    | none => exact awaited_stepOther h hsafe hc hok hb hst
    | some b => exact awaited_stepBuild h hinv hc hok.2 hb hst
  · have hstep := h.step_slot (n := s.cont) (i := c) (x := { s.k.procs c with
      state := .ready, esp := s.thread }) hinv hc (fun _ => ⟨hinv.live hc, rfl⟩)
      (fun p hw => ?_) (fun hx => absurd hx (by simp)) (fun hx => absurd hx (by simp))
      fun p k hsc _ => hsc
    · refine hstep.of_same (fun _ => ⟨rfl, rfl, rfl⟩) ?_
      simp [Sys.goto, Sys.cont]
    · obtain ⟨-, hb, -⟩ := hw
      simp at hb
  · have hne := fun k (hk : k ≠ j) =>
      Kernel.setProc_procs_of_ne s.k j { s.k.procs j with state := .running } hk
    have hblocked : ∀ k, ((s.k.setProc j { s.k.procs j with state := .running }).procs k).state =
        .blocked → k ≠ j := by
      rintro k hk rfl
      simp at hk
    have hlive : ∀ q, (s.k.procs q).state ≠ .unused →
        ((s.k.setProc j { s.k.procs j with state := .running }).procs q).state ≠ .unused ∧
        ((s.k.setProc j { s.k.procs j with state := .running }).procs q).pid =
          (s.k.procs q).pid := by
      intro q hq
      by_cases hqj : q = j
      · simp [hqj]
      · rw [hne q hqj]
        exact ⟨hq, rfl⟩
    refine h.mono (fun k p hw => ?_) (fun k p _ hcar => ?_) (fun p k hs => ?_) fun k hk hkb => ?_
    · obtain ⟨hk, hb, hp, h0⟩ := hw
      have hkj := hblocked k hb
      dsimp only at hb hp
      rw [hne k hkj] at hb hp
      exact ⟨hk, hb, hp, h0⟩
    · obtain ⟨i, hi, hil, hip⟩ := hcar
      exact ⟨i, hi, (hlive i hil).1, (hlive i hil).2.trans hip⟩
    · obtain ⟨q, hq, hql, hqs⟩ := hs
      refine ⟨q, hq, (hlive q hql).1, ?_⟩
      rwa [(hlive q hql).2]
    · have hkj := hblocked k hkb
      dsimp only at hkb ⊢
      rw [hne k hkj] at hkb ⊢
      exact h.blocked k hk hkb
  · have hnone : ∀ d, s.k.current ≠ some d := fun d => by simp [hc]
    refine h.claim hinv (claimed_spawn hc hok.1 _ hk) ?_ fun d hd => absurd hd (hnone d)
    obtain ⟨⟨slot', u⟩, hu, hpair⟩ := Option.map_eq_some_iff.mp hk
    obtain ⟨-, -, rfl⟩ := Kernel.spawnClaim_some hu
    obtain ⟨rfl, rfl⟩ := Prod.mk.inj hpair
    simp [Sys.openBooks, Kernel.setProc]
  · exact awaited_call h hinv hc hok hu hst
  · exact absurd hok.1 id

/-- **No exit is missed** in any state of an attentive run. -/
theorem noMissedExit_of_attentive (h : ReachIf step (· = boot) Attentive s) : NoMissedExit s := by
  obtain ⟨-, hawaited⟩ : Safe s ∧ Awaited s := by
    refine h.invariant (I := fun s => Safe s ∧ Awaited s) (fun s hs => ?_)
      fun s a t hi hok hs => ?_
    · subst hs
      exact ⟨safe_boot, fun i p hw => absurd hw.2.1 (by simp [boot, Kernel.boot, Proc.init]),
        fun i _ hb => absurd hb (by simp [boot, Kernel.boot, Proc.init])⟩
    · exact ⟨safe_step hi.1 hok.1 hs, awaited_step hi.2 hi.1 hok hs⟩
  refine ⟨fun i p hw => ?_, fun c p t hc hcont hs hu => ?_⟩
  · refine (hawaited.waiting i p hw).imp_right ?_
    rintro ⟨q, hq, hql, hqs⟩
    exact ⟨q, hq, hql, hqs.ends⟩
  · rw [stepThread, hcont] at hs
    dsimp only at hs
    split at hs
    · cases hs
      simp [Sys.cont, Sys.goto] at hu
    case isFalse hno =>
      cases hs
      rintro ⟨j, hj, hjl, hjp⟩
      exact hno ⟨j, hj, hjp, hjl⟩

/-- The first process waits for the second; the third kills the second, and is preempted before
its scan has found the waiter. -/
def waitedForKilled : List Act :=
  List.replicate 4 (.spawn 0x400000) ++ [.run 0, .wait 2, .step, .run 2, .kill 2] ++
    List.replicate 6 .step ++ [.preempt]

theorem noMissedExit_waitedForKilled :
    ∃ s, runIf step Attentive boot waitedForKilled = some s ∧ Waits s 0 2 ∧ ¬ Carried s 2 ∧
      NoMissedExit s := by
  have hrun : (runIf step Attentive boot waitedForKilled).map
      (fun s => (decide (Waits s 0 2), decide (Carried s 2))) = some (true, false) := by
    decide +kernel
  obtain ⟨s, hs, hproj⟩ := Option.map_eq_some_iff.mp hrun
  obtain ⟨hwaits, hcarried⟩ := Prod.mk.inj hproj
  exact ⟨s, hs, of_decide_eq_true hwaits, of_decide_eq_false hcarried,
    noMissedExit_of_attentive (ReachIf.of_runIf (.start rfl) hs)⟩

def wakerKilled : List Act :=
  waitedForKilled ++ [.run 3, .kill 3] ++ List.replicate 24 .step

theorem waiterForgotten : ¬ ∀ s, Reach step (· = boot) s → NoMissedExit s := by
  intro hall
  have hrun : (run step boot wakerKilled).map (fun s => (decide (Waits s 0 2),
      decide (Carried s 2), decide (LiveAt s (Cont.Ends 2 0)))) = some (true, false, false) := by
    decide +kernel
  obtain ⟨s, hs, hproj⟩ := Option.map_eq_some_iff.mp hrun
  simp only [Prod.mk.injEq, decide_eq_true_eq, decide_eq_false_iff_not] at hproj
  obtain ⟨hwaits, hcarried, hends⟩ := hproj
  rcases (hall s (Reach.of_run rfl hs)).waiting 0 2 hwaits with hc | he
  · exact hcarried hc
  · exact hends he

end NullOS.Preempt
