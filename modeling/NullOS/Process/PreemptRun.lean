import NullOS.Process.PreemptStep

/-!
# Careful runs

The invariant at every step, and the induction over runs.
-/

namespace NullOS.Preempt

open Lib Vfs

variable {s t : Sys} {c i j p q slot dir : Nat} {b : Build} {n : Cont}

/-! ## Pipes without waiters -/

lemma noWaiters_setPipe {k : Kernel} (h : NoWaiters k) {x : Ipc.Pipe}
    (hx : x.readWaiter = none ∧ x.writeWaiter = none) : NoWaiters (k.setPipe i x) := by
  intro m
  by_cases hm : m = i
  · subst hm
    rw [Kernel.setPipe_pipeTable_self]
    exact hx
  · rw [Kernel.setPipe_pipeTable_of_ne _ _ _ hm]
    exact h m

lemma noWaiters_copyFd {k : Kernel} (h : NoWaiters k) (slot j : Nat) (fd : VfsFd) :
    NoWaiters (k.copyFd slot j fd) := by
  have hset : NoWaiters (k.setFd slot j fd) := h
  unfold Kernel.copyFd Kernel.vfsDup Kernel.pipeAddReadRef Kernel.pipeAddWriteRef
  split
  · split
    · split
      · exact hset
      · exact noWaiters_setPipe hset (hset _)
    · split
      · exact hset
      · exact noWaiters_setPipe hset (hset _)
    · exact hset
  · exact hset

lemma noWaiters_vfsClose {k : Kernel} (h : NoWaiters k) (slot j : Nat) :
    NoWaiters (k.vfsClose slot j) := by
  have hr : ∀ i, NoWaiters (k.pipeReleaseRead i) := by
    intro i
    unfold Kernel.pipeReleaseRead
    split
    · exact h
    · have hset := noWaiters_setPipe (i := i) h (x := (k.pipeTable i).releaseRead)
        ⟨(h i).1, by simp [Ipc.Pipe.releaseRead, (h i).2]⟩
      simpa [NoWaiters] using hset
  have hw : ∀ i, NoWaiters (k.pipeReleaseWrite i) := by
    intro i
    unfold Kernel.pipeReleaseWrite
    split
    · exact h
    · have hset := noWaiters_setPipe (i := i) h (x := (k.pipeTable i).releaseWrite)
        ⟨by simp [Ipc.Pipe.releaseWrite, (h i).1], (h i).2⟩
      simpa [NoWaiters] using hset
  unfold Kernel.vfsClose
  dsimp only
  split
  · split
    · exact hr _
    · exact hw _
    · exact h
  · exact h

/-! ## One step -/

/-- The invariant, together with what it needs of the pipes. -/
structure Safe (s : Sys) : Prop where
  inv : Inv s
  noWaiters : NoWaiters s.k

lemma Inv.step_seed (h : Inv s) (hc : s.k.current = some c) (hb : b ∈ s.cont.building)
    (hn : n.building = some b) {k : Kernel} (hp : k.procs = s.k.procs)
    (hcur : k.current = s.k.current) (hnext : k.nextPid = s.k.nextPid) {x : Proc}
    (hx : x.state = .blocked) (hpid : x.pid = (s.k.procs b.slot).pid) (hw : x.waitingForPid = 0)
    (hat : Building (({ s with k }.setProc b.slot x).goto n) c b →
      At (({ s with k }.setProc b.slot x).goto n) c n) :
    Inv (({ s with k }.setProc b.slot x).goto n) := by
  have h' : Inv { s with k } := h.of_eq hp hcur hnext rfl rfl rfl rfl
  refine h'.step_build (hcur.trans hc) hb hx ?_ (fun hz => absurd hw hz) (fun b' hb' => ?_) hat
  · rw [hpid, ← hp]
  · rw [hn, Option.mem_def, Option.some.injEq] at hb'
    rw [hb']

lemma Inv.at_seed (h : Inv s) (hc : s.k.current = some c)
    (hcont : s.cont = .seedStdin b ∨ s.cont = .seedStdout b) :
    At s c (.seedStdout b) ∧ b ∈ s.cont.building ∧
      (∀ b', s.cont ≠ .forkFill b' ∧ s.cont ≠ .forkWait b') ∧ ∀ p, s.cont ≠ .waitClear p := by
  have hat := h.at_cur hc
  rcases hcont with hcont | hcont
  all_goals
    rw [hcont] at hat ⊢
    exact ⟨hat, rfl, by simp, by simp⟩

lemma inv_seed (h : Inv s) (hc : s.k.current = some c)
    (hcont : s.cont = .seedStdin b ∨ s.cont = .seedStdout b) (hs : stepThread s c = some t) :
    Inv t := by
  obtain ⟨⟨hbd, hw, he, hd⟩, hb, hfork, -⟩ := h.at_seed hc hcont
  rcases seed_cases hcont hs with rfl | ⟨src, n, hn, ⟨-, rfl⟩ | ⟨idx, j, r, w, -, -, rfl⟩⟩
  · exact h.step_goto hc hfork (by simp [Cont.building]) hbd.lt
  · have hstep := fun hn => h.step_goto (n := n) hc hfork hn
    rcases hn with ⟨-, -, rfl⟩ | ⟨-, -, rfl⟩
    all_goals
      refine hstep (fun b' hb' => ?_) ⟨hbd.congr rfl rfl, hw, he, hd⟩
      cases hb'
      exact hb
  · rcases hn with ⟨-, -, rfl⟩ | ⟨-, -, rfl⟩
    all_goals
      refine h.step_seed hc hb rfl (Kernel.copyFd_procs _ _ _ _) (Kernel.copyFd_current _ _ _ _)
        (Kernel.copyFd_nextPid _ _ _ _) hbd.state rfl hw fun hbd' => ⟨hbd', ?_⟩
      simp [hw, he, hd]

lemma inv_stepBuild (h : Inv s) (hc : s.k.current = some c) (hb : b ∈ s.cont.building)
    (hs : stepThread s c = some t) : Inv t := by
  have hat := h.at_cur hc
  have hmem : ∀ {b' : Build} {m : Cont}, s.cont = m → b' ∈ m.building → b' ∈ s.cont.building :=
    fun hm hb' => by rwa [hm]
  have hstep := hs
  unfold stepThread at hs
  cases hcont : s.cont
  all_goals
    rw [hcont] at hs hat hb
    simp only [Cont.building, Option.mem_def, Option.some.injEq, reduceCtorEq] at hb
  all_goals subst hb
  case spawnEsp =>
    cases hs
    exact h.step_build hc (hmem hcont rfl) hat.1.state rfl (fun hz => absurd hat.2 hz)
      (fun b' hb' => by cases hb'; rfl) fun hbd => ⟨hbd, by simpa using hat.2, by simp⟩
  case spawnCr3 =>
    obtain ⟨hbd, hw, he⟩ := hat
    cases hs
    exact h.step_build hc (hmem hcont rfl) hbd.state rfl (fun hz => absurd hw hz)
      (fun b' hb' => by cases hb'; rfl) fun hbd => ⟨hbd, by simpa using hw, by simpa using he,
        by simp⟩
  case spawnRedirects =>
    obtain ⟨hbd, hw, he, hd⟩ := hat
    cases hs
    exact h.step_build hc (hmem hcont rfl) hbd.state rfl (fun hz => absurd hw hz)
      (fun b' hb' => by cases hb'; rfl) fun hbd => ⟨hbd, by simpa using hw, by simpa using he,
        by simpa using hd⟩
  case spawnPublish =>
    obtain ⟨hbd, hw, he, hd⟩ := hat
    cases hs
    split
    · exact h.step_goto hc (fun b' => by simp [hcont]) (fun b' hb' => hmem hcont hb')
        ⟨hbd.congr rfl rfl, hw, he, hd⟩
    · exact h.step_publish hc (hmem hcont rfl) hw he hd rfl fun _ => trivial
  case seedStdin => exact inv_seed h hc (.inl hcont) hstep
  case seedStdout => exact inv_seed h hc (.inr hcont) hstep
  case makeReadyTest =>
    obtain ⟨hbd, hw, he, hd⟩ := hat
    cases hs
    rw [if_pos hbd.state]
    exact h.step_goto hc (fun b' => by simp [hcont]) (fun b' hb' => hmem hcont hb')
      ⟨hbd.congr rfl rfl, hw, he, hd⟩
  case makeReadySet =>
    obtain ⟨hbd, hw, he, hd⟩ := hat
    cases hs
    exact h.step_publish hc (hmem hcont rfl) hw he hd rfl fun _ => trivial
  case forkFill =>
    cases hs
    exact h.step_build hc (hmem hcont rfl) (Building.state hat) rfl (fun _ => .inr rfl)
      (fun b' hb' => by cases hb'; rfl) id
  case forkWait =>
    cases hs
    exact h.step_build hc (hmem hcont rfl) (Building.state hat) rfl (fun hz => absurd rfl hz)
      (fun b' hb' => by cases hb'; rfl) fun hbd => ⟨hbd, by simp⟩
  case forkCopy =>
    cases hs
    split
    · exact h.step_goto hc (fun b' => by simp [hcont]) (fun b' hb' => hmem hcont hb')
        ⟨hat.1.congr rfl rfl, hat.2⟩
    · exact h.step_goto hc (fun b' => by simp [hcont]) (fun b' hb' => hmem hcont hb')
        ⟨hat.1.congr rfl rfl, hat.2⟩
  case forkUnused =>
    cases hs
    exact h.step_unused hc hat.1.lt hat.1.ne (h.quiet hc (hmem hcont rfl))
      (fun b' => by simp [hcont]) rfl ⟨hat.1.lt, hat.1.ne, by simp⟩
  case forkCr3 =>
    cases hs
    exact h.step_build hc (hmem hcont rfl) hat.1.state rfl (fun hz => absurd hat.2 hz)
      (fun b' hb' => by cases hb'; rfl) fun hbd => ⟨hbd, by simpa using hat.2, by simp⟩
  case forkEsp =>
    obtain ⟨hbd, hw, hd⟩ := hat
    cases hs
    exact h.step_build hc (hmem hcont rfl) hbd.state rfl (fun hz => absurd hw hz)
      (fun b' hb' => by cases hb'; rfl) fun hbd => ⟨hbd, by simpa using hw, by simp,
        by simpa using hd⟩
  case forkReady =>
    obtain ⟨hbd, hw, he, hd⟩ := hat
    cases hs
    exact h.step_publish hc (hmem hcont rfl) hw he hd rfl fun _ => trivial

lemma inv_stepOther (hinv : Inv s) (hc : s.k.current = some c) (hok : Careful s .step)
    (hb : s.cont.building = none)
    (hclose : ∀ j, s.cont = .exitClose j → (s.k.vfsClose c j).procs = s.k.procs)
    (hs : stepThread s c = some t) : Inv t := by
  have hat := hinv.at_cur hc
  have hfork : ∀ b', s.cont ≠ .forkFill b' ∧ s.cont ≠ .forkWait b' := fun b' =>
    ⟨fun he => by simp [he, Cont.building] at hb, fun he => by simp [he, Cont.building] at hb⟩
  have hgoto : ∀ m : Cont, m.building = none → At (s.goto m) c m → Inv (s.goto m) :=
    fun m hm hat' => hinv.step_goto hc hfork (fun b' hb' => absurd hb' (by simp [hm])) hat'
  obtain ⟨hclt, hcrun, hthread⟩ := hinv.cur c hc
  unfold stepThread at hs
  cases hcont : s.cont
  case user =>
    rw [hcont] at hs
    simp at hs
  case spawnEsp | spawnCr3 | spawnRedirects | spawnPublish | seedStdin | seedStdout
      | makeReadyTest | makeReadySet | forkFill | forkWait | forkCopy | forkUnused | forkCr3
      | forkEsp | forkReady =>
    rw [hcont] at hb
    simp [Cont.building] at hb
  all_goals rw [hcont] at hs hat
  case readPid =>
    cases hs
    exact (hgoto .user rfl trivial).of_eq rfl rfl rfl rfl rfl rfl rfl
  case forkPid b =>
    cases hs
    exact hinv.step_pid hc hat.1 hat.2.2 hfork rfl fun _ => trivial
  case forkRow b j =>
    cases hs
    split
    · exact (hgoto (.forkRow b (j + 1)) rfl trivial).of_eq (Kernel.copyFd_procs _ _ _ _)
        (Kernel.copyFd_current _ _ _ _) (Kernel.copyFd_nextPid _ _ _ _) rfl rfl rfl rfl
    · exact hgoto _ rfl trivial
  case exitClose j =>
    cases hs
    split
    · refine (hgoto (.exitClose (j + 1)) rfl trivial).of_eq ?_ ?_ ?_ rfl rfl rfl rfl
      · show (if _ then _ else _ : Kernel).procs = s.k.procs
        split
        · exact hclose j hcont
        · rfl
      · show (if _ then _ else _ : Kernel).current = s.k.current
        split
        · exact Kernel.vfsClose_current _ _ _
        · rfl
      · show (if _ then _ else _ : Kernel).nextPid = s.k.nextPid
        split
        · exact Kernel.vfsClose_nextPid _ _ _
        · rfl
    · exact hgoto _ rfl trivial
  case exitEnd =>
    cases hs
    exact hinv.exit hc hcont
  case killScan pid i =>
    cases hs
    split
    · exact hgoto _ rfl trivial
    · split
      · exact hgoto _ rfl (show i < processMax by omega)
      · exact hgoto _ rfl trivial
  case killTest i =>
    cases hs
    split
    · exact hgoto _ rfl trivial
    case isFalse hl => exact hgoto _ rfl ⟨hat, hl⟩
  case killRead i =>
    cases hs
    exact hgoto _ rfl ⟨hat.1, (hinv.pid i hat.1 hat.2).1⟩
  case killUnused i e =>
    cases hs
    simp only [Careful, KillOk, hcont] at hok
    have hic : i ≠ c := fun he => hok.1 (by rw [he]; exact hc)
    exact hinv.step_unused hc hat.1 hic (quiet_of_not_underConstruction hok.2) hfork rfl
      ⟨hat.1, hat.2, hic, by simp⟩
  case killPid i e =>
    cases hs
    exact hinv.step_pid hc hat.1 hat.2.2.2 hfork rfl fun _ => hat.2.1
  case killWake e j =>
    cases hs
    split
    · exact hgoto _ rfl trivial
    case isFalse hj =>
      split
      case isTrue hw => exact hgoto _ rfl ⟨hat, by omega, hw.1, hw.2⟩
      case isFalse => exact hgoto _ rfl hat
  case killWaiting e j =>
    cases hs
    exact hinv.step_killWaiting hc hcont
  case killReady e j =>
    cases hs
    exact hinv.step_killReady hc hcont
  case waitCheck pid =>
    cases hs
    split
    · refine hinv.switch_out hc (by simp) rfl rfl rfl (.inr ?_) (fun k hk => ?_)
        (fun b hb' => absurd hb' (by simp [hcont])) (fun b hb' => absurd hb' (by simp
          [Cont.building])) id trivial
      · simp [hthread]
      · simp [hk]
    · exact hgoto _ rfl trivial
  case waitClear pid =>
    cases hs
    obtain ⟨him, -⟩ := hinv.formed c hclt (.inr hcrun)
    exact hinv.step_slot hc hclt (hinv.quiet_of_state (by simp [hcrun])) (fun hl => ⟨hl, rfl⟩)
      Iff.rfl (fun _ => ⟨him.1, him.2, .inl rfl⟩) (fun hbl => absurd hbl (by simp [hcrun]))
      (fun b hb' => absurd hb' (by simp [hcont])) (fun b hb' => absurd hb' (by simp
        [Cont.building])) trivial

lemma inv_call {a : Act} (h : Inv s) (hc : s.k.current = some c) (hok : Careful s a)
    (huser : s.cont = .user) (hs : call s c a = some t) : Inv t := by
  have hgoto : ∀ m : Cont, m.building = none → At (s.goto m) c m → Inv (s.goto m) :=
    fun m hm hat' => h.step_goto hc (fun b' => by simp [huser])
      (fun b' hb' => absurd hb' (by simp [hm])) hat'
  rcases call_cases hs with rfl | ⟨b, x, row, n, hcl, rfl⟩ | ⟨n, hn, rfl⟩ | ⟨j, fd, rfl⟩
  · exact h
  · exact hcl.inv h hc hok huser
  · rcases hn with rfl | ⟨pid, rfl⟩ | ⟨pid, rfl⟩
    all_goals exact hgoto _ rfl trivial
  · exact h.of_eq rfl rfl rfl rfl rfl rfl rfl

lemma inv_spawn (h : Inv s) (hc : s.k.current = none) (hnext : s.k.nextPid ≠ 0) {k : Kernel}
    (hk : s.k.processSpawnUser dir 0 false = some (slot, k)) :
    Inv (s.openBooks k slot dir noFiles) := by
  have hcl := claimed_spawn hc hnext noFiles hk
  obtain ⟨⟨slot', u⟩, hu, hpair⟩ := Option.map_eq_some_iff.mp hk
  obtain ⟨-, -, rfl⟩ := Kernel.spawnClaim_some hu
  obtain ⟨rfl, rfl⟩ := Prod.mk.inj hpair
  have hnone : ∀ d, s.k.current ≠ some d := fun d => by simp [hc]
  refine h.claim hcl ?_ ?_ ?_ (fun d hd => absurd hd (hnone d))
    (fun d hd => absurd hd (hnone d)) (fun d hd => absurd hd (hnone d))
  all_goals simp [Sys.openBooks, Kernel.setProc, Image]

lemma noWaiters_seed (h : NoWaiters s.k)
    (hcont : s.cont = .seedStdin b ∨ s.cont = .seedStdout b) (hs : stepThread s c = some t) :
    NoWaiters t.k := by
  rcases seed_cases hcont hs with rfl | ⟨src, n, -, ⟨-, rfl⟩ | ⟨idx, j, r, w, -, -, rfl⟩⟩
  · exact h
  · exact h
  · exact noWaiters_copyFd h _ _ _

lemma noWaiters_stepThread (h : NoWaiters s.k) (hs : stepThread s c = some t) :
    NoWaiters t.k := by
  have hstep := hs
  unfold stepThread at hs
  cases hcont : s.cont
  all_goals
    rw [hcont] at hs
    dsimp only at hs
  case user => simp at hs
  case seedStdin => exact noWaiters_seed h (.inl hcont) hstep
  case seedStdout => exact noWaiters_seed h (.inr hcont) hstep
  case spawnPublish =>
    split at hs
    · cases hs
      exact h
    · cases hs
      exact h
  case forkRow =>
    split at hs
    · cases hs
      exact noWaiters_copyFd h _ _ _
    · cases hs
      exact h
  case exitClose j =>
    split at hs
    · cases hs
      show NoWaiters (if _ then _ else _)
      split
      · exact noWaiters_vfsClose h c j
      · exact h
    · cases hs
      exact h
  case exitEnd =>
    cases hs
    show ∀ i, _
    rw [(Kernel.processExit_frame s.k c).2.1]
    exact h
  case waitCheck =>
    split at hs
    · cases hs
      exact h
    · cases hs
      exact h
  all_goals
    cases hs
    exact h

lemma noWaiters_call {a : Act} (h : NoWaiters s.k) (hs : call s c a = some t) :
    NoWaiters t.k := by
  rcases call_cases hs with rfl | ⟨b, x, row, n, -, rfl⟩ | ⟨n, -, rfl⟩ | ⟨j, fd, rfl⟩
  all_goals exact h

/-- **One step of a careful run keeps the invariant**, if closing a descriptor wakes nobody. -/
lemma inv_step {a : Act} (h : Inv s) (hok : Careful s a)
    (hclose : ∀ c j, a = .step → s.k.current = some c → s.cont = .exitClose j →
      (s.k.vfsClose c j).procs = s.k.procs)
    (hs : step s a = some t) : Inv t := by
  obtain ⟨c, hc, rfl, hst⟩ | ⟨c, hc, rfl, hr, rfl⟩ | ⟨j, hc, rfl, hj, hr, rfl⟩ |
    ⟨dir, slot, k, hc, rfl, hk, rfl⟩ | ⟨c, hc, hu, hst⟩ |
    ⟨j, rfl, rfl⟩ := step_cases hs
  · cases hb : s.cont.building with
    | none => exact inv_stepOther h hc hok hb (hclose c · rfl hc) hst
    | some b => exact inv_stepBuild h hc hb hst
  · have hout := h.switch_out (n := s.cont) hc (x := { s.k.procs c with
        state := .ready, esp := s.thread }) (by simp) rfl rfl rfl
      (h.formed c (h.cur c hc).1 (.inr hr)).2 (w := s.waitBy) (fun _ _ => rfl)
      (fun b hb => ?_) (fun _ hb => hb) hok (h.at_cur hc)
    · refine hout.of_eq rfl rfl rfl rfl ?_ rfl rfl
      simp [Sys.goto, Sys.cont]
    · rcases hb with hb | hb
      all_goals
        simp only [Careful, hb, Cont.Window, not_not] at hok
        exact hok
  · exact h.run hc hj hr
  · exact inv_spawn h hc hok hk
  · exact inv_call h hc hok hu hst
  · exact absurd hok id

lemma noWaiters_step {a : Act} (h : NoWaiters s.k) (hs : step s a = some t) : NoWaiters t.k := by
  obtain ⟨c, hc, rfl, hst⟩ | ⟨c, hc, rfl, hr, rfl⟩ | ⟨j, hc, rfl, hj, hr, rfl⟩ |
    ⟨dir, slot, k, hc, rfl, hk, rfl⟩ | ⟨c, hc, hu, hst⟩ |
    ⟨j, rfl, rfl⟩ := step_cases hs
  · exact noWaiters_stepThread h hst
  · exact h
  · exact h
  · have hpipe := (Kernel.processSpawnUser_some hk).2.2.2.2.2.2.1
    show ∀ i, _
    rw [show (s.openBooks k slot dir noFiles).k = k from rfl, hpipe]
    exact h
  · exact noWaiters_call h hst
  · exact h

theorem safe_step {a : Act} (h : Safe s) (hok : Careful s a) (hs : step s a = some t) : Safe t :=
  ⟨inv_step h.inv hok (fun c j _ _ _ => vfsClose_procs h.noWaiters c j) hs,
    noWaiters_step h.noWaiters hs⟩

lemma safe_boot : Safe boot := by
  have hun : ∀ i, (boot.k.procs i).state = .unused := fun _ => rfl
  have hl : ∀ i, ¬ (boot.k.procs i).state ≠ .unused := fun i hi => hi (hun i)
  refine ⟨⟨by decide, fun c hc => absurd hc (by simp [boot, Kernel.boot]), fun i _ hi => ?_,
    fun i _ hi => absurd hi (hl i), fun i _ _ _ hi => absurd hi (hl i), fun i _ hi => ?_,
    fun i _ hi => ?_, fun p _ hp => absurd hp (hl p), fun p _ hp => absurd hp (hl p),
    fun p _ _ _ hp => absurd hp (hl p)⟩, fun _ => ⟨rfl, rfl⟩⟩
  all_goals
    rw [hun] at hi
    simp at hi

end NullOS.Preempt
