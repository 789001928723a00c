import NullOS.Process.PreemptInv

/-!
# Switches and claims

The invariant at the steps at which the scheduler is entered or left, and when a slot is
claimed for a new process.
-/

namespace NullOS.Preempt

open Lib Vfs

variable {s t : Sys} {c i j p q slot dir : Nat} {b : Build} {n : Cont}

/-! ## Tables the invariant does not look at -/

lemma At.of_eq (h : At s p n) (hp : t.k.procs = s.k.procs) (hd : t.dirOf = s.dirOf)
    (hc : t.conts = s.conts) : At t p n := by
  have hbd : ∀ {b}, Building s p b → Building t p b := fun hb =>
    hb.congr (by rw [hp]) (by rw [hd])
  cases n
  case user | readPid | forkRow | exitClose | exitEnd | killScan | waitCheck | waitClear =>
    trivial
  case forkFill | forkWait => exact hbd h
  case spawnEsp | spawnCr3 | spawnRedirects | spawnPublish | seedStdin | seedStdout
      | makeReadyTest | makeReadySet | forkCopy | forkUnused | forkCr3 | forkEsp | forkReady =>
    refine ⟨hbd h.1, ?_⟩
    rw [hp]
    exact h.2
  all_goals simpa only [At, Image, UnderConstruction, hp, hd, hc] using h

lemma Inv.of_eq (h : Inv s) (hp : t.k.procs = s.k.procs) (hcur : t.k.current = s.k.current)
    (hn : t.k.nextPid = s.k.nextPid) (hth : t.thread = s.thread) (hc : t.conts = s.conts)
    (hd : t.dirOf = s.dirOf) (hw : t.waitBy = s.waitBy) : Inv t := by
  have hcont : t.cont = s.cont := by rw [Sys.cont, Sys.cont, hc, hth]
  refine ⟨?_, ?_, ?_, ?_, ?_, ?_, ?_, fun p hlt hl => ?_, fun p hlt hl hpc => ?_, ?_⟩
  · rw [hn]
    exact h.next_lt
  · simpa only [hp, hcur, hth] using h.cur
  · simpa only [hp, hcur] using h.running
  · simpa only [hp, hn] using h.pid
  · simpa only [hp] using h.pid_inj
  · simpa only [hp, Image, hd, hw] using h.formed
  · simpa only [hp, Image, hd, hw, hcont, hcur] using h.waiting
  · rw [hp] at hl ⊢
    rw [hc]
    exact (h.points p hlt hl).of_eq hp hd hc
  · rw [hp] at hl ⊢
    rw [hcur] at hpc
    rw [hc, Cont.Window.congr fun b _ => congrFun hp b.slot]
    exact h.others p hlt hl hpc
  · simpa only [hp, hc] using h.builder

/-- No pipe has a waiter: none of the calls modelled here blocks on one. -/
def NoWaiters (k : Kernel) : Prop :=
  ∀ i, (k.pipeTable i).readWaiter = none ∧ (k.pipeTable i).writeWaiter = none

lemma vfsClose_procs {k : Kernel} (h : NoWaiters k) (slot j : Nat) :
    (k.vfsClose slot j).procs = k.procs := by
  have hr : ∀ i, (k.pipeReleaseRead i).procs = k.procs := by
    intro i
    unfold Kernel.pipeReleaseRead Ipc.Pipe.releaseReadWakes
    simp only [(h i).2, ite_self]
    split <;> rfl
  have hw : ∀ i, (k.pipeReleaseWrite i).procs = k.procs := by
    intro i
    unfold Kernel.pipeReleaseWrite Ipc.Pipe.releaseWriteWakes
    simp only [(h i).1, ite_self]
    split <;> rfl
  unfold Kernel.vfsClose
  dsimp only
  rw [Kernel.setFd_procs]
  split
  · split
    · exact hr _
    · exact hw _
    · rfl
  · rfl

/-! ## Leaving and entering the scheduler -/

/-- The current process gives up the processor at a point outside the windows, runnable again,
blocked or asleep. -/
lemma Inv.switch_out (h : Inv s) (hc : s.k.current = some c) {x : Proc} {w : Nat → Nat}
    (hxr : x.state ≠ .running) (hpid : x.pid = (s.k.procs c).pid)
    (hesp : x.esp = s.thread) (hcr3 : x.cr3 = (s.k.procs c).cr3)
    (hwait : x.waitingForPid = 0 ∨ w c = x.pid) (hw : ∀ k, k ≠ c → w k = s.waitBy k)
    (hfork : ∀ b, s.cont = .forkFill b ∨ s.cont = .forkWait b →
      (s.k.procs b.slot).waitingForPid = 0)
    (hbuild : ∀ b ∈ n.building, b ∈ s.cont.building) (hnw : ¬ n.Window s.k) (hat : At s c n) :
    Inv { s.goto n with
      k := { s.k.setProc c x with current := none }
      waitBy := w } := by
  obtain ⟨hclt, hcrun, hthread⟩ := h.cur c hc
  have hne := fun k (hk : k ≠ c) => Kernel.setProc_procs_of_ne s.k c x hk
  have hself := Kernel.setProc_procs_self s.k c x
  have hold := s.k.setProc_kept (i := c) (x := x) fun _ => ⟨h.live hc, hpid⟩
  have hncur : ∀ q, q ≠ c → s.k.current ≠ some q := fun q hqc he =>
    hqc (Option.some.inj (he.symm.trans hc))
  have hcontc : (s.goto n).conts (s.k.procs c).pid = n := by
    rw [← hthread, goto_conts_self]
  -- nobody builds the slot of a running process
  have hslot : ∀ {q : Nat} {m : Cont}, At s q m → ∀ b ∈ m.building, b.slot ≠ c := by
    intro q m hm b hb heq
    have hblocked := (hm.building hb).state
    rw [heq, hcrun] at hblocked
    simp at hblocked
  have himage : x.esp = x.pid ∧ x.cr3 = s.dirOf x.pid := by
    obtain ⟨him, -⟩ := h.formed c hclt (.inr hcrun)
    rw [hpid, hesp, hthread, hcr3]
    exact ⟨rfl, him.2⟩
  refine h.of_step c rfl (fun q _ => hold q) (fun d hd => absurd hd (by simp))
    (fun k hk hkr => ?_) (fun k hk => ?_)
    (fun q hq hqc hl => goto_conts_of_ne s n (h.pid_ne hc hq hqc hl)) (fun q hq hql => ?_)
    (fun _ b hb => .inl ?_)
  · dsimp only at hkr
    by_cases hkc : k = c
    · subst hkc
      rw [hself] at hkr
      exact absurd hkr hxr
    · rw [hne k hkc] at hkr
      exact absurd (h.running k hk hkr) (hncur k hkc)
  · by_cases hkc : k = c
    · subst hkc
      simp only [SlotOk, Image, hself]
      exact ⟨fun _ => ⟨himage, hwait⟩, fun _ hkw => .inl ⟨himage, hwait.resolve_left hkw⟩⟩
    · exact h.slot_of_same hk (hne k hkc) rfl (hw k hkc) fun b hb hbk _ hkw =>
        absurd (hbk ▸ hfork b hb) hkw
  · by_cases hqc : q = c
    · subst hqc
      show At _ q ((s.goto n).conts (s.k.procs q).pid) ∧
        (_ → ¬ ((s.goto n).conts (s.k.procs q).pid).Window _)
      rw [hcontc]
      exact ⟨hat.congr hnw fun b hb => ⟨hne b.slot (hslot hat b hb), rfl⟩,
        fun _ => mt (Cont.Window.congr fun b hb => hne b.slot (hslot hat b hb)).mp hnw⟩
    · have hl := (hold q hql).1
      exact h.at_of_same hq hl (hncur q hqc) rfl (goto_conts_of_ne s n (h.pid_ne hc hq hqc hl))
        fun b hb => hne b.slot (hslot (h.points q hq hl) b hb)
  · rw [← hthread]
    refine hbuild b ?_
    rwa [← hcontc]

lemma Inv.run (h : Inv s) (hc : s.k.current = none) (hj : j < processMax)
    (hr : (s.k.procs j).state = .ready) :
    Inv { s with
      k := { s.k.setProc j { s.k.procs j with state := .running } with current := some j }
      thread := (s.k.procs j).esp } := by
  obtain ⟨him, hwj⟩ := h.formed j hj (.inl hr)
  have hne := fun k (hk : k ≠ j) =>
    Kernel.setProc_procs_of_ne s.k j { s.k.procs j with state := .running } hk
  have hself := Kernel.setProc_procs_self s.k j { s.k.procs j with state := .running }
  have hold := s.k.setProc_kept (i := j) (x := { s.k.procs j with state := .running })
    fun _ => ⟨by simp [hr], rfl⟩
  have hnone : ∀ q, s.k.current ≠ some q := fun q => by simp [hc]
  refine h.of_step j rfl (fun q _ => hold q) (fun d hd => ?_) (fun k hk hkr => ?_) (fun k hk => ?_)
    (fun _ _ _ _ => rfl) (fun q hq hql => ?_) (fun _ b hb => .inl hb)
  · cases hd
    refine ⟨hj, by rw [hself], ?_⟩
    rw [hself]
    exact him.1
  · by_cases hkj : k = j
    · rw [hkj]
    · rw [hne k hkj] at hkr
      exact absurd (h.running k hk hkr) (hnone k)
  · by_cases hkj : k = j
    · subst hkj
      simp only [SlotOk, Image, hself]
      exact ⟨fun _ => ⟨him, hwj⟩, fun hkb => absurd hkb (by simp)⟩
    · exact h.slot_of_same hk (hne k hkj) rfl rfl fun _ _ _ hcur => absurd hc hcur
  · -- the slot picked is not blocked, so nobody builds it
    have hl := (hold q hql).1
    refine h.at_of_same hq hl (hnone q) rfl rfl fun b hb => hne b.slot ?_
    rintro rfl
    have hblocked := ((h.points q hq hl).building hb).state
    rw [hr] at hblocked
    simp at hblocked

lemma Inv.exit (h : Inv s) (hc : s.k.current = some c) (hcont : s.cont = .exitEnd) :
    Inv { s with k := { s.k.processExit c with current := none } } := by
  obtain ⟨hclt, hcrun, hthread⟩ := h.cur c hc
  have hpos := (h.pid c hclt (h.live hc)).1
  have hprocs := fun k hk hkc => Kernel.processExit_procs_of_ne (k := k) (h.live hc) hk hkc
  have hcu : ((s.k.processExit c).procs c).state = .unused :=
    (Kernel.processExit_unused s.k c c).mpr (.inr rfl)
  -- who is woken, and what becomes of the others
  have hwoken : ∀ k < processMax, k ≠ c → (s.k.processExit c).procs k = s.k.procs k ∨
      (Image s k ∧ (s.k.procs k).state = .blocked ∧ (s.k.processExit c).procs k =
        { s.k.procs k with waitingForPid := 0, state := .ready }) := by
    intro k hk hkc
    rw [hprocs k hk hkc]
    unfold Proc.wakeFor
    split
    case isFalse => exact .inl rfl
    case isTrue hw =>
      rcases h.waiting k hk hw.1 (by rw [hw.2]; exact hpos) with him | ⟨b, hb, -⟩
      · exact .inr ⟨him.1, hw.1, rfl⟩
      · simp [hcont] at hb
  have hold : ∀ q < processMax, ((s.k.processExit c).procs q).state ≠ .unused →
      q ≠ c ∧ (s.k.procs q).state ≠ .unused ∧
        ((s.k.processExit c).procs q).pid = (s.k.procs q).pid := by
    intro q hq hl
    have hqc : q ≠ c := fun heq => hl (heq ▸ hcu)
    rcases hwoken q hq hqc with heq | ⟨-, hb, heq⟩
    · rw [heq] at hl ⊢
      exact ⟨hqc, hl, rfl⟩
    · rw [heq]
      exact ⟨hqc, by simp [hb], rfl⟩
  have hncur : ∀ q, q ≠ c → s.k.current ≠ some q := fun q hqc he =>
    hqc (Option.some.inj (he.symm.trans hc))
  refine h.of_step c (Kernel.processExit_nextPid _ _) (fun q hq hl => (hold q hq hl).2)
    (fun d hd => absurd hd (by simp)) (fun k hk hkr => ?_) (fun k hk => ?_)
    (fun _ _ _ _ => rfl) (fun q hq hql => ?_) (fun hl => absurd hcu hl)
  · dsimp only at hkr
    have hkc : k ≠ c := fun heq => by rw [heq, hcu] at hkr; simp at hkr
    rcases hwoken k hk hkc with heq | ⟨-, -, heq⟩
    · rw [heq] at hkr
      exact absurd (h.running k hk hkr) (hncur k hkc)
    · rw [heq] at hkr
      simp at hkr
  · by_cases hkc : k = c
    · subst hkc
      exact ⟨fun hks => absurd hks (by simp [hcu]), fun hkb => absurd hkb (by simp [hcu])⟩
    rcases hwoken k hk hkc with heq | ⟨him, -, heq⟩
    · exact h.slot_of_same hk heq rfl rfl fun b hb => absurd hb (by simp [hcont])
    · simp only [SlotOk, Image, heq]
      exact ⟨fun _ => ⟨him, by simp⟩, fun hkb => absurd hkb (by simp)⟩
  · -- a process under construction waits for nobody, so it is not woken
    obtain ⟨hqc, hl, -⟩ := hold q hq hql
    refine h.at_of_same hq hl (hncur q hqc) rfl rfl fun b hb => ?_
    have hat := h.points q hq hl
    have hbd := hat.building hb
    have hzero := hat.building_waiting (h.others q hq hl (hncur q hqc)) hb
    have hbc : b.slot ≠ c := by
      intro heq
      have hblocked := hbd.state
      rw [heq, hcrun] at hblocked
      simp at hblocked
    rw [hprocs b.slot hbd.lt hbc, Proc.wakeFor, if_neg]
    rintro ⟨-, hw⟩
    exact hpos (hw.symm.trans hzero)

/-! ## Wake-ups -/

/-- The assertion of a thread does not mind that a process which waits for nobody becomes
runnable, unless the thread builds that process or is about to wake it itself. -/
lemma At.wake (h : At s p n) (hs : (s.k.procs i).state = .blocked ∨ (s.k.procs i).state = .sleeping)
    (hw : (s.k.procs i).waitingForPid = 0) (hb : ∀ b ∈ n.building, b.slot ≠ i)
    (hn : ∀ e, n ≠ .killReady e i) :
    At (s.setProc i { s.k.procs i with state := .ready }) p n := by
  have hne := fun k (hk : k ≠ i) =>
    Kernel.setProc_procs_of_ne s.k i { s.k.procs i with state := .ready } hk
  have hun : ∀ k, (s.k.procs k).state = .unused → k ≠ i := by
    rintro k hk rfl
    rcases hs with hs | hs <;> simp [hs] at hk
  by_cases hwin : n.Window s.k
  · cases n
    case forkFill b | forkWait b => exact Building.congr h (hne b.slot (hb b rfl)) rfl
    case forkPid b =>
      obtain ⟨hlt, hbp, hu⟩ := h
      refine ⟨hlt, hbp, ?_⟩
      rw [setProc_k, hne b.slot (hun _ hu)]
      exact hu
    case killRead k =>
      refine ⟨h.1, ?_⟩
      by_cases hk : k = i
      · simp [hk]
      · rw [setProc_k, hne k hk]
        exact h.2
    case killPid k e =>
      obtain ⟨hlt, he, hkp, hu⟩ := h
      refine ⟨hlt, he, hkp, ?_⟩
      rw [setProc_k, hne k (hun _ hu)]
      exact hu
    case killWaiting e j =>
      obtain ⟨he, hj, hbl, hwj⟩ := h
      have hji : j ≠ i := by
        rintro rfl
        exact he (hwj.symm.trans hw)
      refine ⟨he, hj, ?_, ?_⟩
      all_goals rwa [setProc_k, hne j hji]
    case killReady e j =>
      obtain ⟨he, hj, hbl, hwj, him, hnc⟩ := h
      have hji : j ≠ i := fun heq => hn e (by rw [heq])
      refine ⟨he, hj, ?_, ?_, ?_, ?_⟩
      · rwa [setProc_k, hne j hji]
      · rwa [setProc_k, hne j hji]
      · simpa only [Image, setProc_k, setProc_dirOf, hne j hji] using him
      · rintro ⟨q, hq, hql, b, hb', hbj⟩
        refine hnc ⟨q, hq, ?_, b, ?_, hbj⟩
        all_goals by_cases hqi : q = i
        · rcases hs with hs | hs <;> simp [hqi, hs]
        · rwa [setProc_k, hne q hqi] at hql
        · simpa [hqi] using hb'
        · rwa [setProc_k, hne q hqi] at hb'
    all_goals exact hwin.elim
  · exact h.congr hwin fun b hb' => ⟨hne b.slot (hb b hb'), rfl⟩

lemma Inv.wake (h : Inv s) (hi : i < processMax)
    (hs : (s.k.procs i).state = .blocked ∨ (s.k.procs i).state = .sleeping) (him : Image s i)
    (hw : (s.k.procs i).waitingForPid = 0) (hnc : ¬ UnderConstruction s i)
    (hn : ∀ p < processMax, (s.k.procs p).state ≠ .unused →
      ∀ e, s.conts (s.k.procs p).pid ≠ .killReady e i) :
    Inv (s.setProc i { s.k.procs i with state := .ready }) := by
  have hne := fun k (hk : k ≠ i) =>
    Kernel.setProc_procs_of_ne s.k i { s.k.procs i with state := .ready } hk
  have hself := Kernel.setProc_procs_self s.k i { s.k.procs i with state := .ready }
  have hil : (s.k.procs i).state ≠ .unused := by rcases hs with hs | hs <;> simp [hs]
  have hold := s.k.setProc_kept (i := i) (x := { s.k.procs i with state := .ready })
    fun _ => ⟨hil, rfl⟩
  refine h.of_step i rfl (fun q _ => hold q) (fun d hd => ?_) (fun k hk hkr => ?_) (fun k hk => ?_)
    (fun _ _ _ _ => rfl) (fun q hq hql => ?_) (fun _ b hb => .inl hb)
  · obtain ⟨hlt, hrun, hthread⟩ := h.cur d hd
    have hdi : d ≠ i := by
      rintro rfl
      rw [hrun] at hs
      simp at hs
    rw [setProc_k, hne d hdi]
    exact ⟨hlt, hrun, hthread⟩
  · rw [setProc_k] at hkr
    by_cases hki : k = i
    · rw [hki, hself] at hkr
      simp at hkr
    · rw [hne k hki] at hkr
      exact h.running k hk hkr
  · by_cases hki : k = i
    · subst hki
      simp only [SlotOk, Image, setProc_k, hself]
      exact ⟨fun _ => ⟨him, .inl hw⟩, fun hkb => absurd hkb (by simp)⟩
    · exact h.slot_of_same hk (hne k hki) rfl rfl fun b hb _ hcur _ => ⟨hb, hcur⟩
  · have hl := (hold q hql).1
    have hslot : ∀ b ∈ (s.conts (s.k.procs q).pid).building, b.slot ≠ i :=
      fun b hb heq => hnc ⟨q, hq, hl, b, hb, heq⟩
    exact ⟨(h.points q hq hl).wake hs hw hslot (hn q hq hl), fun hqc =>
      mt (Cont.Window.congr fun b hb => hne b.slot (hslot b hb)).mp (h.others q hq hl hqc)⟩

/-! ## Claiming a slot -/

/-- `t` is `s` with the unused slot `slot` claimed for a new pid. -/
structure Claimed (s t : Sys) (slot : Nat) : Prop where
  lt : slot < processMax
  unused : (s.k.procs slot).state = .unused
  next : s.k.nextPid ≠ 0
  procs : ∀ k, k ≠ slot → t.k.procs k = s.k.procs k
  pid : (t.k.procs slot).pid = s.k.nextPid
  nextPid : t.k.nextPid = (s.k.nextPid + 1) % 0x100000000
  current : t.k.current = s.k.current
  thread : t.thread = s.thread
  conts : ∀ g, g ≠ s.k.nextPid → s.k.current = none ∨ g ≠ s.thread → t.conts g = s.conts g
  newCont : t.conts s.k.nextPid = .user
  dirOf : ∀ g, g ≠ s.k.nextPid → t.dirOf g = s.dirOf g
  waitBy : t.waitBy = s.waitBy

lemma Claimed.pid_lt (hn : Claimed s t slot) (h : Inv s) (hq : q < processMax)
    (hl : (s.k.procs q).state ≠ .unused) : (s.k.procs q).pid < s.k.nextPid :=
  (h.pid q hq hl).2.resolve_left hn.next

lemma Claimed.ne_of_live (hn : Claimed s t slot) (hl : (s.k.procs q).state ≠ .unused) :
    q ≠ slot := by
  rintro rfl
  exact hl hn.unused

lemma Claimed.live (hn : Claimed s t slot) (hq : q ≠ slot) (hl : (t.k.procs q).state ≠ .unused) :
    (s.k.procs q).state ≠ .unused := by
  rwa [hn.procs q hq] at hl

lemma Claimed.conts_eq (hn : Claimed s t slot) (h : Inv s) (hq : q < processMax)
    (hl : (s.k.procs q).state ≠ .unused) (hqc : s.k.current ≠ some q) :
    t.conts (s.k.procs q).pid = s.conts (s.k.procs q).pid := by
  refine hn.conts _ (Nat.ne_of_lt (hn.pid_lt h hq hl)) ?_
  cases hc : s.k.current with
  | none => exact .inl rfl
  | some c => exact .inr (h.pid_ne hc hq (fun he => hqc (he ▸ hc)) hl)

lemma Claimed.cont_new (hn : Claimed s t slot) : t.conts (t.k.procs slot).pid = .user := by
  rw [hn.pid, hn.newCont]

lemma Claimed.cont_cur (hn : Claimed s t slot) (h : Inv s) (hc : s.k.current = some c) :
    t.conts (t.k.procs c).pid = t.cont := by
  rw [hn.procs c (hn.ne_of_live (h.live hc)), ← h.thread_eq hc, ← hn.thread]
  rfl

lemma Claimed.cont_other (hn : Claimed s t slot) (h : Inv s) (hq : q < processMax)
    (hl : (s.k.procs q).state ≠ .unused) (hqc : s.k.current ≠ some q) :
    t.conts (t.k.procs q).pid = s.conts (s.k.procs q).pid := by
  rw [hn.procs q (hn.ne_of_live hl), hn.conts_eq h hq hl hqc]

lemma Claimed.image (hn : Claimed s t slot) (h : Inv s) (hq : q < processMax)
    (hl : (s.k.procs q).state ≠ .unused) (him : Image s q) : Image t q := by
  simp only [Image, hn.procs q (hn.ne_of_live hl), hn.dirOf _ (Nat.ne_of_lt (hn.pid_lt h hq hl))]
  exact him

/-- The claimed slot was built by nobody. -/
lemma Claimed.building_ne (hn : Claimed s t slot) (h : Inv s) (hq : q < processMax)
    (hl : (s.k.procs q).state ≠ .unused) (hb : b ∈ (s.conts (s.k.procs q).pid).building) :
    b.slot ≠ slot :=
  hn.ne_of_live (by simp [((h.points q hq hl).building hb).state])

lemma Claimed.building_kept (hn : Claimed s t slot) (h : Inv s) (hq : q < processMax)
    (hl : (s.k.procs q).state ≠ .unused) (hb : b ∈ (s.conts (s.k.procs q).pid).building) :
    t.k.procs b.slot = s.k.procs b.slot ∧ t.dirOf b.pid = s.dirOf b.pid := by
  have hbd := (h.points q hq hl).building hb
  refine ⟨hn.procs _ (hn.building_ne h hq hl hb), hn.dirOf _ (Nat.ne_of_lt ?_)⟩
  rw [← hbd.pid]
  exact hn.pid_lt h hbd.lt (by simp [hbd.state])

lemma Claimed.pid_inj (hn : Claimed s t slot) (h : Inv s) {k l : Nat} (hk : k < processMax)
    (hl : l < processMax) (hkl : (t.k.procs k).state ≠ .unused)
    (hll : (t.k.procs l).state ≠ .unused) (heq : (t.k.procs k).pid = (t.k.procs l).pid) :
    k = l := by
  -- pids in use are older than the new one
  have hlt : ∀ q < processMax, q ≠ slot → (t.k.procs q).state ≠ .unused →
      (s.k.procs q).pid < s.k.nextPid := fun q hq hqs hql => hn.pid_lt h hq (hn.live hqs hql)
  by_cases hks : k = slot <;> by_cases hls : l = slot
  · rw [hks, hls]
  · have hllt := hlt l hl hls hll
    rw [hks, hn.pid, hn.procs l hls] at heq
    omega
  · have hklt := hlt k hk hks hkl
    rw [hls, hn.pid, hn.procs k hks] at heq
    omega
  · rw [hn.procs k hks, hn.procs l hls] at heq
    exact h.pid_inj k hk l hl (hn.live hks hkl) (hn.live hls hll) heq

lemma Claimed.builder (hn : Claimed s t slot) (h : Inv s)
    (hbuild : ∀ c, s.k.current = some c → ∀ b ∈ t.cont.building, b.slot = slot) {r : Nat}
    {b' : Build} (hq : q < processMax) (hr : r < processMax)
    (hql : (t.k.procs q).state ≠ .unused) (hrl : (t.k.procs r).state ≠ .unused)
    (hb : b ∈ (t.conts (t.k.procs q).pid).building)
    (hb' : b' ∈ (t.conts (t.k.procs r).pid).building) (heq : b.slot = b'.slot) : q = r := by
  -- the thread of the new process builds nothing
  have hqs : q ≠ slot := fun he => by simp [he, hn.cont_new, Cont.building] at hb
  have hrs : r ≠ slot := fun he => by simp [he, hn.cont_new, Cont.building] at hb'
  replace hql := hn.live hqs hql
  replace hrl := hn.live hrs hrl
  by_cases hqc : s.k.current = some q <;> by_cases hrc : s.k.current = some r
  · exact Option.some.inj (hqc.symm.trans hrc)
  · rw [hn.cont_cur h hqc] at hb
    rw [hn.cont_other h hr hrl hrc] at hb'
    exact absurd (heq.symm.trans (hbuild q hqc b hb)) (hn.building_ne h hr hrl hb')
  · rw [hn.cont_other h hq hql hqc] at hb
    rw [hn.cont_cur h hrc] at hb'
    exact absurd (heq.trans (hbuild r hrc b' hb')) (hn.building_ne h hq hql hb)
  · rw [hn.cont_other h hq hql hqc] at hb
    rw [hn.cont_other h hr hrl hrc] at hb'
    exact h.builder q hq r hr hql hrl b hb b' hb' heq

lemma Inv.claim (h : Inv s) (hn : Claimed s t slot)
    (hst : (t.k.procs slot).state = .blocked ∨ (t.k.procs slot).state = .ready)
    (hformed : (t.k.procs slot).state = .ready →
      Image t slot ∧ (t.k.procs slot).waitingForPid = 0)
    (hwait : (t.k.procs slot).waitingForPid ≠ 0 →
      ∃ b, (t.cont = .forkFill b ∨ t.cont = .forkWait b) ∧ b.slot = slot ∧ s.k.current ≠ none)
    (huser : ∀ c, s.k.current = some c → s.cont = .user)
    (hat : ∀ c, s.k.current = some c → At t c t.cont)
    (hbuild : ∀ c, s.k.current = some c → ∀ b ∈ t.cont.building, b.slot = slot) : Inv t := by
  refine ⟨?_, fun d hd => ?_, fun k hk hkr => ?_, fun k hk hkl => ?_,
    fun k hk l hl hkl hll heq => hn.pid_inj h hk hl hkl hll heq, fun k hk hks => ?_,
    fun k hk hkb hkw => ?_, fun q hq hql => ?_, fun q hq hql hqc => ?_,
    fun q hq r hr hql hrl b hb b' hb' heq => hn.builder h hbuild hq hr hql hrl hb hb' heq⟩
  · rw [hn.nextPid]
    exact Nat.mod_lt _ (by decide)
  · rw [hn.current] at hd
    obtain ⟨hdlt, hdr, hdt⟩ := h.cur d hd
    rw [hn.procs d (hn.ne_of_live (h.live hd)), hn.thread]
    exact ⟨hdlt, hdr, hdt⟩
  · have hks : k ≠ slot := by
      rintro rfl
      rcases hst with hst | hst <;> simp [hst] at hkr
    rw [hn.procs k hks] at hkr
    rw [hn.current]
    exact h.running k hk hkr
  · rw [hn.nextPid]
    have hnext := h.next_lt
    have hn0 := hn.next
    by_cases hks : k = slot
    · subst hks
      rw [hn.pid]
      exact ⟨hn0, by omega⟩
    · have hl := hn.live hks hkl
      have hklt := hn.pid_lt h hk hl
      rw [hn.procs k hks]
      exact ⟨(h.pid k hk hl).1, by omega⟩
  · by_cases hkslot : k = slot
    · subst hkslot
      have hr : (t.k.procs k).state = .ready := by
        rcases hst with hst | hst
        · simp [hst] at hks
        · exact hst
      obtain ⟨him, hw⟩ := hformed hr
      exact ⟨him, .inl hw⟩
    · rw [hn.procs k hkslot] at hks ⊢
      rw [hn.waitBy]
      have hl : (s.k.procs k).state ≠ .unused := by rcases hks with hks | hks <;> simp [hks]
      exact ⟨hn.image h hk hl (h.formed k hk hks).1, (h.formed k hk hks).2⟩
  · by_cases hks : k = slot
    · subst hks
      obtain ⟨b, hb, hbs, hcur⟩ := hwait hkw
      exact .inr ⟨b, hb, hbs, by rw [hn.current]; exact hcur⟩
    · rw [hn.procs k hks] at hkb hkw ⊢
      rw [hn.waitBy]
      rcases h.waiting k hk hkb hkw with ⟨him, hw⟩ | ⟨b, hb, -, hcur⟩
      · exact .inl ⟨hn.image h hk (by simp [hkb]) him, hw⟩
      · obtain ⟨c, hc⟩ := Option.ne_none_iff_exists'.mp hcur
        simp [huser c hc] at hb
  · by_cases hqs : q = slot
    · rw [hqs, hn.cont_new]
      trivial
    · have hl := hn.live hqs hql
      by_cases hqc : s.k.current = some q
      · rw [hn.cont_cur h hqc]
        exact hat q hqc
      · rw [hn.cont_other h hq hl hqc]
        exact (h.points q hq hl).congr (h.others q hq hl hqc) fun b hb =>
          hn.building_kept h hq hl hb
  · rw [hn.current] at hqc
    by_cases hqs : q = slot
    · rw [hqs, hn.cont_new]
      exact id
    · have hl := hn.live hqs hql
      rw [hn.cont_other h hq hl hqc]
      exact mt (Cont.Window.congr fun b hb => (hn.building_kept h hq hl hb).1).mp
        (h.others q hq hl hqc)

lemma Careful.next {a : Act} (hok : Careful s a) (ha : a.Spawns ∨ a.Forks) : s.k.nextPid ≠ 0 := by
  cases a with
  | exec | execPipe | fork => exact hok
  | _ => simp [Act.Spawns, Act.Forks] at ha

section Claim

variable {a : Act} {x : Proc} {row : Nat → VfsFd}

lemma Claim.waiting (hcl : Claim s c a b x row n) (hw : x.waitingForPid ≠ 0) :
    n = .forkFill b := by
  rcases hcl.point with ⟨-, -, hx, -⟩ | ⟨-, hn, -⟩
  · exact absurd hx hw
  · exact hn

lemma Inv.thread_ne_nextPid (h : Inv s) (hc : s.k.current = some c) (hnext : s.k.nextPid ≠ 0) :
    s.thread ≠ s.k.nextPid := by
  rw [h.thread_eq hc]
  exact Nat.ne_of_lt ((h.pid c (h.cur c hc).1 (h.live hc)).2.resolve_left hnext)

lemma Claim.claimed (hcl : Claim s c a b x row n) (h : Inv s) (hc : s.k.current = some c)
    (hok : Careful s a) : Claimed s (s.claim b x row n) b.slot := by
  have hnext := hok.next hcl.acts
  have hthread := h.thread_ne_nextPid hc hnext
  refine ⟨hcl.lt, hcl.unused, hnext, fun j hj => ?_, ?_, rfl, rfl, rfl, fun g hg hgt => ?_, ?_,
    fun g hg => ?_, rfl⟩
  · simp [Sys.claim, Sys.openBooks, hj]
  · simpa [Sys.claim, Sys.openBooks] using hcl.pid
  · have hgt' : g ≠ s.thread := hgt.resolve_left (by simp [hc])
    simp [Sys.claim, Sys.openBooks, Sys.goto, hcl.pid, hg, hgt']
  · simp [Sys.claim, Sys.openBooks, Sys.goto, hcl.pid, Ne.symm hthread]
  · simp [Sys.claim, Sys.openBooks, Sys.goto, hcl.pid, hg]

lemma Claim.inv (hcl : Claim s c a b x row n) (h : Inv s) (hc : s.k.current = some c)
    (hok : Careful s a) (huser : s.cont = .user) : Inv (s.claim b x row n) := by
  have hself : (s.claim b x row n).k.procs b.slot = x := by simp [Sys.claim, Sys.openBooks]
  have hne : b.slot ≠ c := by
    intro heq
    exact h.live hc (heq ▸ hcl.unused)
  have hbd : Building (s.claim b x row n) c b := by
    refine ⟨hcl.lt, hne, by rw [hself, hcl.state], by rw [hself, hcl.pid, hcl.buildPid], ?_⟩
    rw [hcl.buildPid]
    simp [Sys.claim, Sys.openBooks, hcl.pid]
  refine h.claim (hcl.claimed h hc hok) (.inl hbd.state) ?_ ?_ (fun _ _ => huser) ?_ ?_
  · exact fun hr => absurd hr (by rw [hbd.state]; simp)
  · intro hw
    rw [hself] at hw
    exact ⟨b, .inl (by rw [Sys.claim, goto_cont, hcl.waiting hw]), rfl, by simp [hc]⟩
  · intro d hd
    obtain rfl : c = d := Option.some.inj (hc.symm.trans hd)
    rw [Sys.claim, goto_cont, ← Sys.claim]
    rcases hcl.point with ⟨-, rfl, hw, -⟩ | ⟨-, rfl, -⟩
    · exact ⟨hbd, by rw [hself, hw]⟩
    · exact hbd
  · intro _ _ b' hb'
    have hn : n.building = some b := by
      rcases hcl.point with ⟨-, rfl, -⟩ | ⟨-, rfl, -⟩
      all_goals rfl
    rw [Sys.claim, goto_cont, hn, Option.mem_def, Option.some.injEq] at hb'
    rw [hb']

end Claim

lemma claimed_spawn (hc : s.k.current = none) (hnext : s.k.nextPid ≠ 0) {k : Kernel} {dir : Nat}
    (row : Nat → VfsFd) (hk : s.k.processSpawnUser dir 0 false = some (slot, k)) :
    Claimed s (s.openBooks k slot dir row) slot := by
  obtain ⟨⟨slot', u⟩, hu, hpair⟩ := Option.map_eq_some_iff.mp hk
  obtain ⟨hslot, hunused, rfl⟩ := Kernel.spawnClaim_some hu
  obtain ⟨rfl, rfl⟩ := Prod.mk.inj hpair
  refine ⟨hslot, hunused, hnext, fun j hj => ?_, ?_, rfl, rfl, rfl, fun g hg _ => ?_, ?_,
    fun g hg => ?_, rfl⟩
  all_goals simp_all [Sys.openBooks, Kernel.setProc]

end NullOS.Preempt
