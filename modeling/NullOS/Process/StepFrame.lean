import NullOS.Process.PreemptRun

/-!
# What a step changes

Which slots a step can touch, said once for every program point, for the developments that put
something on top of the process table.  A process carries a `waiting_for_pid` only inside
`sys_wait`, so whoever sleeps elsewhere is left alone by the scans of `process_exit`.
-/

namespace NullOS.Preempt

open Lib Vfs

/-- The slots that a step of the thread in slot `c` may change: its own, the one it is building or
ending, a free one, and those of processes in `sys_wait`. -/
inductive Touched (s : Sys) (c : Nat) : Nat → Prop
  | own : Touched s c c
  | built {b : Build} (hc : s.k.current = some c) (h : b ∈ s.cont.building) : Touched s c b.slot
  | free {i : Nat} (h : (s.k.procs i).state = .unused) : Touched s c i
  | waiter {i : Nat} (hb : (s.k.procs i).state = .blocked)
      (hw : (s.k.procs i).waitingForPid ≠ 0) : Touched s c i
  | woken {e i : Nat} (hc : s.k.current = some c) (h : s.cont = .killReady e i) : Touched s c i
  | ended {e i : Nat} (hc : s.k.current = some c) (h : s.cont = .killUnused i e) : Touched s c i

/-- A step that creates no process, made by or on behalf of the one in slot `c`. -/
structure Frame (s t : Sys) (c : Nat) : Prop where
  procs : ∀ k < processMax, t.k.procs k = s.k.procs k ∨ Touched s c k
  kept : ∀ k < processMax, (t.k.procs k).state ≠ .unused →
    (s.k.procs k).state ≠ .unused ∧ (t.k.procs k).pid = (s.k.procs k).pid
  blocked : ∀ k < processMax, (t.k.procs k).state = .blocked →
    (s.k.procs k).state = .blocked ∨ k = c
  sleeping : ∀ k < processMax, (t.k.procs k).state = .sleeping → t.k.procs k = s.k.procs k
  waiters : ∀ i, (t.k.pipeTable i).readWaiter = (s.k.pipeTable i).readWaiter ∧
    (t.k.pipeTable i).writeWaiter = (s.k.pipeTable i).writeWaiter
  nextPid : t.k.nextPid = s.k.nextPid
  dirOf : t.dirOf = s.dirOf
  conts : ∀ k < processMax, k ≠ c → (s.k.procs k).state ≠ .unused →
    t.conts (s.k.procs k).pid = s.conts (s.k.procs k).pid
  building : ∀ b ∈ (t.conts (s.k.procs c).pid).building,
    b ∈ (s.conts (s.k.procs c).pid).building

variable {s t : Sys} {c i j p q slot dir : Nat} {b : Build} {n : Cont}

lemma Frame.of_eq {u : Sys} (h : Frame s t c) (hp : u.k.procs = t.k.procs)
    (hw : ∀ i, (u.k.pipeTable i).readWaiter = (t.k.pipeTable i).readWaiter ∧
      (u.k.pipeTable i).writeWaiter = (t.k.pipeTable i).writeWaiter)
    (hn : u.k.nextPid = t.k.nextPid) (hc : u.conts = t.conts) (hd : u.dirOf = t.dirOf) :
    Frame s u c := by
  refine ⟨?_, ?_, ?_, ?_, fun i => ⟨(hw i).1.trans (h.waiters i).1, (hw i).2.trans (h.waiters i).2⟩,
    hn.trans h.nextPid, hd.trans h.dirOf, ?_, ?_⟩
  · rw [hp]
    exact h.procs
  · rw [hp]
    exact h.kept
  · rw [hp]
    exact h.blocked
  · rw [hp]
    exact h.sleeping
  · rw [hc]
    exact h.conts
  · rw [hc]
    exact h.building

lemma frame_slot (h : Inv s) (hc : s.k.current = some c) {x : Proc} (hi : Touched s c i)
    (hpid : x.state ≠ .unused → (s.k.procs i).state ≠ .unused ∧ x.pid = (s.k.procs i).pid)
    (hblock : x.state = .blocked → (s.k.procs i).state = .blocked ∨ i = c)
    (hsleep : x.state ≠ .sleeping) (hb : ∀ b ∈ n.building, b ∈ s.cont.building) :
    Frame s ((s.setProc i x).goto n) c := by
  have hne := fun k (hk : k ≠ i) => Kernel.setProc_procs_of_ne s.k i x hk
  have hself := Kernel.setProc_procs_self s.k i x
  refine ⟨fun k _ => ?_, fun k _ hkl => ?_, fun k _ hkb => ?_, fun k _ hks => ?_,
    fun _ => ⟨rfl, rfl⟩, rfl, rfl, fun k hk hkc hkl => ?_, fun b hb' => ?_⟩
  · by_cases hki : k = i
    · rw [hki]
      exact .inr hi
    · exact .inl (hne k hki)
  · exact s.k.setProc_kept hpid k hkl
  · simp only [goto_k, setProc_k] at hkb
    by_cases hki : k = i
    · subst hki
      rw [hself] at hkb
      exact hblock hkb
    · rw [hne k hki] at hkb
      exact .inl hkb
  · simp only [goto_k, setProc_k] at hks
    by_cases hki : k = i
    · subst hki
      rw [hself] at hks
      exact absurd hks hsleep
    · exact hne k hki
  · exact goto_conts_of_ne (s.setProc i x) n (h.pid_ne hc hk hkc hkl)
  · rw [← h.thread_eq hc] at hb' ⊢
    rw [show s.thread = (s.setProc i x).thread from rfl, goto_conts_self] at hb'
    exact hb b hb'

lemma frame_goto (h : Inv s) (hc : s.k.current = some c)
    (hb : ∀ b ∈ n.building, b ∈ s.cont.building) : Frame s (s.goto n) c := by
  have hrun := (h.cur c hc).2.1
  have hslot := frame_slot (n := n) (x := s.k.procs c) h hc .own (fun hl => ⟨hl, rfl⟩)
    (fun _ => .inr rfl) (by simp [hrun]) hb
  rwa [setProc_self] at hslot

/-! ## A step of the current thread -/

lemma copyFd_waiters (k : Kernel) (slot j : Nat) (fd : VfsFd) (i : Nat) :
    ((k.copyFd slot j fd).pipeTable i).readWaiter = (k.pipeTable i).readWaiter ∧
      ((k.copyFd slot j fd).pipeTable i).writeWaiter = (k.pipeTable i).writeWaiter := by
  unfold Kernel.copyFd Kernel.vfsDup Kernel.pipeAddReadRef Kernel.pipeAddWriteRef
  split
  · split
    · split
      · exact ⟨rfl, rfl⟩
      · by_cases hi : i = fd.first
        · simp [hi, Ipc.Pipe.addReadRef]
        · simp [Kernel.setPipe_pipeTable_of_ne, hi]
    · split
      · exact ⟨rfl, rfl⟩
      · by_cases hi : i = fd.first
        · simp [hi, Ipc.Pipe.addWriteRef]
        · simp [Kernel.setPipe_pipeTable_of_ne, hi]
    · exact ⟨rfl, rfl⟩
  · exact ⟨rfl, rfl⟩

lemma frame_seed (h : Inv s) (hc : s.k.current = some c)
    (hcont : s.cont = .seedStdin b ∨ s.cont = .seedStdout b) (hs : stepThread s c = some t) :
    Frame s t c := by
  obtain ⟨⟨hbd, -⟩, hb, -⟩ := h.at_seed hc hcont
  rcases seed_cases hcont hs with rfl | ⟨src, n, hn, hseed⟩
  · exact frame_goto h hc (by simp [Cont.building])
  have hn' : ∀ b' ∈ n.building, b' ∈ s.cont.building := by
    rcases hn with ⟨-, -, rfl⟩ | ⟨-, -, rfl⟩
    all_goals
      rintro _ ⟨⟩
      exact hb
  rcases hseed with ⟨-, rfl⟩ | ⟨idx, j, r, w, -, -, rfl⟩
  · exact frame_goto h hc hn'
  · have hslot := frame_slot
      (x := { s.k.procs b.slot with stdinRedirect := r, stdoutRedirect := w })
      h hc (.built hc hb) (fun hl => ⟨hl, rfl⟩) (fun _ => .inl hbd.state) (by simp [hbd.state]) hn'
    refine hslot.of_eq ?_ (copyFd_waiters _ _ _ _) (Kernel.copyFd_nextPid _ _ _ _) rfl rfl
    simp [Sys.seeded, Sys.setProc, Sys.goto, Kernel.setProc]

/-- **What one step of a thread changes**, apart from the release of a pipe in `sys_exit`. -/
lemma frame_stepThread (h : Inv s) (hc : s.k.current = some c)
    (hclose : ∀ j, s.cont ≠ .exitClose j) (hs : stepThread s c = some t) : Frame s t c := by
  have hat := h.at_cur hc
  obtain ⟨hclt, hcrun, hthread⟩ := h.cur c hc
  have hgoto : ∀ m : Cont, (∀ b ∈ m.building, b ∈ s.cont.building) → Frame s (s.goto m) c :=
    fun m => frame_goto h hc
  have hstep := hs
  unfold stepThread at hs
  cases hcont : s.cont
  all_goals rw [hcont] at hs hat hgoto
  case user => simp at hs
  case exitClose j => exact absurd hcont (hclose j)
  case spawnEsp b | spawnCr3 b | spawnRedirects b | forkCr3 b | forkEsp b =>
    cases hs
    exact frame_slot h hc (.built hc (by rw [hcont]; rfl)) (fun hl => ⟨hl, rfl⟩) (fun hb => .inl hb)
      (by simp [hat.1.state]) (by rw [hcont]; exact fun _ hb => hb)
  case forkFill b | forkWait b =>
    cases hs
    exact frame_slot h hc (.built hc (by rw [hcont]; rfl)) (fun hl => ⟨hl, rfl⟩) (fun hb => .inl hb)
      (by simp [Building.state hat]) (by rw [hcont]; exact fun _ hb => hb)
  case spawnPublish b =>
    cases hs
    split
    · exact hgoto _ fun _ hb => hb
    · exact frame_slot h hc (.built hc (by rw [hcont]; rfl)) (fun _ => ⟨by simp [hat.1.state], rfl⟩)
        (fun hb => absurd hb (by simp)) (by simp) (by simp [Cont.building])
  case makeReadySet b | forkReady b =>
    cases hs
    exact frame_slot h hc (.built hc (by rw [hcont]; rfl)) (fun _ => ⟨by simp [hat.1.state], rfl⟩)
      (fun hb => absurd hb (by simp)) (by simp) (by simp [Cont.building])
  case seedStdin => exact frame_seed h hc (.inl hcont) hstep
  case seedStdout => exact frame_seed h hc (.inr hcont) hstep
  case makeReadyTest b =>
    cases hs
    rw [if_pos hat.1.state]
    exact hgoto _ fun _ hb => hb
  case readPid b =>
    cases hs
    exact (hgoto .user (by simp [Cont.building])).of_eq rfl (fun _ => ⟨rfl, rfl⟩) rfl rfl rfl
  case forkCopy b =>
    cases hs
    split
    · exact hgoto _ fun _ hb => hb
    · exact hgoto _ fun _ hb => hb
  case forkUnused b =>
    cases hs
    exact frame_slot h hc (.built hc (by rw [hcont]; rfl)) (fun hl => absurd rfl hl)
      (fun hb => absurd hb (by simp)) (by simp) (by simp [Cont.building])
  case forkPid b =>
    cases hs
    exact frame_slot h hc (.free hat.2.2) (fun hl => absurd hat.2.2 hl) (fun hb => .inl hb)
      (by simp [hat.2.2]) (by simp [Cont.building])
  case forkRow b j =>
    cases hs
    split
    · exact (hgoto (.forkRow b (j + 1)) (by simp [Cont.building])).of_eq
        (Kernel.copyFd_procs _ _ _ _) (copyFd_waiters _ _ _ _) (Kernel.copyFd_nextPid _ _ _ _)
        rfl rfl
    · exact hgoto _ (by simp [Cont.building])
  case exitEnd =>
    cases hs
    have hprocs := fun k hk hkc => Kernel.processExit_procs_of_ne (k := k) (h.live hc) hk hkc
    have hcu : ((s.k.processExit c).procs c).state = .unused :=
      (Kernel.processExit_unused s.k c c).mpr (.inr rfl)
    have hpos := (h.pid c hclt (h.live hc)).1
    -- every other slot is as before, or was waiting and is now ready
    have hcase : ∀ k < processMax, k ≠ c → (s.k.processExit c).procs k = s.k.procs k ∨
        ((s.k.procs k).state = .blocked ∧ (s.k.procs k).waitingForPid ≠ 0 ∧
          (s.k.processExit c).procs k =
            { s.k.procs k with waitingForPid := 0, state := .ready }) := by
      intro k hk hkc
      rw [hprocs k hk hkc]
      unfold Proc.wakeFor
      split
      case isTrue hw => exact .inr ⟨hw.1, by rw [hw.2]; exact hpos, rfl⟩
      case isFalse => exact .inl rfl
    refine ⟨fun k hk => ?_, fun k hk hkl => ?_, fun k hk hkb => ?_, fun k hk hks => ?_,
      fun _ => ?_, Kernel.processExit_nextPid _ _, rfl, fun _ _ _ _ => rfl, fun _ hb => hb⟩
    all_goals dsimp only at *
    · by_cases hkc : k = c
      · rw [hkc]
        exact .inr .own
      · rcases hcase k hk hkc with heq | ⟨hb, hw, -⟩
        · exact .inl heq
        · exact .inr (.waiter hb hw)
    · have hkc : k ≠ c := by
        rintro rfl
        exact hkl hcu
      rw [hprocs k hk hkc] at hkl ⊢
      exact ⟨mt (Proc.wakeFor_unused _ _).mpr hkl, Proc.wakeFor_pid _ _⟩
    · by_cases hkc : k = c
      · exact .inr hkc
      · rcases hcase k hk hkc with heq | ⟨hb, -, -⟩
        · rw [heq] at hkb
          exact .inl hkb
        · exact .inl hb
    · have hkc : k ≠ c := by
        rintro rfl
        simp [hcu] at hks
      rcases hcase k hk hkc with heq | ⟨-, -, heq⟩
      · exact heq
      · rw [heq] at hks
        simp at hks
    · rw [(Kernel.processExit_frame s.k c).2.1]
      exact ⟨rfl, rfl⟩
  case killScan | killTest | killRead | killWake =>
    cases hs
    refine hgoto _ ?_
    repeat' split
    all_goals simp [Cont.building]
  case killUnused i e =>
    cases hs
    exact frame_slot h hc (.ended hc hcont) (fun hl => absurd rfl hl)
      (fun hb => absurd hb (by simp)) (by simp) (by simp [Cont.building])
  case killPid i e =>
    cases hs
    exact frame_slot h hc (.free hat.2.2.2) (fun hl => absurd hat.2.2.2 hl) (fun hb => .inl hb)
      (by simp [hat.2.2.2]) (by simp [Cont.building])
  case killWaiting e j =>
    obtain ⟨he, hj, hb, hw⟩ := hat
    cases hs
    exact frame_slot h hc (.waiter hb (by rw [hw]; exact he)) (fun hl => ⟨hl, rfl⟩)
      (fun hb => .inl hb) (by simp [hb]) (by simp [Cont.building])
  case killReady e j =>
    cases hs
    exact frame_slot h hc (.woken hc hcont) (fun _ => ⟨by simp [hat.2.2.1], rfl⟩)
      (fun hb => absurd hb (by simp)) (by simp) (by simp [Cont.building])
  case waitCheck pid =>
    cases hs
    split
    · have hslot := frame_slot (n := .waitClear pid) (x := { s.k.procs c with
        waitingForPid := pid, state := .blocked, esp := s.thread }) h hc .own
        (fun _ => ⟨h.live hc, rfl⟩) (fun _ => .inr rfl) (by simp) (by simp [Cont.building])
      exact hslot.of_eq rfl (fun _ => ⟨rfl, rfl⟩) rfl rfl rfl
    · exact hgoto _ (by simp [Cont.building])
  case waitClear pid =>
    cases hs
    exact frame_slot h hc .own (fun hl => ⟨hl, rfl⟩) (fun _ => .inr rfl) (by simp [hcrun])
      (by simp [Cont.building])

lemma frame_preempt (h : Inv s) (hc : s.k.current = some c) :
    Frame s { s with k := { s.k.setProc c { s.k.procs c with
      state := .ready, esp := s.thread } with current := none } } c := by
  have hslot := frame_slot (n := s.cont) (x := { s.k.procs c with
    state := .ready, esp := s.thread }) h hc .own (fun _ => ⟨h.live hc, rfl⟩)
    (fun _ => .inr rfl) (by simp) fun _ hb => hb
  refine hslot.of_eq rfl (fun _ => ⟨rfl, rfl⟩) rfl ?_ rfl
  simp [Sys.goto, Sys.cont]

lemma frame_run (hr : (s.k.procs j).state = .ready) :
    Frame s { s with
      k := { s.k.setProc j { s.k.procs j with state := .running } with current := some j }
      thread := (s.k.procs j).esp } j := by
  have hne := fun k (hk : k ≠ j) =>
    Kernel.setProc_procs_of_ne s.k j { s.k.procs j with state := .running } hk
  refine ⟨fun k _ => ?_, fun k _ hkl => ?_, fun k _ hkb => ?_, fun k _ hks => ?_,
    fun _ => ⟨rfl, rfl⟩, rfl, rfl, fun _ _ _ _ => rfl, fun _ hb => hb⟩
  all_goals by_cases hkj : k = j
  · rw [hkj]
    exact .inr .own
  · exact .inl (hne k hkj)
  · subst hkj
    simp [hr]
  · dsimp only at hkl ⊢
    rw [hne k hkj] at hkl ⊢
    exact ⟨hkl, rfl⟩
  · exact .inr hkj
  · dsimp only at hkb
    rw [hne k hkj] at hkb
    exact .inl hkb
  · subst hkj
    simp at hks
  · exact hne k hkj

lemma frame_call {a : Act} (h : Inv s) (hc : s.k.current = some c) (hok : Careful s a)
    (huser : s.cont = .user) (hs : call s c a = some t) :
    Frame s t c ∨ ∃ slot, Claimed s t slot ∧ (t.k.procs slot).state = .blocked ∧
      (∀ b ∈ t.cont.building, b.pid = s.k.nextPid) ∧ t.k.pipeTable = s.k.pipeTable := by
  have hself : Frame s s c := by
    have hgoto := frame_goto (n := .user) h hc (by simp [Cont.building])
    rwa [Sys.goto, ← huser, Sys.cont, Function.update_eq_self] at hgoto
  rcases call_cases hs with rfl | ⟨b, x, row, n, hcl, rfl⟩ | ⟨n, hn, rfl⟩ | ⟨j, fd, rfl⟩
  · exact .inl hself
  · refine .inr ⟨b.slot, hcl.claimed h hc hok, ?_, fun b' hb' => ?_, rfl⟩
    · simpa [Sys.claim, Sys.openBooks] using hcl.state
    · rw [Sys.claim, goto_cont] at hb'
      rcases hcl.point with ⟨-, rfl, -⟩ | ⟨-, rfl, -⟩
      all_goals
        cases hb'
        exact hcl.buildPid
  · refine .inl (frame_goto h hc ?_)
    rcases hn with rfl | ⟨pid, rfl⟩ | ⟨pid, rfl⟩
    all_goals simp [Cont.building]
  · exact .inl (hself.of_eq rfl (fun _ => ⟨rfl, rfl⟩) rfl rfl rfl)

/-! ## Who carries a `waiting_for_pid` -/

/-- A live process that carries a `waiting_for_pid` is inside `sys_wait`, or has just been claimed
by a fork; and so is whom a scan is about to make runnable. -/
structure Calm (s : Sys) : Prop where
  waits : ∀ i < processMax, (s.k.procs i).state ≠ .unused → (s.k.procs i).waitingForPid ≠ 0 →
    (∃ p, s.conts (s.k.procs i).pid = .waitClear p) ∨
      ∃ b, (s.cont = .forkFill b ∨ s.cont = .forkWait b) ∧ b.slot = i ∧ s.k.current ≠ none
  woken : ∀ q < processMax, (s.k.procs q).state ≠ .unused → ∀ e j,
    s.conts (s.k.procs q).pid = .killReady e j → ∃ p, s.conts (s.k.procs j).pid = .waitClear p

lemma Calm.cur (h : Calm s) (hinv : Inv s) (hc : s.k.current = some c)
    (hw : ∀ p, s.cont ≠ .waitClear p) : (s.k.procs c).waitingForPid = 0 := by
  by_contra h0
  rcases h.waits c (hinv.cur c hc).1 (hinv.live hc) h0 with ⟨p, hp⟩ | ⟨b, hb, hbc, -⟩
  · rw [← hinv.thread_eq hc] at hp
    exact hw p hp
  · have hat := hinv.at_cur hc
    rcases hb with hb | hb
    all_goals
      rw [hb] at hat
      exact Building.ne hat hbc

lemma Calm.step_slot (h : Calm s) (hinv : Inv s) (hc : s.k.current = some c) {x : Proc}
    (hpid : x.state ≠ .unused → (s.k.procs i).state ≠ .unused ∧ x.pid = (s.k.procs i).pid)
    (hx : x.waitingForPid = 0 ∨ (i ≠ c ∧ x.waitingForPid = (s.k.procs i).waitingForPid) ∨
      i = c ∧ ∃ p, n = .waitClear p)
    (hw : (∀ p, s.cont ≠ .waitClear p) ∨ i = c)
    (hfork : ∀ b, s.cont = .forkFill b ∨ s.cont = .forkWait b →
      n = .forkWait b ∨ i = b.slot ∧ x.waitingForPid = 0)
    (hn : ∀ e j, n = .killReady e j → j ≠ c ∧ (j = i → x.pid = (s.k.procs i).pid) ∧
      j < processMax ∧ (s.k.procs j).state ≠ .unused ∧
      ∃ p, s.conts (s.k.procs j).pid = .waitClear p) :
    Calm ((s.setProc i x).goto n) := by
  have hne := fun k (hk : k ≠ i) => Kernel.setProc_procs_of_ne s.k i x hk
  have hself := Kernel.setProc_procs_self s.k i x
  have hold := s.k.setProc_kept hpid
  have hcont : ∀ q < processMax, q ≠ c → (s.k.procs q).state ≠ .unused →
      ((s.setProc i x).goto n).conts (s.k.procs q).pid = s.conts (s.k.procs q).pid :=
    fun q hq hqc hl => goto_conts_of_ne (s.setProc i x) n (hinv.pid_ne hc hq hqc hl)
  refine ⟨fun k hk hkl hkw => ?_, fun q hq hql e j hqn => ?_⟩
  all_goals simp only [goto_k, setProc_k] at *
  · obtain ⟨hl, hp⟩ := hold k hkl
    by_cases hnew : k = i ∧ i = c ∧ ∃ p, n = .waitClear p
    · obtain ⟨rfl, rfl, p, rfl⟩ := hnew
      refine .inl ⟨p, ?_⟩
      rw [hp, ← hinv.thread_eq hc]
      exact goto_conts_self _ _
    -- otherwise it carried the same value before, and it is not the current process
    have hkc : k ≠ c ∧ (s.k.procs k).waitingForPid ≠ 0 := by
      by_cases hki : k = i
      · subst hki
        rw [hself] at hkw
        obtain ⟨hkc, heq⟩ | ⟨hic, hp⟩ := hx.resolve_left hkw
        · exact ⟨hkc, heq ▸ hkw⟩
        · exact absurd ⟨rfl, hic, hp⟩ hnew
      · rw [hne k hki] at hkw
        refine ⟨?_, hkw⟩
        rintro rfl
        exact hkw (h.cur hinv hc (hw.resolve_right (Ne.symm hki)))
    rw [hp, hcont k hk hkc.1 hl]
    rcases h.waits k hk hl hkc.2 with hwc | ⟨b, hb, hbk, hcur⟩
    · exact .inl hwc
    · rcases hfork b hb with rfl | ⟨hib, h0⟩
      · exact .inr ⟨b, .inr (goto_cont _ _), hbk, hcur⟩
      · rw [← hbk, ← hib, hself] at hkw
        exact absurd h0 hkw
  · obtain ⟨hl, hp⟩ := hold q hql
    rw [hp] at hqn
    by_cases hqc : q = c
    · subst hqc
      rw [← hinv.thread_eq hc, show s.thread = (s.setProc i x).thread from rfl,
        goto_conts_self] at hqn
      obtain ⟨hjc, hji, hj, hjl, hwc⟩ := hn e j hqn
      have hpj : ((s.k.setProc i x).procs j).pid = (s.k.procs j).pid := by
        by_cases hj' : j = i
        · rw [hj', hself]
          exact hji hj'
        · rw [hne j hj']
      rw [hpj, hcont j hj hjc hjl]
      exact hwc
    · rw [hcont q hq hqc hl] at hqn
      have hcq : s.k.current ≠ some q := fun he => hqc (Option.some.inj (he.symm.trans hc))
      exact absurd (by rw [hqn]; trivial) (hinv.others q hq hl hcq)

lemma Calm.step_goto (h : Calm s) (hinv : Inv s) (hc : s.k.current = some c)
    (hw : ∀ p, s.cont ≠ .waitClear p) (hfork : ∀ b, s.cont ≠ .forkFill b ∧ s.cont ≠ .forkWait b)
    (hn : ∀ e j, n ≠ .killReady e j) : Calm (s.goto n) := by
  have hstep := h.step_slot (n := n) (i := c) (x := s.k.procs c) hinv hc (fun hl => ⟨hl, rfl⟩)
    (.inl (h.cur hinv hc hw)) (.inr rfl) (fun b hb => absurd hb (by simp [hfork b]))
    fun e j he => absurd he (hn e j)
  rwa [setProc_self] at hstep

lemma Calm.of_kept (h : Calm s)
    (hl : ∀ i, (t.k.procs i).state ≠ .unused → (s.k.procs i).state ≠ .unused)
    (hp : ∀ i, (t.k.procs i).pid = (s.k.procs i).pid)
    (hw : ∀ i, (t.k.procs i).waitingForPid = (s.k.procs i).waitingForPid)
    (hc : t.conts = s.conts)
    (hf : ∀ b, s.cont = .forkFill b ∨ s.cont = .forkWait b → s.k.current ≠ none →
      (s.k.procs b.slot).waitingForPid = 0 ∨ t.cont = s.cont ∧ t.k.current = s.k.current) :
    Calm t := by
  refine ⟨fun i hi hil hiw => ?_, fun q hq hql e j hqn => ?_⟩
  · rw [hw] at hiw
    rw [hc, hp]
    rcases h.waits i hi (hl i hil) hiw with hwc | ⟨b, hb, rfl, hcur⟩
    · exact .inl hwc
    · obtain h0 | ⟨hcont, heq⟩ := hf b hb hcur
      · exact absurd h0 hiw
      · exact .inr ⟨b, by rwa [hcont], rfl, by rwa [heq]⟩
  · rw [hc, hp] at hqn ⊢
    exact h.woken q hq (hl q hql) e j hqn

lemma Calm.of_same (h : Calm s)
    (hl : ∀ i, (t.k.procs i).state ≠ .unused → (s.k.procs i).state ≠ .unused)
    (hp : ∀ i, (t.k.procs i).pid = (s.k.procs i).pid)
    (hw : ∀ i, (t.k.procs i).waitingForPid = (s.k.procs i).waitingForPid)
    (hc : t.conts = s.conts) (hth : t.thread = s.thread) (hcur : t.k.current = s.k.current) :
    Calm t :=
  h.of_kept hl hp hw hc fun _ _ _ => .inr ⟨by rw [Sys.cont, Sys.cont, hc, hth], hcur⟩

lemma Proc.wake_waitingForPid (x : Proc) : x.wake.waitingForPid = x.waitingForPid := by
  unfold Proc.wake
  split <;> rfl

/-- The release of a pipe wakes at most one process, and changes nothing else in the process
table. -/
lemma vfsClose_woken (k : Kernel) (slot j i : Nat) :
    (k.vfsClose slot j).procs i = k.procs i ∨ (k.vfsClose slot j).procs i = (k.procs i).wake := by
  have hwake : ∀ (l : Kernel) (w : Option Nat), l.procs = k.procs →
      (l.wakeSlot w).procs i = k.procs i ∨ (l.wakeSlot w).procs i = (k.procs i).wake := by
    intro l w hl
    cases w with
    | none => exact .inl (congrFun hl i)
    | some w =>
      by_cases hi : i = w
      · subst hi
        right
        simp [Kernel.wakeSlot, hl]
      · left
        simp [Kernel.wakeSlot, Kernel.setProc_procs_of_ne, hi, hl]
  unfold Kernel.vfsClose Kernel.pipeReleaseRead Kernel.pipeReleaseWrite
  dsimp only
  rw [Kernel.setFd_procs]
  split
  · split
    · split
      · exact .inl rfl
      · exact hwake _ _ rfl
    · split
      · exact .inl rfl
      · exact hwake _ _ rfl
    · exact .inl rfl
  · exact .inl rfl

lemma exitClose_woken {j : Nat} (hcont : s.cont = .exitClose j) (hs : stepThread s c = some t)
    (i : Nat) : t.k.procs i = s.k.procs i ∨ t.k.procs i = (s.k.procs i).wake := by
  rw [stepThread, hcont] at hs
  cases hs
  split
  · show (if _ then _ else _ : Kernel).procs i = _ ∨ (if _ then _ else _ : Kernel).procs i = _
    split
    · exact vfsClose_woken s.k c j i
    · exact .inl rfl
  · exact .inl rfl

lemma calm_seed (h : Calm s) (hinv : Inv s) (hc : s.k.current = some c)
    (hcont : s.cont = .seedStdin b ∨ s.cont = .seedStdout b) (hs : stepThread s c = some t) :
    Calm t := by
  obtain ⟨⟨hbd, -⟩, -, hfork, hcw⟩ := hinv.at_seed hc hcont
  rcases seed_cases hcont hs with rfl | ⟨src, n, hn, hseed⟩
  · exact h.step_goto hinv hc hcw hfork (by simp)
  have hn' : ∀ e j, n ≠ .killReady e j := by
    rcases hn with ⟨-, -, rfl⟩ | ⟨-, -, rfl⟩
    all_goals simp
  rcases hseed with ⟨-, rfl⟩ | ⟨idx, j, r, w, -, -, rfl⟩
  · exact h.step_goto hinv hc hcw hfork hn'
  · have hstep := h.step_slot (n := n) (x := { s.k.procs b.slot with
        stdinRedirect := r, stdoutRedirect := w }) hinv hc (fun hl => ⟨hl, rfl⟩)
      (.inr (.inl ⟨hbd.ne, rfl⟩)) (.inl hcw) (fun b hb => absurd hb (by simp [hfork b]))
      fun e j he => absurd he (hn' e j)
    have hprocs : ((s.seeded c b j idx r w).goto n).k.procs = ((s.setProc b.slot
        { s.k.procs b.slot with stdinRedirect := r, stdoutRedirect := w }).goto n).k.procs := by
      simp [Sys.seeded, Sys.setProc, Sys.goto, Kernel.setProc]
    refine hstep.of_same (fun i => ?_) (fun i => ?_) (fun i => ?_) rfl rfl ?_
    · rw [hprocs]
      exact id
    · rw [hprocs]
    · rw [hprocs]
    · simp [Sys.seeded, Sys.goto, Sys.setProc, Kernel.setProc]

lemma calm_stepThread (h : Calm s) (hinv : Inv s) (hc : s.k.current = some c)
    (hs : stepThread s c = some t) : Calm t := by
  have hat := hinv.at_cur hc
  obtain ⟨hclt, hcrun, hthread⟩ := hinv.cur c hc
  -- a step of the thread that builds `b` on the slot of `b`
  have hbuild : ∀ {b : Build} (m : Cont) (x : Proc), b ∈ s.cont.building →
      (∀ b', s.cont ≠ .forkFill b' ∧ s.cont ≠ .forkWait b') → (∀ p, s.cont ≠ .waitClear p) →
      (∀ e j, m ≠ .killReady e j) → x.pid = (s.k.procs b.slot).pid →
      x.waitingForPid = (s.k.procs b.slot).waitingForPid →
        Calm ((s.setProc b.slot x).goto m) := by
    intro b m x hb hfork hcw hm hp hw
    have hbd := (hinv.at_cur hc).building hb
    exact h.step_slot hinv hc (fun _ => ⟨by simp [hbd.state], hp⟩) (.inr (.inl ⟨hbd.ne, hw⟩))
      (.inl hcw) (fun b' hb' => absurd hb' (by simp [hfork b'])) fun e j he => absurd he (hm e j)
  have hgoto : ∀ m : Cont, (∀ p, s.cont ≠ .waitClear p) →
      (∀ b, s.cont ≠ .forkFill b ∧ s.cont ≠ .forkWait b) → (∀ e j, m ≠ .killReady e j) →
        Calm (s.goto m) := fun m hcw hfork hm => h.step_goto hinv hc hcw hfork hm
  have hstep := hs
  unfold stepThread at hs
  cases hcont : s.cont
  all_goals rw [hcont] at hs hat hgoto hbuild
  case user => simp at hs
  case spawnEsp | spawnCr3 | spawnRedirects | makeReadySet | forkUnused | forkCr3 | forkEsp
      | forkReady =>
    cases hs
    exact hbuild _ _ rfl (by simp) (by simp) (by simp) rfl rfl
  case spawnPublish b =>
    cases hs
    split
    · exact hgoto _ (by simp) (by simp) (by simp)
    · exact hbuild _ _ rfl (by simp) (by simp) (by simp) rfl rfl
  case seedStdin => exact calm_seed h hinv hc (.inl hcont) hstep
  case seedStdout => exact calm_seed h hinv hc (.inr hcont) hstep
  case makeReadyTest b =>
    cases hs
    rw [if_pos hat.1.state]
    exact hgoto _ (by simp) (by simp) (by simp)
  case readPid b =>
    cases hs
    exact (hgoto .user (by simp) (by simp) (by simp)).of_same (fun _ => id) (fun _ => rfl)
      (fun _ => rfl) rfl rfl rfl
  case forkFill b =>
    cases hs
    refine h.step_slot hinv hc (fun hl => ⟨hl, rfl⟩) (.inr (.inl ⟨Building.ne hat, rfl⟩))
      (.inl (by simp [hcont])) (fun b' hb' => ?_) (by simp)
    rw [hcont] at hb'
    exact .inl (by simpa [eq_comm] using hb')
  case forkWait b =>
    cases hs
    refine h.step_slot hinv hc (fun hl => ⟨hl, rfl⟩) (.inl rfl) (.inl (by simp [hcont]))
      (fun b' hb' => ?_) (by simp)
    rw [hcont] at hb'
    exact .inr ⟨by simp_all, rfl⟩
  case forkCopy b =>
    cases hs
    split
    · exact hgoto _ (by simp) (by simp) (by simp)
    · exact hgoto _ (by simp) (by simp) (by simp)
  case forkPid b =>
    cases hs
    exact h.step_slot hinv hc (fun hl => absurd hat.2.2 hl) (.inr (.inl ⟨hat.2.1, rfl⟩))
      (.inl (by simp [hcont])) (by simp [hcont]) (by simp)
  case forkRow b j =>
    cases hs
    split
    · refine (hgoto (.forkRow b (j + 1)) (by simp) (by simp) (by simp)).of_same (fun i => ?_)
        (fun i => ?_) (fun i => ?_) rfl rfl ?_
      all_goals simp
    · exact hgoto _ (by simp) (by simp) (by simp)
  case exitClose j =>
    cases hs
    split
    · have hp : ∀ i, (if (s.k.fdTable c j).used then s.k.vfsClose c j else s.k).procs i =
          s.k.procs i ∨ (if (s.k.fdTable c j).used then s.k.vfsClose c j else s.k).procs i =
            (s.k.procs i).wake := by
        intro i
        split
        · exact vfsClose_woken s.k c j i
        · exact .inl rfl
      refine (hgoto (.exitClose (j + 1)) (by simp) (by simp) (by simp)).of_same (fun i hl => ?_)
        (fun i => ?_) (fun i => ?_) rfl rfl ?_
      · rcases hp i with heq | heq
        · simpa only [goto_k, heq] using hl
        · simp only [goto_k, heq] at hl
          exact mt (Proc.wake_unused _).mpr hl
      · rcases hp i with heq | heq <;> simp [heq]
      · rcases hp i with heq | heq <;> simp [heq, Proc.wake_waitingForPid]
      · show (if _ then _ else _ : Kernel).current = s.k.current
        split
        · exact Kernel.vfsClose_current _ _ _
        · rfl
    · exact hgoto _ (by simp) (by simp) (by simp)
  case exitEnd =>
    cases hs
    have hf := frame_stepThread hinv hc (by simp [hcont]) (t := { s with
      k := { s.k.processExit c with current := none } }) (by rw [stepThread, hcont])
    have hcu : ((s.k.processExit c).procs c).state = .unused :=
      (Kernel.processExit_unused s.k c c).mpr (.inr rfl)
    refine ⟨fun k hk hkl hkw => .inl ?_, fun q hq hql e j hqn => ?_⟩
    · obtain ⟨hl, hp⟩ := hf.kept k hk hkl
      have hkc : k ≠ c := by
        rintro rfl
        exact hkl hcu
      rw [hp]
      have hkw' : (s.k.procs k).waitingForPid ≠ 0 := by
        dsimp only at hkw
        rw [Kernel.processExit_procs_of_ne (hinv.live hc) hk hkc, Proc.wakeFor] at hkw
        split at hkw
        · exact absurd rfl hkw
        · exact hkw
      rcases h.waits k hk hl hkw' with hwc | ⟨b, hb, -⟩
      · exact hwc
      · simp [hcont] at hb
    · obtain ⟨hl, hp⟩ := hf.kept q hq hql
      have hqc : q ≠ c := by
        rintro rfl
        exact hql hcu
      have hcq : s.k.current ≠ some q := fun he => hqc (Option.some.inj (he.symm.trans hc))
      rw [hp] at hqn
      exact absurd (by rw [hqn]; trivial) (hinv.others q hq hl hcq)
  case killScan | killTest | killRead | killWake =>
    cases hs
    refine hgoto _ (by simp) (by simp) fun e j => ?_
    repeat' split
    all_goals simp
  case killUnused i e =>
    cases hs
    refine h.step_slot hinv hc (fun hl => absurd rfl hl) ?_ (.inl (by simp [hcont]))
      (by simp [hcont]) (by simp)
    by_cases hic : i = c
    · left
      rw [hic]
      exact h.cur hinv hc (by simp [hcont])
    · exact .inr (.inl ⟨hic, rfl⟩)
  case killPid i e =>
    cases hs
    exact h.step_slot hinv hc (fun hl => absurd hat.2.2.2 hl) (.inr (.inl ⟨hat.2.2.1, rfl⟩))
      (.inl (by simp [hcont])) (by simp [hcont]) (by simp)
  case killWaiting e j =>
    obtain ⟨he, hj, hb, hw⟩ := hat
    have hjl : (s.k.procs j).state ≠ .unused := by simp [hb]
    have hjc : j ≠ c := by
      rintro rfl
      rw [hcrun] at hb
      simp at hb
    cases hs
    refine h.step_slot hinv hc (fun hl => ⟨hl, rfl⟩) (.inl rfl) (.inl (by simp [hcont]))
      (by simp [hcont]) fun e' j' hn => ?_
    obtain ⟨-, rfl⟩ := Cont.killReady.inj hn
    refine ⟨hjc, fun _ => rfl, hj, hjl, ?_⟩
    rcases h.waits j hj hjl (by rw [hw]; exact he) with hwc | ⟨b, hb', -⟩
    · exact hwc
    · simp [hcont] at hb'
  case killReady e j =>
    have hjc : j ≠ c := by
      rintro rfl
      exact absurd hat.2.2.1 (by simp [hcrun])
    cases hs
    exact h.step_slot hinv hc (fun _ => ⟨by simp [hat.2.2.1], rfl⟩) (.inr (.inl ⟨hjc, rfl⟩))
      (.inl (by simp [hcont])) (by simp [hcont]) (by simp)
  case waitCheck pid =>
    cases hs
    split
    · have hslot := h.step_slot (n := .waitClear pid) (x := { s.k.procs c with
        waitingForPid := pid, state := .blocked, esp := s.thread }) hinv hc
        (fun _ => ⟨hinv.live hc, rfl⟩) (.inr (.inr ⟨rfl, pid, rfl⟩)) (.inr rfl) (by simp [hcont])
        (by simp)
      exact hslot.of_kept (fun _ => id) (fun _ => rfl) (fun _ => rfl) rfl
        fun b hb => by simp [goto_cont] at hb
    · exact hgoto _ (by simp) (by simp) (by simp)
  case waitClear pid =>
    cases hs
    exact h.step_slot hinv hc (fun hl => ⟨hl, rfl⟩) (.inl rfl) (.inr rfl) (by simp [hcont])
      (by simp)

lemma Calm.claim (h : Calm s) (hinv : Inv s) (hn : Claimed s t slot)
    (hw : (t.k.procs slot).waitingForPid ≠ 0 →
      ∃ b, t.cont = .forkFill b ∧ b.slot = slot ∧ s.k.current ≠ none)
    (huser : ∀ c, s.k.current = some c → s.cont = .user)
    (hnew : ∀ c, s.k.current = some c → ∀ e j, t.cont ≠ .killReady e j) : Calm t := by
  have hconts : ∀ q < processMax, (s.k.procs q).state ≠ .unused → s.k.current ≠ some q →
      t.conts (s.k.procs q).pid = s.conts (s.k.procs q).pid := fun q hq => hn.conts_eq hinv hq
  refine ⟨fun k hk hkl hkw => ?_, fun q hq hql e j hqn => ?_⟩
  · by_cases hks : k = slot
    · subst hks
      obtain ⟨b, hb, hbk, hcur⟩ := hw hkw
      exact .inr ⟨b, .inl hb, hbk, by rw [hn.current]; exact hcur⟩
    · rw [hn.procs k hks] at hkl hkw ⊢
      have hkc : s.k.current ≠ some k := by
        intro hc
        exact hkw (h.cur hinv hc (by simp [huser k hc]))
      rw [hconts k hk hkl hkc]
      rcases h.waits k hk hkl hkw with hwc | ⟨b, hb, -, hcur⟩
      · exact .inl hwc
      · obtain ⟨c, hc⟩ := Option.ne_none_iff_exists'.mp hcur
        simp [huser c hc] at hb
  · by_cases hqs : q = slot
    · rw [hqs, hn.pid, hn.newCont] at hqn
      simp at hqn
    · rw [hn.procs q hqs] at hql hqn
      by_cases hqc : s.k.current = some q
      · rw [← hinv.thread_eq hqc, ← hn.thread] at hqn
        exact absurd hqn (hnew q hqc e j)
      · rw [hconts q hq hql hqc] at hqn
        exact absurd (by rw [hqn]; trivial) (hinv.others q hq hql hqc)

lemma calm_call {a : Act} (h : Calm s) (hinv : Inv s) (hc : s.k.current = some c)
    (hok : Careful s a) (huser : s.cont = .user) (hs : call s c a = some t) : Calm t := by
  have hgoto : ∀ m : Cont, (∀ e j, m ≠ .killReady e j) → Calm (s.goto m) := fun m hm =>
    h.step_goto hinv hc (by simp [huser]) (by simp [huser]) hm
  rcases call_cases hs with rfl | ⟨b, x, row, n, hcl, rfl⟩ | ⟨n, hn, rfl⟩ | ⟨j, fd, rfl⟩
  · exact h
  · have hcont : (s.claim b x row n).cont = n := goto_cont _ _
    refine h.claim hinv (hcl.claimed hinv hc hok) (fun hw => ?_) (fun _ _ => huser) fun e j => ?_
    · have hw' : x.waitingForPid ≠ 0 := by simpa [Sys.claim, Sys.openBooks] using hw
      exact ⟨b, hcont.trans (hcl.waiting hw'), rfl, by simp [hc]⟩
    · intro e j
      rw [hcont]
      rcases hcl.point with ⟨-, rfl, -⟩ | ⟨-, rfl, -⟩
      all_goals simp
  · rcases hn with rfl | ⟨pid, rfl⟩ | ⟨pid, rfl⟩
    all_goals exact hgoto _ (by simp)
  · exact h.of_same (fun _ => id) (fun _ => rfl) (fun _ => rfl) rfl rfl rfl

/-- **One step of a careful run keeps the table calm.** -/
lemma calm_step {a : Act} (h : Calm s) (hinv : Inv s) (hok : Careful s a)
    (hs : step s a = some t) : Calm t := by
  obtain ⟨c, hc, rfl, hst⟩ | ⟨c, hc, rfl, hrun, rfl⟩ | ⟨j, hc, rfl, hj, hready, rfl⟩ |
    ⟨dir, slot, k, hc, rfl, hk, rfl⟩ | ⟨c, hc, hu, hst⟩ |
    ⟨j, rfl, rfl⟩ := step_cases hs
  · exact calm_stepThread h hinv hc hst
  · refine h.of_kept (s.k.setProc_live (hinv.live hc)) (s.k.setProc_same (·.pid) rfl)
      (s.k.setProc_same (·.waitingForPid) rfl) rfl fun b hb _ => ?_
    -- a stale value keeps the timer away
    by_contra! h0
    rcases hb with hb | hb
    all_goals
      rw [Careful, hb] at hok
      exact hok h0.1
  · exact h.of_kept (s.k.setProc_live (by simp [hready])) (s.k.setProc_same (·.pid) rfl)
      (s.k.setProc_same (·.waitingForPid) rfl) rfl fun _ _ hcur => absurd hc hcur
  · have hnone : ∀ d, s.k.current ≠ some d := fun d => by simp [hc]
    refine h.claim hinv (claimed_spawn hc hok _ hk) (fun hw => absurd ?_ hw)
      (fun d hd => absurd hd (hnone d)) fun d hd => absurd hd (hnone d)
    obtain ⟨⟨slot', u⟩, hu, hpair⟩ := Option.map_eq_some_iff.mp hk
    obtain ⟨-, -, rfl⟩ := Kernel.spawnClaim_some hu
    obtain ⟨rfl, rfl⟩ := Prod.mk.inj hpair
    simp [Sys.openBooks, Kernel.setProc]
  · exact calm_call h hinv hc hok hu hst
  · exact absurd hok id

lemma calm_boot : Calm boot :=
  ⟨fun _ _ hl => absurd rfl hl, fun _ _ hl => absurd rfl hl⟩

end NullOS.Preempt
