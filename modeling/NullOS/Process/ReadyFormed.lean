import NullOS.Process.RowInv

/-!
# A runnable slot is fully formed

`process_fork` makes the child runnable, and only then does `sys_fork` copy the descriptors: a child
of a process with an open file is runnable without it (`childWithoutFiles`).  In a careful run in
which the two rows agree when the child is published, and in which the timer stays out of the copy
loop, every runnable slot has the stack, the directory and the descriptor row that were built for
its pid.
-/

namespace NullOS.Preempt

open Lib Vfs

/-- Slot `i` is runnable only with the stack, the directory and the row built for its pid, and
waits for somebody only if that process itself said so. -/
def FullyFormed (s : Sys) : Prop :=
  ∀ i < processMax, (s.k.procs i).state = .ready ∨ (s.k.procs i).state = .running →
    (s.k.procs i).esp = (s.k.procs i).pid ∧ (s.k.procs i).cr3 = s.dirOf (s.k.procs i).pid ∧
      ((s.k.procs i).waitingForPid = 0 ∨ s.waitBy i = (s.k.procs i).pid) ∧
      SameOpen (s.k.fdTable i) (s.rowOf (s.k.procs i).pid)

def FormsFirst (s : Sys) (a : Act) : Prop := Careful s a ∧ RowsInTime s a

instance (r r' : Nat → VfsFd) : Decidable (SameOpen r r') :=
  inferInstanceAs (Decidable (∀ j < fdPerProc, _ → _))

instance (r : Nat → VfsFd) : Decidable (NoneOpen r) :=
  inferInstanceAs (Decidable (∀ j < fdPerProc, _))

instance (s : Sys) : DecidablePred (RowReady s) := by
  intro n
  induction n using Cont.casesOn
  case forkReady b => exact inferInstanceAs (Decidable (∀ c ∈ s.k.current, SameOpen _ _))
  all_goals exact .isTrue trivial

instance (s : Sys) : DecidablePred (RowsInTime s)
  | .preempt => inferInstanceAs (Decidable (s.cont.copying.isNone = true))
  | .step => inferInstanceAs (Decidable (RowReady s s.cont))
  | .exec _ | .execPipe _ _ _ | .spawn _ =>
      inferInstanceAs (Decidable (∀ slot ∈ s.k.freeSlot, NoneOpen _))
  | .fork _ _ | .exit | .kill _ | .wait _ | .ownFd _ _ | .run _ | .tickInRun _ => .isTrue trivial

instance (s : Sys) : DecidablePred (FormsFirst s) := fun _ =>
  inferInstanceAs (Decidable (_ ∧ _))

variable {s t : Sys} {c i j g slot : Nat} {b : Build} {n : Cont} {r r' : Nat → VfsFd}

lemma SameOpen.update_left {fd : VfsFd} (h : SameOpen r r')
    (hfd : j < fdPerProc → fd.used = true ∨ (r' j).used = true → fd = r' j) :
    SameOpen (Function.update r j fd) r' := by
  intro k hk hu
  by_cases hkj : k = j
  · subst hkj
    rw [Function.update_self] at hu ⊢
    exact hfd hk hu
  · rw [Function.update_of_ne hkj] at hu ⊢
    exact h k hk hu

lemma vfsClose_fdTable (k : Kernel) (slot j : Nat) :
    (k.vfsClose slot j).fdTable = Function.update k.fdTable slot
      (Function.update (k.fdTable slot) j { k.fdTable slot j with used := false }) := by
  unfold Kernel.vfsClose
  dsimp only
  split
  · split <;> simp [Kernel.setFd]
  · rfl

/-! ## Steps on descriptors -/

lemma rowInv_forkRow (hr : RowInv s) (h : Inv s) (hc : s.k.current = some c)
    (hcont : s.cont = .forkRow b j) :
    RowInv ({ s with k := s.k.copyFd b.slot j (s.k.fdTable c j) }.goto (.forkRow b (j + 1))) := by
  obtain ⟨hne, hready, hpid, hrow⟩ := hr.copying c b hc (by rw [hcont]; rfl)
  have hfd : (s.k.copyFd b.slot j (s.k.fdTable c j)).fdTable = Function.update s.k.fdTable b.slot
      (Function.update (s.k.fdTable b.slot) j (s.k.fdTable c j)) := by
    rw [Kernel.copyFd_fdTable]
    rfl
  have hprocs := Kernel.copyFd_procs s.k b.slot j (s.k.fdTable c j)
  refine hr.step_thread (k := b.slot) h hc ?_ rfl rfl (fun q _ => ?_) (fun _ => ?_)
    (fun q hq => ?_) (.inr (h.quiet_of_state (by simp [hready]))) (fun _ _ => rfl) (.inl rfl)
    (fun b' hb' => absurd hb' (by simp [hcont])) (by simp) (fun hlt _ _ => ?_) trivial
    (fun b' hb' => ?_)
  · simpa using hc
  · simp
  · simp [hready]
  · show (s.k.copyFd b.slot j (s.k.fdTable c j)).fdTable q = s.k.fdTable q
    rw [hfd, Function.update_of_ne hq]
  · have hsame := hr.rows b.slot hlt (by simp [hready]) (.inl (by simp [hready]))
    simp only [Same, goto_k, hfd, hprocs, Function.update_self] at hsame ⊢
    refine hsame.update_left fun hj' hu => ?_
    simp only [hpid, hrow] at hu ⊢
    exact hr.same_cur h hc j hj' hu
  · simp only [Cont.copying, Option.some.injEq] at hb'
    subst hb'
    exact ⟨hne, by simpa using hready, by simpa using hpid, hrow⟩

lemma RowInv.step_own {k : Kernel} {fd : VfsFd} (hr : RowInv s) (h : Inv s)
    (hc : s.k.current = some c) (hprocs : k.procs = s.k.procs) (hcur : k.current = s.k.current)
    (hfd : k.fdTable = Function.update s.k.fdTable c (Function.update (s.k.fdTable c) j fd))
    (hfork : ∀ b, s.cont ≠ .forkFill b ∧ s.cont ≠ .forkWait b)
    (hwake : ∀ e j, n ≠ .killReady e j) (hcopy : n.copying = none)
    (hat : ∀ f w, RowAt f w s.thread n) :
    RowInv ({ s with
      k
      rowOf := Function.update s.rowOf s.thread
        (Function.update (s.rowOf s.thread) j fd) }.goto n) := by
  refine hr.step_thread (k := c) h hc (hcur.trans hc) rfl rfl (fun q _ => ?_) (fun hl => ?_)
    (fun q hq => ?_) (.inr (h.quiet_of_state (by simp [(h.cur c hc).2.1])))
    (fun g hg => Function.update_of_ne hg _ _) (.inr rfl)
    (fun b' hb' => absurd hb' (by simp [hfork b'])) (fun e j hn => absurd hn (hwake e j))
    (fun _ _ _ => ?_) (hat _ _) (fun b' hb' => absurd hb' (by simp [hcopy]))
  · simp [hprocs]
  · simpa [hprocs] using hl
  · simp [hfd, hq]
  · have hsame := hr.same_cur h hc
    simp only [Same, goto_k, goto_rowOf, hfd, hprocs, ← h.thread_eq hc, Function.update_self]
    exact hsame.update j fd

/-! ## Switches -/

lemma RowInv.switch_out {x : Proc} {w : Nat → Nat} (hr : RowInv s) (h : Inv s)
    (hc : s.k.current = some c) (hpid : x.pid = (s.k.procs c).pid)
    (hfork : ∀ b, s.cont = .forkFill b ∨ s.cont = .forkWait b →
      (s.k.procs b.slot).waitingForPid = 0)
    (hcopy : n.copying = none) (hat : RowAt s.k.fdTable s.rowOf s.thread n) :
    RowInv { s.goto n with
      k := { s.k.setProc c x with current := none }
      waitBy := w } := by
  have hne := fun q (hq : q ≠ c) => Kernel.setProc_procs_of_ne s.k c x hq
  have hself := Kernel.setProc_procs_self s.k c x
  refine ⟨fun i hi hl hset => ?_, fun q hq hl => ?_, fun g b hb => ?_, by simp⟩
  · dsimp only at hl
    by_cases hic : i = c
    · subst hic
      have hsame := hr.same_cur h hc
      rw [h.thread_eq hc] at hsame
      simpa [Same, hself, hpid] using hsame
    · have hset' : Settled s i := by
        rcases hset with hb | ⟨hw, -⟩ | ⟨hn, -⟩
        · dsimp only at hb
          rw [hne i hic] at hb
          exact .inl hb
        · dsimp only at hw
          rw [hne i hic] at hw
          refine .inr (.inl ⟨hw, ?_⟩)
          rintro ⟨_, b, hb, hbi⟩
          exact hw (hbi ▸ hfork b hb)
        · exact absurd rfl hn
      rw [hne i hic] at hl
      simpa [Same, hne i hic] using hr.rows i hi hl hset'
  · dsimp only at hl ⊢
    by_cases hqc : q = c
    · subst hqc
      rw [hself, hpid, ← h.thread_eq hc, goto_conts_self]
      exact hat
    · rw [hne q hqc] at hl ⊢
      rw [goto_conts_of_ne s n (h.pid_ne hc hq hqc hl)]
      exact hr.builds q hq hl
  · dsimp only at hb
    by_cases hg : g = s.thread
    · rw [hg, goto_conts_self, hcopy] at hb
      simp at hb
    · rw [goto_conts_of_ne s n hg] at hb
      exact absurd (hr.only g b hb).2.symm hg

lemma RowInv.run (hr : RowInv s) (h : Inv s) (hc : s.k.current = none) (hj : j < processMax)
    (hready : (s.k.procs j).state = .ready) :
    RowInv { s with
      k := { s.k.setProc j { s.k.procs j with state := .running } with current := some j }
      thread := (s.k.procs j).esp } := by
  obtain ⟨him, -⟩ := h.formed j hj (.inl hready)
  have hpid := s.k.setProc_same (i := j) (x := { s.k.procs j with state := .running }) (·.pid) rfl
  have hlive : ∀ q, ((s.k.setProc j { s.k.procs j with state := .running }).procs q).state ≠
      .unused → (s.k.procs q).state ≠ .unused := s.k.setProc_live (by simp [hready])
  have hno : ∀ g b, (s.conts g).copying ≠ some b := fun g b hb => (hr.only g b hb).1 hc
  refine ⟨fun i hi hl hset => ?_, fun q hq hl => ?_, fun g b hb => absurd hb (hno g b),
    fun d b _ hb => absurd hb (hno _ b)⟩
  · have hset' : Settled s i := by
      by_cases hij : i = j
      · exact .inl (by simp [hij, hready])
      · rcases hset with hb | ⟨hw, -⟩ | ⟨-, e, he⟩
        · dsimp only at hb
          rw [Kernel.setProc_procs_of_ne _ _ _ hij] at hb
          exact .inl hb
        · dsimp only at hw
          rw [Kernel.setProc_procs_of_ne _ _ _ hij] at hw
          exact .inr (.inl ⟨hw, fun hcl => hcl.1 hc⟩)
        · -- nobody was switched out in the middle of a wake-up
          have hwin := h.others j hj (by simp [hready]) (by simp [hc])
          change s.conts (s.k.procs j).esp = _ at he
          rw [← him.1, he] at hwin
          exact absurd trivial hwin
    have hsame := hr.rows i hi (hlive i hl) hset'
    simp only [Same, hpid] at hsame ⊢
    exact hsame
  · dsimp only
    rw [hpid]
    exact hr.builds q hq (hlive q hl)

lemma RowInv.exit (hr : RowInv s) (h : Inv s) (hc : s.k.current = some c)
    (hcont : s.cont = .exitEnd) :
    RowInv { s with k := { s.k.processExit c with current := none } } := by
  have hpid := (h.pid c (h.cur c hc).1 (h.live hc)).1
  have hcu : ((s.k.processExit c).procs c).state = .unused :=
    (Kernel.processExit_unused s.k c c).mpr (.inr rfl)
  have hprocs := fun k hk hkc => Kernel.processExit_procs_of_ne (k := k) (h.live hc) hk hkc
  have hfd := (Kernel.processExit_frame s.k c).1
  refine ⟨fun i hi hl hset => ?_, fun q hq hl => ?_, fun g b hb => ?_, by simp⟩
  · have hic : i ≠ c := fun he => hl (he ▸ hcu)
    have hset' : Settled s i := by
      rcases hset with hb | ⟨hw, -⟩ | ⟨hn, -⟩
      · dsimp only at hb
        rw [hprocs i hi hic] at hb
        by_cases hblocked : (s.k.procs i).state = .blocked
        · refine .inr (.inl ⟨fun hz => hb ?_, by simp [Claiming, hcont]⟩)
          simp [Proc.wakeFor, hblocked, hz, Ne.symm hpid]
        · exact .inl hblocked
      · dsimp only at hw
        rw [hprocs i hi hic] at hw
        refine .inr (.inl ⟨fun hz => hw ?_, by simp [Claiming, hcont]⟩)
        simp [Proc.wakeFor, hz, Ne.symm hpid]
      · exact absurd rfl hn
    dsimp only at hl
    have hl' : (s.k.procs i).state ≠ .unused := fun hu =>
      hl ((Kernel.processExit_unused s.k c i).mpr (.inl hu))
    simpa [Same, hprocs i hi hic, hfd] using hr.rows i hi hl' hset'
  · dsimp only at hl ⊢
    have hqc : q ≠ c := fun he => hl (he ▸ hcu)
    have hl' : (s.k.procs q).state ≠ .unused := fun hu =>
      hl ((Kernel.processExit_unused s.k c q).mpr (.inl hu))
    simpa [hprocs q hq hqc, hfd] using hr.builds q hq hl'
  · obtain ⟨-, rfl⟩ := hr.only g b hb
    change s.cont.copying = _ at hb
    rw [hcont] at hb
    simp [Cont.copying] at hb

/-! ## Claims -/

lemma RowInv.claim (hr : RowInv s) (h : Inv s) (hn : Claimed s t slot)
    (hfd : t.k.fdTable = s.k.fdTable) (hrow : ∀ g, g ≠ s.k.nextPid → t.rowOf g = s.rowOf g)
    (huser : ∀ c, s.k.current = some c → s.cont = .user)
    (hset : Settled t slot → Same t slot)
    (hwake : ∀ c, s.k.current = some c → ∀ e j, t.cont ≠ .killReady e j)
    (hcopy : ∀ c, s.k.current = some c → t.cont.copying = none)
    (hat : ∀ c, s.k.current = some c → RowAt t.k.fdTable t.rowOf t.thread t.cont) : RowInv t := by
  have hold : ∀ q < processMax, (s.k.procs q).state ≠ .unused → (s.k.procs q).pid ≠ s.k.nextPid :=
    fun q hq hl => Nat.ne_of_lt (hn.pid_lt h hq hl)
  have hcur : ∀ g b, (t.conts g).copying ≠ some b := by
    intro g b hb
    by_cases hg : g = s.k.nextPid
    · rw [hg, hn.newCont] at hb
      simp [Cont.copying] at hb
    · cases hc : s.k.current with
      | none =>
        rw [hn.conts g hg (.inl hc)] at hb
        exact (hr.only g b hb).1 hc
      | some c =>
        by_cases hgt : g = s.thread
        · rw [hgt, ← hn.thread] at hb
          have hnone : (t.conts t.thread).copying = none := hcopy c hc
          rw [hnone] at hb
          simp at hb
        · rw [hn.conts g hg (.inr hgt)] at hb
          exact hgt (hr.only g b hb).2.symm
  refine ⟨fun i hi hl hs => ?_, fun q hq hl => ?_, fun g b hb => absurd hb (hcur g b),
    fun d b _ hb => absurd hb (hcur _ b)⟩
  · by_cases his : i = slot
    · subst his
      exact hset hs
    · rw [hn.procs i his] at hl
      have hs' : Settled s i := by
        rcases hs with hb | ⟨hw, -⟩ | ⟨hne, e, he⟩
        · rw [hn.procs i his] at hb
          exact .inl hb
        · rw [hn.procs i his] at hw
          refine .inr (.inl ⟨hw, ?_⟩)
          rintro ⟨hne, b, hb, -⟩
          obtain ⟨c, hc⟩ := Option.ne_none_iff_exists'.mp hne
          simp [huser c hc] at hb
        · rw [hn.current] at hne
          obtain ⟨c, hc⟩ := Option.ne_none_iff_exists'.mp hne
          exact absurd he (hwake c hc e i)
      rw [Same, hn.procs i his, hfd, hrow _ (hold i hi hl)]
      exact hr.rows i hi hl hs'
  · by_cases hqs : q = slot
    · rw [hqs, hn.pid, hn.newCont]
      trivial
    · rw [hn.procs q hqs] at hl ⊢
      have hne := hold q hq hl
      by_cases hqc : s.k.current = some q
      · have hat' := hat q hqc
        rw [Sys.cont, hn.thread, h.thread_eq hqc] at hat'
        exact hat'
      · rw [hn.conts_eq h hq hl hqc]
        refine (hr.builds q hq hl).congr (hrow _ hne) fun b hb => ⟨by rw [hfd], hrow _ ?_⟩
        have hbd := (h.points q hq hl).building hb
        rw [← hbd.pid]
        exact hold b.slot hbd.lt (by simp [hbd.state])

/-! ## One step -/

lemma rowInv_stepOther (hr : RowInv s) (h : Safe s) (hc : s.k.current = some c)
    (hb : s.cont.building = none) (hs : stepThread s c = some t) : RowInv t := by
  have hinv := h.inv
  have hat := hinv.at_cur hc
  have hfork : ∀ b', s.cont ≠ .forkFill b' ∧ s.cont ≠ .forkWait b' := fun b' =>
    ⟨fun he => by simp [he, Cont.building] at hb, fun he => by simp [he, Cont.building] at hb⟩
  have hfork' : ∀ {P : Build → Prop} b', s.cont = .forkFill b' ∨ s.cont = .forkWait b' → P b' :=
    fun b' he => absurd he (by simp [hfork b'])
  have hgoto : ∀ m : Cont, (∀ e j, m ≠ .killReady e j) → m.copying = none →
      RowAt s.k.fdTable s.rowOf s.thread m → RowInv (s.goto m) :=
    fun m => hr.step_goto hinv hc hfork
  obtain ⟨hclt, hcrun, -⟩ := hinv.cur c hc
  unfold stepThread at hs
  cases hcont : s.cont
  case user =>
    rw [hcont] at hs
    simp at hs
  case spawnEsp | spawnCr3 | spawnRedirects | spawnPublish | seedStdin | seedStdout
      | makeReadyTest | makeReadySet | forkFill | forkWait | forkCopy | forkUnused | forkCr3
      | forkEsp | forkReady =>
    rw [hcont] at hb
    simp [Cont.building] at hb
  all_goals rw [hcont] at hs hat
  case readPid =>
    cases hs
    obtain ⟨hrows, hbuilds, honly, hcopying⟩ := hgoto .user (by simp) rfl trivial
    exact ⟨hrows, hbuilds, honly, hcopying⟩
  case forkPid b =>
    cases hs
    exact hr.step_slot hinv hc (fun hl => absurd hat.2.2 hl) hfork' (by simp)
      (fun _ hl => absurd hat.2.2 hl) trivial (by simp [Cont.copying])
  case forkRow b j =>
    cases hs
    split
    · exact rowInv_forkRow hr hinv hc hcont
    · exact hgoto _ (by simp) rfl trivial
  case exitClose j =>
    cases hs
    split
    · refine hr.step_own hinv hc ?_ ?_ ?_ hfork (by simp) rfl (fun _ _ => trivial)
      · split
        · exact vfsClose_procs h.noWaiters c j
        · rfl
      · split
        · exact Kernel.vfsClose_current _ _ _
        · rfl
      · split
        · exact vfsClose_fdTable _ _ _
        case isFalse hu =>
          -- a closed descriptor is closed once more in the books
          have hfd : ({ s.k.fdTable c j with used := false } : VfsFd) = s.k.fdTable c j := by
            rw [Bool.not_eq_true] at hu
            rw [← hu]
          rw [hfd, Function.update_eq_self, Function.update_eq_self]
    · exact hgoto _ (by simp) rfl trivial
  case exitEnd =>
    cases hs
    exact hr.exit hinv hc hcont
  case killScan | killTest | killRead | killWake =>
    cases hs
    repeat' split
    all_goals exact hgoto _ (by simp) rfl trivial
  case killUnused i e =>
    cases hs
    exact hr.step_slot hinv hc (fun hl => absurd rfl hl) hfork' (by simp)
      (fun _ hl => absurd rfl hl) trivial (by simp [Cont.copying])
  case killPid i e =>
    cases hs
    exact hr.step_slot hinv hc (fun hl => absurd hat.2.2.2 hl) hfork' (by simp)
      (fun _ hl => absurd hat.2.2.2 hl) trivial (by simp [Cont.copying])
  case killWaiting e j =>
    -- a process that waits has run
    obtain ⟨he, hj, hblocked, hw⟩ := hat
    have hset : Settled s j := .inr (.inl ⟨by rw [hw]; exact he, by simp [Claiming, hcont]⟩)
    cases hs
    refine hr.step_slot hinv hc (fun hl => ⟨hl, rfl⟩) hfork' (fun e' j' hn => ?_)
      (fun hlt hl _ => hr.rows j hlt hl hset) trivial (by simp [Cont.copying])
    exact (Cont.killReady.inj hn).2.symm
  case killReady e j =>
    obtain ⟨he, hj, hblocked, -⟩ := hat
    have hset : Settled s j := .inr (.inr ⟨by simp [hc], e, hcont⟩)
    cases hs
    exact hr.step_slot hinv hc (fun _ => ⟨by simp [hblocked], rfl⟩) hfork' (by simp)
      (fun hlt _ _ => hr.rows j hlt (by simp [hblocked]) hset) trivial (by simp [Cont.copying])
  case waitCheck pid =>
    cases hs
    split
    · exact hr.switch_out hinv hc rfl hfork' rfl trivial
    · exact hgoto _ (by simp) rfl trivial
  case waitClear pid =>
    cases hs
    exact hr.step_slot hinv hc (fun hl => ⟨hl, rfl⟩) hfork' (by simp)
      (fun hlt hl _ => hr.rows c hlt hl (.inl (by simp [hcrun]))) trivial
      (by simp [Cont.copying])

lemma RowInv.redirect {fd idx : Nat} (hr : RowInv s) (h : Inv s)
    (hc : s.k.current = some c) (hsrc : s.k.redirectSrc c fd = some (some idx)) :
    idx < fdPerProc ∧ (s.rowOf s.thread idx).used = true := by
  unfold Kernel.redirectSrc at hsrc
  split_ifs at hsrc with hnone
  · simp at hsrc
  · obtain ⟨k, hk, hidx⟩ := Option.map_eq_some_iff.mp hsrc
    rw [Option.some.injEq] at hidx
    subst hidx
    obtain ⟨hlt, hu⟩ := Kernel.userFd_some hk
    refine ⟨hlt, ?_⟩
    rw [← hr.same_cur h hc k hlt (.inl hu)]
    exact hu

/-- The thread that has claimed a slot knows how the row that it will form compares with the one
that is due. -/
lemma RowInv.claim_at {a : Act} {x : Proc} {row : Nat → VfsFd} {w : Nat → Nat → VfsFd}
    (hr : RowInv s) (h : Inv s) (hc : s.k.current = some c) (hcl : Claim s c a b x row n)
    (hrows : RowsInTime s a) (hw : w s.thread = s.rowOf s.thread) (hwb : w b.pid = row) :
    RowAt s.k.fdTable w s.thread n := by
  rcases hcl.point with ⟨ha, rfl, -, hrow, hin, hout, hplain⟩ | ⟨-, rfl, -, hrow⟩
  · have hnone : NoneOpen (s.k.fdTable b.slot) := by
      cases a with
      | exec | execPipe => exact hrows b.slot hcl.free
      | _ => simp [Act.Spawns] at ha
    refine ⟨⟨fun idx hidx => ?_, fun idx hidx => ?_, hplain⟩, ?_⟩
    · rw [hw]
      exact hr.redirect h hc (hin idx hidx).choose_spec
    · rw [hw]
      exact hr.redirect h hc (hout idx hidx).choose_spec
    · rw [hwb, hrow, hw]
      exact (hnone.same.placeFd _).placeFd _
  · show w b.pid = w s.thread
    rw [hwb, hrow, hw]

lemma RowInv.claim_goto {a : Act} {x : Proc} {row : Nat → VfsFd} (hr : RowInv s) (h : Inv s)
    (hc : s.k.current = some c) (huser : s.cont = .user) (hcl : Claim s c a b x row n)
    (hok : Careful s a) (hrows : RowsInTime s a) : RowInv (s.claim b x row n) := by
  have hthread := h.thread_ne_nextPid hc (hok.next hcl.acts)
  have hcont : (s.claim b x row n).cont = n := goto_cont _ _
  have hself : (s.claim b x row n).k.procs b.slot = x := by simp [Sys.claim, Sys.openBooks]
  have hn : (∀ e j, n ≠ .killReady e j) ∧ n.copying = none := by
    rcases hcl.point with ⟨-, rfl, -⟩ | ⟨-, rfl, -⟩
    all_goals exact ⟨by simp, rfl⟩
  refine hr.claim h (hcl.claimed h hc hok) rfl (fun g hg => ?_) (fun _ _ => huser) (fun hset => ?_)
    (fun _ _ => by rw [hcont]; exact hn.1) (fun _ _ => by rw [hcont]; exact hn.2) (fun _ _ => ?_)
  · simp [Sys.claim, Sys.openBooks, Sys.goto, hcl.pid, hg]
  · rcases hset with hset | ⟨hset, hno⟩ | ⟨-, e, he⟩
    · exact absurd (by rw [hself, hcl.state]) hset
    · rw [hself] at hset
      exact absurd ⟨by simp [Sys.claim, Sys.openBooks, hc], b,
        .inl (hcont.trans (hcl.waiting hset)), rfl⟩ hno
    · exact absurd (hcont.symm.trans he) (hn.1 e _)
  · rw [hcont]
    refine hr.claim_at h hc hcl hrows ?_ ?_
    · simp [Sys.claim, Sys.openBooks, Sys.goto, hcl.pid, hthread]
    · simp [Sys.claim, Sys.openBooks, Sys.goto, hcl.pid, hcl.buildPid]

lemma rowInv_call {a : Act} (hr : RowInv s) (h : Inv s) (hc : s.k.current = some c)
    (hok : Careful s a) (hrows : RowsInTime s a) (huser : s.cont = .user)
    (hs : call s c a = some t) : RowInv t := by
  have hgoto : ∀ m : Cont, (∀ e j, m ≠ .killReady e j) → m.copying = none →
      RowAt s.k.fdTable s.rowOf s.thread m → RowInv (s.goto m) :=
    fun m => hr.step_goto h hc (fun b' => by simp [huser])
  rcases call_cases hs with rfl | ⟨b, x, row, n, hcl, rfl⟩ | ⟨n, hn, rfl⟩ | ⟨j, fd, rfl⟩
  · exact hr
  · exact hr.claim_goto h hc huser hcl hok hrows
  · rcases hn with rfl | ⟨pid, rfl⟩ | ⟨pid, rfl⟩
    all_goals exact hgoto _ (by simp) rfl trivial
  · have hfd : (s.k.setFd c j fd).fdTable =
        Function.update s.k.fdTable c (Function.update (s.k.fdTable c) j fd) := rfl
    have hown := hr.step_own (n := .user) (k := s.k.setFd c j fd) h hc rfl rfl hfd
      (fun b' => by simp [huser]) (by simp) rfl (fun _ _ => trivial)
    rwa [Sys.goto, ← huser, Sys.cont, Function.update_eq_self] at hown

/-- **One step of a run that forms processes first keeps the rows in order.** -/
lemma rowInv_step {a : Act} (hr : RowInv s) (h : Safe s) (hok : FormsFirst s a)
    (hs : step s a = some t) : RowInv t := by
  obtain ⟨hcareful, hrows⟩ := hok
  obtain ⟨c, hc, rfl, hst⟩ | ⟨c, hc, rfl, hrun, rfl⟩ | ⟨j, hc, rfl, hj, hready, rfl⟩ |
    ⟨dir, slot, k, hc, rfl, hk, rfl⟩ | ⟨c, hc, hu, hst⟩ |
    ⟨j, rfl, rfl⟩ := step_cases hs
  · cases hb : s.cont.building with
    | none => exact rowInv_stepOther hr h hc hb hst
    | some b => exact rowInv_stepBuild hr h.inv hc hrows hb hst
  · have hat := hr.builds c (h.inv.cur c hc).1 (h.inv.live hc)
    rw [← h.inv.thread_eq hc] at hat
    have hout := hr.switch_out (n := s.cont) (w := s.waitBy) (x := { s.k.procs c with
        state := .ready, esp := s.thread }) h.inv hc rfl (fun b hb => ?_)
      (Option.isNone_iff_eq_none.mp hrows) hat
    · simpa only [Sys.goto, Sys.cont, Function.update_eq_self] using hout
    · rcases hb with hb | hb
      all_goals
        simp only [Careful, hb, Cont.Window, not_not] at hcareful
        exact hcareful
  · exact hr.run h.inv hc hj hready
  · have hnone : ∀ d, s.k.current ≠ some d := fun d => by simp [hc]
    have hfd := (Kernel.processSpawnUser_some hk).2.2.2.2.2.1
    refine hr.claim h.inv (claimed_spawn hc hcareful _ hk) hfd (fun g hg => ?_)
      (fun d hd => absurd hd (hnone d)) (fun _ => ?_) (fun d hd => absurd hd (hnone d))
      (fun d hd => absurd hd (hnone d)) (fun d hd => absurd hd (hnone d))
    · have hpid := (claimed_spawn hc hcareful noFiles hk).pid
      rw [← hpid] at hg
      exact Function.update_of_ne hg _ _
    · simp only [Same, Sys.openBooks, Function.update_self, hfd]
      exact (hrows slot (Kernel.freeSlot_of_processSpawnUser hk)).same
  · exact rowInv_call hr h.inv hc hcareful hrows hu hst
  · exact absurd hcareful id

lemma rowInv_boot : RowInv boot :=
  ⟨fun _ _ hl => absurd rfl hl, fun _ _ hl => absurd rfl hl,
    fun _ _ hb => absurd hb (by simp [boot, Cont.copying]), by simp [boot, Kernel.boot]⟩

/-- **A runnable slot is fully formed** in every state of a run that forms processes first. -/
theorem fullyFormed_of_formsFirst (h : ReachIf step (· = boot) FormsFirst s) : FullyFormed s := by
  obtain ⟨hsafe, hrow⟩ : Safe s ∧ RowInv s := by
    refine h.invariant (I := fun s => Safe s ∧ RowInv s) (fun s hs => ?_)
      fun s a t hi hok hs => ?_
    · subst hs
      exact ⟨safe_boot, rowInv_boot⟩
    · exact ⟨safe_step hi.1 hok.1 hs, rowInv_step hi.2 hi.1 hok hs⟩
  intro i hi hst
  obtain ⟨⟨hesp, hcr3⟩, hwait⟩ := hsafe.inv.formed i hi hst
  refine ⟨hesp, hcr3, hwait, hrow.rows i hi ?_ (.inl ?_)⟩
  all_goals rcases hst with hst | hst <;> simp [hst]

def openFile : VfsFd := { (default : VfsFd) with used := true, backend := .fat16, first := 5 }

/-- The first process forks while it has no open file, opens one, and starts a third process
that reads from it; all three have run. -/
def forkThenPipe : List Act :=
  [.spawn 0x400000, .run 0, .fork 0x500000 false] ++ List.replicate 16 .step ++
    [.ownFd 0 openFile, .execPipe 0x600000 3 0xFFFFFFFF] ++ List.replicate 9 .step ++
    [.preempt, .run 1, .preempt, .run 2]

theorem fullyFormed_forkThenPipe :
    ∃ s, runIf step FormsFirst boot forkThenPipe = some s ∧ s.k.current = some 2 ∧
      (s.k.fdTable 2 0).first = 5 ∧ FullyFormed s := by
  have hrun : (runIf step FormsFirst boot forkThenPipe).map
      (fun s => (s.k.current, (s.k.fdTable 2 0).first)) = some (some 2, 5) := by
    decide +kernel
  obtain ⟨s, hs, hproj⟩ := Option.map_eq_some_iff.mp hrun
  obtain ⟨hcur, hfirst⟩ := Prod.mk.inj hproj
  exact ⟨s, hs, hcur, hfirst, fullyFormed_of_formsFirst (ReachIf.of_runIf (.start rfl) hs)⟩

/-- A process with an open file forks; the timer fires right after the child is published, and
the child runs. -/
def forkWithFile : List Act :=
  [.spawn 0x400000, .run 0, .ownFd 0 openFile, .fork 0x500000 false] ++ List.replicate 6 .step ++
    [.preempt, .run 1]

theorem childWithoutFiles : ¬ ∀ s, Reach step (· = boot) s → FullyFormed s := by
  intro hall
  have hrun : (run step boot forkWithFile).map (fun s => ((s.k.procs 1).state,
      (s.k.fdTable 1 0).used, (s.rowOf (s.k.procs 1).pid 0).used)) =
        some (.running, false, true) := by
    decide +kernel
  obtain ⟨s, hs, hproj⟩ := Option.map_eq_some_iff.mp hrun
  simp only [Prod.mk.injEq] at hproj
  obtain ⟨hstate, hfree, hused⟩ := hproj
  have hsame := (hall s (Reach.of_run rfl hs) 1 (by decide) (.inr hstate)).2.2.2
  have heq := hsame 0 (by decide) (.inr hused)
  rw [heq, hused] at hfree
  exact absurd hfree (by decide)

end NullOS.Preempt
