import NullOS.Kernel.BlockingInv

/-!
# Wake-ups reach the waiter

The process in ring 3 is `RUNNING` under its own pid, and every wake-up through a registered pointer
reaches the process that registered, in that very wait.  Both fail without the conditions: a process
that kills itself goes on running in a slot that is `UNUSED`, and when a blocked process is killed
its pointer stays behind.
-/

namespace NullOS.Blocking

open Lib Preempt Vfs Ipc

variable {s t : World} {c i j slot : Nat} {w : Wait} {ptr : Ptr} {io : Io}

/-! ## Closing a descriptor -/

lemma unregisters_releaseRead (p : Pipe) : Unregisters p.releaseRead p := by
  refine ⟨.inl rfl, ?_⟩
  unfold Pipe.releaseRead
  dsimp only
  split
  · exact .inr rfl
  · exact .inl rfl

lemma unregisters_releaseWrite (p : Pipe) : Unregisters p.releaseWrite p := by
  refine ⟨?_, .inl rfl⟩
  unfold Pipe.releaseWrite
  dsimp only
  split
  · exact .inr rfl
  · exact .inl rfl

lemma Inv.releaseRead (h : Inv s) (i : Nat) :
    Inv ((s.setPipe i (s.sys.k.pipeTable i).releaseRead).wakeSlot (.pipeWrite i) (s.writeBy i)
      (s.sys.k.pipeTable i).releaseReadWakes) := by
  refine h.setPipe_wake (unregisters_releaseRead _) _ _ _ fun slot hslot => ?_
  rw [Option.mem_def, Pipe.releaseReadWakes] at hslot
  split at hslot
  case isTrue hlast =>
    refine ⟨⟨hslot, rfl⟩, ?_⟩
    rintro ptr ⟨hw, -⟩
    rw [World.setPipe, Kernel.setPipe_pipeTable_self, Pipe.releaseRead, if_pos hlast] at hw
    simp at hw
  case isFalse => simp at hslot

lemma Inv.releaseWrite (h : Inv s) (i : Nat) :
    Inv ((s.setPipe i (s.sys.k.pipeTable i).releaseWrite).wakeSlot (.pipeRead i) (s.readBy i)
      (s.sys.k.pipeTable i).releaseWriteWakes) := by
  refine h.setPipe_wake (unregisters_releaseWrite _) _ _ _ fun slot hslot => ?_
  rw [Option.mem_def, Pipe.releaseWriteWakes] at hslot
  split at hslot
  case isTrue hlast =>
    refine ⟨⟨hslot, rfl⟩, ?_⟩
    rintro ptr ⟨hw, -⟩
    rw [World.setPipe, Kernel.setPipe_pipeTable_self, Pipe.releaseWrite, if_pos hlast] at hw
    simp at hw
  case isFalse => simp at hslot

lemma Inv.close (h : Inv s) (c j : Nat) : Inv (s.close c j) := by
  obtain ⟨fd, hfd⟩ : ∃ fd, s.sys.k.fdTable c j = fd := ⟨_, rfl⟩
  have hkeep : ∀ k, k.procs = s.sys.k.procs → k.current = s.sys.k.current →
      k.nextPid = s.sys.k.nextPid → k.pipeTable = s.sys.k.pipeTable →
        Inv { s with sys := { s.sys with k } } := by
    intro k hp hc hn hpipe
    refine h.of_same ⟨hp, hc, hn, rfl, rfl, rfl, rfl⟩ rfl (fun w ptr hr => ?_) rfl
    cases w with
    | gate | irq => exact hr
    | pipeRead i | pipeWrite i =>
      obtain ⟨hw, hb⟩ := hr
      dsimp only at hw
      rw [hpipe] at hw
      exact ⟨hw, hb⟩
  rw [World.close, World.closeNote, Kernel.vfsClose, hfd]
  dsimp only
  by_cases hu : fd.used ∧ fd.first < pipeMax
  · rw [if_pos hu, if_pos hu.1]
    have hlt : ¬ pipeMax ≤ fd.first := Nat.not_le.mpr hu.2
    cases hback : fd.backend
    case pipeRead =>
      have hrel := h.releaseRead fd.first
      dsimp only
      rw [Kernel.pipeReleaseRead, if_neg hlt]
      cases hwakes : (s.sys.k.pipeTable fd.first).releaseReadWakes
      all_goals
        rw [hwakes] at hrel
        exact hrel.of_same ⟨rfl, rfl, rfl, rfl, rfl, rfl, rfl⟩ rfl
          (fun w ptr hr => by cases w <;> exact hr) rfl
    case pipeWrite =>
      have hrel := h.releaseWrite fd.first
      dsimp only
      rw [Kernel.pipeReleaseWrite, if_neg hlt]
      cases hwakes : (s.sys.k.pipeTable fd.first).releaseWriteWakes
      all_goals
        rw [hwakes] at hrel
        exact hrel.of_same ⟨rfl, rfl, rfl, rfl, rfl, rfl, rfl⟩ rfl
          (fun w ptr hr => by cases w <;> exact hr) rfl
    all_goals exact hkeep _ rfl rfl rfl rfl
  · rw [if_neg hu, List.nil_append]
    by_cases hused : fd.used
    · have hge : pipeMax ≤ fd.first := Nat.not_lt.mp fun hlt => hu ⟨hused, hlt⟩
      rw [if_pos hused]
      cases hback : fd.backend
      case pipeRead =>
        dsimp only
        rw [Kernel.pipeReleaseRead, if_pos hge]
        exact hkeep _ rfl rfl rfl rfl
      case pipeWrite =>
        dsimp only
        rw [Kernel.pipeReleaseWrite, if_pos hge]
        exact hkeep _ rfl rfl rfl rfl
      all_goals exact hkeep _ rfl rfl rfl rfl
    · rw [if_neg hused]
      exact hkeep _ rfl rfl rfl rfl

/-! ## The disk -/

lemma Inv.flags (h : Inv s) (b f : Bool) : Inv { s with ataBusy := b, irqFired := f } :=
  h.of_same ⟨rfl, rfl, rfl, rfl, rfl, rfl, rfl⟩ rfl (fun w ptr hr => by cases w <;> exact hr) rfl

lemma Inv.ataGateRelease (h : Inv s) : Inv s.ataGateRelease := by
  have hcleared : Inv { s with ataBusy := false, gateWaiters := [] } := by
    refine h.of_same ⟨rfl, rfl, rfl, rfl, rfl, rfl, rfl⟩ rfl (fun w ptr hr => ?_) rfl
    cases w with
    | gate => simp [Registered] at hr
    | irq | pipeRead | pipeWrite => exact hr
  refine hcleared.wakeAll s.gateWaiters (fun ptr hr => absurd hr (by simp [Registered]))
    fun ptr hmem _ => ?_
  obtain ⟨hlt, hw, hp⟩ := h.reg .gate ptr hmem
  exact ⟨hlt, hw, hp⟩

lemma Inv.ataIrqHandler (h : Inv s) : Inv s.ataIrqHandler := by
  rw [World.ataIrqHandler]
  split
  · exact (h.flags s.ataBusy true).of_same ⟨rfl, rfl, rfl, rfl, rfl, rfl, rfl⟩ rfl
      (fun w ptr hr => by cases w <;> exact hr) rfl
  case h_2 ptr hptr =>
    have hcleared : Inv { s with irqFired := true, irqWaiter := none } := by
      refine h.of_same ⟨rfl, rfl, rfl, rfl, rfl, rfl, rfl⟩ rfl (fun w ptr hr => ?_) rfl
      cases w with
      | irq => simp [Registered] at hr
      | gate | pipeRead | pipeWrite => exact hr
    obtain ⟨hlt, hw, hp⟩ := h.reg .irq ptr hptr
    exact hcleared.wake ⟨hlt, hw, hp⟩ fun ptr' hr => absurd hr (by simp [Registered])

lemma Inv.diskStep {good : Bool} {pc : Ata.Pc} (h : Inv s) (hc : s.sys.k.current = some c)
    (hu : s.sys.cont = .user) (hs : s.diskStep c good pc = some t) : Inv t := by
  have hgoto : ∀ io, Inv (s.goto io) := h.goto hc hu
  have hflags : ∀ io b f, Inv { s.goto io with ataBusy := b, irqFired := f } := fun io b f =>
    (hgoto io).flags b f
  cases pc
  all_goals
    simp only [World.diskStep] at hs
    cases hs
  case gateTry op =>
    split
    · refine h.leave hc hu (.disk (.gateBlocked op)) (.inl rfl) ⟨rfl, rfl, rfl, rfl, rfl, rfl, rfl⟩
        rfl (fun w ptr hr => ?_) rfl
      cases w with
      | irq | pipeRead | pipeWrite => exact .inl hr
      | gate =>
        simp only [Registered] at hr
        split at hr
        · rw [List.mem_append, List.mem_singleton] at hr
          exact hr.imp_right fun heq => ⟨heq, rfl, rfl⟩
        · exact .inl hr
    · exact hflags _ true s.irqFired
  case waitIrq cmd =>
    split
    · exact hflags _ s.ataBusy false
    · refine h.leave hc hu (.disk (.irqBlocked cmd)) (.inl rfl) ⟨rfl, rfl, rfl, rfl, rfl, rfl, rfl⟩
        rfl (fun w ptr hr => ?_) rfl
      cases w with
      | gate | pipeRead | pipeWrite => exact .inl hr
      | irq =>
        simp only [Registered, Option.some.injEq] at hr
        exact .inr ⟨hr.symm, rfl, rfl⟩
  case clearFlag | consumeFlag => exact hflags _ s.ataBusy false
  case gateRelease =>
    have hcur := wakeAll_current s.gateWaiters { s with ataBusy := false, gateWaiters := [] }
    exact h.ataGateRelease.goto (c := c) (hcur.1.trans hc) (hcur.2.trans hu) .idle
  all_goals exact hgoto _

/-! ## Steps of the process table -/

section Frame

variable (h : Inv s) (hf : Frame s.sys t.sys c) (hclt : c < processMax)
  (hcst : (s.proc c).state = .running ∨ (s.proc c).state = .ready)

include h hf hclt hcst

/-- A step that creates no process does not meet the slot of a process that is inside a blocking
call, except its own and that of its victim. -/
lemma Inv.frame_call {k : Nat} (hk : k < processMax) (hkc : k ≠ c)
    (hl : (s.proc k).state ≠ .unused) (hio : s.io (s.proc k).pid ≠ .idle)
    (hend : ∀ e, s.sys.k.current = some c → s.sys.cont = .killUnused k e →
      t.proc k = s.proc k) : t.proc k = s.proc k := by
  rcases hf.procs k hk with heq | htouch
  · exact heq
  · have hcl : (s.proc c).state ≠ .unused := by rcases hcst with h1 | h1 <;> simp [h1]
    have hu := h.call k hk hl hio
    have hnb : ¬ UnderConstruction s.sys k := by
      rintro ⟨q, hq, hql, b, hb, rfl⟩
      have hpid := ((h.sys.points q hq hql).building hb).pid
      refine hio ?_
      rw [World.proc, hpid]
      exact h.built q hq hql b hb
    cases htouch with
    | own => exact absurd rfl hkc
    | built hc hb =>
      refine absurd ⟨c, hclt, hcl, _, ?_, rfl⟩ hnb
      rw [← h.sys.thread_eq hc]
      exact hb
    | free hfree => exact absurd hfree hl
    | waiter _ h0 => exact absurd (h.waitingForPid_eq hk hl hu hnb) h0
    | @woken e _ hc hcont =>
      refine absurd ?_ (h.not_woken hu c hclt hcl e)
      rw [← h.sys.thread_eq hc]
      exact hcont
    | ended hc hcont => exact hend _ hc hcont

variable (hkill : ∀ i e, s.sys.k.current = some c → s.sys.cont = .killUnused i e →
  ∀ w, Waiting s i w → t.proc i = s.proc i)

include hkill

lemma Inv.frame_keep {k : Nat} (hk : k < processMax) (hwt : Waiting s k w) :
    t.proc k = s.proc k := by
  have hkc : k ≠ c := by
    rintro rfl
    have hb := hwt.1
    rcases hcst with h1 | h1 <;> rw [h1] at hb <;> simp at hb
  exact h.frame_call hf hclt hcst hk hkc hwt.live hwt.io_ne fun e hc hcont =>
    hkill k e hc hcont w hwt

omit h hclt hcst hkill in
lemma Inv.frame_back {k : Nat} (hio : t.io = s.io)
    (hown : s.io (s.proc c).pid = .idle ∨ (t.proc c).state ≠ .blocked)
    (hk : k < processMax) (hwt : Waiting t k w) : Waiting s k w := by
  obtain ⟨hb, hwt⟩ := hwt
  have hp : (t.proc k).pid = (s.proc k).pid :=
    (hf.kept k hk (by rw [show t.sys.k.procs k = t.proc k from rfl, hb]; simp)).2
  rw [hp, hio] at hwt
  rcases hf.blocked k hk hb with hbs | rfl
  · exact ⟨hbs, hwt⟩
  · rcases hown with hidle | hnb
    · rw [hidle] at hwt
      simp [Io.wait] at hwt
    · exact absurd hb hnb

lemma Inv.frame (hinv : Preempt.Inv t.sys) (hcalm : Calm t.sys) (hio : t.io = s.io)
    (hown : s.io (s.proc c).pid = .idle ∨
      t.sys.conts (s.proc c).pid = s.sys.conts (s.proc c).pid ∧ (t.proc c).state ≠ .blocked)
    (hreg : ∀ w ptr, Registered t w ptr → Registered s w ptr) (hw : t.wakes = s.wakes) :
    Inv t := by
  have hkept : ∀ k < processMax, (t.proc k).state ≠ .unused →
      (s.proc k).state ≠ .unused ∧ (t.proc k).pid = (s.proc k).pid := hf.kept
  have hkeep : ∀ k < processMax, ∀ w, Waiting s k w → t.proc k = s.proc k :=
    fun k hk w => h.frame_keep hf hclt hcst hkill hk
  have hback : ∀ k < processMax, ∀ w, Waiting t k w → Waiting s k w :=
    fun k hk w => Inv.frame_back hf hio (hown.imp_right And.right) hk
  refine ⟨hinv, hcalm, fun k hk hl hne => ?_, fun q hq hl b hb => ?_, fun k hk w hwt => ?_,
    fun k hk hks => ?_, fun w ptr hr => ?_, fun x hx => ?_⟩
  · obtain ⟨hls, hp⟩ := hkept k hk hl
    rw [hp, hio] at hne
    rw [hp]
    by_cases hkc : k = c
    · subst hkc
      rcases hown with hidle | ⟨hconts, -⟩
      · exact absurd hidle hne
      · rw [hconts]
        exact h.call k hk hls hne
    · rw [show t.sys.conts (s.proc k).pid = s.sys.conts (s.proc k).pid from hf.conts k hk hkc hls]
      exact h.call k hk hls hne
  · obtain ⟨hls, hp⟩ := hkept q hq hl
    rw [hp] at hb
    rw [hio]
    by_cases hqc : q = c
    · subst hqc
      exact h.built q hq hls b (hf.building b hb)
    · rw [show t.sys.conts (s.proc q).pid = s.sys.conts (s.proc q).pid from
        hf.conts q hq hqc hls] at hb
      exact h.built q hq hls b hb
  · have hws := hback k hk w hwt
    have heq : t.sys.k.procs k = s.sys.k.procs k := hkeep k hk w hws
    rw [Image, heq, hf.dirOf]
    exact h.image k hk w hws
  · have heq : t.proc k = s.proc k := hf.sleeping k hk hks
    have heq' : t.sys.k.procs k = s.sys.k.procs k := heq
    rw [heq] at hks
    have hkc : k ≠ c := by
      rintro rfl
      rcases hcst with h1 | h1 <;> rw [h1] at hks <;> simp at hks
    obtain ⟨him, hu⟩ := h.sleeping k hk hks
    rw [Image, heq', hf.dirOf, heq]
    refine ⟨him, ?_⟩
    rw [show t.sys.conts (s.proc k).pid = s.sys.conts (s.proc k).pid from
      hf.conts k hk hkc (by rw [show s.sys.k.procs k = s.proc k from rfl, hks]; simp)]
    exact hu
  · obtain ⟨hlt, hwt, hp⟩ := h.reg w ptr (hreg w ptr hr)
    have heq := hkeep _ hlt w hwt
    exact ⟨hlt, (waiting_iff heq fun _ => by rw [hio]).mpr hwt, by rw [heq]; exact hp⟩
  · rw [hw] at hx
    exact h.wakes x hx

end Frame

lemma Inv.claim (h : Inv s) (hn : Claimed s.sys t.sys slot) (hinv : Preempt.Inv t.sys)
    (hcalm : Calm t.sys) (hio : t.io = Function.update s.io s.sys.k.nextPid .idle)
    (hidle : ∀ c, s.sys.k.current = some c → s.io s.sys.thread = .idle)
    (hst : (t.proc slot).state ≠ .sleeping)
    (hb : ∀ c, s.sys.k.current = some c → ∀ b ∈ t.sys.cont.building, b.pid = s.sys.k.nextPid)
    (hreg : ∀ w ptr, Registered t w ptr → Registered s w ptr) (hw : t.wakes = s.wakes) :
    Inv t := by
  have hne : ∀ k, k ≠ slot → t.proc k = s.proc k := hn.procs
  have hiok : ∀ k < processMax, (s.proc k).state ≠ .unused →
      t.io (s.proc k).pid = s.io (s.proc k).pid := by
    intro k hk hl
    have hpid : (s.proc k).pid < s.sys.k.nextPid := hn.pid_lt h.sys hk hl
    rw [hio, Function.update_of_ne (Nat.ne_of_lt hpid)]
  have hnew : t.io (t.proc slot).pid = .idle := by
    rw [show (t.proc slot).pid = s.sys.k.nextPid from hn.pid, hio, Function.update_self]
  have hconts : ∀ k < processMax, (s.proc k).state ≠ .unused → s.sys.k.current ≠ some k →
      t.sys.conts (s.proc k).pid = s.sys.conts (s.proc k).pid := fun k hk => hn.conts_eq h.sys hk
  have hback : ∀ k < processMax, ∀ w, Waiting t k w → k ≠ slot ∧ Waiting s k w := by
    intro k hk w hwt
    have hks : k ≠ slot := by
      rintro rfl
      exact hwt.io_ne hnew
    exact ⟨hks, (waiting_iff (hne k hks) fun hbl => hiok k hk (by simp [hbl])).mp hwt⟩
  refine ⟨hinv, hcalm, fun k hk hl hne' => ?_, fun q hq hl b hb' => ?_, fun k hk w hwt => ?_,
    fun k hk hks => ?_, fun w ptr hr => ?_, fun x hx => ?_⟩
  · have hks : k ≠ slot := by
      rintro rfl
      exact hne' hnew
    rw [hne k hks] at hl hne' ⊢
    rw [hiok k hk hl] at hne'
    have hkc : s.sys.k.current ≠ some k := by
      intro hc
      refine hne' ?_
      rw [h.pid_cur hc]
      exact hidle k hc
    rw [hconts k hk hl hkc]
    exact h.call k hk hl hne'
  · have hqs : q ≠ slot := by
      rintro rfl
      rw [show (t.proc q).pid = s.sys.k.nextPid from hn.pid, hn.newCont] at hb'
      simp [Cont.building] at hb'
    rw [hne q hqs] at hl hb'
    by_cases hbn : b.pid = s.sys.k.nextPid
    · rw [hio, hbn, Function.update_self]
    · have hqc : s.sys.k.current ≠ some q := by
        intro hc
        refine hbn (hb q hc b ?_)
        rw [show (s.proc q).pid = t.sys.thread by
          rw [hn.thread]
          exact (h.sys.thread_eq hc).symm] at hb'
        exact hb'
      rw [hconts q hq hl hqc] at hb'
      rw [hio, Function.update_of_ne hbn]
      exact h.built q hq hl b hb'
  · obtain ⟨-, hws⟩ := hback k hk w hwt
    exact hn.image h.sys hk hws.live (h.image k hk w hws)
  · have hkslot : k ≠ slot := by
      rintro rfl
      exact hst hks
    rw [hne k hkslot] at hks ⊢
    have hl : (s.proc k).state ≠ .unused := by simp [hks]
    have hkc : s.sys.k.current ≠ some k := by
      intro hc
      have hrun := (h.sys.cur k hc).2.1
      rw [show s.sys.k.procs k = s.proc k from rfl, hks] at hrun
      simp at hrun
    obtain ⟨him, hu⟩ := h.sleeping k hk hks
    exact ⟨hn.image h.sys hk hl him, by rw [hconts k hk hl hkc]; exact hu⟩
  · obtain ⟨hlt, hwt, hp⟩ := h.reg w ptr (hreg w ptr hr)
    have hks : ptr.slot ≠ slot := hn.ne_of_live hwt.live
    exact ⟨hlt, (waiting_iff (hne _ hks) fun _ => hiok _ hlt hwt.live).mpr hwt,
      by rw [hne _ hks]; exact hp⟩
  · rw [hw] at hx
    exact h.wakes x hx

lemma registered_of_waiters {sys : Sys} {io' : Nat → Io} {wakes' : List Wake}
    (hw : ∀ i, (sys.k.pipeTable i).readWaiter = (s.sys.k.pipeTable i).readWaiter ∧
      (sys.k.pipeTable i).writeWaiter = (s.sys.k.pipeTable i).writeWaiter)
    (hr : Registered { s with sys, io := io', wakes := wakes' } w ptr) : Registered s w ptr := by
  cases w with
  | gate | irq => exact hr
  | pipeRead i =>
    obtain ⟨h1, h2⟩ := hr
    exact ⟨(hw i).1.symm.trans h1, h2⟩
  | pipeWrite i =>
    obtain ⟨h1, h2⟩ := hr
    exact ⟨(hw i).2.symm.trans h1, h2⟩

lemma registered_congr (hk : t.sys.k.pipeTable = s.sys.k.pipeTable)
    (hby : t.readBy = s.readBy ∧ t.writeBy = s.writeBy)
    (hdisk : t.gateWaiters = s.gateWaiters ∧ t.irqWaiter = s.irqWaiter)
    (hr : Registered t w ptr) : Registered s w ptr := by
  cases w with
  | gate =>
    rw [Registered, hdisk.1] at hr
    exact hr
  | irq =>
    rw [Registered, hdisk.2] at hr
    exact hr
  | pipeRead i =>
    obtain ⟨h1, h2⟩ := hr
    exact ⟨hk ▸ h1, hby.1 ▸ h2⟩
  | pipeWrite i =>
    obtain ⟨h1, h2⟩ := hr
    exact ⟨hk ▸ h1, hby.2 ▸ h2⟩

lemma ring3_some (h : s.ring3 = some c) :
    s.sys.k.current = some c ∧ s.sys.cont = .user ∧ s.io s.sys.thread = .idle := by
  unfold World.ring3 at h
  split at h
  case h_1 c' hc hu hio =>
    cases h
    exact ⟨hc, hu, hio⟩
  case h_2 => simp at h

lemma Inv.exitClose (h : Inv s) (hc : s.sys.k.current = some c)
    (hcont : s.sys.cont = .exitClose j) (hs : stepThread s.sys c = some t.sys)
    (hio : t.io = s.io) (hby : t.readBy = s.readBy ∧ t.writeBy = s.writeBy)
    (hdisk : t.gateWaiters = s.gateWaiters ∧ t.irqWaiter = s.irqWaiter)
    (hw : t.wakes = ((exitCloses s.sys .step).map s.closeNote).getD [] ++ s.wakes) : Inv t := by
  -- the descriptor is closed, and then the thread moves on
  have hmove : ∀ (u : World) (n : Cont), Inv u → u.sys.k.current = some c →
      u.sys.cont = .exitClose j → n = .exitClose (j + 1) ∨ n = .exitEnd →
        u.io u.sys.thread = .idle → Inv { u with sys := u.sys.goto n } := by
    intro u n hu hcu hcontu hn hidle
    have hbuild : n.building = none := by rcases hn with rfl | rfl <;> rfl
    have hat : At (u.sys.goto n) c n := by rcases hn with rfl | rfl <;> trivial
    refine hu.frame (c := c) (frame_goto hu.sys hcu (by simp [hbuild])) (hu.sys.cur c hcu).1
      (.inl (hu.sys.cur c hcu).2.1) (by simp [hcontu])
      (hu.sys.step_goto hcu (by simp [hcontu]) (by simp [hbuild]) hat)
      (hu.calm.step_goto hu.sys hcu (by simp [hcontu]) (by simp [hcontu]) ?_) rfl (.inl ?_)
      (fun w ptr hr => by cases w <;> exact hr) rfl
    · rcases hn with rfl | rfl <;> simp
    · rw [hu.pid_cur hcu]
      exact hidle
  have hidle : s.io s.sys.thread = .idle := by
    rw [← h.pid_cur hc]
    exact h.io_idle hc (by simp [hcont])
  have hsame : ∀ (u : World) r, Inv u → t.sys = { u.sys with rowOf := r } → u.io = s.io →
      u.readBy = s.readBy → u.writeBy = s.writeBy → u.gateWaiters = s.gateWaiters →
        u.irqWaiter = s.irqWaiter → t.wakes = u.wakes → Inv t := by
    intro u r hu hsys hio' hrb hwb hg hq hwk
    refine hu.of_same (by rw [hsys]; exact ⟨rfl, rfl, rfl, rfl, rfl, rfl, rfl⟩)
      (hio.trans hio'.symm) (fun w ptr hr => registered_congr (by rw [hsys]) ?_ ?_ hr) hwk
    · rw [hrb, hwb]
      exact hby
    · rw [hg, hq]
      exact hdisk
  rw [stepThread, hcont] at hs
  simp only [exitCloses, hc, hcont] at hw
  dsimp only at hs
  by_cases hj : j < fdPerProc
  · rw [if_pos hj, Option.some.injEq] at hs
    rw [if_pos hj] at hw
    by_cases hused : (s.sys.k.fdTable c j).used
    · rw [if_pos hused] at hs
      exact hsame _ _ (hmove (s.close c j) (.exitClose (j + 1)) (h.close c j)
        ((Kernel.vfsClose_current _ _ _).trans hc) hcont (.inl rfl) hidle) hs.symm rfl rfl rfl rfl
        rfl hw
    · rw [if_neg hused] at hs
      have hnote : s.closeNote (s.sys.k.fdTable c j) = [] := by simp [World.closeNote, hused]
      exact hsame _ _ (hmove s (.exitClose (j + 1)) h hc hcont (.inl rfl) hidle) hs.symm rfl rfl rfl
        rfl rfl (by simpa [hnote] using hw)
  · rw [if_neg hj, Option.some.injEq] at hs
    rw [if_neg hj] at hw
    exact hsame _ s.sys.rowOf (hmove s .exitEnd h hc hcont (.inr rfl) hidle) hs.symm rfl rfl rfl rfl
      rfl hw

/-- A step of the process table made by or on behalf of the process in slot `c`, which creates
none and closes nothing. -/
structure TableStep (s t : World) (a : Preempt.Act) (c : Nat) : Prop where
  frame : Frame s.sys t.sys c
  lt : c < processMax
  cur : (s.proc c).state = .running ∨ (s.proc c).state = .ready
  inv : Preempt.Inv t.sys
  io : t.io = s.io
  wakes : t.wakes = s.wakes
  own : s.io (s.proc c).pid = .idle ∨
    t.sys.conts (s.proc c).pid = s.sys.conts (s.proc c).pid ∧ (t.proc c).state ≠ .blocked ∧
      (t.proc c).state ≠ .unused
  kill : ∀ i e, s.sys.k.current = some c → s.sys.cont = .killUnused i e →
    a = .step ∨ (i ≠ c → t.proc i = s.proc i)

structure Creation (s t : World) (slot : Nat) : Prop where
  claimed : Claimed s.sys t.sys slot
  inv : Preempt.Inv t.sys
  io : t.io = Function.update s.io s.sys.k.nextPid .idle
  wakes : t.wakes = s.wakes
  idle : ∀ c, s.sys.k.current = some c → s.io s.sys.thread = .idle
  state : (t.proc slot).state ≠ .sleeping
  building : ∀ c, s.sys.k.current = some c →
    ∀ b ∈ t.sys.cont.building, b.pid = s.sys.k.nextPid
  pipes : t.sys.k.pipeTable = s.sys.k.pipeTable

structure Closing (s t : World) (c j : Nat) : Prop where
  cur : s.sys.k.current = some c
  cont : s.sys.cont = .exitClose j
  step : stepThread s.sys c = some t.sys
  io : t.io = s.io
  wakes : t.wakes = ((exitCloses s.sys .step).map s.closeNote).getD [] ++ s.wakes

lemma baseStep_cases {a : Preempt.Act} (h : Inv s) (hok : Careful s.sys a)
    (hs : baseStep s a = some t) :
    t = { s with sys := t.sys, io := t.io, wakes := t.wakes } ∧
      ((∃ c, TableStep s t a c) ∨ (∃ slot, Creation s t slot) ∨
        ∃ c j, a = .step ∧ Closing s t c j) := by
  unfold baseStep at hs
  split at hs
  · simp at hs
  case isFalse hring =>
    obtain ⟨sys, hstep, rfl⟩ := Option.map_eq_some_iff.mp hs
    refine ⟨rfl, ?_⟩
    have hinv : (∀ c j, a = .step → s.sys.k.current = some c → s.sys.cont ≠ .exitClose j) →
        Preempt.Inv sys := fun hno => inv_step h.sys hok
      (fun c j ha hc hcont => absurd hcont (hno c j ha hc)) hstep
    have hwakes : exitCloses s.sys a = none →
        ((exitCloses s.sys a).map s.closeNote).getD [] ++ s.wakes = s.wakes := fun hno => by
      rw [hno]
      rfl
    -- `next_pid` has moved on
    have hfresh : ∀ {slot}, Claimed s.sys sys slot →
        (if sys.k.nextPid = s.sys.k.nextPid then s.io
          else Function.update s.io s.sys.k.nextPid .idle) =
            Function.update s.io s.sys.k.nextPid .idle := by
      intro slot hn
      have hlt := h.sys.next_lt
      rw [if_neg]
      rw [hn.nextPid]
      omega
    obtain ⟨c, hc, rfl, hst⟩ | ⟨c, hc, rfl, hrun, rfl⟩ | ⟨j, hc, rfl, hj, hready, rfl⟩ |
      ⟨dir, slot, k, hc, rfl, hk, rfl⟩ | ⟨c, hc, hu, hst⟩ |
    ⟨j, rfl, rfl⟩ := step_cases hstep
    · have hcur := h.sys.cur c hc
      by_cases hclose : ∃ j, s.sys.cont = .exitClose j
      · obtain ⟨j, hcont⟩ := hclose
        have hnext : sys.k.nextPid = s.sys.k.nextPid := by
          rw [stepThread, hcont] at hst
          dsimp only at hst
          split at hst
          all_goals
            cases hst
            simp only [goto_k]
          split
          · exact Kernel.vfsClose_nextPid _ _ _
          · rfl
        exact .inr (.inr ⟨c, j, rfl, hc, hcont, hst, if_pos hnext, rfl⟩)
      · have hno : ∀ j, s.sys.cont ≠ .exitClose j := fun j hj => hclose ⟨j, hj⟩
        have hnuser : s.sys.cont ≠ .user := by
          intro hu
          rw [stepThread, hu] at hst
          simp at hst
        have hf := frame_stepThread h.sys hc hno hst
        refine .inl ⟨c, hf, hcur.1, .inl hcur.2.1, hinv fun _ j _ _ => hno j, if_pos hf.nextPid,
          hwakes ?_, .inl (h.io_idle hc hnuser), fun _ _ _ _ => .inl rfl⟩
        simp only [exitCloses, hc]
        split
        case h_1 c' j _ hj => exact absurd hj (hno j)
        case h_2 => rfl
    · exact .inl ⟨c, frame_preempt h.sys hc, (h.sys.cur c hc).1, .inl hrun, hinv (by simp),
        if_pos rfl, hwakes rfl, .inr ⟨rfl, by simp [World.proc], by simp [World.proc]⟩,
        fun i e _ _ => .inr fun hic => Kernel.setProc_procs_of_ne _ _ _ hic⟩
    · exact .inl ⟨j, frame_run hready, hj, .inr hready, hinv (by simp), if_pos rfl, hwakes rfl,
        .inr ⟨rfl, by simp [World.proc], by simp [World.proc]⟩,
        fun i e hcur => absurd hcur (by simp [hc])⟩
    · have hnone : ∀ d, s.sys.k.current ≠ some d := fun d => by simp [hc]
      have hn := claimed_spawn hc hok noFiles hk
      refine .inr (.inl ⟨slot, hn, hinv (by simp), hfresh hn, hwakes rfl,
        fun d hd => absurd hd (hnone d), ?_, fun d hd => absurd hd (hnone d),
        (Kernel.processSpawnUser_some hk).2.2.2.2.2.2.1⟩)
      obtain ⟨⟨slot', u⟩, hu, hpair⟩ := Option.map_eq_some_iff.mp hk
      obtain ⟨rfl, rfl⟩ := Prod.mk.inj hpair
      simp [World.proc, Sys.openBooks, Kernel.setProc]
    · have hcall : isCall a = true := by
        cases a with
        | step | preempt | run | tickInRun | spawn => simp [Preempt.call] at hst
        | _ => rfl
      have hidle : s.io s.sys.thread = .idle := by
        obtain ⟨d, hd⟩ := Option.ne_none_iff_exists'.mp fun hn => hring ⟨hcall, hn⟩
        exact (ring3_some hd).2.2
      have hna : a ≠ .step := by
        rintro rfl
        simp [isCall] at hcall
      have hclose : exitCloses s.sys a = none := by
        cases a with
        | step => exact absurd rfl hna
        | _ => rfl
      rcases frame_call h.sys hc hok hu hst with hf | ⟨slot, hn, hb, hbuild, hpipe⟩
      · refine .inl ⟨c, hf, (h.sys.cur c hc).1, .inl (h.sys.cur c hc).2.1,
          hinv fun _ _ ha => absurd ha hna, if_pos hf.nextPid, hwakes hclose, .inl ?_,
          fun i e _ hcont => absurd hcont (by simp [hu])⟩
        rw [h.pid_cur hc]
        exact hidle
      · refine .inr (.inl ⟨slot, hn, hinv fun _ _ ha => absurd ha hna, hfresh hn, hwakes hclose,
          fun _ _ => hidle, ?_, fun _ _ => hbuild, hpipe⟩)
        rw [show ({ s with
          sys
          io := if sys.k.nextPid = s.sys.k.nextPid then s.io
            else Function.update s.io s.sys.k.nextPid .idle
          wakes := ((exitCloses s.sys a).map s.closeNote).getD [] ++ s.wakes } : World).proc slot =
            sys.k.procs slot from rfl, hb]
        simp
    · exact absurd hok id

lemma Inv.baseStep {a : Preempt.Act} (h : Inv s) (hok : Orderly s (.base a))
    (hs : Blocking.baseStep s a = some t) : Inv t := by
  obtain ⟨hcareful, hkill⟩ := hok
  have hcalm : Calm t.sys := by
    unfold Blocking.baseStep at hs
    split at hs
    · simp at hs
    · obtain ⟨sys, hstep, rfl⟩ := Option.map_eq_some_iff.mp hs
      exact calm_step h.calm h.sys hcareful hstep
  obtain ⟨heq, ⟨c, hb⟩ | ⟨slot, hb⟩ | ⟨c, j, rfl, hb⟩⟩ := baseStep_cases h hcareful hs
  · refine h.frame hb.frame hb.lt hb.cur (fun i e hc hcont w hw => ?_) hb.inv hcalm hb.io
      (hb.own.imp_right fun hown => ⟨hown.1, hown.2.1⟩) (fun w ptr hr => ?_) hb.wakes
    · rcases hb.kill i e hc hcont with rfl | hsame
      · have hki := hkill rfl
        rw [hcont] at hki
        exact absurd hw (hki w hw.2)
      · exact hsame (h.ne_cur hc hw)
    · rw [heq] at hr
      exact registered_of_waiters hb.frame.waiters hr
  · refine h.claim hb.claimed hb.inv hcalm hb.io hb.idle hb.state hb.building (fun w ptr hr => ?_)
      hb.wakes
    rw [heq] at hr
    exact registered_of_waiters (fun i => by rw [hb.pipes]; exact ⟨rfl, rfl⟩) hr
  · refine h.exitClose hb.cur hb.cont hb.step hb.io ?_ ?_ hb.wakes
    all_goals
      rw [heq]
      exact ⟨rfl, rfl⟩

/-- **One step of an orderly run keeps the registered waiters valid.** -/
lemma Inv.step {a : Act} (h : Inv s) (hok : Orderly s a) (hs : Blocking.step s a = some t) :
    Inv t := by
  cases a with
  | base a => exact h.baseStep hok hs
  | irq =>
    cases hs
    exact h.ataIrqHandler
  | wakeSleeper i =>
    simp only [Blocking.step] at hs
    split at hs
    case isTrue hi =>
      cases hs
      refine h.ready hi.1 (.inr hi.2) ⟨rfl, rfl, rfl, rfl, rfl, rfl, rfl⟩ rfl (fun w ptr hr => ?_)
        h.wakes
      have hrs : Registered s w ptr := by cases w <;> exact hr
      refine ⟨hrs, ?_⟩
      rintro rfl
      have hb := (h.reg w ptr hrs).waiting.1
      rw [hi.2] at hb
      simp at hb
    case isFalse => simp at hs
  | go good =>
    simp only [Blocking.step, World.go] at hs
    split at hs
    case h_2 => simp at hs
    case h_1 c hc hu =>
      split at hs
      case h_1 => simp at hs
      case h_2 i len _ =>
        cases hs
        exact h.pipeReadStep hc hu i len
      case h_4 i buf written _ =>
        cases hs
        exact h.pipeWriteStep hc hu i buf written
      case h_6 pc _ => exact h.diskStep hc hu hs
      all_goals
        cases hs
        exact h.goto hc hu _
  | pipeCreate =>
    obtain ⟨c, hc, rfl⟩ := Option.map_eq_some_iff.mp hs
    split
    · exact h
    case h_2 i k hk =>
      obtain ⟨j, -, hpair⟩ := Option.map_eq_some_iff.mp hk
      obtain ⟨rfl, rfl⟩ := Prod.mk.inj hpair
      exact h.setPipe (i := j) (q := (s.sys.k.pipeTable j).create) ⟨.inr rfl, .inr rfl⟩
  | pipeRead i len =>
    obtain ⟨c, hc, rfl⟩ := Option.map_eq_some_iff.mp hs
    obtain ⟨hcur, hu, -⟩ := ring3_some hc
    split
    · exact h
    · exact h.goto hcur hu _
  | pipeWrite i buf =>
    obtain ⟨c, hc, rfl⟩ := Option.map_eq_some_iff.mp hs
    obtain ⟨hcur, hu, -⟩ := ring3_some hc
    split
    · exact h
    · exact h.goto hcur hu _
  | disk op =>
    obtain ⟨c, hc, rfl⟩ := Option.map_eq_some_iff.mp hs
    obtain ⟨hcur, hu, -⟩ := ring3_some hc
    exact h.goto hcur hu _
  | close j =>
    obtain ⟨c, hc, rfl⟩ := Option.map_eq_some_iff.mp hs
    exact h.close c j
  | sleep =>
    obtain ⟨c, hc, rfl⟩ := Option.map_eq_some_iff.mp hs
    obtain ⟨hcur, hu, hidle⟩ := ring3_some hc
    refine h.leave hcur hu .idle (.inr rfl) ⟨rfl, rfl, rfl, rfl, rfl, rfl, rfl⟩ ?_
      (fun w ptr hr => .inl (by cases w <;> exact hr)) rfl
    rw [← hidle, Function.update_eq_self]
    rfl

lemma inv_boot : Inv boot := by
  have hun : ∀ i, (boot.proc i).state = .unused := fun _ => rfl
  have hl : ∀ i, ¬ (boot.proc i).state ≠ .unused := fun i hi => hi (hun i)
  refine ⟨safe_boot.inv, calm_boot, fun i _ hi => absurd hi (hl i), fun i _ hi => absurd hi (hl i),
    fun i _ w hw => absurd hw.live (hl i), fun i _ hi => ?_, fun w ptr hr => ?_,
    fun x hx => absurd hx (by simp [boot])⟩
  · rw [hun] at hi
    simp at hi
  · cases w with
    | gate => simp [Registered, boot] at hr
    | irq => simp [Registered, boot] at hr
    | pipeRead i =>
      have hnone : (boot.sys.k.pipeTable i).readWaiter = none := rfl
      exact absurd hr.1 (by simp [hnone])
    | pipeWrite i =>
      have hnone : (boot.sys.k.pipeTable i).writeWaiter = none := rfl
      exact absurd hr.1 (by simp [hnone])

lemma inv_of_orderly (h : ReachIf step (· = boot) Orderly s) : Inv s := by
  refine h.invariant (I := Inv) (fun s hs => ?_) fun s a t hi hok hs => hi.step hok hs
  subst hs
  exact inv_boot

/-- **The process in ring 3 is `RUNNING`, under its own pid**, in every state of an orderly
run. -/
theorem runsAsItself_of_orderly (h : ReachIf step (· = boot) Orderly s) : RunsAsItself s := by
  have hinv := (inv_of_orderly h).sys
  intro c hc
  obtain ⟨hclt, hrun, hth⟩ := hinv.cur c (ring3_some hc).1
  refine ⟨hrun, hth.symm, ?_⟩
  rw [hth]
  exact (hinv.pid c hclt (by simp [hrun])).1

/-- The first process blocks on an empty pipe; the second fills it, and the first comes back with
its byte. -/
def readerWoken : List Act :=
  [.base (.spawn 0x400000), .base (.spawn 0x500000), .base (.run 0), .pipeCreate, .pipeRead 0 4,
    .go true, .base (.run 1), .pipeWrite 0 [7], .go true, .base .preempt, .base (.run 0),
    .go true, .go true]

theorem runsAsItself_readerWoken :
    ∃ s, runIf step Orderly boot readerWoken = some s ∧ s.ring3 = some 0 ∧ RunsAsItself s := by
  have hrun : (runIf step Orderly boot readerWoken).map World.ring3 = some (some 0) := by
    decide +kernel
  obtain ⟨s, hs, hring⟩ := Option.map_eq_some_iff.mp hrun
  exact ⟨s, hs, hring, runsAsItself_of_orderly (ReachIf.of_runIf (.start rfl) hs)⟩

def killsItself : List Act :=
  [.base (.spawn 0x400000), .base (.run 0), .base (.kill 1)] ++ List.replicate 22 (.base .step)

theorem runsAfterDeath : ¬ ∀ s, Reach step (· = boot) s → RunsAsItself s := by
  intro hall
  have hrun : (run step boot killsItself).map (fun s => (s.ring3, (s.proc 0).state)) =
      some (some 0, .unused) := by
    decide +kernel
  obtain ⟨s, hs, hproj⟩ := Option.map_eq_some_iff.mp hrun
  obtain ⟨hring, hstate⟩ := Prod.mk.inj hproj
  have hrunning := (hall s (Reach.of_run rfl hs) 0 hring).1
  rw [hstate] at hrunning
  exact absurd hrunning (by decide)

/-- **A blocked process is woken only for its own wait** in every orderly run. -/
theorem wokenForOwnWait_of_orderly (h : ReachIf step (· = boot) Orderly s) : WokenForOwnWait s :=
  (inv_of_orderly h).wakes

theorem wokenForOwnWait_readerWoken :
    ∃ s, runIf step Orderly boot readerWoken = some s ∧
      s.wakes = [⟨.pipeRead 0, ⟨0, 1⟩, 1, some (.pipeRead 0)⟩] ∧ WokenForOwnWait s := by
  have hrun : (runIf step Orderly boot readerWoken).map World.wakes =
      some [⟨.pipeRead 0, ⟨0, 1⟩, 1, some (.pipeRead 0)⟩] := by
    decide +kernel
  obtain ⟨s, hs, hwakes⟩ := Option.map_eq_some_iff.mp hrun
  exact ⟨s, hs, hwakes, wokenForOwnWait_of_orderly (ReachIf.of_runIf (.start rfl) hs)⟩

/-- The first process blocks on an empty pipe and is killed by the second, which then reserves
its slot for a new program; the third writes to the pipe. -/
def readerReplaced : List Act :=
  [.base (.spawn 0x400000), .base (.spawn 0x500000), .base (.spawn 0x600000), .base (.run 0),
    .pipeCreate, .pipeRead 0 4, .go true, .base (.run 1), .base (.kill 1)] ++
    List.replicate 22 (.base .step) ++
    [.base (.exec 0x700000), .base .preempt, .base (.run 2), .pipeWrite 0 [7], .go true]

theorem strangerWoken : ¬ ∀ s, Reach step (· = boot) s → WokenForOwnWait s := by
  intro hall
  have hrun : (run step boot readerReplaced).map World.wakes =
      some [⟨.pipeRead 0, ⟨0, 1⟩, 4, none⟩] := by
    decide +kernel
  obtain ⟨s, hs, hwakes⟩ := Option.map_eq_some_iff.mp hrun
  have hown := hall s (Reach.of_run rfl hs) ⟨.pipeRead 0, ⟨0, 1⟩, 4, none⟩ (by simp [hwakes])
  exact absurd hown.1 (by decide)

end NullOS.Blocking
