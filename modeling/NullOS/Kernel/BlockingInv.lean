import NullOS.Kernel.Blocking

/-!
# Registered waiters

Every registered pointer names a slot whose occupant stored it and is blocked in that very wait.
This survives every step as long as the run is careful and `sys_kill` ends nobody who is blocked in
one of the waits.
-/

namespace NullOS.Blocking

open Lib Preempt Vfs Ipc

def Registered (s : World) : Wait → Ptr → Prop
  | .pipeRead i, ptr => (s.sys.k.pipeTable i).readWaiter = some ptr.slot ∧ s.readBy i = ptr.pid
  | .pipeWrite i, ptr => (s.sys.k.pipeTable i).writeWaiter = some ptr.slot ∧ s.writeBy i = ptr.pid
  | .gate, ptr => ptr ∈ s.gateWaiters
  | .irq, ptr => s.irqWaiter = some ptr

/-- The process that stored the pointer occupies its slot and is in that very wait. -/
structure Valid (s : World) (w : Wait) (ptr : Ptr) : Prop where
  lt : ptr.slot < processMax
  waiting : Waiting s ptr.slot w
  pid : (s.proc ptr.slot).pid = ptr.pid

structure Inv (s : World) : Prop where
  sys : Preempt.Inv s.sys
  calm : Calm s.sys
  call : ∀ i < processMax, (s.proc i).state ≠ .unused → s.io (s.proc i).pid ≠ .idle →
    s.sys.conts (s.proc i).pid = .user
  built : ∀ q < processMax, (s.proc q).state ≠ .unused →
    ∀ b ∈ (s.sys.conts (s.proc q).pid).building, s.io b.pid = .idle
  image : ∀ i < processMax, ∀ w, Waiting s i w → Image s.sys i
  sleeping : ∀ i < processMax, (s.proc i).state = .sleeping →
    Image s.sys i ∧ s.sys.conts (s.proc i).pid = .user
  reg : ∀ w ptr, Registered s w ptr → Valid s w ptr
  wakes : WokenForOwnWait s

variable {s t : World} {c i j slot : Nat} {w : Wait} {ptr : Ptr} {io : Io}

lemma Waiting.live (h : Waiting s i w) : (s.proc i).state ≠ .unused := by simp [h.1]

lemma Waiting.io_ne (h : Waiting s i w) : s.io (s.proc i).pid ≠ .idle := by
  intro hidle
  have hw := h.2
  rw [hidle] at hw
  simp [Io.wait] at hw

lemma waiting_iff (hp : t.proc i = s.proc i)
    (hio : (s.proc i).state = .blocked → t.io (s.proc i).pid = s.io (s.proc i).pid) :
    Waiting t i w ↔ Waiting s i w := by
  simp only [Waiting, hp]
  exact and_congr_right fun hb => by rw [hio hb]

lemma Inv.ne_cur (h : Inv s) (hc : s.sys.k.current = some c) (hw : Waiting s i w) : i ≠ c := by
  rintro rfl
  have hrun := (h.sys.cur i hc).2.1
  rw [show s.sys.k.procs i = s.proc i from rfl, hw.1] at hrun
  simp at hrun

lemma Inv.not_built (h : Inv s) (hw : Waiting s i w) : ¬ UnderConstruction s.sys i := by
  rintro ⟨q, hq, hl, b, hb, rfl⟩
  have hpid := ((h.sys.points q hq hl).building hb).pid
  refine hw.io_ne ?_
  rw [World.proc, hpid]
  exact h.built q hq hl b hb

lemma Inv.waitingForPid_eq (h : Inv s) (hi : i < processMax) (hl : (s.proc i).state ≠ .unused)
    (hu : s.sys.conts (s.proc i).pid = .user) (hnc : ¬ UnderConstruction s.sys i) :
    (s.proc i).waitingForPid = 0 := by
  by_contra h0
  rcases h.calm.waits i hi hl h0 with ⟨p, hp⟩ | ⟨b, hb, hbi, hcur⟩
  · rw [show s.sys.k.procs i = s.proc i from rfl, hu] at hp
    simp at hp
  · obtain ⟨c, hc⟩ := Option.ne_none_iff_exists'.mp hcur
    refine hnc ⟨c, (h.sys.cur c hc).1, h.sys.live hc, b, ?_, hbi⟩
    rw [← h.sys.thread_eq hc, show s.sys.conts s.sys.thread = s.sys.cont from rfl]
    rcases hb with hb | hb <;> simp [hb, Cont.building]

lemma Inv.not_woken (h : Inv s) (hu : s.sys.conts (s.proc i).pid = .user) :
    ∀ p < processMax, (s.sys.k.procs p).state ≠ .unused →
      ∀ e, s.sys.conts (s.sys.k.procs p).pid ≠ .killReady e i := by
  intro p hp hl e hk
  obtain ⟨q, hq⟩ := h.calm.woken p hp hl e i hk
  rw [show s.sys.k.procs i = s.proc i from rfl, hu] at hq
  simp at hq

/-! ## Changes that the invariant does not see -/

structure SameTable (a b : Sys) : Prop where
  procs : b.k.procs = a.k.procs
  current : b.k.current = a.k.current
  nextPid : b.k.nextPid = a.k.nextPid
  thread : b.thread = a.thread
  conts : b.conts = a.conts
  dirOf : b.dirOf = a.dirOf
  waitBy : b.waitBy = a.waitBy

lemma SameTable.inv {a b : Sys} (h : SameTable a b) (ha : Preempt.Inv a) : Preempt.Inv b :=
  ha.of_eq h.procs h.current h.nextPid h.thread h.conts h.dirOf h.waitBy

lemma SameTable.calm {a b : Sys} (h : SameTable a b) (ha : Calm a) : Calm b :=
  ha.of_same (fun i => by rw [h.procs]; exact id) (fun i => by rw [h.procs])
    (fun i => by rw [h.procs]) h.conts h.thread h.current

lemma Inv.of_same (h : Inv s) (hs : SameTable s.sys t.sys) (hio : t.io = s.io)
    (hreg : ∀ w ptr, Registered t w ptr → Registered s w ptr) (hw : t.wakes = s.wakes) :
    Inv t := by
  have hproc : ∀ i, t.proc i = s.proc i := fun i => by rw [World.proc, hs.procs]; rfl
  have hwait : ∀ i w, Waiting t i w ↔ Waiting s i w := fun i w =>
    waiting_iff (hproc i) fun _ => by rw [hio]
  refine ⟨hs.inv h.sys, hs.calm h.calm, ?_, ?_, fun i hi w hwt => ?_, fun i hi hst => ?_,
    fun w ptr hr => ?_, ?_⟩
  · simpa only [hproc, hio, hs.conts] using h.call
  · simpa only [hproc, hio, hs.conts] using h.built
  · simpa only [Image, hs.procs, hs.dirOf] using h.image i hi w ((hwait i w).mp hwt)
  · rw [hproc] at hst ⊢
    rw [hs.conts]
    simpa only [Image, hs.procs, hs.dirOf] using h.sleeping i hi hst
  · obtain ⟨hlt, hv, hp⟩ := h.reg w ptr (hreg w ptr hr)
    exact ⟨hlt, (hwait _ _).mpr hv, by rw [hproc]; exact hp⟩
  · intro x hx
    rw [hw] at hx
    exact h.wakes x hx

/-! ## The current process in a blocking call -/

lemma Inv.pid_cur (h : Inv s) (hc : s.sys.k.current = some c) : (s.proc c).pid = s.sys.thread :=
  (h.sys.thread_eq hc).symm

lemma Inv.io_idle (h : Inv s) (hc : s.sys.k.current = some c) (hne : s.sys.cont ≠ .user) :
    s.io (s.proc c).pid = .idle := by
  by_contra hio
  have hu := h.call c (h.sys.cur c hc).1 (h.sys.live hc) hio
  rw [h.pid_cur hc] at hu
  exact hne hu

lemma Inv.cur_user (h : Inv s) (hc : s.sys.k.current = some c) (hu : s.sys.cont = .user) :
    s.sys.conts (s.proc c).pid = .user := by
  rw [h.pid_cur hc]
  exact hu

lemma Inv.cur_not_built (h : Inv s) (hc : s.sys.k.current = some c) :
    ¬ UnderConstruction s.sys c := by
  rintro ⟨q, hq, hl, b, hb, rfl⟩
  have hrun := (h.sys.cur _ hc).2.1
  rw [((h.sys.points q hq hl).building hb).state] at hrun
  simp at hrun

/-- A step that changes one slot, whose process is in ring 3 or in a blocking call, and where that
process is in the call. -/
lemma Inv.of_slot (h : Inv s) (hi : i < processMax) (hl : (s.proc i).state ≠ .unused)
    (hu : s.sys.conts (s.proc i).pid = .user) (hnc : ¬ UnderConstruction s.sys i)
    (hne : ∀ k, k ≠ i → t.proc k = s.proc k) (hpid : (t.proc i).pid = (s.proc i).pid)
    (hsys : Preempt.Inv t.sys) (hcalm : Calm t.sys) (hconts : t.sys.conts = s.sys.conts)
    (hdir : t.sys.dirOf = s.sys.dirOf) (hio : ∀ g, g ≠ (s.proc i).pid → t.io g = s.io g)
    (himage : (∃ w, Waiting t i w) ∨ (t.proc i).state = .sleeping → Image t.sys i)
    (hreg : ∀ w ptr, Registered t w ptr → Registered s w ptr ∧ ptr.slot ≠ i ∨ Valid t w ptr)
    (hw : WokenForOwnWait t) : Inv t := by
  have hpids : ∀ k, (t.proc k).pid = (s.proc k).pid := by
    intro k
    by_cases hki : k = i
    · rw [hki, hpid]
    · rw [hne k hki]
  have hlive : ∀ k, (t.proc k).state ≠ .unused → (s.proc k).state ≠ .unused := by
    intro k hkl
    by_cases hki : k = i
    · rwa [hki]
    · rwa [hne k hki] at hkl
  have hiok : ∀ k < processMax, k ≠ i → (s.proc k).state ≠ .unused →
      t.io (s.proc k).pid = s.io (s.proc k).pid := fun k hk hki hkl =>
    hio _ fun heq => hki (h.sys.pid_inj k hk i hi hkl hl heq)
  have hwait : ∀ k < processMax, k ≠ i → ∀ w, Waiting t k w ↔ Waiting s k w := fun k hk hki w =>
    waiting_iff (hne k hki) fun hb => hiok k hk hki (by simp [hb])
  have hkeep : ∀ k, k ≠ i → Image s.sys k → Image t.sys k := by
    intro k hki him
    have hk : t.sys.k.procs k = s.sys.k.procs k := hne k hki
    rw [Image, hk, hdir]
    exact him
  refine ⟨hsys, hcalm, fun k hk hkl hidle => ?_, fun q hq hql b hb => ?_, fun k hk w hwt => ?_,
    fun k hk hks => ?_, fun w ptr hr => ?_, hw⟩
  · rw [hpids] at hidle ⊢
    rw [hconts]
    by_cases hki : k = i
    · rwa [hki]
    · rw [hiok k hk hki (hlive k hkl)] at hidle
      exact h.call k hk (hlive k hkl) hidle
  · rw [hpids, hconts] at hb
    have hbd := (h.sys.points q hq (hlive q hql)).building hb
    have hbi : b.slot ≠ i := fun heq => hnc ⟨q, hq, hlive q hql, b, hb, heq⟩
    have hsame := hiok b.slot hbd.lt hbi (by simp [World.proc, hbd.state])
    rw [World.proc, hbd.pid] at hsame
    rw [hsame]
    exact h.built q hq (hlive q hql) b hb
  · by_cases hki : k = i
    · subst hki
      exact himage (.inl ⟨w, hwt⟩)
    · exact hkeep k hki (h.image k hk w ((hwait k hk hki w).mp hwt))
  · by_cases hki : k = i
    · subst hki
      rw [hpid, hconts]
      exact ⟨himage (.inr hks), hu⟩
    · rw [hne k hki] at hks ⊢
      obtain ⟨him, huser⟩ := h.sleeping k hk hks
      rw [hconts]
      exact ⟨hkeep k hki him, huser⟩
  · rcases hreg w ptr hr with ⟨hr, hpi⟩ | hv
    · obtain ⟨hlt, hv, hp⟩ := h.reg w ptr hr
      exact ⟨hlt, (hwait _ hlt hpi w).mpr hv, by rw [hpids]; exact hp⟩
    · exact hv

lemma Inv.goto (h : Inv s) (hc : s.sys.k.current = some c) (hu : s.sys.cont = .user) (io : Io) :
    Inv (s.goto io) := by
  obtain ⟨hclt, hrun, hth⟩ := h.sys.cur c hc
  refine h.of_slot hclt (h.sys.live hc) (h.cur_user hc hu) (h.cur_not_built hc) (fun _ _ => rfl) rfl
    h.sys h.calm rfl rfl (fun g hg => ?_) (fun hst => ?_) (fun w ptr hr => .inl ?_) h.wakes
  · exact Function.update_of_ne (by rwa [hth]) _ _
  · rcases hst with ⟨w, hw⟩ | hs
    · exact absurd (hw.1.symm.trans hrun) (by simp)
    · exact absurd (hs.symm.trans hrun) (by simp)
  · have hr' : Registered s w ptr := by cases w <;> exact hr
    exact ⟨hr', h.ne_cur hc (h.reg w ptr hr').waiting⟩

lemma Inv.leave (h : Inv s) (hc : s.sys.k.current = some c) (hu : s.sys.cont = .user) (io : Io)
    {state : ProcessState} (hst : state = .blocked ∨ state = .sleeping)
    (hs : SameTable (s.leave c state).sys t.sys)
    (hio : t.io = Function.update s.io s.sys.thread io)
    (hreg : ∀ w ptr, Registered t w ptr → Registered s w ptr ∨
      ptr = { slot := c, pid := s.sys.thread } ∧ state = .blocked ∧ io.wait = some w)
    (hw : t.wakes = s.wakes) : Inv t := by
  obtain ⟨hclt, hcrun, hth⟩ := h.sys.cur c hc
  have hself : t.proc c = { s.proc c with state, esp := s.sys.thread } := by
    rw [World.proc, hs.procs]
    exact Kernel.setProc_procs_self _ _ _
  have himage : Image t.sys c := by
    obtain ⟨him, -⟩ := h.sys.formed c hclt (.inr hcrun)
    have hself' : t.sys.k.procs c = { s.proc c with state, esp := s.sys.thread } := hself
    rw [Image, hself', hs.dirOf]
    exact ⟨hth, him.2⟩
  have hsys : Preempt.Inv t.sys := by
    have hout := h.sys.switch_out (n := .user) (w := s.sys.waitBy) hc (x := { s.proc c with
      state, esp := s.sys.thread }) (by rcases hst with rfl | rfl <;> simp) rfl rfl rfl
      (h.sys.formed c hclt (.inr hcrun)).2 (fun _ _ => rfl) (by simp [hu]) (by simp [Cont.building])
      id trivial
    refine hs.inv (hout.of_eq rfl rfl rfl rfl ?_ rfl rfl)
    rw [Sys.goto, ← hu, Sys.cont, Function.update_eq_self]
    rfl
  -- no program point has changed, and the current one claims no slot
  have hcalm : Calm t.sys := hs.calm <| h.calm.of_kept
    (s.sys.k.setProc_live (h.sys.live hc))
    (s.sys.k.setProc_same (·.pid) rfl) (s.sys.k.setProc_same (·.waitingForPid) rfl) rfl
    fun b hb => by simp [hu] at hb
  refine h.of_slot hclt (h.sys.live hc) (h.cur_user hc hu) (h.cur_not_built hc) (fun k hk => ?_)
    (by rw [hself]) hsys hcalm hs.conts hs.dirOf (fun g hg => ?_) (fun _ => himage)
    (fun w ptr hr => ?_) fun x hx => h.wakes x (hw ▸ hx)
  · rw [World.proc, hs.procs]
    exact Kernel.setProc_procs_of_ne _ _ _ hk
  · rw [hio]
    exact Function.update_of_ne (by rwa [hth]) _ _
  · rcases hreg w ptr hr with hr | ⟨rfl, rfl, hwait⟩
    · exact .inl ⟨hr, h.ne_cur hc (h.reg w ptr hr).waiting⟩
    · refine .inr ⟨hclt, ⟨by rw [hself], ?_⟩, by rw [hself]; exact hth.symm⟩
      rw [hself, hio, h.pid_cur hc, Function.update_self]
      exact hwait

/-! ## Wake-ups -/

lemma Inv.ready (h : Inv s) (hi : i < processMax)
    (hst : (∃ w, Waiting s i w) ∨ (s.proc i).state = .sleeping)
    (hs : SameTable (s.sys.setProc i { s.proc i with state := .ready }) t.sys) (hio : t.io = s.io)
    (hreg : ∀ w ptr, Registered t w ptr → Registered s w ptr ∧ ptr.slot ≠ i)
    (hw : WokenForOwnWait t) : Inv t := by
  have hstate : (s.proc i).state = .blocked ∨ (s.proc i).state = .sleeping :=
    hst.imp_left fun ⟨_, hw⟩ => hw.1
  have hl : (s.proc i).state ≠ .unused := by rcases hstate with h1 | h1 <;> simp [h1]
  have hu : s.sys.conts (s.proc i).pid = .user := by
    rcases hst with ⟨w, hw⟩ | hsl
    · exact h.call i hi hl hw.io_ne
    · exact (h.sleeping i hi hsl).2
  have him : Image s.sys i := by
    rcases hst with ⟨w, hw⟩ | hsl
    · exact h.image i hi w hw
    · exact (h.sleeping i hi hsl).1
  have hnc : ¬ UnderConstruction s.sys i := by
    rcases hst with ⟨w, hw⟩ | hsl
    · exact h.not_built hw
    · rintro ⟨q, hq, hql, b, hb, rfl⟩
      have hblocked := ((h.sys.points q hq hql).building hb).state
      rw [show s.sys.k.procs b.slot = s.proc b.slot from rfl, hsl] at hblocked
      simp at hblocked
  have hself : t.proc i = { s.proc i with state := .ready } := by
    rw [World.proc, hs.procs]
    exact Kernel.setProc_procs_self _ _ _
  refine h.of_slot hi hl hu hnc (fun k hk => ?_) (by rw [hself]) (hs.inv (h.sys.wake hi hstate him
    (h.waitingForPid_eq hi hl hu hnc) hnc (h.not_woken hu))) (hs.calm (h.calm.of_same
      (s.sys.k.setProc_live hl) (s.sys.k.setProc_same (·.pid) rfl)
      (s.sys.k.setProc_same (·.waitingForPid) rfl) rfl rfl rfl)) hs.conts hs.dirOf
    (fun g _ => by rw [hio]) (fun hst' => ?_) (fun w ptr hr => .inl (hreg w ptr hr)) hw
  · rw [World.proc, hs.procs]
    exact Kernel.setProc_procs_of_ne _ _ _ hk
  · rcases hst' with ⟨w, hwt, -⟩ | hsl
    · simp [hself] at hwt
    · simp [hself] at hsl

lemma Inv.wake (h : Inv s) (hv : Valid s w ptr)
    (hno : ∀ ptr', Registered s w ptr' → ptr'.slot ≠ ptr.slot) : Inv (s.wake w ptr) := by
  obtain ⟨hlt, hwt, hp⟩ := hv
  have hwake : (s.proc ptr.slot).wake = { s.proc ptr.slot with state := .ready } := if_pos hwt.1
  refine h.ready (t := s.wake w ptr) hlt (.inl ⟨w, hwt⟩) ?_ rfl (fun w' ptr' hr => ?_) ?_
  · rw [World.wake, hwake]
    exact ⟨rfl, rfl, rfl, rfl, rfl, rfl, rfl⟩
  · have hrs : Registered s w' ptr' := by cases w' <;> exact hr
    refine ⟨hrs, fun heq => ?_⟩
    -- one process is in one wait only
    have hww : w' = w := by
      have hv' := (h.reg w' ptr' hrs).waiting
      rw [heq] at hv'
      exact Option.some.inj (hv'.2.symm.trans hwt.2)
    subst hww
    exact hno ptr' hrs heq
  · intro x hx
    rw [World.wake, World.note, if_pos hwt.1] at hx
    rcases List.mem_append.mp hx with hx | hx
    · rw [List.mem_singleton] at hx
      subst hx
      exact ⟨hp, hwt.2⟩
    · exact h.wakes x hx

lemma Inv.wakeAll (l : List Ptr) (h : Inv s) (hno : ∀ ptr, ¬ Registered s .gate ptr)
    (hv : ∀ ptr ∈ l, (s.proc ptr.slot).state = .blocked → Valid s .gate ptr) :
    Inv (l.foldl (fun t ptr => t.wake .gate ptr) s) := by
  induction l generalizing s with
  | nil => exact h
  | cons ptr l ih =>
    rw [List.foldl_cons]
    by_cases hb : (s.proc ptr.slot).state = .blocked
    · refine ih (h.wake (hv ptr (by simp) hb) fun ptr' hr => absurd hr (hno ptr')) hno
        fun ptr' hmem hb' => ?_
      have hready : (s.wake .gate ptr).proc ptr.slot =
          { s.proc ptr.slot with state := .ready } := by
        simp [World.wake, World.proc, Proc.wake, show (s.sys.k.procs ptr.slot).state =
          .blocked from hb]
      have hne : ptr'.slot ≠ ptr.slot := by
        intro heq
        rw [heq, hready] at hb'
        simp at hb'
      have hsame : (s.wake .gate ptr).proc ptr'.slot = s.proc ptr'.slot :=
        Kernel.setProc_procs_of_ne _ _ _ hne
      rw [hsame] at hb'
      obtain ⟨hlt, hw, hp⟩ := hv ptr' (by simp [hmem]) hb'
      exact ⟨hlt, (waiting_iff hsame fun _ => rfl).mpr hw, by rw [hsame]; exact hp⟩
    · -- a pointer to a slot that is not blocked does nothing
      have hself : s.wake .gate ptr = s := by
        have hw : (s.proc ptr.slot).wake = s.sys.k.procs ptr.slot := if_neg hb
        rw [World.wake, World.note, if_neg hb, hw, setProc_self, List.nil_append]
      rw [hself]
      exact ih h hno fun ptr' hmem => hv ptr' (by simp [hmem])

lemma wakeAll_current (l : List Ptr) (s : World) :
    (l.foldl (fun t ptr => t.wake .gate ptr) s).sys.k.current = s.sys.k.current ∧
      (l.foldl (fun t ptr => t.wake .gate ptr) s).sys.cont = s.sys.cont := by
  induction l generalizing s with
  | nil => exact ⟨rfl, rfl⟩
  | cons ptr l ih =>
    rw [List.foldl_cons]
    exact ih _

/-! ## Pipes -/

/-- The waiters of a pipe are kept or taken back. -/
def Unregisters (q p : Pipe) : Prop :=
  (q.readWaiter = p.readWaiter ∨ q.readWaiter = none) ∧
    (q.writeWaiter = p.writeWaiter ∨ q.writeWaiter = none)

lemma registered_cases {q : Pipe} (hr : Registered t w ptr)
    (ht : t.sys.k.pipeTable = Function.update s.sys.k.pipeTable i q)
    (hgate : t.gateWaiters = s.gateWaiters) (hirq : t.irqWaiter = s.irqWaiter)
    (hread : ∀ k, k ≠ i → t.readBy k = s.readBy k)
    (hwrite : ∀ k, k ≠ i → t.writeBy k = s.writeBy k) :
    Registered s w ptr ∨ (w = .pipeRead i ∧ q.readWaiter = some ptr.slot ∧ t.readBy i = ptr.pid) ∨
      w = .pipeWrite i ∧ q.writeWaiter = some ptr.slot ∧ t.writeBy i = ptr.pid := by
  cases w with
  | gate => exact .inl (show ptr ∈ s.gateWaiters from hgate ▸ hr)
  | irq => exact .inl (hirq.symm.trans hr)
  | pipeRead k =>
    obtain ⟨hw, hb⟩ := hr
    rw [ht] at hw
    by_cases hk : k = i
    · subst hk
      rw [Function.update_self] at hw
      exact .inr (.inl ⟨rfl, hw, hb⟩)
    · rw [Function.update_of_ne hk] at hw
      exact .inl ⟨hw, hread k hk ▸ hb⟩
  | pipeWrite k =>
    obtain ⟨hw, hb⟩ := hr
    rw [ht] at hw
    by_cases hk : k = i
    · subst hk
      rw [Function.update_self] at hw
      exact .inr (.inr ⟨rfl, hw, hb⟩)
    · rw [Function.update_of_ne hk] at hw
      exact .inl ⟨hw, hwrite k hk ▸ hb⟩

lemma registered_setPipe {q : Pipe} (hq : Unregisters q (s.sys.k.pipeTable i))
    (hr : Registered (s.setPipe i q) w ptr) : Registered s w ptr := by
  rcases registered_cases (s := s) (i := i) hr rfl rfl rfl (fun _ _ => rfl) (fun _ _ => rfl) with
    hr | ⟨rfl, hw, hb⟩ | ⟨rfl, hw, hb⟩
  · exact hr
  · rcases hq.1 with h1 | h1
    · exact ⟨h1 ▸ hw, hb⟩
    · simp [h1] at hw
  · rcases hq.2 with h1 | h1
    · exact ⟨h1 ▸ hw, hb⟩
    · simp [h1] at hw

lemma Inv.setPipe (h : Inv s) {q : Pipe} (hq : Unregisters q (s.sys.k.pipeTable i)) :
    Inv (s.setPipe i q) :=
  h.of_same ⟨rfl, rfl, rfl, rfl, rfl, rfl, rfl⟩ rfl (fun _ _ => registered_setPipe hq) rfl

lemma Inv.setPipe_wake (h : Inv s) {q : Pipe} (hq : Unregisters q (s.sys.k.pipeTable i)) (w : Wait)
    (pid : Nat) (o : Option Nat) (ho : ∀ slot ∈ o, Registered s w { slot, pid } ∧
      ∀ ptr, ¬ Registered (s.setPipe i q) w ptr) :
    Inv ((s.setPipe i q).wakeSlot w pid o) := by
  cases o with
  | none => exact h.setPipe hq
  | some slot =>
    obtain ⟨hr, hno⟩ := ho slot rfl
    obtain ⟨hlt, hw, hp⟩ := h.reg w _ hr
    exact (h.setPipe hq).wake ⟨hlt, hw, hp⟩ fun ptr hptr => absurd hptr (hno ptr)

lemma takeBytes_waiters (p : Pipe) (len : Nat) :
    (p.takeBytes len).2.readWaiter = p.readWaiter ∧
      (p.takeBytes len).2.writeWaiter = p.writeWaiter := by
  induction len generalizing p with
  | zero => exact ⟨rfl, rfl⟩
  | succ len ih =>
    rw [Pipe.takeBytes]
    split
    · exact ⟨rfl, rfl⟩
    · exact ih { p with tail := (p.tail + 1) % pipeBufSize, count := p.count - 1 }

lemma putBytes_waiters (p : Pipe) (bytes : List UInt8) :
    (p.putBytes bytes).readWaiter = p.readWaiter ∧
      (p.putBytes bytes).writeWaiter = p.writeWaiter := by
  induction bytes generalizing p with
  | nil => exact ⟨rfl, rfl⟩
  | cons b bytes ih =>
    rw [Pipe.putBytes]
    exact ih _

lemma Inv.pipeReadStep (h : Inv s) (hc : s.sys.k.current = some c) (hu : s.sys.cont = .user)
    (i len : Nat) : Inv (s.pipeReadStep c i len) := by
  rw [World.pipeReadStep]
  obtain ⟨p, hp⟩ : ∃ p, s.sys.k.pipeTable i = p := ⟨_, rfl⟩
  simp only [hp, Pipe.readSection, Pipe.readSectionWakes]
  by_cases hcount : 0 < p.count
  · simp only [hcount, if_true]
    have hq : Unregisters { (p.takeBytes len).2 with writeWaiter := none }
        (s.sys.k.pipeTable i) := by
      rw [hp]
      exact ⟨.inl (takeBytes_waiters p len).1, .inr rfl⟩
    refine (h.setPipe_wake hq (.pipeWrite i) (s.writeBy i) p.writeWaiter
      fun slot hslot => ⟨⟨by rw [hp]; exact hslot, rfl⟩, ?_⟩).goto (c := c) ?_ ?_ .idle
    · rintro ptr ⟨hw, -⟩
      rw [World.setPipe, Kernel.setPipe_pipeTable_self] at hw
      simp at hw
    · cases p.writeWaiter <;> exact hc
    · cases p.writeWaiter <;> exact hu
  · simp only [hcount, if_false]
    have hself : s.setPipe i p = s := by
      simp [World.setPipe, Kernel.setPipe, ← hp]
    by_cases hrefs : p.writeRefs = 0
    · simp only [hrefs, if_true, hself]
      exact h.goto hc hu .idle
    · simp only [hrefs, if_false]
      refine h.leave hc hu (.readBlocked i len) (.inl rfl) ⟨rfl, rfl, rfl, rfl, rfl, rfl, rfl⟩
        rfl (fun w ptr hr => ?_) rfl
      rcases registered_cases (s := s) (i := i) hr rfl rfl rfl
        (fun k hk => Function.update_of_ne hk _ _) (fun _ _ => rfl) with hr | ⟨rfl, hw, hb⟩ |
        ⟨rfl, hw, hb⟩
      · exact .inl hr
      · refine .inr ⟨?_, rfl, rfl⟩
        cases ptr
        simp_all
      · exact .inl ⟨hp ▸ hw, hb⟩

lemma Inv.pipeWriteStep (h : Inv s) (hc : s.sys.k.current = some c) (hu : s.sys.cont = .user)
    (i : Nat) (buf : List UInt8) (written : Nat) : Inv (s.pipeWriteStep c i buf written) := by
  rw [World.pipeWriteStep]
  obtain ⟨p, hp⟩ : ∃ p, s.sys.k.pipeTable i = p := ⟨_, rfl⟩
  simp only [hp, Pipe.writeSection, Pipe.writeSectionWakes]
  have hself : s.setPipe i p = s := by
    simp [World.setPipe, Kernel.setPipe, ← hp]
  by_cases hrefs : p.readRefs = 0
  · simp only [hrefs, if_true, hself]
    exact h.goto hc hu .idle
  · by_cases hspace : 0 < pipeBufSize - p.count
    · simp only [hrefs, hspace, if_true, if_false, ne_eq, not_false_eq_true, and_self]
      have hq : Unregisters { p.putBytes (p.chunk buf written) with readWaiter := none }
          (s.sys.k.pipeTable i) := by
        rw [hp]
        exact ⟨.inr rfl, .inl (putBytes_waiters p _).2⟩
      have hwoken := h.setPipe_wake hq (.pipeRead i) (s.readBy i) p.readWaiter
        fun slot hslot => ⟨⟨by rw [hp]; exact hslot, rfl⟩, ?_⟩
      · have hgoto : ∀ io, Inv (((s.setPipe i { p.putBytes (p.chunk buf written) with
            readWaiter := none }).wakeSlot (.pipeRead i) (s.readBy i) p.readWaiter).goto io) := by
          intro io
          refine hwoken.goto (c := c) ?_ ?_ io
          · cases p.readWaiter <;> exact hc
          · cases p.readWaiter <;> exact hu
        split
        case h_1 => exact hgoto _
        case h_2 => exact hgoto _
        case h_3 heq =>
          split at heq <;> simp at heq
        case h_4 heq =>
          split at heq <;> simp at heq
      · rintro ptr ⟨hw, -⟩
        rw [World.setPipe, Kernel.setPipe_pipeTable_self] at hw
        simp at hw
    · simp only [hrefs, hspace, if_false]
      refine h.leave hc hu (.writeBlocked i buf written) (.inl rfl)
        ⟨rfl, rfl, rfl, rfl, rfl, rfl, rfl⟩ rfl (fun w ptr hr => ?_) rfl
      rcases registered_cases (s := s) (i := i) hr rfl rfl rfl (fun _ _ => rfl)
        (fun k hk => Function.update_of_ne hk _ _) with hr | ⟨rfl, hw, hb⟩ | ⟨rfl, hw, hb⟩
      · exact .inl hr
      · exact .inl ⟨hp ▸ hw, hb⟩
      · refine .inr ⟨?_, rfl, rfl⟩
        cases ptr
        simp_all

end NullOS.Blocking
