import NullOS.Ata.Driver

/-!
# No lost disk completion

The driver resets `g_irq_fired` after it has written the command register.  An interrupt that lands
between the two is thrown away, and the process sleeps for one that will not come again
(`lostCompletion`).  In every run in which no interrupt lands there, no completion is lost.
-/

namespace NullOS.Ata

open NullOS.Lib

variable {s t : St} {i j k : Nat} {c : Cmd} {op : Op}

/-! ## Projections of the updates -/

@[simp] lemma setProc_same (s : St) (i : Nat) (p : Proc) : (s.setProc i p).procs i = p := by
  simp [St.setProc]

@[simp] lemma setProc_other (s : St) (p : Proc) (h : j ≠ i) :
    (s.setProc i p).procs j = s.procs j := by
  simp [St.setProc, h]

@[simp] lemma goto_same (s : St) (i : Nat) (pc : Pc) :
    (s.goto i pc).procs i = { s.procs i with pc := pc } := by
  simp [St.goto]

@[simp] lemma goto_other (s : St) (pc : Pc) (h : j ≠ i) :
    (s.goto i pc).procs j = s.procs j := by
  simp [St.goto, h]

@[simp] lemma goto_irqFired (pc : Pc) : (s.goto i pc).irqFired = s.irqFired := rfl
@[simp] lemma goto_irqWaiter (pc : Pc) : (s.goto i pc).irqWaiter = s.irqWaiter := rfl
@[simp] lemma goto_gateWaiters (pc : Pc) : (s.goto i pc).gateWaiters = s.gateWaiters := rfl
@[simp] lemma goto_sent (pc : Pc) : (s.goto i pc).sent = s.sent := rfl
@[simp] lemma goto_pending (pc : Pc) : (s.goto i pc).pending = s.pending := rfl
@[simp] lemma goto_delivered (pc : Pc) : (s.goto i pc).delivered = s.delivered := rfl

@[simp] lemma wake_pc (p : Proc) : (wake p).pc = p.pc := by
  unfold wake; split <;> rfl

@[simp] lemma wake_cmdId (p : Proc) : (wake p).cmdId = p.cmdId := by
  unfold wake; split <;> rfl

lemma wake_state_ne (p : Proc) : (wake p).state ≠ .blocked := by
  unfold wake
  split
  · simp
  · assumption

/-! ## The invariant -/

/-- The program points between `ata_gate_acquire` and `ata_gate_release`. -/
def Pc.Inside : Pc → Prop
  | .idle | .gateTry _ | .gateBlocked _ => False
  | _ => True

/-- Nothing in flight and nobody registered. -/
def Quiet (s : St) : Prop := s.pending = [] ∧ s.irqWaiter = none

/-- The last command of process `i` has been sent and its interrupt not delivered. -/
def Unanswered (s : St) (i : Nat) : Prop :=
  (s.procs i).cmdId < s.sent ∧ (s.procs i).cmdId ∉ s.delivered

/-- What holds of the flag, the waiter pointer and the interrupts in flight while process
`i` holds the gate, by its program point. -/
def Phase (s : St) (i : Nat) : Prop :=
  match (s.procs i).pc with
  | .clearFlag .write => Quiet s ∧ Unanswered s i
  | .clearFlag _ => s.pending = [(s.procs i).cmdId] ∧ s.irqWaiter = none ∧ Unanswered s i
  | .waitDrq | .sendData => Quiet s ∧ Unanswered s i ∧ s.irqFired = false
  | .waitIrq _ => s.irqWaiter = none ∧ (s.procs i).cmdId < s.sent ∧
      ((s.irqFired = true ∧ (s.procs i).cmdId ∈ s.delivered ∧ s.pending = []) ∨
        (s.irqFired = false ∧ (s.procs i).cmdId ∉ s.delivered ∧
          s.pending = [(s.procs i).cmdId]))
  | .irqBlocked _ => (s.procs i).cmdId < s.sent ∧
      (((s.procs i).state = .blocked ∧ s.irqWaiter = some i ∧
          (s.procs i).cmdId ∉ s.delivered ∧ s.pending = [(s.procs i).cmdId]) ∨
        ((s.procs i).state ≠ .blocked ∧ Quiet s ∧ (s.procs i).cmdId ∈ s.delivered))
  | .consumeFlag _ | .checkStatus _ => Quiet s ∧ (s.procs i).cmdId ∈ s.delivered
  | _ => Quiet s

structure Holds (s : St) (i : Nat) : Prop where
  inside : (s.procs i).pc.Inside
  alone : ∀ j, j ≠ i → ¬ (s.procs j).pc.Inside
  busy : s.ataBusy = true
  phase : Phase s i

structure Free (s : St) : Prop where
  empty : ∀ j, ¬ (s.procs j).pc.Inside
  quiet : Quiet s

structure Inv (s : St) : Prop where
  gateWaiters : ∀ j ∈ s.gateWaiters,
    (s.procs j).state = .blocked ∧ ∃ op, (s.procs j).pc = .gateBlocked op
  delivered : ∀ k ∈ s.delivered, k < s.sent
  gate : Free s ∨ ∃ i, Holds s i

lemma inv_of_init (h : Init s) : Inv s := by
  obtain ⟨hpc, hw, hb, hg, hs, hp, hd⟩ := h
  refine ⟨by simp [hg], by simp [hd], Or.inl ⟨fun j => ?_, hp, hw⟩⟩
  rw [hpc j]
  exact id

lemma Inv.holds (h : Inv s) (hin : (s.procs i).pc.Inside) : Holds s i := by
  rcases h.gate with hf | ⟨j, hj⟩
  · exact absurd hin (hf.empty i)
  · by_cases hij : i = j
    · exact hij ▸ hj
    · exact absurd hin (hj.alone i hij)

/-- A process at a program point outside the gate is not a registered waiter unless it is
asleep there. -/
lemma Inv.not_gateWaiter (h : Inv s) (hi : (s.procs i).state ≠ .blocked ∨
    ∀ op, (s.procs i).pc ≠ .gateBlocked op) : i ∉ s.gateWaiters := by
  intro hmem
  obtain ⟨hst, op, hop⟩ := h.gateWaiters i hmem
  rcases hi with hi | hi
  · exact hi hst
  · exact hi op hop

/-- A step outside the gate touches neither the flag, nor the waiter pointer, nor the
interrupts in flight. -/
lemma Inv.outside_step (h : Inv s) {p : Proc} (hold : ¬ (s.procs i).pc.Inside)
    (hnew : ¬ p.pc.Inside) (hgw : i ∉ s.gateWaiters) : Inv (s.setProc i p) := by
  refine ⟨fun j hj => ?_, h.delivered, ?_⟩
  · have hji : j ≠ i := fun hji => hgw (hji ▸ hj)
    rw [setProc_other s p hji]
    exact h.gateWaiters j hj
  · rcases h.gate with hf | ⟨m, hm⟩
    · refine Or.inl ⟨fun j => ?_, hf.quiet⟩
      by_cases hji : j = i
      · subst hji
        rwa [setProc_same]
      · rw [setProc_other s p hji]
        exact hf.empty j
    · have hmi : m ≠ i := by
        rintro rfl
        exact hold hm.inside
      have hpm : (s.setProc i p).procs m = s.procs m := setProc_other s p hmi
      refine Or.inr ⟨m, by rw [hpm]; exact hm.inside, fun j hjm => ?_, hm.busy, ?_⟩
      · by_cases hji : j = i
        · subst hji
          rwa [setProc_same]
        · rw [setProc_other s p hji]
          exact hm.alone j hjm
      · have hph := hm.phase
        unfold Phase Quiet Unanswered at hph ⊢
        rw [hpm]
        exact hph

lemma Inv.inside_step (h : Inv s) (hi : Holds s i) {p : Proc}
    (hprocs : t.procs = (s.setProc i p).procs) (hgw : t.gateWaiters = s.gateWaiters)
    (hbusy : t.ataBusy = s.ataBusy) (hdel : ∀ k ∈ t.delivered, k < t.sent)
    (hin : p.pc.Inside) (hph : Phase t i) : Inv t := by
  have hother : ∀ j, j ≠ i → t.procs j = s.procs j := fun j hj => by
    rw [hprocs, setProc_other s p hj]
  refine ⟨fun j hj => ?_, hdel, Or.inr ⟨i, ?_, fun j hj => ?_, hbusy.trans hi.busy, hph⟩⟩
  · rw [hgw] at hj
    obtain ⟨hst, op, hop⟩ := h.gateWaiters j hj
    have hji : j ≠ i := by
      rintro rfl
      have := hi.inside
      rw [hop] at this
      exact this
    rw [hother j hji]
    exact ⟨hst, op, hop⟩
  · rw [hprocs, setProc_same]
    exact hin
  · rw [hother j hj]
    exact hi.alone j hj

/-! ## One lemma for each kind of step -/

lemma inv_call (h : Inv s) (hpc : (s.procs i).pc = .idle) (op : Op) :
    Inv (s.goto i (.gateTry op)) := by
  refine h.outside_step (by simp [hpc, Pc.Inside]) (by simp [Pc.Inside]) ?_
  exact h.not_gateWaiter (Or.inr (by simp [hpc]))

lemma inv_gateAcquire (h : Inv s) (hpc : (s.procs i).pc = .gateTry op) :
    Inv (ataGateAcquire s i op) := by
  have hni : i ∉ s.gateWaiters := h.not_gateWaiter (Or.inr (by simp [hpc]))
  have hout : ¬ (s.procs i).pc.Inside := by simp [hpc, Pc.Inside]
  unfold ataGateAcquire
  split
  · rename_i hbusy
    have hset := h.outside_step (p := { s.procs i with pc := .gateBlocked op, state := .blocked })
      hout (by simp [Pc.Inside]) hni
    split
    · refine ⟨fun j hj => ?_, hset.delivered, ?_⟩
      · by_cases hji : j = i
        · subst hji
          simp
        · have hj' : j ∈ s.gateWaiters := by
            simpa [St.setProc, hji] using hj
          exact hset.gateWaiters j hj'
      · rcases hset.gate with hf | ⟨m, hm⟩
        · exact Or.inl ⟨hf.empty, hf.quiet⟩
        · exact Or.inr ⟨m, hm.inside, hm.alone, hm.busy, hm.phase⟩
    · exact hset
  · rename_i hbusy
    have hfree : Free s := by
      rcases h.gate with hf | ⟨m, hm⟩
      · exact hf
      · exact absurd hm.busy hbusy
    refine ⟨fun j hj => ?_, h.delivered, Or.inr ⟨i, ?_, fun j hj => ?_, rfl, ?_⟩⟩
    · have hji : j ≠ i := fun hji => hni (hji ▸ hj)
      simpa [hji] using h.gateWaiters j hj
    · simp [Pc.Inside]
    · simpa [hj] using hfree.empty j
    · simpa [Phase, Quiet] using hfree.quiet

lemma inv_gateRelease (h : Inv s) (hpc : (s.procs i).pc = .gateRelease) :
    Inv (ataGateRelease s i) := by
  have hi : Holds s i := h.holds (by simp [hpc, Pc.Inside])
  have hq : Quiet s := by simpa [Phase, hpc] using hi.phase
  refine ⟨by simp [ataGateRelease], h.delivered, Or.inl ⟨fun j => ?_, hq⟩⟩
  by_cases hji : j = i
  · subst hji
    simp [ataGateRelease, Pc.Inside]
  · have hpcj : ((ataGateRelease s i).procs j).pc = (s.procs j).pc := by
      simp only [ataGateRelease, goto_other _ _ hji]
      split
      · exact wake_pc _
      · rfl
    rw [hpcj]
    exact hi.alone j hji

lemma inv_irq (h : Inv s) (hk : k ∈ s.pending)
    (hlate : ∀ i c, (s.procs i).pc = .clearFlag c → (s.procs i).cmdId ≠ k) :
    Inv (ataIrqHandler s k) := by
  rcases h.gate with hf | ⟨i, hi⟩
  · rw [hf.quiet.1] at hk
    simp at hk
  · have hph := hi.phase
    have hdel : (s.procs i).cmdId < s.sent → ∀ m ∈ (s.procs i).cmdId :: s.delivered,
        m < s.sent := by
      intro hlt m hm
      rcases List.mem_cons.mp hm with rfl | hm
      · exact hlt
      · exact h.delivered m hm
    have hempty : s.pending ≠ [] := List.ne_nil_of_mem hk
    unfold Phase at hph
    split at hph
    case h_1 hpc => exact absurd hph.1.1 hempty
    case h_2 cc _ hpc =>
      -- the interrupt would land between the command and the reset of the flag
      have hkid : k = (s.procs i).cmdId := by simpa [hph.1] using hk
      exact absurd hkid.symm (hlate i cc hpc)
    case h_3 hpc => exact absurd hph.1.1 hempty
    case h_4 hpc => exact absurd hph.1.1 hempty
    case h_5 cc hpc =>
      obtain ⟨hw, hlt, ⟨-, -, hp⟩ | ⟨hfl, hnd, hp⟩⟩ := hph
      · exact absurd hp hempty
      · have hkid : k = (s.procs i).cmdId := by simpa [hp] using hk
        subst hkid
        have heq : ataIrqHandler s (s.procs i).cmdId =
            { s with
              pending := []
              delivered := (s.procs i).cmdId :: s.delivered
              irqFired := true } := by
          simp [ataIrqHandler, hw, hp]
        rw [heq]
        refine h.inside_step hi (p := s.procs i) ?_ rfl rfl (hdel hlt) hi.inside ?_
        · simp [St.setProc]
        · simp [Phase, hpc, hw, hlt]
    case h_6 cc hpc =>
      obtain ⟨hlt, ⟨hst, hw, hnd, hp⟩ | ⟨-, hq, -⟩⟩ := hph
      · have hkid : k = (s.procs i).cmdId := by simpa [hp] using hk
        subst hkid
        have heq : ataIrqHandler s (s.procs i).cmdId =
            { s.setProc i (wake (s.procs i)) with
              pending := []
              delivered := (s.procs i).cmdId :: s.delivered
              irqFired := true
              irqWaiter := none } := by
          simp [ataIrqHandler, hw, hp, St.setProc]
        rw [heq]
        refine h.inside_step hi (p := wake (s.procs i)) rfl rfl rfl (hdel hlt) ?_ ?_
        · rw [wake_pc]
          exact hi.inside
        · have hns := wake_state_ne (s.procs i)
          simp [Phase, hpc, hlt, hns, Quiet, St.setProc]
      · exact absurd hq.1 hempty
    case h_7 hpc => exact absurd hph.1.1 hempty
    case h_8 hpc => exact absurd hph.1.1 hempty
    case h_9 => exact absurd hph.1 hempty

lemma inv_goto (h : Inv s) (hi : Holds s i) {pc : Pc} (hin : pc.Inside)
    (hph : Phase (s.goto i pc) i) : Inv (s.goto i pc) :=
  h.inside_step hi rfl rfl rfl h.delivered hin hph

lemma inv_sendCommand (h : Inv s) (hpc : (s.procs i).pc = .sendCmd c) :
    Inv (sendCommand s i c) := by
  have hi : Holds s i := h.holds (by simp [hpc, Pc.Inside])
  have hq : Quiet s := by simpa [Phase, hpc] using hi.phase
  have hfresh : s.sent ∉ s.delivered := fun hmem => absurd (h.delivered _ hmem) (by simp)
  refine h.inside_step hi rfl rfl rfl (fun k hk => ?_) (by simp [Pc.Inside]) ?_
  · exact Nat.lt_succ_of_lt (h.delivered k hk)
  · cases c with
    | read => simp [Phase, sendCommand, St.setProc, Unanswered, hq.1, hq.2, hfresh]
    | write => simp [Phase, sendCommand, St.setProc, Unanswered, Quiet, hq.1, hq.2, hfresh]
    | flush => simp [Phase, sendCommand, St.setProc, Unanswered, hq.1, hq.2, hfresh]

lemma inv_clearFlag (h : Inv s) (hpc : (s.procs i).pc = .clearFlag c) :
    Inv { s.goto i (afterClear c) with irqFired := false } := by
  have hi : Holds s i := h.holds (by simp [hpc, Pc.Inside])
  have hph := hi.phase
  cases c with
  | write =>
    obtain ⟨hq, hu⟩ : Quiet s ∧ Unanswered s i := by simpa [Phase, hpc] using hph
    refine h.inside_step hi rfl rfl rfl h.delivered (by simp [Pc.Inside, afterClear]) ?_
    simpa [Phase, afterClear, St.goto, St.setProc, Unanswered, Quiet] using ⟨hq, hu⟩
  | read | flush =>
    -- the flag says "not fired", and the interrupt is still in flight
    obtain ⟨hp, hw, hlt, hnd⟩ : s.pending = [(s.procs i).cmdId] ∧ s.irqWaiter = none ∧
        (s.procs i).cmdId < s.sent ∧ (s.procs i).cmdId ∉ s.delivered := by
      simpa [Phase, hpc, Unanswered] using hph
    refine h.inside_step hi rfl rfl rfl h.delivered (by simp [Pc.Inside, afterClear]) ?_
    simp [Phase, afterClear, St.goto, St.setProc, hp, hw, hlt, hnd]

lemma inv_sendData (h : Inv s) (hpc : (s.procs i).pc = .sendData) :
    Inv { s.goto i (.waitIrq .write) with pending := (s.procs i).cmdId :: s.pending } := by
  have hi : Holds s i := h.holds (by simp [hpc, Pc.Inside])
  obtain ⟨hq, ⟨hlt, hnd⟩, hfl⟩ : Quiet s ∧ Unanswered s i ∧ s.irqFired = false := by
    simpa [Phase, hpc] using hi.phase
  refine h.inside_step hi rfl rfl rfl h.delivered (by simp [Pc.Inside]) ?_
  simp [Phase, St.goto, St.setProc, hq.1, hq.2, hlt, hnd, hfl]

/-- The `cli` section of `ata_wait_irq`: the flag tells the truth, so either the interrupt
has come and the wait is over, or it is still in flight and the process registers. -/
lemma inv_waitIrq (h : Inv s) (hpc : (s.procs i).pc = .waitIrq c) :
    Inv (ataWaitIrq s i c) := by
  have hi : Holds s i := h.holds (by simp [hpc, Pc.Inside])
  obtain ⟨hw, hlt, ⟨hfl, hd, hp⟩ | ⟨hfl, hnd, hp⟩⟩ : s.irqWaiter = none ∧
      (s.procs i).cmdId < s.sent ∧
      ((s.irqFired = true ∧ (s.procs i).cmdId ∈ s.delivered ∧ s.pending = []) ∨
        (s.irqFired = false ∧ (s.procs i).cmdId ∉ s.delivered ∧
          s.pending = [(s.procs i).cmdId])) := by
    simpa [Phase, hpc] using hi.phase
  · rw [ataWaitIrq, if_pos hfl]
    refine h.inside_step hi rfl rfl rfl h.delivered (by simp [Pc.Inside]) ?_
    simp [Phase, St.goto, St.setProc, Quiet, hp, hw, hd]
  · rw [ataWaitIrq, if_neg (by simp [hfl])]
    refine h.inside_step hi rfl rfl rfl h.delivered (by simp [Pc.Inside]) ?_
    simp [Phase, St.setProc, hp, hlt, hnd]

lemma inv_irqBlocked (h : Inv s) (hpc : (s.procs i).pc = .irqBlocked c)
    (hst : (s.procs i).state ≠ .blocked) : Inv (s.goto i (.consumeFlag c)) := by
  have hi : Holds s i := h.holds (by simp [hpc, Pc.Inside])
  obtain ⟨-, ⟨hst', -⟩ | ⟨-, hq, hd⟩⟩ : (s.procs i).cmdId < s.sent ∧
      (((s.procs i).state = .blocked ∧ s.irqWaiter = some i ∧
          (s.procs i).cmdId ∉ s.delivered ∧ s.pending = [(s.procs i).cmdId]) ∨
        ((s.procs i).state ≠ .blocked ∧ Quiet s ∧ (s.procs i).cmdId ∈ s.delivered)) := by
    simpa [Phase, hpc] using hi.phase
  · exact absurd hst' hst
  · refine inv_goto h hi (by simp [Pc.Inside]) ?_
    simpa [Phase, Quiet] using ⟨hq, hd⟩

lemma inv_procStep (h : Inv s) {good : Bool} (hs : procStep s i good = some t) : Inv t := by
  have hq : (s.procs i).pc.Inside → Holds s i := h.holds
  unfold procStep at hs
  split at hs
  case h_1 => simp at hs
  case h_2 op hpc =>
    cases hs
    exact inv_gateAcquire h hpc
  case h_3 op hpc =>
    split at hs
    · simp at hs
    · rename_i hst
      cases hs
      exact h.outside_step (by simp [hpc, Pc.Inside]) (by simp [Pc.Inside])
        (h.not_gateWaiter (Or.inl hst))
  case h_4 op hpc =>
    cases hs
    have hi := hq (by simp [hpc, Pc.Inside])
    have hquiet : Quiet s := by simpa [Phase, hpc] using hi.phase
    cases good with
    | true => exact inv_goto h hi (by simp [Pc.Inside]) (by simpa [Phase, Quiet] using hquiet)
    | false => exact inv_goto h hi (by simp [Pc.Inside]) (by simpa [Phase, Quiet] using hquiet)
  case h_5 c hpc =>
    cases hs
    exact inv_sendCommand h hpc
  case h_6 c hpc =>
    cases hs
    exact inv_clearFlag h hpc
  case h_7 hpc =>
    cases hs
    have hi := hq (by simp [hpc, Pc.Inside])
    have hph : Quiet s ∧ Unanswered s i ∧ s.irqFired = false := by
      simpa [Phase, hpc] using hi.phase
    cases good with
    | true =>
      exact inv_goto h hi (by simp [Pc.Inside]) (by simpa [Phase, Quiet, Unanswered] using hph)
    | false =>
      exact inv_goto h hi (by simp [Pc.Inside]) (by simpa [Phase, Quiet] using hph.1)
  case h_8 hpc =>
    cases hs
    exact inv_sendData h hpc
  case h_9 c hpc =>
    cases hs
    exact inv_waitIrq h hpc
  case h_10 c hpc =>
    split at hs
    · simp at hs
    · rename_i hst
      cases hs
      exact inv_irqBlocked h hpc hst
  case h_11 c hpc =>
    cases hs
    have hi := hq (by simp [hpc, Pc.Inside])
    have hph : Quiet s ∧ (s.procs i).cmdId ∈ s.delivered := by
      simpa [Phase, hpc] using hi.phase
    refine h.inside_step hi rfl rfl rfl h.delivered (by simp [Pc.Inside]) ?_
    simpa [Phase, St.goto, St.setProc, Quiet] using hph
  case h_12 c hpc =>
    cases hs
    have hi := hq (by simp [hpc, Pc.Inside])
    have hph : Quiet s ∧ (s.procs i).cmdId ∈ s.delivered := by
      simpa [Phase, hpc] using hi.phase
    split
    · cases c <;>
        exact inv_goto h hi (by simp [Pc.Inside, afterCheck])
          (by simpa [Phase, Quiet, afterCheck] using hph.1)
    · exact inv_goto h hi (by simp [Pc.Inside]) (by simpa [Phase, Quiet] using hph.1)
  case h_13 hpc =>
    cases hs
    have hi := hq (by simp [hpc, Pc.Inside])
    have hquiet : Quiet s := by simpa [Phase, hpc] using hi.phase
    exact inv_goto h hi (by simp [Pc.Inside]) (by simpa [Phase, Quiet] using hquiet)
  case h_14 hpc =>
    cases hs
    exact inv_gateRelease h hpc

/-! ## The result -/

/-- The interrupt of a command does not land between the write of the command register and
the reset of `g_irq_fired` that follows it. -/
def IrqAfterClear (s : St) : Act → Prop
  | .irq k => ∀ i c, (s.procs i).pc = .clearFlag c → (s.procs i).cmdId ≠ k
  | _ => True

lemma inv_step {a : Act} (h : Inv s) (hok : IrqAfterClear s a) (hs : step s a = some t) :
    Inv t := by
  cases a with
  | call i op =>
    simp only [step] at hs
    split at hs
    · rename_i hpc
      cases hs
      exact inv_call h hpc op
    · simp at hs
  | proc i good => exact inv_procStep h hs
  | irq k =>
    simp only [step] at hs
    split at hs
    · rename_i hk
      cases hs
      exact inv_irq h hk hok
    · simp at hs

lemma Inv.noLostCompletion (h : Inv s) : NoLostCompletion s := by
  refine ⟨fun i c hpc hst => ?_, fun i c hpc => ?_⟩
  · have hph := (h.holds (i := i) (by simp [hpc, Pc.Inside])).phase
    simp only [Phase, hpc] at hph
    obtain ⟨-, ⟨-, -, hnd, -⟩ | ⟨hst', -⟩⟩ := hph
    · exact hnd
    · exact absurd hst hst'
  · have hph := (h.holds (i := i) (by simp [hpc, Pc.Inside])).phase
    simp only [Phase, hpc] at hph
    exact hph.2

/-- **No completion is lost when no interrupt lands in the window**: nobody sleeps for an interrupt
that has been delivered, and nobody returns from `ata_wait_irq` before its own. -/
theorem noLostCompletion_of_irqAfterClear (h : ReachIf step Init IrqAfterClear s) :
    NoLostCompletion s :=
  (h.invariant (fun _ => inv_of_init) fun _ _ _ => inv_step).noLostCompletion

def rest : St where
  procs := fun _ => ⟨.idle, .running, 0⟩
  irqFired := true
  irqWaiter := none
  ataBusy := false
  gateWaiters := []
  sent := 0
  pending := []
  delivered := []

lemma init_rest : Init rest := ⟨fun _ => rfl, rfl, rfl, rfl, rfl, rfl, rfl⟩

/-- A run in which the condition bites: the interrupt of a READ comes while the process
sleeps for it, and the process returns from its wait. -/
theorem noLostCompletion_readSector : ∃ s, ReachIf step Init IrqAfterClear s ∧
    (s.procs 0).pc = .checkStatus .read ∧ NoLostCompletion s := by
  have hcall : ReachIf step Init IrqAfterClear _ :=
    (ReachIf.start init_rest).next (a := Act.call 0 .readSector) trivial rfl
  have hgate := hcall.next (a := Act.proc 0 true) trivial rfl
  have hbusy := hgate.next (a := Act.proc 0 true) trivial rfl
  have hsent := hbusy.next (a := Act.proc 0 true) trivial rfl
  have hclear := hsent.next (a := Act.proc 0 true) trivial rfl
  have hsleep := hclear.next (a := Act.proc 0 true) trivial rfl
  have hirq := hsleep.next (a := Act.irq 0) (by
    intro i c hpc
    by_cases hi : i = 0
    · subst hi
      cases hpc
    · simp [ataWaitIrq, ataGateAcquire, sendCommand, afterClear, Op.cmd, St.goto, St.setProc,
        rest, hi] at hpc) rfl
  have hresume := hirq.next (a := Act.proc 0 true) trivial rfl
  have hback := hresume.next (a := Act.proc 0 true) trivial rfl
  exact ⟨_, hback, rfl, noLostCompletion_of_irqAfterClear hback⟩

/-- **A lost completion.**  The interrupt of a READ is taken right after the command register is
written; the driver then resets the flag, and the process sleeps for an interrupt that has been
delivered. -/
theorem lostCompletion : ¬ ∀ s, Reach step Init s → NoLostCompletion s := by
  intro h
  have hrun : run step rest [.call 0 .readSector, .proc 0 true, .proc 0 true, .proc 0 true,
      .irq 0, .proc 0 true, .proc 0 true] = some _ := rfl
  have hno := (h _ (Reach.of_run init_rest hrun)).1 0 .read (by decide) (by decide)
  exact hno (by decide)

end NullOS.Ata
