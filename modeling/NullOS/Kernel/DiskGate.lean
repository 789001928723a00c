import NullOS.Kernel.BlockingRun
import Mathlib.Data.List.Perm.Subperm

/-!
# The disk gate

`g_ata_busy` is set exactly while one live process is between `ata_gate_acquire` and
`ata_gate_release`, and whoever is blocked on the gate is in `g_gate_waiters`.  All of this is lost
when `sys_kill` ends the process that has the gate: then nobody ever releases it.
-/

namespace NullOS.Blocking

open Lib Preempt Vfs Ipc

variable {s t : World} {c i j slot : Nat} {w : Wait} {ptr : Ptr} {io : Io}

structure GateInv (s : World) : Prop where
  unique : ∀ i j, Holder s i → Holder s j → i = j
  busy : s.ataBusy = true ↔ ∃ i, Holder s i
  waits : ∀ i < processMax, Waiting s i .gate → ∃ ptr ∈ s.gateWaiters, ptr.slot = i
  taken : s.gateWaiters ≠ [] → s.ataBusy = true
  nodup : (s.gateWaiters.map Ptr.slot).Nodup

lemma Io.HasGate.ne_idle (h : io.HasGate) : io ≠ .idle := by
  rintro rfl
  exact h

lemma GateInv.gateHeld (g : GateInv s) : GateHeld s := by
  refine ⟨g.unique, g.busy.mp, fun hfree i hi hw => ?_⟩
  obtain ⟨ptr, hmem, -⟩ := g.waits i hi hw
  have hbusy := g.taken (List.ne_nil_of_mem hmem)
  rw [hfree] at hbusy
  simp at hbusy

lemma GateInv.mono (g : GateInv s) (hh : ∀ i, Holder t i ↔ Holder s i)
    (hb : t.ataBusy = s.ataBusy) (hg : t.gateWaiters = s.gateWaiters)
    (hw : ∀ i < processMax, Waiting t i .gate → Waiting s i .gate) : GateInv t := by
  refine ⟨fun i j hi hj => g.unique i j ((hh i).mp hi) ((hh j).mp hj), ?_, fun i hi hwt => ?_, ?_,
    ?_⟩
  · simp only [hb, hh]
    exact g.busy
  · rw [hg]
    exact g.waits i hi (hw i hi hwt)
  · rw [hg, hb]
    exact g.taken
  · rw [hg]
    exact g.nodup

/-! ## Steps that do not concern the gate -/

lemma holder_of_woken (hp : ∀ i, t.proc i = s.proc i ∨ t.proc i = (s.proc i).wake)
    (hio : t.io = s.io) : Holder t i ↔ Holder s i := by
  unfold Holder
  rw [hio]
  rcases hp i with heq | heq
  · rw [heq]
  · rw [heq, Proc.wake_pid]
    refine and_congr_right fun _ => and_congr_left fun _ => ?_
    exact not_congr (Proc.wake_unused _)

lemma waiting_of_woken (hp : ∀ i, t.proc i = s.proc i ∨ t.proc i = (s.proc i).wake)
    (hio : t.io = s.io) (hw : Waiting t i w) : Waiting s i w := by
  rcases hp i with heq | heq
  · exact (waiting_iff heq fun _ => by rw [hio]).mp hw
  · obtain ⟨hb, -⟩ := hw
    rw [heq, Proc.wake] at hb
    split at hb
    · simp at hb
    case isFalse hne => exact absurd hb hne

lemma GateInv.woken (g : GateInv s) (hp : ∀ i, t.proc i = s.proc i ∨ t.proc i = (s.proc i).wake)
    (hio : t.io = s.io) (hb : t.ataBusy = s.ataBusy) (hg : t.gateWaiters = s.gateWaiters) :
    GateInv t :=
  g.mono (fun _ => holder_of_woken hp hio) hb hg fun _ _ => waiting_of_woken hp hio

lemma goto_io_self (s : World) (io : Io) : (s.goto io).io s.sys.thread = io := by
  simp [World.goto]

lemma goto_io_of_ne (s : World) (io : Io) {g : Nat} (h : g ≠ s.sys.thread) :
    (s.goto io).io g = s.io g := by
  simp [World.goto, h]

lemma holder_goto (h : Inv s) (hc : s.sys.k.current = some c)
    (hio : io.HasGate ↔ (s.io s.sys.thread).HasGate) : Holder (s.goto io) i ↔ Holder s i := by
  refine and_congr_right fun hi => and_congr_right fun hl => ?_
  show ((s.goto io).io (s.proc i).pid).HasGate ↔ _
  by_cases hic : i = c
  · subst hic
    rw [h.pid_cur hc, goto_io_self]
    exact hio
  · have hne : (s.proc i).pid ≠ s.sys.thread := h.sys.pid_ne hc hi hic hl
    rw [goto_io_of_ne s io hne]

lemma waiting_goto (h : Inv s) (hc : s.sys.k.current = some c) (hi : i < processMax)
    (hw : Waiting (s.goto io) i w) : Waiting s i w := by
  have hic : i ≠ c := by
    rintro rfl
    have hrun := (h.sys.cur i hc).2.1
    rw [show s.sys.k.procs i = (s.goto io).proc i from rfl, hw.1] at hrun
    simp at hrun
  have hl : (s.proc i).state ≠ .unused := hw.live
  have hne : (s.proc i).pid ≠ s.sys.thread := h.sys.pid_ne hc hi hic hl
  have hproc : (s.goto io).proc i = s.proc i := rfl
  exact (waiting_iff hproc fun _ => goto_io_of_ne s io hne).mp hw

lemma GateInv.goto (g : GateInv s) (h : Inv s) (hc : s.sys.k.current = some c)
    (hio : io.HasGate ↔ (s.io s.sys.thread).HasGate) : GateInv (s.goto io) :=
  g.mono (fun _ => holder_goto h hc hio) rfl rfl fun _ hi => waiting_goto h hc hi

lemma holder_leave (h : Inv s) (hc : s.sys.k.current = some c) (state : ProcessState)
    (hst : state ≠ .unused) (hp : ∀ k, t.proc k = (s.leave c state).proc k)
    (ht : t.io = Function.update s.io s.sys.thread io)
    (hio : io.HasGate ↔ (s.io s.sys.thread).HasGate) : Holder t i ↔ Holder s i := by
  unfold Holder
  refine and_congr_right fun hi => ?_
  by_cases hic : i = c
  · subst hic
    have hself : t.proc i = { s.proc i with state, esp := s.sys.thread } :=
      (hp i).trans (Kernel.setProc_procs_self _ _ _)
    have hl : (s.proc i).state ≠ .unused := h.sys.live hc
    rw [hself, ht, h.pid_cur hc, Function.update_self]
    simp only [ne_eq, hst, not_false_eq_true, true_and, hl, hio]
  · have hne : t.proc i = s.proc i := (hp i).trans (Kernel.setProc_procs_of_ne _ _ _ hic)
    rw [hne]
    refine and_congr_right fun hl => ?_
    have hpid : (s.proc i).pid ≠ s.sys.thread := h.sys.pid_ne hc hi hic hl
    rw [ht, Function.update_of_ne hpid]

lemma waiting_leave (h : Inv s) (hc : s.sys.k.current = some c) (state : ProcessState) (io : Io)
    (hp : ∀ k, t.proc k = (s.leave c state).proc k)
    (ht : t.io = Function.update s.io s.sys.thread io) (hi : i < processMax) (hic : i ≠ c)
    (hw : Waiting t i w) : Waiting s i w := by
  have hne : t.proc i = s.proc i := (hp i).trans (Kernel.setProc_procs_of_ne _ _ _ hic)
  refine (waiting_iff hne fun hb => ?_).mp hw
  have hpid : (s.proc i).pid ≠ s.sys.thread := h.sys.pid_ne hc hi hic (by
    rw [show s.sys.k.procs i = s.proc i from rfl, hb]
    simp)
  rw [ht, Function.update_of_ne hpid]

lemma GateInv.leave (g : GateInv s) (h : Inv s) (hc : s.sys.k.current = some c)
    (state : ProcessState) (hst : state ≠ .unused) (hp : ∀ k, t.proc k = (s.leave c state).proc k)
    (io : Io) (ht : t.io = Function.update s.io s.sys.thread io)
    (hio : io.HasGate ↔ (s.io s.sys.thread).HasGate)
    (hwait : state = .blocked → io.wait ≠ some .gate)
    (hb : t.ataBusy = s.ataBusy) (hg : t.gateWaiters = s.gateWaiters) : GateInv t := by
  refine g.mono (fun _ => holder_leave h hc state hst hp ht hio) hb hg fun i hi hw => ?_
  refine waiting_leave h hc state io hp ht hi ?_ hw
  rintro rfl
  -- the current process itself is not in the gate's wait
  have hself : t.proc i = { s.proc i with state, esp := s.sys.thread } :=
    (hp i).trans (Kernel.setProc_procs_self _ _ _)
  obtain ⟨hblocked, hwt⟩ := hw
  have hth : (s.proc i).pid = s.sys.thread := (h.sys.thread_eq hc).symm
  rw [hself] at hblocked hwt
  rw [ht, show ({ s.proc i with state, esp := s.sys.thread } : Proc).pid = s.sys.thread from hth,
    Function.update_self] at hwt
  exact hwait hblocked hwt

/-! ## The gate -/

lemma GateInv.acquire (g : GateInv s) (h : Inv s) (hc : s.sys.k.current = some c)
    (hfree : s.ataBusy = false) (hio : io.HasGate) :
    GateInv { s.goto io with ataBusy := true } := by
  have hclt := (h.sys.cur c hc).1
  have hnone : ∀ i, ¬ Holder s i := by
    intro i hi
    have hbusy := g.busy.mpr ⟨i, hi⟩
    rw [hfree] at hbusy
    simp at hbusy
  have hempty : s.gateWaiters = [] := by
    by_contra hne
    have hbusy := g.taken hne
    rw [hfree] at hbusy
    simp at hbusy
  have hholder : ∀ i, Holder { s.goto io with ataBusy := true } i ↔ i = c := by
    intro i
    constructor
    · rintro ⟨hi, hl, hgate⟩
      by_contra hic
      have hpid : (s.proc i).pid ≠ s.sys.thread := h.sys.pid_ne hc hi hic hl
      have hgate' : ((s.goto io).io (s.proc i).pid).HasGate := hgate
      exact hnone i ⟨hi, hl, by rwa [goto_io_of_ne s io hpid] at hgate'⟩
    · rintro rfl
      refine ⟨hclt, h.sys.live hc, ?_⟩
      show ((s.goto io).io (s.proc i).pid).HasGate
      rwa [h.pid_cur hc, goto_io_self]
  refine ⟨fun i j hi hj => ?_, ⟨fun _ => ⟨c, (hholder c).mpr rfl⟩, fun _ => rfl⟩,
    fun i hi hw => ?_, fun _ => rfl, g.nodup⟩
  · rw [(hholder i).mp hi, (hholder j).mp hj]
  · exact g.waits i hi (waiting_goto h hc hi hw)

lemma GateInv.room (g : GateInv s) (h : Inv s) (hc : s.sys.k.current = some c) :
    c ∉ s.gateWaiters.map Ptr.slot ∧ s.gateWaiters.length < processMax := by
  have hnot : c ∉ s.gateWaiters.map Ptr.slot := by
    intro hmem
    obtain ⟨ptr, hptr, rfl⟩ := List.mem_map.mp hmem
    exact h.ne_cur hc (h.reg .gate ptr hptr).waiting rfl
  refine ⟨hnot, ?_⟩
  -- the slots in the array and that of the current process are different
  have hnd : (c :: s.gateWaiters.map Ptr.slot).Nodup := List.nodup_cons.mpr ⟨hnot, g.nodup⟩
  have hsub : (c :: s.gateWaiters.map Ptr.slot) ⊆ List.range processMax := by
    intro k hk
    rw [List.mem_range]
    rcases List.mem_cons.mp hk with rfl | hk
    · exact (h.sys.cur k hc).1
    · obtain ⟨ptr, hptr, rfl⟩ := List.mem_map.mp hk
      exact (h.reg .gate ptr hptr).lt
  have hlen := (List.subperm_of_subset hnd hsub).length_le
  rw [List.length_cons, List.length_map, List.length_range] at hlen
  exact hlen

lemma GateInv.wait (g : GateInv s) (h : Inv s) (hc : s.sys.k.current = some c)
    (hbusy : s.ataBusy = true) (hout : ¬ (s.io s.sys.thread).HasGate) (hio : ¬ io.HasGate) :
    GateInv { s.block c io with
      gateWaiters := if s.gateWaiters.length < processMax
        then s.gateWaiters ++ [{ slot := c, pid := s.sys.thread }] else s.gateWaiters } := by
  obtain ⟨hnot, hroom⟩ := g.room h hc
  rw [if_pos hroom]
  have hholder : ∀ i, Holder { s.block c io with
      gateWaiters := s.gateWaiters ++ [{ slot := c, pid := s.sys.thread }] } i ↔ Holder s i :=
    fun i => holder_leave h hc .blocked (by simp) (fun _ => rfl) rfl (iff_of_false hio hout)
  refine ⟨fun i j hi hj => g.unique i j ((hholder i).mp hi) ((hholder j).mp hj), ?_,
    fun i hi hw => ?_, fun _ => hbusy, ?_⟩
  · simp only [hholder]
    exact g.busy
  · by_cases hic : i = c
    · exact ⟨{ slot := c, pid := s.sys.thread }, by simp, hic.symm⟩
    · have hws : Waiting s i .gate := by
        refine waiting_leave h hc .blocked io (fun _ => ?_) ?_ hi hic hw
        · rfl
        · rfl
      obtain ⟨ptr, hmem, hslot⟩ := g.waits i hi hws
      exact ⟨ptr, List.mem_append_left _ hmem, hslot⟩
  · rw [List.map_append, List.nodup_append]
    refine ⟨g.nodup, by simp, ?_⟩
    rintro a ha b hb rfl
    rw [List.map_singleton, List.mem_singleton] at hb
    rw [hb] at ha
    exact hnot ha

lemma wakeAll_proc (l : List Ptr) (s : World) (i : Nat) :
    (l.foldl (fun t ptr => t.wake .gate ptr) s).proc i =
      if i ∈ l.map Ptr.slot then (s.proc i).wake else s.proc i := by
  induction l generalizing s with
  | nil => rfl
  | cons ptr l ih =>
    rw [List.foldl_cons, ih, List.map_cons]
    by_cases hi : i = ptr.slot
    · have hself : (s.wake .gate ptr).proc i = (s.proc i).wake := by
        rw [hi]
        exact Kernel.setProc_procs_self _ _ _
      have htwice : (s.proc i).wake.wake = (s.proc i).wake := by
        unfold Proc.wake
        split <;> simp_all
      rw [hself, htwice, ite_self, if_pos (by simp [hi])]
    · have hne : (s.wake .gate ptr).proc i = s.proc i := Kernel.setProc_procs_of_ne _ _ _ hi
      rw [hne]
      simp only [List.mem_cons, hi, false_or]

lemma wakeAll_fields (l : List Ptr) (s : World) :
    (l.foldl (fun t ptr => t.wake .gate ptr) s).io = s.io ∧
      (l.foldl (fun t ptr => t.wake .gate ptr) s).ataBusy = s.ataBusy ∧
      (l.foldl (fun t ptr => t.wake .gate ptr) s).gateWaiters = s.gateWaiters ∧
      (l.foldl (fun t ptr => t.wake .gate ptr) s).sys.thread = s.sys.thread := by
  induction l generalizing s with
  | nil => exact ⟨rfl, rfl, rfl, rfl⟩
  | cons ptr l ih =>
    rw [List.foldl_cons]
    exact ih _

lemma GateInv.release (g : GateInv s) (h : Inv s) (hc : s.sys.k.current = some c)
    (hin : (s.io s.sys.thread).HasGate) : GateInv (s.ataGateRelease.goto .idle) := by
  have hth : (s.proc c).pid = s.sys.thread := (h.sys.thread_eq hc).symm
  have hholds : Holder s c := ⟨(h.sys.cur c hc).1, h.sys.live hc, by rw [hth]; exact hin⟩
  obtain ⟨hio, hbusy, hwaiters, hthread⟩ :=
    wakeAll_fields s.gateWaiters { s with ataBusy := false, gateWaiters := [] }
  have hproc := wakeAll_proc s.gateWaiters { s with ataBusy := false, gateWaiters := [] }
  have hcur := wakeAll_current s.gateWaiters { s with ataBusy := false, gateWaiters := [] }
  have hwoken : ∀ i, s.ataGateRelease.proc i = s.proc i ∨
      s.ataGateRelease.proc i = (s.proc i).wake := by
    intro i
    rw [World.ataGateRelease, hproc i]
    split
    · exact .inr rfl
    · exact .inl rfl
  have hrel : Inv s.ataGateRelease := h.ataGateRelease
  have hnone : ∀ i, ¬ Holder (s.ataGateRelease.goto .idle) i := by
    rintro i ⟨hi, hl, hgate⟩
    have hpid : (s.ataGateRelease.proc i).pid = (s.proc i).pid := by
      rcases hwoken i with heq | heq
      · rw [heq]
      · rw [heq, Proc.wake_pid]
    have hgate' : ((s.ataGateRelease.goto .idle).io (s.ataGateRelease.proc i).pid).HasGate := hgate
    by_cases hic : i = c
    · rw [hpid, hic, hth, ← show s.ataGateRelease.sys.thread = s.sys.thread from hthread,
        goto_io_self] at hgate'
      exact hgate'
    · refine hic (g.unique i c ((holder_of_woken hwoken hio).mp ⟨hi, hl, ?_⟩) hholds)
      have hne : (s.ataGateRelease.proc i).pid ≠ s.ataGateRelease.sys.thread :=
        hrel.sys.pid_ne (hcur.1.trans hc) hi hic hl
      rwa [goto_io_of_ne _ _ hne] at hgate'
  have hfree : (s.ataGateRelease.goto .idle).ataBusy = false := hbusy
  have hempty : (s.ataGateRelease.goto .idle).gateWaiters = [] := hwaiters
  refine ⟨fun i _ hi => absurd hi (hnone i), ?_, fun i hi hw => ?_, ?_, ?_⟩
  · rw [hfree]
    exact ⟨fun hb => absurd hb (by simp), fun ⟨i, hi⟩ => absurd hi (hnone i)⟩
  · -- whoever was in the array has been let go
    have hwr : Waiting s.ataGateRelease i .gate := waiting_goto hrel (hcur.1.trans hc) hi hw
    obtain ⟨ptr, hmem, rfl⟩ := g.waits i hi (waiting_of_woken hwoken hio hwr)
    have hb := hwr.1
    rw [World.ataGateRelease, hproc, if_pos (List.mem_map_of_mem hmem), Proc.wake] at hb
    split at hb
    · simp at hb
    case isFalse hne => exact absurd hb hne
  · rw [hempty]
    exact fun hne => absurd rfl hne
  · rw [hempty]
    exact List.nodup_nil

/-! ## One step -/

lemma GateInv.advance (g : GateInv s) (h : Inv s) (hc : s.sys.k.current = some c) (io : Io)
    (hp : ∀ i, t.proc i = s.proc i ∨ t.proc i = (s.proc i).wake)
    (ht : t.io = Function.update s.io s.sys.thread io)
    (hio : io.HasGate ↔ (s.io s.sys.thread).HasGate)
    (hb : t.ataBusy = s.ataBusy) (hg : t.gateWaiters = s.gateWaiters) : GateInv t :=
  (g.goto h hc hio).woken hp ht hb hg

lemma wakeSlot_woken (s : World) (w : Wait) (pid : Nat) (o : Option Nat) (i : Nat) :
    (s.wakeSlot w pid o).proc i = s.proc i ∨ (s.wakeSlot w pid o).proc i = (s.proc i).wake := by
  cases o with
  | none => exact .inl rfl
  | some slot =>
    by_cases hi : i = slot
    · right
      rw [hi]
      exact Kernel.setProc_procs_self _ _ _
    · exact .inl (Kernel.setProc_procs_of_ne _ _ _ hi)

lemma wakeSlot_fields (s : World) (w : Wait) (pid : Nat) (o : Option Nat) :
    (s.wakeSlot w pid o).sys.thread = s.sys.thread ∧ (s.wakeSlot w pid o).io = s.io ∧
      (s.wakeSlot w pid o).ataBusy = s.ataBusy ∧
      (s.wakeSlot w pid o).gateWaiters = s.gateWaiters := by
  cases o <;> exact ⟨rfl, rfl, rfl, rfl⟩

lemma GateInv.pipe_goto (g : GateInv s) (h : Inv s) (hc : s.sys.k.current = some c)
    (hout : ¬ (s.io s.sys.thread).HasGate) (p : Pipe) (w : Wait) (pid : Nat) (o : Option Nat)
    (hio : ¬ io.HasGate) : GateInv (((s.setPipe i p).wakeSlot w pid o).goto io) := by
  obtain ⟨hth, hio', hbusy, hg⟩ := wakeSlot_fields (s.setPipe i p) w pid o
  refine g.advance h hc io (wakeSlot_woken (s.setPipe i p) w pid o) ?_ (iff_of_false hio hout)
    hbusy hg
  rw [World.goto, hio', hth]
  rfl

lemma GateInv.pipeReadStep (g : GateInv s) (h : Inv s) (hc : s.sys.k.current = some c)
    (hout : ¬ (s.io s.sys.thread).HasGate) (i len : Nat) : GateInv (s.pipeReadStep c i len) := by
  rw [World.pipeReadStep]
  dsimp only
  split
  · exact g.pipe_goto h hc hout _ _ _ _ id
  · exact g.pipe_goto h hc hout _ .gate 0 none id
  · exact g.leave h hc .blocked (by simp) (fun _ => rfl) (.readBlocked i len) rfl
      (iff_of_false id hout) (by simp [Io.wait]) rfl rfl

lemma GateInv.pipeWriteStep (g : GateInv s) (h : Inv s) (hc : s.sys.k.current = some c)
    (hout : ¬ (s.io s.sys.thread).HasGate) (i : Nat) (buf : List UInt8) (written : Nat) :
    GateInv (s.pipeWriteStep c i buf written) := by
  rw [World.pipeWriteStep]
  dsimp only
  split
  · exact g.pipe_goto h hc hout _ _ _ _ id
  · exact g.pipe_goto h hc hout _ _ _ _ id
  · exact g.pipe_goto h hc hout _ .gate 0 none id
  · exact g.leave h hc .blocked (by simp) (fun _ => rfl) (.writeBlocked i buf written)
      rfl (iff_of_false id hout) (by simp [Io.wait]) rfl rfl

lemma GateInv.diskStep {good : Bool} {pc : Ata.Pc} (g : GateInv s) (h : Inv s)
    (hc : s.sys.k.current = some c) (hpc : s.io s.sys.thread = .disk pc)
    (hs : s.diskStep c good pc = some t) : GateInv t := by
  -- a step inside the gate, or outside, that stays there
  have hgoto : ∀ pc' f, (pc'.Inside ↔ pc.Inside) →
      GateInv { s.goto (.disk pc') with irqFired := f } := by
    intro pc' f hin
    refine g.advance h hc (.disk pc') (fun _ => .inl rfl) rfl ?_ rfl rfl
    rw [hpc]
    exact hin
  cases pc
  all_goals
    simp only [World.diskStep] at hs
    cases hs
  case gateTry op =>
    split
    case isTrue hbusy =>
      refine g.wait h hc hbusy ?_ id
      rw [hpc]
      exact id
    case isFalse hfree => exact g.acquire h hc (by simpa using hfree) trivial
  case waitIrq cmd =>
    split
    · exact hgoto _ false Iff.rfl
    · refine g.leave h hc .blocked (by simp) (fun _ => rfl) (.disk (.irqBlocked cmd)) rfl
        ?_ (by simp [Io.wait]) rfl rfl
      rw [hpc]
      exact Iff.rfl
  case gateRelease =>
    refine g.release h hc ?_
    rw [hpc]
    trivial
  case gateBlocked op => exact hgoto (.gateTry op) s.irqFired Iff.rfl
  case waitNotBusy op =>
    refine hgoto _ s.irqFired ?_
    split <;> exact Iff.rfl
  case waitDrq =>
    refine hgoto _ s.irqFired ?_
    split <;> exact Iff.rfl
  case clearFlag cmd => cases cmd <;> exact hgoto _ false Iff.rfl
  case consumeFlag cmd => exact hgoto _ false Iff.rfl
  case checkStatus cmd =>
    refine hgoto _ s.irqFired ?_
    split
    · cases cmd <;> exact Iff.rfl
    · exact Iff.rfl
  all_goals exact hgoto _ s.irqFired Iff.rfl

lemma GateInv.frame (g : GateInv s) (h : Inv s) (hf : Frame s.sys t.sys c) (hclt : c < processMax)
    (hcst : (s.proc c).state = .running ∨ (s.proc c).state = .ready) (hio : t.io = s.io)
    (hown : s.io (s.proc c).pid = .idle ∨ (t.proc c).state ≠ .blocked ∧ (t.proc c).state ≠ .unused)
    (hkill : ∀ i e, s.sys.k.current = some c → s.sys.cont = .killUnused i e → Holder s i →
      t.proc i = s.proc i)
    (hb : t.ataBusy = s.ataBusy) (hg : t.gateWaiters = s.gateWaiters) : GateInv t := by
  have hkept : ∀ k < processMax, (t.proc k).state ≠ .unused →
      (s.proc k).state ≠ .unused ∧ (t.proc k).pid = (s.proc k).pid := hf.kept
  refine g.mono (fun i => ⟨?_, ?_⟩) hb hg fun i hi =>
    Inv.frame_back hf hio (hown.imp_right And.left) hi
  · rintro ⟨hi, hl, hgate⟩
    obtain ⟨hls, hp⟩ := hkept i hi hl
    rw [hp, hio] at hgate
    exact ⟨hi, hls, hgate⟩
  · intro hold
    have ⟨hi, hl, hgate⟩ := hold
    by_cases hic : i = c
    · subst hic
      obtain ⟨-, hlt⟩ := hown.resolve_left hgate.ne_idle
      refine ⟨hi, hlt, ?_⟩
      rw [(hkept i hi hlt).2, hio]
      exact hgate
    · have heq := h.frame_call hf hclt hcst hi hic hl hgate.ne_idle fun e hc hcont =>
        hkill i e hc hcont hold
      refine ⟨hi, ?_, ?_⟩
      · rw [heq]
        exact hl
      · rw [heq, hio]
        exact hgate

lemma GateInv.claim (g : GateInv s) (h : Inv s) (hn : Claimed s.sys t.sys slot)
    (hio : t.io = Function.update s.io s.sys.k.nextPid .idle) (hb : t.ataBusy = s.ataBusy)
    (hg : t.gateWaiters = s.gateWaiters) : GateInv t := by
  have hne : ∀ k, k ≠ slot → t.proc k = s.proc k := hn.procs
  have hiok : ∀ k < processMax, (s.proc k).state ≠ .unused →
      t.io (s.proc k).pid = s.io (s.proc k).pid := fun k hk hl => by
    have hp := Nat.ne_of_lt ((h.sys.pid k hk hl).2.resolve_left hn.next)
    rw [hio]
    exact Function.update_of_ne hp _ _
  have hnew : t.io (t.proc slot).pid = .idle := by
    rw [show (t.proc slot).pid = s.sys.k.nextPid from hn.pid, hio, Function.update_self]
  refine g.mono (fun i => ⟨?_, ?_⟩) hb hg fun i hi hw => ?_
  · rintro ⟨hi, hl, hgate⟩
    have his : i ≠ slot := by
      rintro rfl
      exact hgate.ne_idle hnew
    rw [hne i his] at hl hgate
    rw [hiok i hi hl] at hgate
    exact ⟨hi, hl, hgate⟩
  · rintro ⟨hi, hl, hgate⟩
    have his : i ≠ slot := by
      rintro rfl
      exact hl hn.unused
    refine ⟨hi, ?_, ?_⟩
    · rw [hne i his]
      exact hl
    · rw [hne i his, hiok i hi hl]
      exact hgate
  · have his : i ≠ slot := by
      rintro rfl
      exact hw.io_ne hnew
    exact (waiting_iff (hne i his) fun hbl => hiok i hi (by simp [hbl])).mp hw

lemma GateInv.baseStep {a : Preempt.Act} (g : GateInv s) (h : Inv s)
    (hok : GateSafe s (.base a)) (hs : Blocking.baseStep s a = some t) : GateInv t := by
  obtain ⟨heq, ⟨c, hb⟩ | ⟨slot, hb⟩ | ⟨c, j, rfl, hb⟩⟩ := baseStep_cases h hok.1.1 hs
  all_goals
    have hbusy : t.ataBusy = s.ataBusy := by rw [heq]
    have hg : t.gateWaiters = s.gateWaiters := by rw [heq]
  · refine g.frame h hb.frame hb.lt hb.cur hb.io (hb.own.imp_right And.right)
      (fun i e hc hcont hold => ?_) hbusy hg
    rcases hb.kill i e hc hcont with rfl | hsame
    · have hki := hok.2 rfl
      rw [hcont] at hki
      exact absurd hold hki
    · refine hsame ?_
      rintro rfl
      -- a process inside `sys_kill` is in no blocking call
      obtain ⟨hi, hl, hgate⟩ := hold
      have huser := h.call i hi hl hgate.ne_idle
      rw [show (s.proc i).pid = s.sys.thread from (h.sys.thread_eq hc).symm] at huser
      rw [show s.sys.cont = s.sys.conts s.sys.thread from rfl, huser] at hcont
      simp at hcont
  · exact g.claim h hb.claimed hb.io hbusy hg
  · exact g.woken (exitClose_woken hb.cont hb.step) hb.io hbusy hg

lemma GateInv.wakeSleeper (g : GateInv s) (hi : (s.proc i).state = .sleeping) :
    GateInv { s with sys := s.sys.setProc i { s.proc i with state := .ready } } := by
  obtain ⟨t, ht⟩ : ∃ t, { s with sys := s.sys.setProc i { s.proc i with state := .ready } } = t :=
    ⟨_, rfl⟩
  have hself : t.proc i = { s.proc i with state := .ready } := by
    rw [← ht]
    exact Kernel.setProc_procs_self _ _ _
  have hne : ∀ k, k ≠ i → t.proc k = s.proc k := by
    intro k hk
    rw [← ht]
    exact Kernel.setProc_procs_of_ne _ _ _ hk
  have hio : t.io = s.io := by rw [← ht]
  have hb : t.ataBusy = s.ataBusy := by rw [← ht]
  have hg : t.gateWaiters = s.gateWaiters := by rw [← ht]
  rw [ht]
  refine g.mono (fun k => and_congr_right fun hk => ?_) hb hg fun k hk hw => ?_
  · by_cases hki : k = i
    · subst hki
      simp [hself, hi, hio]
    · rw [hne k hki, hio]
  · have hki : k ≠ i := by
      rintro rfl
      have hblocked := hw.1
      rw [hself] at hblocked
      simp at hblocked
    exact (waiting_iff (hne k hki) fun _ => by rw [hio]).mp hw

/-- **One step of a run in which nobody who has the gate is killed.** -/
lemma GateInv.step {a : Act} (g : GateInv s) (h : Inv s) (hok : GateSafe s a)
    (hs : Blocking.step s a = some t) : GateInv t := by
  have hout : ∀ {c}, s.ring3 = some c → ¬ (s.io s.sys.thread).HasGate := fun hc => by
    rw [(ring3_some hc).2.2]
    exact id
  cases a with
  | base a => exact g.baseStep h hok hs
  | irq =>
    cases hs
    refine g.woken (fun i => ?_) ?_ ?_ ?_
    all_goals
      rw [World.ataIrqHandler]
      cases hw : s.irqWaiter
    case refine_1.some ptr =>
      exact wakeSlot_woken { s with irqFired := true, irqWaiter := none } .irq ptr.pid
        (some ptr.slot) i
    case refine_1.none => exact .inl rfl
    all_goals rfl
  | wakeSleeper i =>
    simp only [Blocking.step] at hs
    split at hs
    case isTrue hi =>
      cases hs
      exact g.wakeSleeper hi.2
    case isFalse => simp at hs
  | go good =>
    simp only [Blocking.step, World.go] at hs
    split at hs
    case h_2 => simp at hs
    case h_1 c hc hu =>
      split at hs
      case h_1 => simp at hs
      case h_2 i len hio =>
        cases hs
        exact g.pipeReadStep h hc (by rw [hio]; exact id) i len
      case h_4 i buf written hio =>
        cases hs
        exact g.pipeWriteStep h hc (by rw [hio]; exact id) i buf written
      case h_6 pc hio => exact g.diskStep h hc hio hs
      all_goals
        rename_i hio
        cases hs
        refine g.goto h hc ?_
        rw [hio]
        exact Iff.rfl
  | pipeCreate =>
    obtain ⟨c, hc, rfl⟩ := Option.map_eq_some_iff.mp hs
    split
    · exact g
    case h_2 i k hk =>
      obtain ⟨j, -, hpair⟩ := Option.map_eq_some_iff.mp hk
      obtain ⟨rfl, rfl⟩ := Prod.mk.inj hpair
      exact g.woken (fun _ => .inl rfl) rfl rfl rfl
  | pipeRead i len =>
    obtain ⟨c, hc, rfl⟩ := Option.map_eq_some_iff.mp hs
    split
    · exact g
    · exact g.goto h (ring3_some hc).1 (iff_of_false id (hout hc))
  | pipeWrite i buf =>
    obtain ⟨c, hc, rfl⟩ := Option.map_eq_some_iff.mp hs
    split
    · exact g
    · exact g.goto h (ring3_some hc).1 (iff_of_false id (hout hc))
  | disk op =>
    obtain ⟨c, hc, rfl⟩ := Option.map_eq_some_iff.mp hs
    exact g.goto h (ring3_some hc).1 (iff_of_false id (hout hc))
  | close j =>
    obtain ⟨c, hc, rfl⟩ := Option.map_eq_some_iff.mp hs
    exact g.woken (vfsClose_woken s.sys.k c j) rfl rfl rfl
  | sleep =>
    obtain ⟨c, hc, rfl⟩ := Option.map_eq_some_iff.mp hs
    obtain ⟨hcur, -, hidle⟩ := ring3_some hc
    refine g.leave h hcur .sleeping (by simp) (fun _ => rfl) .idle ?_
      (iff_of_false id (hout hc)) (by simp) rfl rfl
    rw [← hidle, Function.update_eq_self]
    rfl

lemma gateInv_boot : GateInv boot := by
  have hnone : ∀ i, ¬ Holder boot i := fun i hi => hi.2.1 rfl
  refine ⟨fun i _ hi => absurd hi (hnone i), ⟨fun hb => absurd hb (by simp [boot]), ?_⟩,
    fun i _ hw => absurd rfl hw.live, fun hne => absurd rfl hne, List.nodup_nil⟩
  rintro ⟨i, hi⟩
  exact absurd hi (hnone i)

/-- **The disk gate has a live holder whenever it is taken, and nobody waits for it when it is
free**, in every state of a run in which `sys_kill` ends nobody who has it. -/
theorem gateHeld_of_gateSafe (h : ReachIf step (· = boot) GateSafe s) : GateHeld s := by
  have hboth : Inv s ∧ GateInv s := by
    refine h.invariant (I := fun s => Inv s ∧ GateInv s) (fun s hs => ?_)
      fun s a t hi hok hs => ⟨hi.1.step hok.1 hs, hi.2.step hi.1 hok hs⟩
    subst hs
    exact ⟨inv_boot, gateInv_boot⟩
  exact hboth.2.gateHeld

def gateContended : List Act :=
  [.base (.spawn 0x400000), .base (.spawn 0x500000), .base (.run 0), .disk .readSector, .go true,
    .base .preempt, .base (.run 1), .disk .readSector, .go true]

theorem gateHeld_gateContended :
    ∃ s, runIf step GateSafe boot gateContended = some s ∧ s.ataBusy = true ∧
      Holder s 0 ∧ Waiting s 1 .gate ∧ GateHeld s := by
  have hrun : (runIf step GateSafe boot gateContended).map
      (fun s => (s.ataBusy, decide (Holder s 0), decide (Waiting s 1 .gate))) =
        some (true, true, true) := by
    decide +kernel
  obtain ⟨s, hs, hproj⟩ := Option.map_eq_some_iff.mp hrun
  obtain ⟨hbusy, hproj⟩ := Prod.mk.inj hproj
  obtain ⟨hold, hwait⟩ := Prod.mk.inj hproj
  exact ⟨s, hs, hbusy, of_decide_eq_true hold, of_decide_eq_true hwait,
    gateHeld_of_gateSafe (ReachIf.of_runIf (.start rfl) hs)⟩

def holderKilled : List Act :=
  [.base (.spawn 0x400000), .base (.spawn 0x500000), .base (.run 0), .disk .readSector, .go true,
    .base .preempt, .base (.run 1), .base (.kill 1)] ++ List.replicate 22 (.base .step)

theorem gateOrphaned : ¬ ∀ s, Reach step (· = boot) s → GateHeld s := by
  intro hall
  have hrun : (run step boot holderKilled).map
      (fun s => (s.ataBusy, decide (∃ i < processMax, Holder s i))) = some (true, false) := by
    decide +kernel
  obtain ⟨s, hs, hproj⟩ := Option.map_eq_some_iff.mp hrun
  obtain ⟨hbusy, hnone⟩ := Prod.mk.inj hproj
  obtain ⟨i, hi⟩ := (hall s (Reach.of_run rfl hs)).held hbusy
  exact of_decide_eq_false hnone ⟨i, hi.1, hi⟩

end NullOS.Blocking
