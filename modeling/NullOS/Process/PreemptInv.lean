import NullOS.Process.Preempt
import NullOS.Lib.Run

/-!
# What holds at each program point

An assertion for each program point of a live thread, and what a slot in each state looks like.  The
invariant survives every step as long as the timer stays out of the few windows of `Cont.Window`,
`sys_kill` ends neither its caller nor a process that is still being built, and `next_pid` does not
wrap around to 0.
-/

namespace NullOS.Preempt

open Lib Vfs

/-- The process a thread at this point is building and has not made runnable yet. -/
def Cont.building : Cont → Option Build
  | .spawnEsp b | .spawnCr3 b | .spawnRedirects b | .spawnPublish b | .seedStdin b
  | .seedStdout b | .makeReadyTest b | .makeReadySet b | .forkFill b | .forkWait b
  | .forkCopy b | .forkUnused b | .forkCr3 b | .forkEsp b | .forkReady b => some b
  | _ => none

/-- The points at which a preemption can hurt: `process_fork` before it has cleared a stale
`waiting_for_pid`; between `state = UNUSED` and `pid = 0`; and in `process_exit` between a
test and the accesses that rely on it. -/
def Cont.Window (k : Kernel) : Cont → Prop
  | .forkFill b | .forkWait b => (k.procs b.slot).waitingForPid ≠ 0
  | .forkPid _ | .killRead _ | .killPid _ _ | .killWaiting _ _ | .killReady _ _ => True
  | _ => False

/-- Some live thread is building the process in slot `i`. -/
def UnderConstruction (s : Sys) (i : Nat) : Prop :=
  ∃ q < processMax, (s.k.procs q).state ≠ .unused ∧
    ∃ b ∈ (s.conts (s.k.procs q).pid).building, b.slot = i

/-- `sys_kill` is about to end neither its caller nor a process that is still being built. -/
def KillOk (s : Sys) : Cont → Prop
  | .killUnused i _ => s.k.current ≠ some i ∧ ¬ UnderConstruction s i
  | _ => True

def Careful (s : Sys) : Act → Prop
  | .preempt => ¬ s.cont.Window s.k
  | .step => KillOk s s.cont
  | .exec _ | .execPipe _ _ _ | .fork _ _ | .spawn _ => s.k.nextPid ≠ 0
  | .tickInRun _ => False
  | _ => True

instance (k : Kernel) : DecidablePred (Cont.Window k) := by
  intro n
  cases n
  case forkFill | forkWait => exact inferInstanceAs (Decidable (_ ≠ _))
  case forkPid | killRead | killPid | killWaiting | killReady => exact .isTrue trivial
  all_goals exact .isFalse id

instance (s : Sys) (i : Nat) : Decidable (UnderConstruction s i) :=
  inferInstanceAs (Decidable (∃ q < processMax, _ ∧ ∃ b ∈ Cont.building _, Build.slot b = i))

instance (s : Sys) : DecidablePred (KillOk s) := by
  intro n
  cases n
  case killUnused i _ => exact inferInstanceAs (Decidable (_ ∧ ¬ UnderConstruction s i))
  all_goals exact .isTrue trivial

instance (s : Sys) : DecidablePred (Careful s)
  | .preempt => inferInstanceAs (Decidable (¬ s.cont.Window s.k))
  | .step => inferInstanceAs (Decidable (KillOk s s.cont))
  | .exec _ | .execPipe _ _ _ | .fork _ _ | .spawn _ =>
      inferInstanceAs (Decidable (s.k.nextPid ≠ 0))
  | .exit | .kill _ | .wait _ | .ownFd _ _ | .run _ => .isTrue trivial
  | .tickInRun _ => .isFalse id

/-! ## The assertions -/

/-- A process under construction, seen from the thread in slot `p` that builds it. -/
structure Building (s : Sys) (p : Nat) (b : Build) : Prop where
  lt : b.slot < processMax
  ne : b.slot ≠ p
  state : (s.k.procs b.slot).state = .blocked
  pid : (s.k.procs b.slot).pid = b.pid
  dir : s.dirOf b.pid = b.dir

/-- The stack and the directory of a slot are those of its pid. -/
def Image (s : Sys) (i : Nat) : Prop :=
  (s.k.procs i).esp = (s.k.procs i).pid ∧ (s.k.procs i).cr3 = s.dirOf (s.k.procs i).pid

/-- What holds when the live thread in slot `p` is at a program point. -/
def At (s : Sys) (p : Nat) : Cont → Prop
  | .spawnEsp b | .forkCopy b | .forkUnused b | .forkCr3 b =>
      Building s p b ∧ (s.k.procs b.slot).waitingForPid = 0
  | .spawnCr3 b =>
      Building s p b ∧ (s.k.procs b.slot).waitingForPid = 0 ∧ (s.k.procs b.slot).esp = b.pid
  | .spawnRedirects b | .spawnPublish b | .seedStdin b | .seedStdout b | .makeReadyTest b
  | .makeReadySet b | .forkReady b =>
      Building s p b ∧ (s.k.procs b.slot).waitingForPid = 0 ∧ (s.k.procs b.slot).esp = b.pid ∧
        (s.k.procs b.slot).cr3 = b.dir
  | .forkFill b | .forkWait b => Building s p b
  | .forkEsp b =>
      Building s p b ∧ (s.k.procs b.slot).waitingForPid = 0 ∧ (s.k.procs b.slot).cr3 = b.dir
  | .forkPid b => b.slot < processMax ∧ b.slot ≠ p ∧ (s.k.procs b.slot).state = .unused
  | .killTest i => i < processMax
  | .killRead i => i < processMax ∧ (s.k.procs i).state ≠ .unused
  | .killUnused i e => i < processMax ∧ e ≠ 0
  | .killPid i e => i < processMax ∧ e ≠ 0 ∧ i ≠ p ∧ (s.k.procs i).state = .unused
  | .killWake e _ => e ≠ 0
  | .killWaiting e j => e ≠ 0 ∧ j < processMax ∧ (s.k.procs j).state = .blocked ∧
      (s.k.procs j).waitingForPid = e
  | .killReady e j => e ≠ 0 ∧ j < processMax ∧ (s.k.procs j).state = .blocked ∧
      (s.k.procs j).waitingForPid = 0 ∧ Image s j ∧ ¬ UnderConstruction s j
  | _ => True

structure Inv (s : Sys) : Prop where
  next_lt : s.k.nextPid < 0x100000000
  cur : ∀ c, s.k.current = some c → c < processMax ∧ (s.k.procs c).state = .running ∧
    s.thread = (s.k.procs c).pid
  running : ∀ i < processMax, (s.k.procs i).state = .running → s.k.current = some i
  pid : ∀ i < processMax, (s.k.procs i).state ≠ .unused →
    (s.k.procs i).pid ≠ 0 ∧ (s.k.nextPid = 0 ∨ (s.k.procs i).pid < s.k.nextPid)
  pid_inj : ∀ i < processMax, ∀ j < processMax, (s.k.procs i).state ≠ .unused →
    (s.k.procs j).state ≠ .unused → (s.k.procs i).pid = (s.k.procs j).pid → i = j
  formed : ∀ i < processMax, (s.k.procs i).state = .ready ∨ (s.k.procs i).state = .running →
    Image s i ∧ ((s.k.procs i).waitingForPid = 0 ∨ s.waitBy i = (s.k.procs i).pid)
  -- a blocked slot with somebody to wait for is a waiter, or has just been claimed by a fork
  waiting : ∀ i < processMax, (s.k.procs i).state = .blocked → (s.k.procs i).waitingForPid ≠ 0 →
    (Image s i ∧ s.waitBy i = (s.k.procs i).pid) ∨
      ∃ b, (s.cont = .forkFill b ∨ s.cont = .forkWait b) ∧ b.slot = i ∧ s.k.current ≠ none
  points : ∀ p < processMax, (s.k.procs p).state ≠ .unused →
    At s p (s.conts (s.k.procs p).pid)
  others : ∀ p < processMax, (s.k.procs p).state ≠ .unused → s.k.current ≠ some p →
    ¬ (s.conts (s.k.procs p).pid).Window s.k
  builder : ∀ p < processMax, ∀ q < processMax, (s.k.procs p).state ≠ .unused →
    (s.k.procs q).state ≠ .unused → ∀ b ∈ (s.conts (s.k.procs p).pid).building,
      ∀ b' ∈ (s.conts (s.k.procs q).pid).building, b.slot = b'.slot → p = q

variable {s t : Sys} {c i p q slot : Nat} {b : Build} {n : Cont}

lemma Building.congr (h : Building s p b) (hp : t.k.procs b.slot = s.k.procs b.slot)
    (hd : t.dirOf b.pid = s.dirOf b.pid) : Building t p b :=
  ⟨h.lt, h.ne, by rw [hp]; exact h.state, by rw [hp]; exact h.pid, by rw [hd]; exact h.dir⟩

lemma At.building (h : At s p n) (hb : b ∈ n.building) : Building s p b := by
  cases n <;> simp only [Cont.building, Option.mem_def, Option.some.injEq, reduceCtorEq] at hb
  all_goals subst hb
  all_goals first | exact h | exact h.1

lemma At.congr (h : At s p n) (hw : ¬ n.Window s.k)
    (hb : ∀ b ∈ n.building, t.k.procs b.slot = s.k.procs b.slot ∧ t.dirOf b.pid = s.dirOf b.pid) :
    At t p n := by
  cases n
  case user | readPid | forkRow | exitClose | exitEnd | killScan | waitCheck | waitClear =>
    trivial
  case killTest | killUnused | killWake => exact h
  case forkPid | killRead | killPid | killWaiting | killReady => exact absurd trivial hw
  case forkFill b | forkWait b =>
    obtain ⟨hp, hd⟩ := hb b rfl
    exact Building.congr h hp hd
  all_goals
    rename_i b
    obtain ⟨hp, hd⟩ := hb b rfl
    refine ⟨h.1.congr hp hd, ?_⟩
    rw [hp]
    exact h.2

lemma Cont.Window.congr {k l : Kernel} (hb : ∀ b ∈ n.building, l.procs b.slot = k.procs b.slot) :
    n.Window l ↔ n.Window k := by
  cases n
  case forkFill b | forkWait b => simp only [Cont.Window, hb b rfl]
  all_goals rfl

/-! ## Steps of the current thread -/

@[simp] lemma goto_k (s : Sys) (n : Cont) : (s.goto n).k = s.k := rfl
@[simp] lemma goto_thread (s : Sys) (n : Cont) : (s.goto n).thread = s.thread := rfl
@[simp] lemma goto_dirOf (s : Sys) (n : Cont) : (s.goto n).dirOf = s.dirOf := rfl
@[simp] lemma goto_waitBy (s : Sys) (n : Cont) : (s.goto n).waitBy = s.waitBy := rfl
@[simp] lemma goto_rowOf (s : Sys) (n : Cont) : (s.goto n).rowOf = s.rowOf := rfl
@[simp] lemma goto_cont (s : Sys) (n : Cont) : (s.goto n).cont = n := by
  simp [Sys.goto, Sys.cont]

lemma goto_conts_of_ne (s : Sys) (n : Cont) {g : Nat} (h : g ≠ s.thread) :
    (s.goto n).conts g = s.conts g := by
  simp [Sys.goto, h]

@[simp] lemma goto_conts_self (s : Sys) (n : Cont) : (s.goto n).conts s.thread = n := by
  simp [Sys.goto]

@[simp] lemma setProc_k (s : Sys) (i : Nat) (p : Proc) :
    (s.setProc i p).k = s.k.setProc i p := rfl
@[simp] lemma setProc_thread (s : Sys) (i : Nat) (p : Proc) :
    (s.setProc i p).thread = s.thread := rfl
@[simp] lemma setProc_conts (s : Sys) (i : Nat) (p : Proc) :
    (s.setProc i p).conts = s.conts := rfl
@[simp] lemma setProc_dirOf (s : Sys) (i : Nat) (p : Proc) :
    (s.setProc i p).dirOf = s.dirOf := rfl
@[simp] lemma setProc_waitBy (s : Sys) (i : Nat) (p : Proc) :
    (s.setProc i p).waitBy = s.waitBy := rfl

/-- Only the thread of slot `c` may be building the process in slot `i`. -/
def Quiet (s : Sys) (c i : Nat) : Prop :=
  ∀ q < processMax, q ≠ c → (s.k.procs q).state ≠ .unused →
    ∀ b ∈ (s.conts (s.k.procs q).pid).building, b.slot ≠ i

lemma Inv.thread_eq (h : Inv s) (hc : s.k.current = some c) :
    s.thread = (s.k.procs c).pid :=
  (h.cur c hc).2.2

lemma Inv.live (h : Inv s) (hc : s.k.current = some c) : (s.k.procs c).state ≠ .unused := by
  rw [(h.cur c hc).2.1]
  simp

lemma Inv.pid_ne (h : Inv s) (hc : s.k.current = some c) (hq : q < processMax) (hqc : q ≠ c)
    (hl : (s.k.procs q).state ≠ .unused) : (s.k.procs q).pid ≠ s.thread := by
  rw [h.thread_eq hc]
  exact fun heq => hqc (h.pid_inj q hq c (h.cur c hc).1 hl (h.live hc) heq)

lemma Inv.quiet (h : Inv s) (hc : s.k.current = some c) (hb : b ∈ s.cont.building) :
    Quiet s c b.slot := by
  intro q hq hqc hl b' hb' heq
  refine hqc (h.builder q hq c (h.cur c hc).1 hl (h.live hc) b' hb' b ?_ heq)
  rw [← h.thread_eq hc]
  exact hb

lemma Inv.quiet_of_state (h : Inv s) (hi : (s.k.procs i).state ≠ .blocked) : Quiet s c i := by
  intro q hq _ hl b hb heq
  have hblocked := ((h.points q hq hl).building hb).state
  rw [heq] at hblocked
  exact hi hblocked

/-- What the invariant says of slot `i` besides the program point of its thread. -/
def SlotOk (s : Sys) (i : Nat) : Prop :=
  ((s.k.procs i).state = .ready ∨ (s.k.procs i).state = .running →
    Image s i ∧ ((s.k.procs i).waitingForPid = 0 ∨ s.waitBy i = (s.k.procs i).pid)) ∧
  ((s.k.procs i).state = .blocked → (s.k.procs i).waitingForPid ≠ 0 →
    (Image s i ∧ s.waitBy i = (s.k.procs i).pid) ∨
      ∃ b, (s.cont = .forkFill b ∨ s.cont = .forkWait b) ∧ b.slot = i ∧ s.k.current ≠ none)

lemma Inv.slot_of_same (h : Inv s) (hi : i < processMax) (hp : t.k.procs i = s.k.procs i)
    (hd : t.dirOf = s.dirOf) (hw : t.waitBy i = s.waitBy i)
    (hfork : ∀ b, s.cont = .forkFill b ∨ s.cont = .forkWait b → b.slot = i →
      s.k.current ≠ none → (s.k.procs i).waitingForPid ≠ 0 →
        (t.cont = .forkFill b ∨ t.cont = .forkWait b) ∧ t.k.current ≠ none) : SlotOk t i := by
  rw [SlotOk, Image, hp, hd, hw]
  refine ⟨h.formed i hi, fun hb hw => ?_⟩
  rcases h.waiting i hi hb hw with him | ⟨b, hcont, hbi, hcur⟩
  · exact .inl him
  · obtain ⟨hcont', hcur'⟩ := hfork b hcont hbi hcur hw
    exact .inr ⟨b, hcont', hbi, hcur'⟩

/-- A thread that does not run is where it was, if what it builds is as it was. -/
lemma Inv.at_of_same (h : Inv s) (hq : q < processMax) (hl : (s.k.procs q).state ≠ .unused)
    (hqc : s.k.current ≠ some q) (hd : t.dirOf = s.dirOf)
    (hcont : t.conts (s.k.procs q).pid = s.conts (s.k.procs q).pid)
    (hb : ∀ b ∈ (s.conts (s.k.procs q).pid).building, t.k.procs b.slot = s.k.procs b.slot) :
    At t q (t.conts (s.k.procs q).pid) ∧
      (t.k.current ≠ some q → ¬ (t.conts (s.k.procs q).pid).Window t.k) := by
  rw [hcont]
  exact ⟨(h.points q hq hl).congr (h.others q hq hl hqc) fun b hb' => ⟨hb b hb', by rw [hd]⟩,
    fun _ => mt (Cont.Window.congr hb).mp (h.others q hq hl hqc)⟩

/-- **A step that creates no process** and moves the thread of slot `c` at most.  What is left to
check is local: the slots, the program points, and what the thread of `c` builds now. -/
lemma Inv.of_step (h : Inv s) (c : Nat) (hnext : t.k.nextPid = s.k.nextPid)
    (hold : ∀ q < processMax, (t.k.procs q).state ≠ .unused →
      (s.k.procs q).state ≠ .unused ∧ (t.k.procs q).pid = (s.k.procs q).pid)
    (hcur : ∀ d, t.k.current = some d → d < processMax ∧ (t.k.procs d).state = .running ∧
      t.thread = (t.k.procs d).pid)
    (hrun : ∀ i < processMax, (t.k.procs i).state = .running → t.k.current = some i)
    (hslot : ∀ i < processMax, SlotOk t i)
    (hconts : ∀ q < processMax, q ≠ c → (s.k.procs q).state ≠ .unused →
      t.conts (s.k.procs q).pid = s.conts (s.k.procs q).pid)
    (hat : ∀ q < processMax, (t.k.procs q).state ≠ .unused →
      At t q (t.conts (s.k.procs q).pid) ∧
        (t.k.current ≠ some q → ¬ (t.conts (s.k.procs q).pid).Window t.k))
    (hbuild : (t.k.procs c).state ≠ .unused → ∀ b ∈ (t.conts (s.k.procs c).pid).building,
      b ∈ (s.conts (s.k.procs c).pid).building ∨ Quiet s c b.slot) : Inv t := by
  refine ⟨by rw [hnext]; exact h.next_lt, hcur, hrun, fun k hk hkl => ?_,
    fun k hk l hl hkl hll heq => ?_, fun k hk => (hslot k hk).1, fun k hk => (hslot k hk).2,
    fun q hq hql => ?_, fun q hq hql => ?_, fun q hq r hr hql hrl b hb b' hb' heq => ?_⟩
  · obtain ⟨hl, hp⟩ := hold k hk hkl
    rw [hp, hnext]
    exact h.pid k hk hl
  · obtain ⟨hkl', hkp⟩ := hold k hk hkl
    obtain ⟨hll', hlp⟩ := hold l hl hll
    rw [hkp, hlp] at heq
    exact h.pid_inj k hk l hl hkl' hll' heq
  · rw [(hold q hq hql).2]
    exact (hat q hq hql).1
  · rw [(hold q hq hql).2]
    exact (hat q hq hql).2
  · obtain ⟨hql', hqp⟩ := hold q hq hql
    obtain ⟨hrl', hrp⟩ := hold r hr hrl
    rw [hqp] at hb
    rw [hrp] at hb'
    by_contra hqr
    -- at most one of the two threads has moved
    have hfrom : ∀ {q : Nat} {b : Build}, q < processMax → (t.k.procs q).state ≠ .unused →
        (s.k.procs q).state ≠ .unused → b ∈ (t.conts (s.k.procs q).pid).building →
        b ∈ (s.conts (s.k.procs q).pid).building ∨ q = c ∧ Quiet s c b.slot := by
      intro q b hq hql hl hb
      by_cases hqc : q = c
      · subst hqc
        exact (hbuild hql b hb).imp_right fun hquiet => ⟨rfl, hquiet⟩
      · rw [hconts q hq hqc hl] at hb
        exact .inl hb
    rcases hfrom hq hql hql' hb with hb | ⟨rfl, hquiet⟩
    · rcases hfrom hr hrl hrl' hb' with hb' | ⟨rfl, hquiet⟩
      · exact hqr (h.builder q hq r hr hql' hrl' b hb b' hb' heq)
      · exact hquiet q hq hqr hql' b hb heq
    · have hrq : r ≠ q := fun he => hqr he.symm
      rw [hconts r hr hrq hrl'] at hb'
      exact hquiet r hr hrq hrl' b' hb' heq.symm

/-- The current thread changes one slot and moves on. -/
lemma Inv.step_slot (h : Inv s) (hc : s.k.current = some c) (hi : i < processMax) {p : Proc}
    (hquiet : Quiet s c i)
    (hlive : p.state ≠ .unused → (s.k.procs i).state ≠ .unused ∧ p.pid = (s.k.procs i).pid)
    (hrun : p.state = .running ↔ (s.k.procs i).state = .running)
    (hformed : p.state = .ready ∨ p.state = .running → p.esp = p.pid ∧ p.cr3 = s.dirOf p.pid ∧
      (p.waitingForPid = 0 ∨ s.waitBy i = p.pid))
    (hwaiting : p.state = .blocked → p.waitingForPid ≠ 0 →
      (p.esp = p.pid ∧ p.cr3 = s.dirOf p.pid ∧ s.waitBy i = p.pid) ∨
        ∃ b, (n = .forkFill b ∨ n = .forkWait b) ∧ b.slot = i)
    (hfork : ∀ b, s.cont = .forkFill b ∨ s.cont = .forkWait b → b.slot = i)
    (hbuild : ∀ b ∈ n.building, b.slot = i)
    (hat : At ((s.setProc i p).goto n) c n) : Inv ((s.setProc i p).goto n) := by
  obtain ⟨hclt, hcrun, hthread⟩ := h.cur c hc
  have hne := fun k (hk : k ≠ i) => Kernel.setProc_procs_of_ne s.k i p hk
  have hself := Kernel.setProc_procs_self s.k i p
  have hold := s.k.setProc_kept hlive
  have hstate : ∀ q, ((s.k.setProc i p).procs q).state = .running ↔
      (s.k.procs q).state = .running := by
    intro q
    by_cases hqi : q = i
    · rw [hqi, hself]
      exact hrun
    · rw [hne q hqi]
  have hcontc : ((s.setProc i p).goto n).conts (s.k.procs c).pid = n := by
    rw [← hthread]
    exact goto_conts_self _ _
  refine h.of_step c rfl (fun q _ => hold q) (fun d hd => ?_)
    (fun k hk hkr => h.running k hk ((hstate k).mp hkr)) (fun k hk => ?_)
    (fun q hq hqc hl => goto_conts_of_ne (s.setProc i p) n (h.pid_ne hc hq hqc hl))
    (fun q hq hql => ?_) (fun _ b hb => .inr ?_)
  · obtain rfl : c = d := Option.some.inj (hc.symm.trans hd)
    have hrunc := (hstate c).mpr hcrun
    exact ⟨hclt, hrunc, hthread.trans (hold c (by rw [hrunc]; simp)).2.symm⟩
  · by_cases hki : k = i
    · subst hki
      simp only [SlotOk, Image, goto_k, setProc_k, hself, goto_cont]
      refine ⟨fun hks => ?_, fun hkb hkw => ?_⟩
      · obtain ⟨he, hd, hw⟩ := hformed hks
        exact ⟨⟨he, hd⟩, hw⟩
      · rcases hwaiting hkb hkw with ⟨he, hd, hw⟩ | ⟨b, hb, hbi⟩
        · exact .inl ⟨⟨he, hd⟩, hw⟩
        · exact .inr ⟨b, hb, hbi, by simp [hc]⟩
    · exact h.slot_of_same hk (hne k hki) rfl rfl fun b hb hbk =>
        absurd (hbk.symm.trans (hfork b hb)) hki
  · have hl := (hold q hql).1
    by_cases hqc : q = c
    · subst hqc
      rw [hcontc]
      exact ⟨hat, fun hcur => absurd hc hcur⟩
    · have hcq : s.k.current ≠ some q := fun he => hqc (Option.some.inj (he.symm.trans hc))
      exact h.at_of_same hq hl hcq rfl
        (goto_conts_of_ne (s.setProc i p) n (h.pid_ne hc hq hqc hl)) fun b hb =>
          hne b.slot (hquiet q hq hqc hl b hb)
  · rw [hcontc] at hb
    rw [hbuild b hb]
    exact hquiet

lemma Inv.at_cur (h : Inv s) (hc : s.k.current = some c) : At s c s.cont := by
  have hat := h.points c (h.cur c hc).1 (h.live hc)
  rwa [← h.thread_eq hc] at hat

@[simp] lemma setProc_self (s : Sys) (i : Nat) : s.setProc i (s.k.procs i) = s := by
  simp [Sys.setProc, Kernel.setProc]

lemma Inv.step_goto (h : Inv s) (hc : s.k.current = some c)
    (hfork : ∀ b, s.cont ≠ .forkFill b ∧ s.cont ≠ .forkWait b)
    (hbuild : ∀ b ∈ n.building, b ∈ s.cont.building) (hat : At (s.goto n) c n) :
    Inv (s.goto n) := by
  obtain ⟨hclt, hcrun, -⟩ := h.cur c hc
  -- the slot being built, or the thread's own if there is none
  obtain ⟨i, hi, hquiet, hn⟩ : ∃ i < processMax, Quiet s c i ∧ ∀ b ∈ n.building, b.slot = i := by
    cases hb : n.building with
    | none =>
      exact ⟨c, hclt, h.quiet_of_state (by simp [hcrun]), fun b hb' => absurd hb' (by simp)⟩
    | some b =>
      have hb' := hbuild b hb
      refine ⟨b.slot, ((h.at_cur hc).building hb').lt, h.quiet hc hb', fun b'' hb'' => ?_⟩
      rw [Option.mem_def, Option.some.injEq] at hb''
      rw [hb'']
  have hstep := h.step_slot (n := n) hc hi hquiet (p := s.k.procs i) (fun hl => ⟨hl, rfl⟩) Iff.rfl
    (fun hs => ?_) (fun hbl hw => ?_) (fun b hb => ?_) hn (by rw [setProc_self]; exact hat)
  · rwa [setProc_self] at hstep
  · obtain ⟨him, hw⟩ := h.formed i hi hs
    exact ⟨him.1, him.2, hw⟩
  · rcases h.waiting i hi hbl hw with ⟨him, hby⟩ | ⟨b, hb, -⟩
    · exact .inl ⟨him.1, him.2, hby⟩
    · simp [hfork b] at hb
  · simp [hfork b] at hb

lemma Building.set (h : Building s p b) {x : Proc} (hs : x.state = .blocked) (hp : x.pid = b.pid) :
    Building ((s.setProc b.slot x).goto n) p b :=
  ⟨h.lt, h.ne, by simpa using hs, by simpa using hp, h.dir⟩

lemma Inv.step_build (h : Inv s) (hc : s.k.current = some c) (hb : b ∈ s.cont.building) {x : Proc}
    (hs : x.state = .blocked) (hp : x.pid = (s.k.procs b.slot).pid)
    (hwait : x.waitingForPid ≠ 0 → n = .forkFill b ∨ n = .forkWait b)
    (hn : ∀ b' ∈ n.building, b'.slot = b.slot)
    (hat : Building ((s.setProc b.slot x).goto n) c b → At ((s.setProc b.slot x).goto n) c n) :
    Inv ((s.setProc b.slot x).goto n) := by
  have hbd := (h.at_cur hc).building hb
  refine h.step_slot hc hbd.lt (h.quiet hc hb) (fun _ => ⟨?_, hp⟩) ?_ (fun hr => ?_)
    (fun _ hw => .inr ⟨b, hwait hw, rfl⟩) (fun b' hb' => ?_) hn
    (hat (hbd.set hs (hp.trans hbd.pid)))
  · simp [hbd.state]
  · simp [hs, hbd.state]
  · simp [hs] at hr
  · rcases hb' with hb' | hb' <;> simp only [hb', Cont.building, Option.mem_def,
      Option.some.injEq] at hb <;> rw [hb]

lemma Inv.step_publish (h : Inv s) (hc : s.k.current = some c) (hb : b ∈ s.cont.building)
    (hw : (s.k.procs b.slot).waitingForPid = 0) (he : (s.k.procs b.slot).esp = b.pid)
    (hd : (s.k.procs b.slot).cr3 = b.dir) (hn : n.building = none) (hat : ∀ t, At t c n) :
    Inv ((s.setProc b.slot { s.k.procs b.slot with state := .ready }).goto n) := by
  have hbd := (h.at_cur hc).building hb
  refine h.step_slot hc hbd.lt (h.quiet hc hb) (fun _ => ⟨by simp [hbd.state], rfl⟩)
    (by simp [hbd.state]) (fun _ => ⟨?_, ?_, .inl hw⟩) (fun hx => absurd hx (by simp))
    (fun b' hb' => ?_) (fun b' hb' => absurd hb' (by simp [hn])) (hat _)
  · exact he.trans hbd.pid.symm
  · show (s.k.procs b.slot).cr3 = s.dirOf (s.k.procs b.slot).pid
    rw [hd, hbd.pid, hbd.dir]
  · rcases hb' with hb' | hb' <;> simp only [hb', Cont.building, Option.mem_def,
      Option.some.injEq] at hb <;> rw [hb]

lemma At.building_waiting (h : At s p n) (hw : ¬ n.Window s.k) (hb : b ∈ n.building) :
    (s.k.procs b.slot).waitingForPid = 0 := by
  cases n <;> simp only [Cont.building, Option.mem_def, Option.some.injEq, reduceCtorEq] at hb
  all_goals subst hb
  case forkFill | forkWait => exact not_not.mp hw
  case spawnEsp | forkCopy | forkUnused | forkCr3 => exact h.2
  all_goals exact h.2.1

lemma Inv.quiet_of_waiting (h : Inv s) (hc : s.k.current = some c)
    (hw : (s.k.procs i).waitingForPid ≠ 0) : Quiet s c i := by
  intro q hq hqc hl b hb heq
  have hcq : s.k.current ≠ some q := fun he => hqc (Option.some.inj (he.symm.trans hc))
  have hzero := (h.points q hq hl).building_waiting (h.others q hq hl hcq) hb
  rw [heq] at hzero
  exact hw hzero

lemma quiet_of_not_underConstruction (h : ¬ UnderConstruction s i) : Quiet s c i :=
  fun q hq _ hl b hb heq => h ⟨q, hq, hl, b, hb, heq⟩

lemma Inv.step_unused (h : Inv s) (hc : s.k.current = some c) (hi : i < processMax) (hic : i ≠ c)
    (hquiet : Quiet s c i) (hfork : ∀ b, s.cont ≠ .forkFill b ∧ s.cont ≠ .forkWait b)
    (hn : n.building = none)
    (hat : At ((s.setProc i { s.k.procs i with state := .unused }).goto n) c n) :
    Inv ((s.setProc i { s.k.procs i with state := .unused }).goto n) := by
  refine h.step_slot hc hi hquiet (fun hl => absurd rfl hl) ⟨fun hr => absurd hr (by simp),
    fun hr => ?_⟩ (fun hr => absurd hr (by simp)) (fun hr => absurd hr (by simp))
    (fun b hb => absurd hb (by simp [hfork b])) (fun b hb => absurd hb (by simp [hn])) hat
  exact absurd (Option.some.inj ((h.running i hi hr).symm.trans hc)) hic

lemma Inv.step_pid (h : Inv s) (hc : s.k.current = some c) (hi : i < processMax)
    (hu : (s.k.procs i).state = .unused)
    (hfork : ∀ b, s.cont ≠ .forkFill b ∧ s.cont ≠ .forkWait b) (hn : n.building = none)
    (hat : ∀ t, At t c n) : Inv ((s.setProc i { s.k.procs i with pid := 0 }).goto n) := by
  refine h.step_slot hc hi (h.quiet_of_state (by simp [hu])) (fun hl => absurd hu hl) Iff.rfl
    (fun hr => absurd hr (by simp [hu])) (fun hr => absurd hr (by simp [hu]))
    (fun b hb => absurd hb (by simp [hfork b])) (fun b hb => absurd hb (by simp [hn])) (hat _)

lemma Inv.step_killWaiting {e j : Nat} (h : Inv s) (hc : s.k.current = some c)
    (hcont : s.cont = .killWaiting e j) :
    Inv ((s.setProc j { s.k.procs j with waitingForPid := 0 }).goto (.killReady e j)) := by
  have hat := h.at_cur hc
  rw [hcont] at hat
  obtain ⟨he, hj, hblocked, hwait⟩ := hat
  have hquiet : Quiet s c j := h.quiet_of_waiting hc (by rw [hwait]; exact he)
  have himage : Image s j := by
    rcases h.waiting j hj hblocked (by rw [hwait]; exact he) with him | ⟨b, hb, -⟩
    · exact him.1
    · simp [hcont] at hb
  refine h.step_slot hc hj hquiet (fun hl => ⟨hl, rfl⟩) Iff.rfl (fun hr => ?_)
    (fun _ hw => absurd rfl hw) (fun b hb => absurd hb (by simp [hcont]))
    (fun b hb => absurd hb (by simp [Cont.building])) ⟨he, hj, ?_, ?_, ?_, ?_⟩
  · simp [hblocked] at hr
  · simpa using hblocked
  · simp
  · simpa [Image] using himage
  · -- the thread that builds a process is neither this one nor one that was there before
    rintro ⟨q, hq, hl, b, hb, hbj⟩
    have hls := s.k.setProc_live (by simp [hblocked]) q hl
    have hqs := s.k.setProc_same (i := j) (x := { s.k.procs j with waitingForPid := 0 })
      (·.pid) rfl q
    rw [goto_k, setProc_k, hqs] at hb
    by_cases hqc : q = c
    · subst hqc
      rw [← h.thread_eq hc] at hb
      simp [Sys.goto, Cont.building] at hb
    · rw [goto_conts_of_ne (s.setProc j _) _ (h.pid_ne hc hq hqc hls)] at hb
      exact hquiet q hq hqc hls b hb hbj

lemma Inv.step_killReady {e j : Nat} (h : Inv s) (hc : s.k.current = some c)
    (hcont : s.cont = .killReady e j) :
    Inv ((s.setProc j { s.k.procs j with state := .ready }).goto (.killWake e (j + 1))) := by
  have hat := h.at_cur hc
  rw [hcont] at hat
  obtain ⟨he, hj, hblocked, hwait, himage, hnc⟩ := hat
  exact h.step_slot hc hj (quiet_of_not_underConstruction hnc)
    (fun _ => ⟨by simp [hblocked], rfl⟩) (by simp [hblocked])
    (fun _ => ⟨himage.1, himage.2, .inl hwait⟩) (fun hr => absurd hr (by simp))
    (fun b hb => absurd hb (by simp [hcont])) (fun b hb => absurd hb (by simp [Cont.building])) he

end NullOS.Preempt
