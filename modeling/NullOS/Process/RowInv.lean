import NullOS.Process.PreemptRun
import Mathlib.Data.List.Find

/-!
# Descriptor rows under preemption

A process must start with a certain row: none open, a copy of its parent's for `fork`, the redirects
for `sys_exec_pipe`.  The invariant relates the row of each slot to the row in the books of its pid.
`sys_kill` leaves the descriptors of the process it ends in the slot, so a run may kill only
processes without any.
-/

namespace NullOS.Preempt

open Lib Vfs

def SameOpen (r r' : Nat → VfsFd) : Prop :=
  ∀ j < fdPerProc, (r j).used = true ∨ (r' j).used = true → r j = r' j

/-- When `process_fork` publishes the child, its row already has the parent's descriptors. -/
def RowReady (s : Sys) : Cont → Prop
  | .forkReady b => ∀ c ∈ s.k.current, SameOpen (s.k.fdTable b.slot) (s.k.fdTable c)
  | _ => True

def Cont.copying : Cont → Option Build
  | .forkRow b _ => some b
  | _ => none

def NoneOpen (r : Nat → VfsFd) : Prop := ∀ j < fdPerProc, (r j).used = false

/-- The condition on the rows.  `sys_kill` leaves the descriptors of the process that it ends in the
slot, and whoever is started there has them. -/
def RowsInTime (s : Sys) : Act → Prop
  | .preempt => s.cont.copying.isNone
  | .step => RowReady s s.cont
  | .exec _ | .execPipe _ _ _ | .spawn _ => ∀ slot ∈ s.k.freeSlot, NoneOpen (s.k.fdTable slot)
  | _ => True

variable {s t : Sys} {c i j g slot : Nat} {b : Build} {n : Cont} {r r' r'' : Nat → VfsFd}

lemma SameOpen.trans (h : SameOpen r r') (h' : SameOpen r' r'') : SameOpen r r'' := by
  intro j hj hu
  rcases hu with hu | hu
  · have heq := h j hj (.inl hu)
    rw [heq] at hu ⊢
    exact h' j hj (.inl hu)
  · have heq := h' j hj (.inr hu)
    rw [← heq] at hu ⊢
    exact h j hj (.inr hu)

lemma SameOpen.update (h : SameOpen r r') (j : Nat) (fd : VfsFd) :
    SameOpen (Function.update r j fd) (Function.update r' j fd) := by
  intro k hk hu
  by_cases hkj : k = j
  · subst hkj
    simp
  · simp only [Function.update_of_ne hkj] at hu ⊢
    exact h k hk hu

lemma NoneOpen.same (h : NoneOpen r) : SameOpen r noFiles := by
  intro j hj hu
  rcases hu with hu | hu
  · exact absurd (hu.symm.trans (h j hj)) (by simp)
  · exact absurd hu (by decide : ¬ (default : VfsFd).used = true)

lemma SameOpen.placeFd (h : SameOpen r r') (fd : Option VfsFd) :
    SameOpen (placeFd r fd) (placeFd r' fd) := by
  have hfree : (List.range fdPerProc).find? (fun j => !(r j).used) =
      (List.range fdPerProc).find? fun j => !(r' j).used := by
    refine List.find?_congr fun j hj => congrArg not ?_
    by_contra hne
    have hused : (r j).used = true ∨ (r' j).used = true := by
      cases hr : (r j).used <;> cases hr' : (r' j).used <;> simp_all
    exact hne (congrArg VfsFd.used (h j (List.mem_range.mp hj) hused))
  cases fd with
  | none => exact h
  | some fd =>
    rw [Preempt.placeFd, Preempt.placeFd, hfree]
    split
    · exact h
    · exact h.update _ fd

/-! ## The invariant -/

/-- `process_fork` has claimed slot `i` and not cleared its `waiting_for_pid` yet. -/
def Claiming (s : Sys) (i : Nat) : Prop :=
  s.k.current ≠ none ∧ ∃ b, (s.cont = .forkFill b ∨ s.cont = .forkWait b) ∧ b.slot = i

/-- The slot belongs to a process that has been made runnable before: it is not blocked, or it
waits for somebody, or it is just being woken. -/
def Settled (s : Sys) (i : Nat) : Prop :=
  (s.k.procs i).state ≠ .blocked ∨ ((s.k.procs i).waitingForPid ≠ 0 ∧ ¬ Claiming s i) ∨
    (s.k.current ≠ none ∧ ∃ e, s.cont = .killReady e i)

def Same (s : Sys) (i : Nat) : Prop :=
  SameOpen (s.k.fdTable i) (s.rowOf (s.k.procs i).pid)

structure Sources (rowOf : Nat → Nat → VfsFd) (g : Nat) (b : Build) : Prop where
  input : ∀ idx ∈ b.inSrc, idx < fdPerProc ∧ (rowOf g idx).used = true
  output : ∀ idx ∈ b.outSrc, idx < fdPerProc ∧ (rowOf g idx).used = true
  plain : b.startBlocked = false → b.inSrc = none ∧ b.outSrc = none

/-- How the row of a process under construction by `g` relates to the row it must start
with. -/
def RowAt (fdTable : Nat → Nat → VfsFd) (rowOf : Nat → Nat → VfsFd) (g : Nat) : Cont → Prop
  | .spawnEsp b | .spawnCr3 b | .spawnRedirects b | .spawnPublish b | .seedStdin b =>
      Sources rowOf g b ∧ SameOpen (placeFd (placeFd (fdTable b.slot) (b.inSrc.map (rowOf g)))
        (b.outSrc.map (rowOf g))) (rowOf b.pid)
  | .seedStdout b =>
      Sources rowOf g b ∧
        SameOpen (placeFd (fdTable b.slot) (b.outSrc.map (rowOf g))) (rowOf b.pid)
  | .makeReadyTest b | .makeReadySet b => SameOpen (fdTable b.slot) (rowOf b.pid)
  | .forkFill b | .forkWait b | .forkCopy b | .forkUnused b | .forkCr3 b | .forkEsp b
  | .forkReady b => rowOf b.pid = rowOf g
  | _ => True

structure RowInv (s : Sys) : Prop where
  rows : ∀ i < processMax, (s.k.procs i).state ≠ .unused → Settled s i → Same s i
  builds : ∀ q < processMax, (s.k.procs q).state ≠ .unused →
    RowAt s.k.fdTable s.rowOf (s.k.procs q).pid (s.conts (s.k.procs q).pid)
  -- only the thread that runs is in the copy loop, and the child has not run yet
  only : ∀ g b, (s.conts g).copying = some b → s.k.current ≠ none ∧ s.thread = g
  copying : ∀ c b, s.k.current = some c → s.cont.copying = some b →
    b.slot ≠ c ∧ (s.k.procs b.slot).state = .ready ∧ (s.k.procs b.slot).pid = b.pid ∧
      s.rowOf b.pid = s.rowOf s.thread

/-- The assertion about a row only looks at the row of the slot that is built and at the rows
of the two processes. -/
lemma RowAt.congr {f f' : Nat → Nat → VfsFd} {w w' : Nat → Nat → VfsFd} (h : RowAt f w g n)
    (hg : w' g = w g)
    (hb : ∀ b ∈ n.building, f' b.slot = f b.slot ∧ w' b.pid = w b.pid) : RowAt f' w' g n := by
  have hsrc : ∀ {b}, Sources w g b → Sources w' g b := fun hs =>
    ⟨by rw [hg]; exact hs.input, by rw [hg]; exact hs.output, hs.plain⟩
  cases n
  case spawnEsp b | spawnCr3 b | spawnRedirects b | spawnPublish b | seedStdin b =>
    obtain ⟨hf, hw⟩ := hb b rfl
    refine ⟨hsrc h.1, ?_⟩
    rw [hf, hw, hg]
    exact h.2
  case seedStdout b =>
    obtain ⟨hf, hw⟩ := hb b rfl
    refine ⟨hsrc h.1, ?_⟩
    rw [hf, hw, hg]
    exact h.2
  case makeReadyTest b | makeReadySet b =>
    obtain ⟨hf, hw⟩ := hb b rfl
    show SameOpen (f' b.slot) (w' b.pid)
    rw [hf, hw]
    exact h
  case forkFill b | forkWait b | forkCopy b | forkUnused b | forkCr3 b | forkEsp b
      | forkReady b =>
    show w' b.pid = w' g
    rw [(hb b rfl).2, hg]
    exact h
  all_goals trivial

lemma Inv.building_pid_ne (h : Inv s) (hc : s.k.current = some c) {q : Nat}
    (hq : q < processMax) (hl : (s.k.procs q).state ≠ .unused)
    (hb : b ∈ (s.conts (s.k.procs q).pid).building) : b.slot ≠ c ∧ b.pid ≠ s.thread := by
  have hbd := (h.points q hq hl).building hb
  have hne : b.slot ≠ c := by
    intro heq
    have hblocked := hbd.state
    rw [heq, (h.cur c hc).2.1] at hblocked
    simp at hblocked
  refine ⟨hne, ?_⟩
  rw [← hbd.pid]
  exact h.pid_ne hc hbd.lt hne (by simp [hbd.state])

/-- **A step of the current thread** that changes slot `k` and row `k` at most, and of the
books at most its own. -/
lemma RowInv.step_thread {k : Nat} (hr : RowInv s) (h : Inv s) (hc : s.k.current = some c)
    (hcur : t.k.current = some c) (hth : t.thread = s.thread)
    (hconts : t.conts = Function.update s.conts s.thread n)
    (hprocs : ∀ q, q ≠ k → t.k.procs q = s.k.procs q)
    (hlive : (t.k.procs k).state ≠ .unused →
      (s.k.procs k).state ≠ .unused ∧ (t.k.procs k).pid = (s.k.procs k).pid)
    (hfd : ∀ q, q ≠ k → t.k.fdTable q = s.k.fdTable q)
    (hquiet : t.k.fdTable k = s.k.fdTable k ∨ Quiet s c k)
    (hrow : ∀ g, g ≠ s.thread → t.rowOf g = s.rowOf g) (hrowc : t.rowOf = s.rowOf ∨ k = c)
    (hfork : ∀ b, s.cont = .forkFill b ∨ s.cont = .forkWait b → b.slot = k)
    (hwake : ∀ e j, n = .killReady e j → j = k)
    (hk : k < processMax → (t.k.procs k).state ≠ .unused → Settled t k → Same t k)
    (hat : RowAt t.k.fdTable t.rowOf s.thread n)
    (hcopy : ∀ b, n.copying = some b → b.slot ≠ c ∧ (t.k.procs b.slot).state = .ready ∧
      (t.k.procs b.slot).pid = b.pid ∧ t.rowOf b.pid = t.rowOf s.thread) : RowInv t := by
  have hold : ∀ q, (t.k.procs q).state ≠ .unused →
      (s.k.procs q).state ≠ .unused ∧ (t.k.procs q).pid = (s.k.procs q).pid := by
    intro q hq
    by_cases hqk : q = k
    · subst hqk
      exact hlive hq
    · rw [hprocs q hqk] at hq ⊢
      exact ⟨hq, rfl⟩
  have hcont : t.cont = n := by rw [Sys.cont, hth, hconts, Function.update_self]
  refine ⟨fun i hi hl hset => ?_, fun q hq hl => ?_, fun g b hb => ?_, fun d b hd hb => ?_⟩
  · by_cases hik : i = k
    · subst hik
      exact hk hi hl hset
    · have hset' : Settled s i := by
        rcases hset with hb | ⟨hw, -⟩ | ⟨-, e, he⟩
        · rw [hprocs i hik] at hb
          exact .inl hb
        · rw [hprocs i hik] at hw
          refine .inr (.inl ⟨hw, ?_⟩)
          rintro ⟨_, b, hb, hbi⟩
          exact hik (hbi ▸ hfork b hb)
        · rw [hcont] at he
          exact absurd (hwake e i he) hik
      rw [hprocs i hik] at hl
      have hsame := hr.rows i hi hl hset'
      rw [Same, hprocs i hik, hfd i hik]
      rcases hrowc with heq | hkc
      · rw [heq]
        exact hsame
      · rw [hrow _ (h.pid_ne hc hi (hkc ▸ hik) hl)]
        exact hsame
  · obtain ⟨hl1, hpid⟩ := hold q hl
    by_cases hqc : q = c
    · subst hqc
      rw [hpid, ← h.thread_eq hc, hconts, Function.update_self]
      exact hat
    · have hne := h.pid_ne hc hq hqc hl1
      rw [hpid, hconts, Function.update_of_ne hne]
      refine (hr.builds q hq hl1).congr (hrow _ hne) fun b hb => ?_
      have hbne := h.building_pid_ne hc hq hl1 hb
      refine ⟨?_, hrow _ hbne.2⟩
      by_cases hbk : b.slot = k
      · rw [hbk]
        exact hquiet.resolve_right fun hqu => hqu q hq hqc hl1 b hb hbk
      · exact hfd _ hbk
  · by_cases hg : g = s.thread
    · exact ⟨by simp [hcur], by rw [hth, hg]⟩
    · rw [hconts, Function.update_of_ne hg] at hb
      exact absurd (hr.only g b hb).2.symm hg
  · obtain rfl : c = d := Option.some.inj (hcur.symm.trans hd)
    rw [hcont] at hb
    rw [hth]
    exact hcopy b hb

lemma RowInv.same_cur (hr : RowInv s) (h : Inv s) (hc : s.k.current = some c) :
    SameOpen (s.k.fdTable c) (s.rowOf s.thread) := by
  have hsame := hr.rows c (h.cur c hc).1 (h.live hc) (.inl (by simp [(h.cur c hc).2.1]))
  rw [Same, ← h.thread_eq hc] at hsame
  exact hsame

lemma RowInv.step_slot {x : Proc} (hr : RowInv s) (h : Inv s) (hc : s.k.current = some c)
    (hlive : x.state ≠ .unused → (s.k.procs i).state ≠ .unused ∧ x.pid = (s.k.procs i).pid)
    (hfork : ∀ b, s.cont = .forkFill b ∨ s.cont = .forkWait b → b.slot = i)
    (hwake : ∀ e j, n = .killReady e j → j = i)
    (hi : i < processMax → x.state ≠ .unused → Settled ((s.setProc i x).goto n) i → Same s i)
    (hat : RowAt s.k.fdTable s.rowOf s.thread n)
    (hcopy : ∀ b, n.copying = some b → b.slot ≠ c ∧ b.slot = i ∧ x.state = .ready ∧
      x.pid = b.pid ∧ s.rowOf b.pid = s.rowOf s.thread) :
    RowInv ((s.setProc i x).goto n) := by
  have hself := Kernel.setProc_procs_self s.k i x
  refine hr.step_thread h hc hc rfl rfl (fun q hq => Kernel.setProc_procs_of_ne s.k i x hq) ?_
    (fun _ _ => rfl) (.inl rfl) (fun _ _ => rfl) (.inl rfl) hfork hwake ?_ hat
    (fun b hb => ?_)
  · simpa using hlive
  · intro hlt hl hset
    simp only [goto_k, setProc_k, hself] at hl
    have hsame := hi hlt hl hset
    simp only [Same, goto_k, setProc_k, hself, (hlive hl).2]
    exact hsame
  · obtain ⟨hbc, rfl, hready, hpid, hrow⟩ := hcopy b hb
    simp only [goto_k, setProc_k, hself]
    exact ⟨hbc, hready, hpid, hrow⟩

lemma RowInv.step_goto (hr : RowInv s) (h : Inv s) (hc : s.k.current = some c)
    (hfork : ∀ b, s.cont ≠ .forkFill b ∧ s.cont ≠ .forkWait b)
    (hwake : ∀ e j, n ≠ .killReady e j) (hcopy : n.copying = none)
    (hat : RowAt s.k.fdTable s.rowOf s.thread n) : RowInv (s.goto n) := by
  have hrun := (h.cur c hc).2.1
  have hstep : RowInv ((s.setProc c (s.k.procs c)).goto n) :=
    hr.step_slot h hc (fun hl => ⟨hl, rfl⟩) (fun b hb => absurd hb (by simp [hfork b]))
      (fun e j hn => absurd hn (hwake e j))
      (fun hlt hl _ => hr.rows c hlt hl (.inl (by simp [hrun]))) hat
      (fun b hb => absurd hb (by simp [hcopy]))
  rwa [setProc_self] at hstep

/-! ## Steps on a process under construction -/

lemma not_settled (hb : (s.k.procs i).state = .blocked) (hw : (s.k.procs i).waitingForPid = 0)
    (hn : ∀ e, s.cont ≠ .killReady e i) : ¬ Settled s i := by
  rintro (h | ⟨h, -⟩ | ⟨-, e, he⟩)
  · exact h hb
  · exact h hw
  · exact hn e he

lemma RowInv.step_build {x : Proc} (hr : RowInv s) (h : Inv s) (hc : s.k.current = some c)
    (hb : b ∈ s.cont.building) (hs : x.state = .blocked) (hp : x.pid = (s.k.procs b.slot).pid)
    (hw : x.waitingForPid = 0) (hwake : ∀ e j, n ≠ .killReady e j) (hcopy : n.copying = none)
    (hat : RowAt s.k.fdTable s.rowOf s.thread n) :
    RowInv ((s.setProc b.slot x).goto n) := by
  have hbd := (h.at_cur hc).building hb
  refine hr.step_slot h hc (fun _ => ⟨by simp [hbd.state], hp⟩) (fun b' hb' => ?_)
    (fun e j hn => absurd hn (hwake e j)) (fun _ _ hset => ?_) hat
    (fun b' hb' => absurd hb' (by simp [hcopy]))
  · rcases hb' with hb' | hb' <;> simp only [hb', Cont.building, Option.mem_def,
      Option.some.injEq] at hb <;> rw [hb]
  · refine absurd hset (not_settled (by simpa using hs) (by simpa using hw) fun e he => ?_)
    rw [goto_cont] at he
    exact hwake e _ he

lemma RowInv.step_publish (hr : RowInv s) (h : Inv s) (hc : s.k.current = some c)
    (hb : b ∈ s.cont.building) (hfork : ∀ b', s.cont ≠ .forkFill b' ∧ s.cont ≠ .forkWait b')
    (hsame : SameOpen (s.k.fdTable b.slot) (s.rowOf b.pid)) (hwake : ∀ e j, n ≠ .killReady e j)
    (hat : RowAt s.k.fdTable s.rowOf s.thread n)
    (hcopy : ∀ b', n.copying = some b' → b' = b ∧ s.rowOf b.pid = s.rowOf s.thread) :
    RowInv ((s.setProc b.slot { s.k.procs b.slot with state := .ready }).goto n) := by
  have hbd := (h.at_cur hc).building hb
  refine hr.step_slot h hc (fun _ => ⟨by simp [hbd.state], rfl⟩)
    (fun b' hb' => absurd hb' (by simp [hfork b'])) (fun e j hn => absurd hn (hwake e j))
    (fun _ _ _ => ?_) hat (fun b' hb' => ?_)
  · rw [Same, hbd.pid]
    exact hsame
  · obtain ⟨rfl, hrow⟩ := hcopy b' hb'
    exact ⟨hbd.ne, rfl, rfl, hbd.pid, hrow⟩

lemma placeFd_some {fd : VfsFd} {k : Kernel} (hj : k.freeFd slot = some j) :
    placeFd (k.fdTable slot) (some fd) = Function.update (k.fdTable slot) j fd := by
  unfold Kernel.freeFd at hj
  rw [placeFd, hj]

/-- One redirect is placed: the row changes as it should, and it is the row of a process that
is not runnable. -/
lemma RowInv.step_seed {idx : Nat} {r w : Option Nat} (hr : RowInv s) (h : Inv s)
    (hc : s.k.current = some c) (hcont : s.cont = .seedStdin b ∨ s.cont = .seedStdout b)
    (hwake : ∀ e j, n ≠ .killReady e j) (hcopy : n.copying = none)
    (hat : RowAt (Function.update s.k.fdTable b.slot
      (Function.update (s.k.fdTable b.slot) j (s.k.fdTable c idx))) s.rowOf s.thread n) :
    RowInv ((s.seeded c b j idx r w).goto n) := by
  obtain ⟨⟨hbd, hw, -⟩, hb, hfork, -⟩ := h.at_seed hc hcont
  have hfd : (s.k.copyFd b.slot j (s.k.fdTable c idx)).fdTable = Function.update s.k.fdTable b.slot
      (Function.update (s.k.fdTable b.slot) j (s.k.fdTable c idx)) := by
    rw [Kernel.copyFd_fdTable]
    rfl
  refine hr.step_thread (k := b.slot) h hc ?_ rfl rfl (fun q hq => ?_) (fun _ => ?_)
    (fun q hq => ?_) (.inr (h.quiet hc hb)) (fun _ _ => rfl) (.inl rfl)
    (fun b' hb' => absurd hb' (by simp [hfork b'])) (fun e j hn => absurd hn (hwake e j))
    (fun _ _ hset => ?_) ?_ (fun b' hb' => absurd hb' (by simp [hcopy]))
  · simpa [Sys.seeded] using hc
  · simp [Sys.seeded, Kernel.setProc_procs_of_ne _ _ _ hq]
  · simp [Sys.seeded, hbd.state]
  · show (s.k.copyFd b.slot j (s.k.fdTable c idx)).fdTable q = s.k.fdTable q
    rw [hfd, Function.update_of_ne hq]
  · refine absurd hset (not_settled ?_ ?_ fun e he => ?_)
    · simpa [Sys.seeded] using hbd.state
    · simpa [Sys.seeded] using hw
    · rw [goto_cont] at he
      exact hwake e _ he
  · show RowAt (s.k.copyFd b.slot j (s.k.fdTable c idx)).fdTable s.rowOf s.thread n
    rw [hfd]
    exact hat

lemma RowInv.source_eq {idx : Nat} (hr : RowInv s) (h : Inv s) (hc : s.k.current = some c)
    (hsrc : idx < fdPerProc ∧ (s.rowOf s.thread idx).used = true) :
    s.k.fdTable c idx = s.rowOf s.thread idx :=
  hr.same_cur h hc idx hsrc.1 (.inr hsrc.2)

lemma rowInv_seed (hr : RowInv s) (h : Inv s) (hc : s.k.current = some c)
    (hcont : s.cont = .seedStdin b ∨ s.cont = .seedStdout b)
    (hrow : RowAt s.k.fdTable s.rowOf s.thread s.cont) (hs : stepThread s c = some t) :
    RowInv t := by
  obtain ⟨-, -, hfork, -⟩ := h.at_seed hc hcont
  have hgoto : ∀ m : Cont, (∀ e j, m ≠ .killReady e j) → m.copying = none →
      RowAt s.k.fdTable s.rowOf s.thread m → RowInv (s.goto m) := fun m => hr.step_goto h hc hfork
  rcases seed_cases hcont hs with rfl | ⟨src, n, hn, hseed⟩
  · exact hgoto _ (by simp) rfl trivial
  rcases hn with ⟨hat, rfl, rfl⟩ | ⟨hat, rfl, rfl⟩
  all_goals
    rw [hat] at hrow
    obtain ⟨hsrcs, hplace⟩ := hrow
  · rcases hseed with ⟨hsrc, rfl⟩ | ⟨idx, j, r, w, hsrc, hj, rfl⟩
    all_goals rw [hsrc] at hplace
    · exact hgoto _ (by simp) rfl ⟨hsrcs, hplace⟩
    · refine hr.step_seed h hc hcont (by simp) rfl ⟨hsrcs, ?_⟩
      rw [Function.update_self, hr.source_eq h hc (hsrcs.input idx hsrc), ← placeFd_some hj]
      exact hplace
  · rcases hseed with ⟨hsrc, rfl⟩ | ⟨idx, j, r, w, hsrc, hj, rfl⟩
    all_goals rw [hsrc] at hplace
    · exact hgoto _ (by simp) rfl hplace
    · refine hr.step_seed h hc hcont (by simp) rfl ?_
      simp only [RowAt, Function.update_self]
      rw [hr.source_eq h hc (hsrcs.output idx hsrc), ← placeFd_some hj]
      exact hplace

lemma rowInv_stepBuild (hr : RowInv s) (h : Inv s) (hc : s.k.current = some c)
    (hok : RowsInTime s .step) (hb : b ∈ s.cont.building) (hs : stepThread s c = some t) :
    RowInv t := by
  have hat := h.at_cur hc
  have hrow := hr.builds c (h.cur c hc).1 (h.live hc)
  rw [← h.thread_eq hc] at hrow
  have hmem : ∀ {b' : Build} {m : Cont}, s.cont = m → b' ∈ m.building → b' ∈ s.cont.building :=
    fun hm hb' => by rwa [hm]
  change RowAt _ _ _ s.cont at hrow
  change RowReady s s.cont at hok
  have hseed : ∀ {b : Build}, s.cont = .seedStdin b ∨ s.cont = .seedStdout b → RowInv t :=
    fun hcont => rowInv_seed hr h hc hcont hrow hs
  unfold stepThread at hs
  cases hcont : s.cont
  all_goals
    rw [hcont] at hs hat hb hrow hok
    simp only [Cont.building, Option.mem_def, Option.some.injEq, reduceCtorEq] at hb
  all_goals subst hb
  case spawnEsp =>
    cases hs
    exact hr.step_build h hc (hmem hcont rfl) hat.1.state rfl hat.2 (by simp) rfl hrow
  case spawnCr3 | spawnRedirects | forkEsp =>
    obtain ⟨hbd, hw, -⟩ := hat
    cases hs
    exact hr.step_build h hc (hmem hcont rfl) hbd.state rfl hw (by simp) rfl hrow
  case forkCr3 =>
    cases hs
    exact hr.step_build h hc (hmem hcont rfl) hat.1.state rfl hat.2 (by simp) rfl hrow
  case forkWait =>
    cases hs
    exact hr.step_build h hc (hmem hcont rfl) (Building.state hat) rfl rfl (by simp) rfl hrow
  case spawnPublish =>
    obtain ⟨hsrcs, hplace⟩ := hrow
    cases hs
    split
    · exact hr.step_goto h hc (fun b' => by simp [hcont]) (by simp) rfl ⟨hsrcs, hplace⟩
    case isFalse hsb =>
      obtain ⟨hin, hout⟩ := hsrcs.plain (by simpa using hsb)
      rw [hin, hout] at hplace
      exact hr.step_publish h hc (hmem hcont rfl) (fun b' => by simp [hcont]) hplace (by simp)
        trivial (fun b' hb' => absurd hb' (by simp [Cont.copying]))
  case seedStdin => exact hseed (.inl hcont)
  case seedStdout => exact hseed (.inr hcont)
  case makeReadyTest =>
    cases hs
    rw [if_pos hat.1.state]
    exact hr.step_goto h hc (fun b' => by simp [hcont]) (by simp) rfl hrow
  case makeReadySet b =>
    cases hs
    exact hr.step_publish h hc (hmem hcont rfl) (fun b' => by simp [hcont]) hrow (by simp)
      trivial (fun b' hb' => absurd hb' (by simp [Cont.copying]))
  case forkFill b =>
    -- the stale `waiting_for_pid` is still there, but the slot is being claimed
    cases hs
    have hbd : Building s c b := hat
    refine hr.step_slot h hc (fun _ => ⟨by simp [hbd.state], rfl⟩) (fun b' hb' => ?_) (by simp)
      (fun _ _ hset => ?_) hrow (fun b' hb' => absurd hb' (by simp [Cont.copying]))
    · simp only [hcont, Cont.forkFill.injEq, reduceCtorEq, or_false] at hb'
      rw [hb']
    · rcases hset with hset | ⟨-, hset⟩ | ⟨-, e, he⟩
      · exact absurd (by simpa using hbd.state) hset
      · exact absurd ⟨by simp [hc], b, .inr (goto_cont _ _), rfl⟩ hset
      · simp at he
  case forkCopy =>
    cases hs
    split
    · exact hr.step_goto h hc (fun b' => by simp [hcont]) (by simp) rfl hrow
    · exact hr.step_goto h hc (fun b' => by simp [hcont]) (by simp) rfl hrow
  case forkUnused =>
    cases hs
    exact hr.step_slot h hc (fun hl => absurd rfl hl) (fun b' hb' => absurd hb' (by simp [hcont]))
      (by simp) (fun _ hl => absurd rfl hl) trivial
      (fun b' hb' => absurd hb' (by simp [Cont.copying]))
  case forkReady b =>
    cases hs
    have heq : s.rowOf b.pid = s.rowOf s.thread := hrow
    refine hr.step_publish h hc (hmem hcont rfl) (fun b' => by simp [hcont]) ?_ (by simp)
      trivial (fun b' hb' => ?_)
    · rw [heq]
      exact (hok c hc).trans (hr.same_cur h hc)
    · simp only [Cont.copying, Option.some.injEq] at hb'
      exact ⟨hb'.symm, heq⟩

end NullOS.Preempt
