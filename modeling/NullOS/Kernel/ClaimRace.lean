import NullOS.Lib.Run
import NullOS.Memory.Pmm
import NullOS.Ipc.Pipe

/-!
# Claiming a page or a pipe under preemption

`pmm_alloc_page` and `pipe_create` look for a free entry and then take it, in separate steps and
with interrupts on.  Two calls preempted between the test and the set take the same entry
(`sameFrameTwice`).  When the timer stays out of that window, and of the one before the update of
the counter, everything handed out and not released is distinct.
-/

namespace NullOS.ClaimRace

open NullOS.Lib NullOS.Memory NullOS.Ipc

inductive Pc
  | idle
  -- `pmm_alloc_page`: about to compare word `i` of the bitmap with `0xFFFFFFFF`.
  | word (i : Nat)
  -- About to test bit `b` of word `i`.
  | bit (i b : Nat)
  -- The bit was clear: about to set it.
  | set (page : Nat)
  -- About to update `pmm_used` and return.
  | count (page : Nat)
  -- `pipe_create`: about to test `pipe_table[i].used`.
  | pipeTest (i : Nat)
  -- The pipe was free: about to reset its ring.
  | pipeReset (i : Nat)
  -- About to set `used`.
  | pipeUse (i : Nat)
  -- About to set the references and return.
  | pipeInit (i : Nat)
deriving DecidableEq, Repr

/-- The shared tables, the current process, and what has been handed out and not
released. -/
structure St where
  pmm : Pmm
  pipeTable : Nat → Pipe
  current : Nat
  pcs : Nat → Pc
  pages : List Nat
  pipes : List Nat

def St.pc (s : St) : Pc := s.pcs s.current

def St.goto (s : St) (pc : Pc) : St := { s with pcs := Function.update s.pcs s.current pc }

def St.setPipe (s : St) (i : Nat) (p : Pipe) : St :=
  { s with pipeTable := Function.update s.pipeTable i p }

def stepCurrent (s : St) : Option St :=
  match s.pc with
  | .idle => none
  | .word i =>
      some (s.goto (if pmmBitmapSize ≤ i then .idle
        else if s.pmm.wordFull i then .word (i + 1) else .bit i 0))
  | .bit i b =>
      some (s.goto (if 32 ≤ b then .word (i + 1)
        else if s.pmm.total ≤ i * 32 + b then .idle
        else if s.pmm.bitmap (i * 32 + b) then .bit i (b + 1) else .set (i * 32 + b)))
  | .set page => some { s.goto (.count page) with pmm := s.pmm.bitmapSet page }
  | .count page =>
      -- page 0 would be handed out as the failure value
      some { s.goto .idle with
        pmm := s.pmm.usedIncr
        pages := if page * pageSize = 0 then s.pages else page :: s.pages }
  | .pipeTest i =>
      some (s.goto (if pipeMax ≤ i then .idle
        else if (s.pipeTable i).used then .pipeTest (i + 1) else .pipeReset i))
  | .pipeReset i => some ((s.setPipe i (s.pipeTable i).resetRing).goto (.pipeUse i))
  | .pipeUse i => some ((s.setPipe i (s.pipeTable i).markUsed).goto (.pipeInit i))
  | .pipeInit i =>
      some { (s.setPipe i (s.pipeTable i).initRefs).goto .idle with pipes := i :: s.pipes }

inductive Act
  | allocPage
  | pipeCreate
  | step
  | tick (j : Nat)
  | freePage (page : Nat)
  | releasePipe (i : Nat)
deriving DecidableEq, Repr

def step (s : St) : Act → Option St
  | .allocPage => if s.pc = .idle then some (s.goto (.word 0)) else none
  | .pipeCreate => if s.pc = .idle then some (s.goto (.pipeTest 0)) else none
  | .step => stepCurrent s
  | .tick j => some { s with current := j }
  | .freePage page =>
      if s.pc = .idle ∧ page ∈ s.pages then
        some { s with
          pmm := s.pmm.pmmFreePage (page * pageSize)
          pages := s.pages.erase page }
      else none
  | .releasePipe i =>
      if s.pc = .idle ∧ i ∈ s.pipes then
        some { s.setPipe i { s.pipeTable i with readRefs := 0, writeRefs := 0, used := false }
          with pipes := s.pipes.erase i }
      else none

/-- Nothing handed out yet, the counter agrees with the bitmap. -/
def Init (s : St) : Prop :=
  s.pmm.total ≤ pmmMaxPages ∧ s.pmm.Counted ∧ (∀ i, s.pcs i = .idle) ∧ s.pages = [] ∧
    s.pipes = []

/-- Between the set of a bit and the update of the counter. -/
def Pc.Uncounted : Pc → Prop
  | .count _ => True
  | _ => False

/-- Between the test that finds an entry free and the last store that depends on it. -/
def Pc.Window : Pc → Prop
  | .set _ | .count _ | .pipeReset _ | .pipeUse _ => True
  | _ => False

/-- Everything handed out and not released is distinct, and `pmm_used` is the number of set
bits (unless the current process is just updating it). -/
def Exclusive (s : St) : Prop :=
  s.pages.Nodup ∧ s.pipes.Nodup ∧ (¬ s.pc.Uncounted → s.pmm.Counted)

/-- The timer does not fire while the current process is between its test and the last store
that depends on it. -/
def NoTickInWindow (s : St) : Act → Prop
  | .tick _ => ¬ s.pc.Window
  | _ => True

instance : DecidablePred Pc.Window
  | .set _ | .count _ | .pipeReset _ | .pipeUse _ => .isTrue trivial
  | .idle | .word _ | .bit _ _ | .pipeTest _ | .pipeInit _ => .isFalse id

instance (s : St) : DecidablePred (NoTickInWindow s)
  | .tick _ => inferInstanceAs (Decidable (¬ s.pc.Window))
  | .allocPage | .pipeCreate | .step | .freePage _ | .releasePipe _ => .isTrue trivial

/-! ## The invariant -/

/-- What holds of the tables, by the program point of the current process. -/
def Phase (s : St) : Prop :=
  match s.pc with
  | .set page => page < s.pmm.total ∧ s.pmm.bitmap page = false ∧ s.pmm.Counted
  | .count page => page < s.pmm.total ∧ s.pmm.bitmap page = true ∧ page ∉ s.pages ∧
      s.pmm.used + 1 = s.pmm.setBits
  | .pipeReset i | .pipeUse i => (s.pipeTable i).used = false ∧ s.pmm.Counted
  | _ => s.pmm.Counted

structure Inv (s : St) : Prop where
  total_le : s.pmm.total ≤ pmmMaxPages
  others : ∀ j, j ≠ s.current → ¬ (s.pcs j).Window
  pages_nodup : s.pages.Nodup
  pages_set : ∀ q ∈ s.pages, q < s.pmm.total ∧ s.pmm.bitmap q = true
  pipes_nodup : s.pipes.Nodup
  pipes_used : ∀ i ∈ s.pipes, (s.pipeTable i).used = true
  -- a pipe whose references are still to be set belongs to one call only
  pipeInit_used : ∀ j i, s.pcs j = .pipeInit i → (s.pipeTable i).used = true ∧ i ∉ s.pipes
  pipeInit_inj : ∀ j j' i, s.pcs j = .pipeInit i → s.pcs j' = .pipeInit i → j = j'
  phase : Phase s

variable {s t : St}

@[simp] lemma goto_pc (s : St) (pc : Pc) : (s.goto pc).pc = pc := by
  simp [St.pc, St.goto]

@[simp] lemma goto_pmm (s : St) (pc : Pc) : (s.goto pc).pmm = s.pmm := rfl
@[simp] lemma goto_pipeTable (s : St) (pc : Pc) : (s.goto pc).pipeTable = s.pipeTable := rfl
@[simp] lemma goto_current (s : St) (pc : Pc) : (s.goto pc).current = s.current := rfl
@[simp] lemma setPipe_pmm (s : St) (i : Nat) (p : Pipe) : (s.setPipe i p).pmm = s.pmm := rfl
@[simp] lemma setPipe_current (s : St) (i : Nat) (p : Pipe) :
    (s.setPipe i p).current = s.current := rfl

lemma goto_pcs_current (s : St) (pc : Pc) : (s.goto pc).pcs s.current = pc := by
  simp [St.goto]

lemma goto_pcs_of_ne (pc : Pc) {j : Nat} (h : j ≠ s.current) :
    (s.goto pc).pcs j = s.pcs j := by
  simp [St.goto, h]

lemma inv_of_init (h : Init s) : Inv s := by
  obtain ⟨htot, hcount, hpc, hpages, hpipes⟩ := h
  refine ⟨htot, fun j _ => ?_, by simp [hpages], by simp [hpages], by simp [hpipes],
    by simp [hpipes], fun j i h => ?_, fun j j' i h => ?_, ?_⟩
  · rw [hpc j]
    exact id
  · rw [hpc j] at h
    simp at h
  · rw [hpc j] at h
    simp at h
  · have hcur : s.pc = .idle := hpc s.current
    simpa [Phase, hcur] using hcount

/-- What is known of a program point that is not `pipeInit` anywhere but at other
processes. -/
lemma pcs_goto_pipeInit {pc : Pc} (hpc : ∀ i, pc ≠ .pipeInit i) {j i : Nat}
    (h : (s.goto pc).pcs j = .pipeInit i) : j ≠ s.current ∧ s.pcs j = .pipeInit i := by
  by_cases hj : j = s.current
  · subst hj
    rw [goto_pcs_current] at h
    exact absurd h (hpc i)
  · rw [goto_pcs_of_ne pc hj] at h
    exact ⟨hj, h⟩

lemma Inv.goto (h : Inv s) {pc : Pc} (hpc : ∀ i, pc ≠ .pipeInit i)
    (hph : Phase (s.goto pc)) : Inv (s.goto pc) := by
  refine ⟨h.total_le, fun j hj => ?_, h.pages_nodup, h.pages_set, h.pipes_nodup, h.pipes_used,
    fun j i hji => ?_, fun j j' i hj hj' => ?_, hph⟩
  · have hj' : j ≠ s.current := hj
    rw [goto_pcs_of_ne pc hj']
    exact h.others j hj'
  · exact h.pipeInit_used j i (pcs_goto_pipeInit hpc hji).2
  · exact h.pipeInit_inj j j' i (pcs_goto_pipeInit hpc hj).2 (pcs_goto_pipeInit hpc hj').2

lemma Inv.counted (h : Inv s) (hc : ¬ s.pc.Uncounted) : s.pmm.Counted := by
  have hph := h.phase
  unfold Phase at hph
  split at hph
  · exact hph.2.2
  · rename_i page hpc
    rw [hpc] at hc
    exact absurd trivial hc
  · exact hph.2
  · exact hph.2
  · exact hph

/-! ## One lemma for each step that changes a table -/

lemma inv_set (h : Inv s) {page : Nat} (hpc : s.pc = .set page) :
    Inv { s.goto (.count page) with pmm := s.pmm.bitmapSet page } := by
  obtain ⟨hlt, hfree, hcount⟩ : page < s.pmm.total ∧ s.pmm.bitmap page = false ∧
      s.pmm.Counted := by simpa [Phase, hpc] using h.phase
  have hnot : page ∉ s.pages := by
    intro hmem
    have hset := (h.pages_set page hmem).2
    rw [hfree] at hset
    simp at hset
  have hmove := fun j (hj : j ≠ s.current) => goto_pcs_of_ne (.count page) hj
  refine ⟨h.total_le, fun j hj => ?_, h.pages_nodup, fun q hq => ?_, h.pipes_nodup, h.pipes_used,
    fun j i hji => ?_, fun j j' i hj hj' => ?_, ?_⟩
  · have hj' : j ≠ s.current := hj
    simpa [hmove j hj'] using h.others j hj'
  · obtain ⟨hql, hqs⟩ := h.pages_set q hq
    have hqp : q ≠ page := fun heq => hnot (heq ▸ hq)
    exact ⟨hql, by simpa [Pmm.bitmapSet, hqp] using hqs⟩
  · exact h.pipeInit_used j i (pcs_goto_pipeInit (by simp) hji).2
  · exact h.pipeInit_inj j j' i (pcs_goto_pipeInit (by simp) hj).2
      (pcs_goto_pipeInit (by simp) hj').2
  · have hpc' : (⟨s.pmm.bitmapSet page, (s.goto (.count page)).pipeTable,
        (s.goto (.count page)).current, (s.goto (.count page)).pcs, s.pages, s.pipes⟩ : St).pc =
        .count page := goto_pcs_current s (.count page)
    have hbits := Pmm.setBits_bitmapSet hlt hfree
    refine (?_ : Phase ⟨s.pmm.bitmapSet page, _, _, _, s.pages, s.pipes⟩)
    rw [Phase, hpc']
    refine ⟨hlt, by simp [Pmm.bitmapSet], hnot, ?_⟩
    rw [hbits, ← hcount]
    rfl

lemma inv_count (h : Inv s) {page : Nat} (hpc : s.pc = .count page) :
    Inv { s.goto .idle with
      pmm := s.pmm.usedIncr
      pages := if page * pageSize = 0 then s.pages else page :: s.pages } := by
  obtain ⟨hlt, hset, hnot, hcount⟩ : page < s.pmm.total ∧ s.pmm.bitmap page = true ∧
      page ∉ s.pages ∧ s.pmm.used + 1 = s.pmm.setBits := by simpa [Phase, hpc] using h.phase
  have hmove := fun j (hj : j ≠ s.current) => goto_pcs_of_ne .idle hj
  refine ⟨h.total_le, fun j hj => ?_, ?_, fun q hq => ?_, h.pipes_nodup, h.pipes_used,
    fun j i hji => ?_, fun j j' i hj hj' => ?_, ?_⟩
  · have hj' : j ≠ s.current := hj
    simpa [hmove j hj'] using h.others j hj'
  · simp only
    split
    · exact h.pages_nodup
    · exact List.nodup_cons.mpr ⟨hnot, h.pages_nodup⟩
  · have hq' : q = page ∨ q ∈ s.pages := by
      simp only at hq
      split at hq
      · exact Or.inr hq
      · exact List.mem_cons.mp hq
    rcases hq' with rfl | hq'
    · exact ⟨hlt, hset⟩
    · exact h.pages_set q hq'
  · exact h.pipeInit_used j i (pcs_goto_pipeInit (by simp) hji).2
  · exact h.pipeInit_inj j j' i (pcs_goto_pipeInit (by simp) hj).2
      (pcs_goto_pipeInit (by simp) hj').2
  · have hpc' : (s.goto .idle).pcs s.current = .idle := goto_pcs_current s .idle
    simpa [Phase, St.pc, hpc'] using Pmm.usedIncr_counted h.total_le hcount

lemma inv_pipe (h : Inv s) {i : Nat} {p : Pipe} {pc : Pc}
    (hfree : (s.pipeTable i).used = false) (hpc : pc ≠ .pipeInit i → ∀ k, pc ≠ .pipeInit k)
    (hused : pc = .pipeInit i → p.used = true)
    (hph : Phase ((s.setPipe i p).goto pc)) : Inv ((s.setPipe i p).goto pc) := by
  have hother : ∀ k, k ≠ i → ((s.setPipe i p).goto pc).pipeTable k = s.pipeTable k := by
    intro k hk
    simp [St.setPipe, hk]
  have hpipe : ((s.setPipe i p).goto pc).pipeTable i = p := by simp [St.setPipe]
  have hne : ∀ k, (s.pipeTable k).used = true → k ≠ i := by
    rintro k hk rfl
    rw [hfree] at hk
    simp at hk
  -- where another process is about to set the references, the pipe is not `i`
  have hcases : ∀ j k, ((s.setPipe i p).goto pc).pcs j = .pipeInit k →
      (j = s.current ∧ k = i ∧ pc = .pipeInit i) ∨ (j ≠ s.current ∧ s.pcs j = .pipeInit k) := by
    intro j k hjk
    by_cases hj : j = s.current
    · subst hj
      have hpck : pc = .pipeInit k := by simpa [St.goto, St.setPipe] using hjk
      by_cases hpi : pc = .pipeInit i
      · rw [hpi] at hpck
        exact Or.inl ⟨rfl, (Pc.pipeInit.inj hpck).symm, hpi⟩
      · exact absurd hpck (hpc hpi k)
    · exact Or.inr ⟨hj, by simpa [St.goto, St.setPipe, hj] using hjk⟩
  refine ⟨h.total_le, fun j hj => ?_, h.pages_nodup, h.pages_set, h.pipes_nodup, fun k hk => ?_,
    fun j k hjk => ?_, fun j j' k hj hj' => ?_, hph⟩
  · have hj' : j ≠ s.current := hj
    simpa [St.goto, St.setPipe, hj'] using h.others j hj'
  · rw [hother k (hne k (h.pipes_used k hk))]
    exact h.pipes_used k hk
  · rcases hcases j k hjk with ⟨-, rfl, hpi⟩ | ⟨-, hj⟩
    · refine ⟨by rw [hpipe]; exact hused hpi, fun hmem => ?_⟩
      exact hne k (h.pipes_used k hmem) rfl
    · obtain ⟨hu, hnot⟩ := h.pipeInit_used j k hj
      rw [hother k (hne k hu)]
      exact ⟨hu, hnot⟩
  · rcases hcases j k hj with ⟨hjc, hki, -⟩ | ⟨-, hj⟩ <;>
      rcases hcases j' k hj' with ⟨hjc', hki', -⟩ | ⟨-, hj'⟩
    · rw [hjc, hjc']
    · exact absurd hki (hne k (h.pipeInit_used j' k hj').1)
    · exact absurd hki' (hne k (h.pipeInit_used j k hj).1)
    · exact h.pipeInit_inj j j' k hj hj'

lemma inv_pipeInit (h : Inv s) {i : Nat} (hpc : s.pc = .pipeInit i) :
    Inv { (s.setPipe i (s.pipeTable i).initRefs).goto .idle with pipes := i :: s.pipes } := by
  obtain ⟨hu, hnot⟩ := h.pipeInit_used s.current i hpc
  have hcount : s.pmm.Counted := h.counted (by simp [hpc, Pc.Uncounted])
  have hused : ∀ k, (Function.update s.pipeTable i (s.pipeTable i).initRefs k).used =
      (s.pipeTable k).used := by
    intro k
    by_cases hk : k = i
    · subst hk
      simp
    · simp [hk]
  have hcases : ∀ j k, ((s.setPipe i (s.pipeTable i).initRefs).goto .idle).pcs j = .pipeInit k →
      j ≠ s.current ∧ s.pcs j = .pipeInit k := fun j k hjk =>
    pcs_goto_pipeInit (s := s.setPipe i (s.pipeTable i).initRefs) (by simp) hjk
  refine ⟨h.total_le, fun j hj => ?_, h.pages_nodup, h.pages_set,
    List.nodup_cons.mpr ⟨hnot, h.pipes_nodup⟩, fun k hk => ?_, fun j k hjk => ?_,
    fun j j' k hj hj' => ?_, ?_⟩
  · have hj' : j ≠ s.current := hj
    simpa [St.goto, St.setPipe, hj'] using h.others j hj'
  · have hk' : (s.pipeTable k).used = true := by
      rcases List.mem_cons.mp hk with rfl | hk
      · exact hu
      · exact h.pipes_used k hk
    simpa [St.goto, St.setPipe, hused k] using hk'
  · obtain ⟨hj, hinit⟩ := hcases j k hjk
    obtain ⟨hku, hkn⟩ := h.pipeInit_used j k hinit
    refine ⟨by simpa [St.goto, St.setPipe, hused k] using hku, fun hmem => ?_⟩
    rcases List.mem_cons.mp hmem with rfl | hmem
    · exact hj (h.pipeInit_inj j s.current k hinit hpc)
    · exact hkn hmem
  · exact h.pipeInit_inj j j' k (hcases j k hj).2 (hcases j' k hj').2
  · have hpc' : ((s.setPipe i (s.pipeTable i).initRefs).goto .idle).pcs s.current = .idle :=
      goto_pcs_current (s.setPipe i (s.pipeTable i).initRefs) .idle
    simpa [Phase, St.pc, hpc'] using hcount

lemma inv_stepCurrent (h : Inv s) (hs : stepCurrent s = some t) : Inv t := by
  unfold stepCurrent at hs
  split at hs
  case h_1 => simp at hs
  case h_2 i hpc =>
    cases hs
    have hcount := h.counted (by simp [hpc, Pc.Uncounted])
    split_ifs
    all_goals exact h.goto (by simp) (by simpa [Phase] using hcount)
  case h_3 i b hpc =>
    cases hs
    have hcount := h.counted (by simp [hpc, Pc.Uncounted])
    split_ifs with hb htot hbit
    · exact h.goto (by simp) (by simpa [Phase] using hcount)
    · exact h.goto (by simp) (by simpa [Phase] using hcount)
    · exact h.goto (by simp) (by simpa [Phase] using hcount)
    · exact h.goto (by simp) (by simpa [Phase] using ⟨by omega, by simpa using hbit, hcount⟩)
  case h_4 page hpc =>
    cases hs
    exact inv_set h hpc
  case h_5 page hpc =>
    cases hs
    exact inv_count h hpc
  case h_6 i hpc =>
    cases hs
    have hcount := h.counted (by simp [hpc, Pc.Uncounted])
    split_ifs with hmax hused
    · exact h.goto (by simp) (by simpa [Phase] using hcount)
    · exact h.goto (by simp) (by simpa [Phase] using hcount)
    · exact h.goto (by simp) (by simpa [Phase] using ⟨by simpa using hused, hcount⟩)
  case h_7 i hpc =>
    cases hs
    obtain ⟨hfree, hcount⟩ : (s.pipeTable i).used = false ∧ s.pmm.Counted := by
      simpa [Phase, hpc] using h.phase
    refine inv_pipe h hfree (by simp) (by simp) ?_
    simpa [Phase, St.setPipe] using ⟨hfree, hcount⟩
  case h_8 i hpc =>
    cases hs
    obtain ⟨hfree, hcount⟩ : (s.pipeTable i).used = false ∧ s.pmm.Counted := by
      simpa [Phase, hpc] using h.phase
    exact inv_pipe h hfree (by simp) (by simp) (by simpa [Phase] using hcount)
  case h_9 i hpc =>
    cases hs
    exact inv_pipeInit h hpc

lemma phase_of_not_window (hw : ¬ s.pc.Window) (hc : s.pmm.Counted) : Phase s := by
  unfold Phase
  cases hpc : s.pc with
  | set | count | pipeReset | pipeUse => exact absurd trivial (by rwa [hpc] at hw)
  | idle | word | bit | pipeTest | pipeInit => exact hc

/-- Another process becomes current: neither it nor the old one is in its window. -/
lemma inv_tick (h : Inv s) (hw : ¬ s.pc.Window) (j : Nat) : Inv { s with current := j } := by
  have hall : ∀ k, ¬ (s.pcs k).Window := by
    intro k
    by_cases hk : k = s.current
    · subst hk
      exact hw
    · exact h.others k hk
  have hun : ¬ s.pc.Uncounted := by
    intro hu
    apply hw
    cases hpc : s.pc <;> simp_all [Pc.Uncounted, Pc.Window]
  refine ⟨h.total_le, fun k _ => hall k, h.pages_nodup, h.pages_set, h.pipes_nodup,
    h.pipes_used, h.pipeInit_used, h.pipeInit_inj, ?_⟩
  exact phase_of_not_window (hall j) (h.counted hun)

lemma inv_freePage (h : Inv s) (hpc : s.pc = .idle) {page : Nat} (hmem : page ∈ s.pages) :
    Inv { s with
      pmm := s.pmm.pmmFreePage (page * pageSize)
      pages := s.pages.erase page } := by
  obtain ⟨hlt, hset⟩ := h.pages_set page hmem
  have hcount : s.pmm.Counted := h.counted (by simp [hpc, Pc.Uncounted])
  have hfree : s.pmm.pmmFreePage (page * pageSize) = s.pmm.drop page := by
    have hdiv : page * pageSize / pageSize = page := by simp [pageSize]
    simp only [Pmm.pmmFreePage, hdiv]
    rw [if_neg (by simp [hset, hlt])]
  have hdrop := hcount.drop hlt hset
  rw [hfree]
  refine ⟨h.total_le, h.others, h.pages_nodup.erase page, fun q hq => ?_, h.pipes_nodup,
    h.pipes_used, h.pipeInit_used, h.pipeInit_inj, ?_⟩
  · obtain ⟨hqp, hq⟩ := (h.pages_nodup.mem_erase_iff).mp hq
    obtain ⟨hql, hqs⟩ := h.pages_set q hq
    exact ⟨hql, by rw [Pmm.drop_bitmap_of_ne hqp]; exact hqs⟩
  · have hpc' : s.pcs s.current = .idle := hpc
    simpa [Phase, St.pc, hpc'] using hdrop

lemma inv_releasePipe (h : Inv s) (hpc : s.pc = .idle) {i : Nat} (hmem : i ∈ s.pipes) :
    Inv { s.setPipe i { s.pipeTable i with readRefs := 0, writeRefs := 0, used := false }
      with pipes := s.pipes.erase i } := by
  have hcount : s.pmm.Counted := h.counted (by simp [hpc, Pc.Uncounted])
  refine ⟨h.total_le, h.others, h.pages_nodup, h.pages_set, h.pipes_nodup.erase i,
    fun k hk => ?_, fun j k hjk => ?_, h.pipeInit_inj, ?_⟩
  · obtain ⟨hki, hk⟩ := (h.pipes_nodup.mem_erase_iff).mp hk
    simpa [St.setPipe, hki] using h.pipes_used k hk
  · obtain ⟨hku, hkn⟩ := h.pipeInit_used j k hjk
    have hki : k ≠ i := fun heq => hkn (heq ▸ hmem)
    exact ⟨by simpa [St.setPipe, hki] using hku, fun hk => hkn (List.mem_of_mem_erase hk)⟩
  · have hpc' : s.pcs s.current = .idle := hpc
    have hpcs : ∀ p, (s.setPipe i p).pcs s.current = .idle := fun _ => hpc'
    simpa [Phase, St.pc, hpcs] using hcount

lemma inv_step {a : Act} (h : Inv s) (hok : NoTickInWindow s a) (hs : step s a = some t) :
    Inv t := by
  cases a with
  | allocPage =>
    simp only [step] at hs
    split at hs
    · rename_i hpc
      cases hs
      have hcount := h.counted (by simp [hpc, Pc.Uncounted])
      exact h.goto (by simp) (by simpa [Phase] using hcount)
    · simp at hs
  | pipeCreate =>
    simp only [step] at hs
    split at hs
    · rename_i hpc
      cases hs
      have hcount := h.counted (by simp [hpc, Pc.Uncounted])
      exact h.goto (by simp) (by simpa [Phase] using hcount)
    · simp at hs
  | step => exact inv_stepCurrent h hs
  | tick j =>
    cases hs
    exact inv_tick h hok j
  | freePage page =>
    simp only [step] at hs
    split at hs
    · rename_i hc
      cases hs
      exact inv_freePage h hc.1 hc.2
    · simp at hs
  | releasePipe i =>
    simp only [step] at hs
    split at hs
    · rename_i hc
      cases hs
      exact inv_releasePipe h hc.1 hc.2
    · simp at hs

/-! ## The result -/

/-- **Claims are exclusive when the timer stays out of the window.** -/
theorem exclusive_of_noTickInWindow (h : ReachIf step Init NoTickInWindow s) : Exclusive s := by
  have hinv : Inv s := h.invariant (fun _ => inv_of_init) fun _ _ _ => inv_step
  exact ⟨hinv.pages_nodup, hinv.pipes_nodup, hinv.counted⟩

/-- Memory as `pmm_init` leaves it without a memory map: the first 4 MB are taken. -/
def bootPmm : Pmm := { total := 2048, used := 1024, bitmap := fun page => decide (page < 1024) }

def boot : St :=
  { pmm := bootPmm, pipeTable := fun _ => default, current := 0, pcs := fun _ => .idle,
    pages := [], pipes := [] }

lemma init_boot : Init boot := by
  refine ⟨le_refl _, ?_, fun _ => rfl, rfl, rfl⟩
  have hset : (Finset.range 2048).filter (fun q => bootPmm.bitmap q = true) =
      Finset.range 1024 := by
    ext q
    simp only [bootPmm, decide_eq_true_eq, Finset.mem_filter, Finset.mem_range]
    omega
  show 1024 = ((Finset.range 2048).filter fun q => bootPmm.bitmap q = true).card
  rw [hset, Finset.card_range]

/-- Process 0 is preempted right before it tests the bit of page 1024.  Process 1 is given that page
and a pipe, and process 0 then finds the next page. -/
def searchThenTick : List Act :=
  [.allocPage] ++ List.replicate 33 .step ++ [.tick 1, .allocPage] ++ List.replicate 36 .step ++
    [.pipeCreate] ++ List.replicate 4 .step ++ [.tick 0] ++ List.replicate 4 .step

theorem exclusive_searchThenTick :
    ∃ s, runIf step NoTickInWindow boot searchThenTick = some s ∧ s.pages = [1025, 1024] ∧
      s.pipes = [0] ∧ Exclusive s := by
  have hrun : (runIf step NoTickInWindow boot searchThenTick).map
      (fun s => (s.pages, s.pipes)) = some ([1025, 1024], [0]) := by
    decide +kernel
  obtain ⟨s, hs, hp⟩ := Option.map_eq_some_iff.mp hrun
  obtain ⟨hpages, hpipes⟩ := Prod.mk.inj hp
  exact ⟨s, hs, hpages, hpipes,
    exclusive_of_noTickInWindow (ReachIf.of_runIf (.start init_boot) hs)⟩

/-- Process 0 is preempted with page 1024 found free, process 1 is given it, and then
process 0 takes it too. -/
def tickBeforeSet : List Act :=
  [.allocPage] ++ List.replicate 34 .step ++ [.tick 1, .allocPage] ++
    List.replicate 36 .step ++ [.tick 0] ++ List.replicate 2 .step

theorem sameFrameTwice : ¬ ∀ s, Reach step Init s → Exclusive s := by
  intro hall
  have hrun : (run step boot tickBeforeSet).map (fun s => s.pages) = some [1024, 1024] := by
    decide +kernel
  obtain ⟨s, hs, hpages⟩ := Option.map_eq_some_iff.mp hrun
  have hex := (hall s (Reach.of_run init_boot hs)).1
  rw [hpages] at hex
  exact absurd hex (by decide)

end NullOS.ClaimRace
