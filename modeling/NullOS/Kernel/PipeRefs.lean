import NullOS.Kernel.Syscall
import NullOS.Kernel.Refs
import NullOS.Lib.Run

/-!
# Pipe references and their holders

The counts of a pipe are right when they equal the number of open descriptors of live processes:
then the last close of a write end is seen as end of file.  `sys_kill` does not close the
descriptors of the process it ends (`killedWriter`).  As long as it is only used on other processes
that have nothing open, the counts are right in every reachable state.
-/

namespace NullOS.Kernel

open Lib Ipc Vfs

/-- The open descriptors of one kind for pipe `i` that are in the row of a live process. -/
def liveHolders (s : Kernel) (b : VfsBackend) (i : Nat) : Nat :=
  (fdIndices.filter fun x =>
    (s.procs x.1).state ≠ .unused ∧ (s.fdTable x.1 x.2).Holds b i).card

/-- The processes of `t` that were not there in `s` have nothing open but their redirects. -/
def StartsFresh (s t : Kernel) : Prop :=
  ∀ slot < processMax, (s.procs slot).state = .unused → (t.procs slot).state ≠ .unused →
    ∀ j < fdPerProc, (t.fdTable slot j).used = true →
      (t.procs slot).stdinRedirect = some (fdBase + j) ∨
        (t.procs slot).stdoutRedirect = some (fdBase + j)

/-- The counts are exact, and what follows from it for new processes and for readers. -/
structure RefsExact (s : Kernel) : Prop where
  read : ∀ i < pipeMax, (s.pipeTable i).readRefs = s.liveHolders .pipeRead i
  write : ∀ i < pipeMax, (s.pipeTable i).writeRefs = s.liveHolders .pipeWrite i
  unused_row : ∀ slot < processMax, (s.procs slot).state = .unused → ∀ j < fdPerProc,
    (s.fdTable slot j).used = false
  free : ∀ i < pipeMax, (s.pipeTable i).used = false ↔
    (s.pipeTable i).readRefs = 0 ∧ (s.pipeTable i).writeRefs = 0
  /-- A process that comes to life starts with its redirects only, forked ones apart. -/
  fresh : ∀ a t, (∀ dir, a ≠ .fork dir) → step s a = some t → StartsFresh s t
  /-- An empty pipe without a writer reads as end of file. -/
  eof : ∀ i < pipeMax, s.liveHolders .pipeWrite i = 0 → (s.pipeTable i).count = 0 →
    ∀ self len, ((s.pipeTable i).readSection self len).1 = .eof

/-- `sys_kill` is used neither on the caller nor on a process with an open descriptor. -/
def KillsClosed (s : Kernel) : Act → Prop
  | .kill pid => ∀ slot ∈ s.killTarget pid,
      s.current ≠ some slot ∧ ∀ j < fdPerProc, (s.fdTable slot j).used = false
  | _ => True

instance (s : Kernel) : DecidablePred (KillsClosed s)
  | .kill pid => inferInstanceAs (Decidable (∀ slot ∈ s.killTarget pid,
      s.current ≠ some slot ∧ ∀ j < fdPerProc, (s.fdTable slot j).used = false))
  | .pipe _ | .openFile _ | .close _ | .fork _ | .exec _ | .execPipe _ _ _ | .exit
  | .schedule _ | .spawn _ => .isTrue trivial

variable {s t : Kernel} {er ew : Nat → Nat} {slot j i new : Nat}

/-! ## The calls keep the counts right -/

lemma refs_boot : Refs nil nil boot := by
  have hzero : ∀ b i, boot.holders b i = 0 := fun b i =>
    count_eq_zero fun x _ hx => absurd hx.1 (by simp [boot]; rfl)
  refine ⟨fun i _ => ?_, fun i _ => ?_, fun i _ => ?_, fun _ _ _ _ _ => rfl, fun k _ l _ hu => ?_,
    fun k hk => ?_⟩
  · rw [hzero]
    rfl
  · rw [hzero]
    rfl
  · exact ⟨fun _ => ⟨rfl, rfl⟩, fun _ => rfl⟩
  · exact absurd hu (by simp [boot]; rfl)
  · simp [boot] at hk

lemma weight_pipeEnd (fd : VfsFd) (b : VfsBackend) (i : Nat) (e : Nat → Nat) (k : Nat) :
    e k + weight (pipeEnd fd b i) b k = one i e k := by
  have hused : (pipeEnd fd b i).used = true := rfl
  exact weight_first e hused k

lemma Refs.setFd_pipeEnd_read (h : Refs (one i er) ew s) (hslot : slot < processMax)
    (hj : j < fdPerProc) (hi : i < pipeMax) (hlive : (s.procs slot).state ≠ .unused)
    (hfree : (s.fdTable slot j).used = false) :
    Refs er ew (s.setFd slot j (pipeEnd (s.fdTable slot j) .pipeRead i)) := by
  refine h.setFd hslot hj (fun _ => ⟨hlive, fun _ => hi⟩) (fun k _ => ?_) (fun k _ => ?_)
  · rw [weight_unused hfree, weight_pipeEnd, add_zero]
  · rw [weight_unused hfree, weight_backend_ne _ (by simp [pipeEnd])]

lemma Refs.setFd_pipeEnd_write (h : Refs er (one i ew) s) (hslot : slot < processMax)
    (hj : j < fdPerProc) (hi : i < pipeMax) (hlive : (s.procs slot).state ≠ .unused)
    (hfree : (s.fdTable slot j).used = false) :
    Refs er ew (s.setFd slot j (pipeEnd (s.fdTable slot j) .pipeWrite i)) := by
  refine h.setFd hslot hj (fun _ => ⟨hlive, fun _ => hi⟩) (fun k _ => ?_) (fun k _ => ?_)
  · rw [weight_unused hfree, weight_backend_ne _ (by simp [pipeEnd])]
  · rw [weight_unused hfree, weight_pipeEnd, add_zero]

lemma refs_sysPipe (h : Refs nil nil s) (copyOk : Bool) :
    Refs nil nil (s.sysPipe copyOk).2 := by
  unfold sysPipe
  split
  case h_1 => exact h
  case h_2 slot hcur =>
    obtain ⟨hslot, hlive⟩ := h.current slot hcur
    split
    case h_1 => exact h
    case h_2 i t hcreate =>
      obtain ⟨hi, ht⟩ := h.pipeCreate hcreate
      have hcur' : t.current = some slot := by
        obtain ⟨k, _, hpair⟩ := Option.map_eq_some_iff.mp hcreate
        rw [← (Prod.mk.inj hpair).2]
        exact hcur
      have hlive' := (ht.current slot hcur').2
      split
      case h_1 => exact ht.releaseRead.releaseWrite
      case h_2 rj hrj =>
        obtain ⟨hrlt, hrfree⟩ := freeFd_some hrj
        dsimp only
        have hread := ht.setFd_pipeEnd_read hslot hrlt hi hlive' hrfree
        split
        case h_1 => exact (hread.vfsClose hslot hrlt).releaseWrite
        case h_2 wj hwj =>
          obtain ⟨hwlt, hwfree⟩ := find?_range_some hwj
          rw [Bool.and_eq_true, Bool.not_eq_true'] at hwfree
          have hboth := hread.setFd_pipeEnd_write hslot hwlt hi hlive' hwfree.2
          split
          · exact hboth
          · exact (hboth.vfsClose hslot hrlt).vfsClose hslot hwlt

lemma refs_sysOpen (h : Refs nil nil s) {file : Option VfsFd}
    (hfile : ∀ fd ∈ file, fd.used = true ∧ (fd.backend = .ramfs ∨ fd.backend = .fat16)) :
    Refs nil nil (s.sysOpen file).2 := by
  unfold sysOpen
  split
  case h_1 => exact h
  case h_2 slot hcur =>
    obtain ⟨hslot, hlive⟩ := h.current slot hcur
    split
    case h_2 => exact h
    case h_1 j fd hj =>
      obtain ⟨hjlt, hjfree⟩ := freeFd_some hj
      refine h.setFd_noPipe hslot hjlt (fun _ => hlive) (fun _ => ?_)
        (fun hu => absurd hu (by simp [hjfree]))
      rcases (hfile fd rfl).2 with hb | hb <;> simp [hb]

lemma refs_sysClose (h : Refs nil nil s) (fd : Nat) : Refs nil nil (s.sysClose fd).2 := by
  unfold sysClose
  split
  case h_1 => exact h
  case h_2 slot hcur =>
    split
    case h_1 => exact h
    case h_2 j hj => exact h.vfsClose (h.current slot hcur).1 (userFd_some hj).1

/-- The loop of `sys_fork`, by induction on the number of descriptors copied: the entries not
yet reached are still free. -/
lemma refs_forkRow {parent child : Nat} (h : Refs nil nil s) (hparent : parent < processMax)
    (hchild : child < processMax) (hlive : (s.procs child).state ≠ .unused)
    (hrow : ∀ j < fdPerProc, (s.fdTable child j).used = false) (n : Nat) (hn : n ≤ fdPerProc) :
    Refs nil nil (s.forkRow parent child n) ∧ (s.forkRow parent child n).procs = s.procs ∧
      ∀ j, n ≤ j → (s.forkRow parent child n).fdTable child j = s.fdTable child j := by
  induction n with
  | zero => exact ⟨h, rfl, fun _ _ => rfl⟩
  | succ n ih =>
    obtain ⟨hrefs, hprocs, hrest⟩ := ih (by omega)
    refine ⟨?_, ?_, fun j hj => ?_⟩
    · refine hrefs.copyFd hchild (by omega) ?_ ?_ hparent (by omega)
      · rw [hrest n (le_refl n)]
        exact hrow n (by omega)
      · rw [hprocs]
        exact hlive
    · rw [forkRow, copyFd_procs, hprocs]
    · rw [forkRow, copyFd_fdTable, setFd_fdTable_of_ne _ _ _ _ (.inr (by omega))]
      exact hrest j (by omega)

lemma Refs.fresh (h : Refs er ew s) {new : Nat} (hnew : (t.procs new).state ≠ .unused)
    (hrest : ∀ k, k ≠ new → t.procs k = s.procs k) (hfd : t.fdTable = s.fdTable)
    (hpipe : t.pipeTable = s.pipeTable) (hcur : t.current = s.current) : Refs er ew t := by
  refine h.of_procs hfd hpipe hcur (fun k hk hku => ?_) (fun k hk => ?_)
  · have hne : k ≠ new := fun heq => hnew (heq ▸ hku)
    rw [hrest k hne] at hku
    exact h.unused_row k hk hku
  · by_cases hkn : k = new
    · rw [hkn]
      exact hnew
    · rw [hrest k hkn]
      exact (h.current k hk).2

lemma refs_sysFork (h : Refs nil nil s) (dir : Option Nat) :
    Refs nil nil (s.sysFork dir).2 := by
  unfold sysFork
  split
  case h_1 => exact h
  case h_2 parent hcur =>
    obtain ⟨hparent, -⟩ := h.current parent hcur
    obtain ⟨hfd, hpipe, hc⟩ := processFork_frame s parent dir
    split
    case h_1 t ht =>
      have hun := processFork_none parent dir (by rw [ht])
      rw [ht] at hfd hpipe hc hun
      refine h.of_procs hfd hpipe hc (fun k hk hku => ?_) (fun k hk => ?_)
      · exact h.unused_row k hk ((hun k).mp hku)
      · exact fun hku => (h.current k hk).2 ((hun k).mp hku)
    case h_2 child t ht =>
      obtain ⟨hchild, hunused, hlive, hrest⟩ :=
        processFork_some parent dir (congrArg Prod.fst ht)
      rw [ht] at hfd hpipe hc hlive hrest
      have hrow : ∀ j < fdPerProc, (t.fdTable child j).used = false := by
        intro j hj
        rw [hfd]
        exact h.unused_row child hchild hunused j hj
      exact (refs_forkRow (h.fresh hlive hrest hfd hpipe hc) hparent hchild hlive hrow fdPerProc
        (le_refl _)).1

lemma exec_some {dir : Option Nat} {cwd new : Nat} {sb : Bool}
    (h : s.exec dir cwd sb = some (new, t)) :
    ∃ cr3, s.processSpawnUser cr3 cwd sb = some (new, t) := by
  obtain ⟨cr3, -, hspawn⟩ := Option.bind_eq_some_iff.mp h
  exact ⟨cr3, hspawn⟩

lemma refs_spawn (h : Refs er ew s) {cr3 cwd new : Nat} {sb : Bool}
    (hs : s.processSpawnUser cr3 cwd sb = some (new, t)) : Refs er ew t := by
  obtain ⟨-, -, hlive, -, hrest, hfd, hpipe, hcur⟩ := processSpawnUser_some hs
  exact h.fresh hlive hrest hfd hpipe hcur

lemma refs_sysExec (h : Refs nil nil s) (dir : Option Nat) :
    Refs nil nil (s.sysExec dir).2 := by
  unfold sysExec
  split
  case h_1 => exact h
  case h_2 slot hcur =>
    split
    case h_1 => exact h
    case h_2 new t ht =>
      obtain ⟨cr3, hspawn⟩ := exec_some ht
      exact refs_spawn h hspawn

/-- The state while `sys_exec_pipe` fills the row of the new process. -/
structure Seeding (s : Kernel) (new : Nat) : Prop where
  refs : Refs nil nil s
  lt : new < processMax
  live : (s.procs new).state ≠ .unused

/-- One redirect: either half of the seeding, whatever field of the new process it sets. -/
lemma Seeding.copy (h : Seeding s new) (hslot : slot < processMax) {idx : Nat}
    (hidx : idx < fdPerProc) (hj : s.freeFd new = some j) {p : Proc}
    (hp : p.state = (s.procs new).state) :
    Seeding ((s.copyFd new j (s.fdTable slot idx)).setProc new p) new := by
  obtain ⟨hjlt, hjfree⟩ := freeFd_some hj
  have hplive : p.state ≠ .unused := by
    rw [hp]
    exact h.live
  refine ⟨?_, h.lt, by simpa using hplive⟩
  refine (h.refs.copyFd h.lt hjlt hjfree h.live hslot hidx).setProc ?_ (fun _ => hplive)
  exact fun hu => absurd hu hplive

lemma exists_freeFd (hj : j < fdPerProc) (h : (s.fdTable slot j).used = false) :
    ∃ k, s.freeFd slot = some k := by
  rw [← Option.isSome_iff_exists, freeFd, List.find?_isSome]
  exact ⟨j, List.mem_range.mpr hj, by simpa using h⟩

/-- The first redirect goes into an empty row, so it finds a place, and it is then the only
open descriptor. -/
lemma Seeding.stdin (h : Seeding s new) (hslot : slot < processMax) {src : Option Nat}
    (hsrc : ∀ idx ∈ src, idx < fdPerProc)
    (hrow : ∀ j < fdPerProc, (s.fdTable new j).used = false) :
    ∃ t, s.seedStdin new slot src = some t ∧ Seeding t new ∧
      (∀ j < fdPerProc, (t.fdTable new j).used = true →
        (t.procs new).stdinRedirect = some (fdBase + j)) ∧
      ∀ k, k ≠ new → t.procs k = s.procs k := by
  cases src with
  | none =>
    refine ⟨s, rfl, h, fun j hj hu => ?_, fun _ _ => rfl⟩
    rw [hrow j hj] at hu
    simp at hu
  | some idx =>
    obtain ⟨j, hj⟩ := exists_freeFd (show 0 < fdPerProc by decide) (hrow 0 (by decide))
    refine ⟨_, by rw [seedStdin, hj]; rfl, h.copy hslot (hsrc idx rfl) hj ?_, ?_, ?_⟩
    · rw [copyFd_procs]
    · intro k hk hu
      by_cases hkj : k = j
      · subst hkj
        simp
      · rw [setProc_fdTable, copyFd_fdTable, setFd_fdTable_of_ne _ _ _ _ (.inr hkj),
          hrow k hk] at hu
        simp at hu
    · intro k hk
      rw [setProc_procs_of_ne _ _ _ hk, copyFd_procs]

lemma Seeding.stdout (h : Seeding s new) (hslot : slot < processMax) {src : Option Nat}
    (hsrc : ∀ idx ∈ src, idx < fdPerProc)
    (hrow : ∀ j < fdPerProc, (s.fdTable new j).used = true →
      (s.procs new).stdinRedirect = some (fdBase + j)) :
    ∃ t, s.seedStdout new slot src = some t ∧ Seeding t new ∧
      (∀ j < fdPerProc, (t.fdTable new j).used = true →
        (t.procs new).stdinRedirect = some (fdBase + j) ∨
          (t.procs new).stdoutRedirect = some (fdBase + j)) ∧
      ∀ k, k ≠ new → t.procs k = s.procs k := by
  cases src with
  | none => exact ⟨s, rfl, h, fun j hj hu => .inl (hrow j hj hu), fun _ _ => rfl⟩
  | some idx =>
    obtain ⟨j, hj⟩ : ∃ j, s.freeFd new = some j := by
      by_cases h0 : (s.fdTable new 0).used = true
      · refine exists_freeFd (show 1 < fdPerProc by decide) ?_
        by_contra h1
        have hin0 := hrow 0 (by decide) h0
        have hin1 := hrow 1 (by decide) (by simpa using h1)
        rw [hin0] at hin1
        simp at hin1
      · exact exists_freeFd (show 0 < fdPerProc by decide) (by simpa using h0)
    refine ⟨_, by rw [seedStdout, hj]; rfl, h.copy hslot (hsrc idx rfl) hj ?_, ?_, ?_⟩
    · rw [copyFd_procs]
    · intro k hk hu
      by_cases hkj : k = j
      · subst hkj
        simp
      · rw [setProc_fdTable, copyFd_fdTable, setFd_fdTable_of_ne _ _ _ _ (.inr hkj)] at hu
        left
        rw [setProc_procs_self, copyFd_procs]
        exact hrow k hk hu
    · intro k hk
      rw [setProc_procs_of_ne _ _ _ hk, copyFd_procs]

lemma redirectSrc_lt {fd : Nat} {src : Option Nat} (h : s.redirectSrc slot fd = some src) :
    ∀ idx ∈ src, idx < fdPerProc := by
  intro idx hidx
  unfold redirectSrc at h
  split_ifs at h
  · cases h
    simp at hidx
  · obtain ⟨k, hk, rfl⟩ := Option.map_eq_some_iff.mp h
    cases hidx
    exact (userFd_some hk).1

lemma StartsFresh.of_unused
    (h : ∀ k, (s.procs k).state = .unused → (t.procs k).state = .unused) : StartsFresh s t :=
  fun slot _ hs ht => absurd (h slot hs) ht

lemma StartsFresh.of_new (new : Nat) (hrest : ∀ k, k ≠ new → t.procs k = s.procs k)
    (hrow : ∀ j < fdPerProc, (t.fdTable new j).used = true →
      (t.procs new).stdinRedirect = some (fdBase + j) ∨
        (t.procs new).stdoutRedirect = some (fdBase + j)) : StartsFresh s t := by
  intro slot _ hs ht
  have hnew : slot = new := by
    by_contra hne
    rw [hrest slot hne] at ht
    exact ht hs
  rw [hnew]
  exact hrow

lemma refs_sysExecPipe (h : Refs nil nil s) (dir : Option Nat) (stdinFd stdoutFd : Nat) :
    Refs nil nil (s.sysExecPipe dir stdinFd stdoutFd).2 ∧
      StartsFresh s (s.sysExecPipe dir stdinFd stdoutFd).2 := by
  unfold sysExecPipe
  split
  case h_1 => exact ⟨h, .of_unused fun _ => id⟩
  case h_2 slot hcur =>
    obtain ⟨hslot, -⟩ := h.current slot hcur
    split
    case h_2 => exact ⟨h, .of_unused fun _ => id⟩
    case h_1 inSrc outSrc hin hout =>
      split
      case h_1 => exact ⟨h, .of_unused fun _ => id⟩
      case h_2 new t ht =>
        obtain ⟨cr3, hspawn⟩ := exec_some ht
        obtain ⟨hnew, hunused, hlive, -, hrest, hfd, -, -⟩ := processSpawnUser_some hspawn
        have hseed : Seeding t new := ⟨refs_spawn h hspawn, hnew, hlive⟩
        have hrow : ∀ j < fdPerProc, (t.fdTable new j).used = false := by
          rw [hfd]
          exact h.unused_row new hnew hunused
        obtain ⟨u, hu, hseedu, hrowu, hrestu⟩ := hseed.stdin hslot (redirectSrc_lt hin) hrow
        obtain ⟨v, hv, hseedv, hrowv, hrestv⟩ := hseedu.stdout hslot (redirectSrc_lt hout) hrowu
        simp only [hu, hv]
        refine ⟨hseedv.refs.setProc ?_ ?_, StartsFresh.of_new new ?_ ?_⟩
        · exact fun hz => absurd ((Proc.wake_unused _).mp hz) hseedv.live
        · exact fun _ hz => hseedv.live ((Proc.wake_unused _).mp hz)
        · intro k hk
          rw [processMakeReady, setProc_procs_of_ne _ _ _ hk, hrestv k hk, hrestu k hk,
            hrest k hk]
        · intro j hj hju
          rw [processMakeReady, setProc_procs_self, Proc.wake_stdinRedirect,
            Proc.wake_stdoutRedirect]
          exact hrowv j hj hju

/-- The loop of `sys_exit`, by induction on the number of descriptors visited. -/
lemma refs_closeRow (h : Refs nil nil s) (hslot : slot < processMax) (n : Nat)
    (hn : n ≤ fdPerProc) :
    Refs nil nil (s.closeRow slot n) ∧ (s.closeRow slot n).current = s.current ∧
      (∀ k, ((s.closeRow slot n).procs k).state = .unused ↔ (s.procs k).state = .unused) ∧
      ∀ j < n, ((s.closeRow slot n).fdTable slot j).used = false := by
  induction n with
  | zero => exact ⟨h, rfl, fun _ => Iff.rfl, fun j hj => absurd hj (by omega)⟩
  | succ n ih =>
    obtain ⟨hrefs, hcur, hun, hrow⟩ := ih (by omega)
    rw [closeRow]
    split
    case isTrue hu =>
      refine ⟨hrefs.vfsClose hslot (by omega), ?_, fun k => ?_, fun j hj => ?_⟩
      · rw [vfsClose_current, hcur]
      · rw [vfsClose_unused, hun]
      · by_cases hjn : j = n
        · subst hjn
          exact vfsClose_fdTable_self _ slot j
        · rw [vfsClose_fdTable_of_ne _ hjn]
          exact hrow j (by omega)
    case isFalse hu =>
      refine ⟨hrefs, hcur, hun, fun j hj => ?_⟩
      by_cases hjn : j = n
      · subst hjn
        simpa using hu
      · exact hrow j (by omega)

lemma Refs.processExit (h : Refs er ew s) (hcur : s.current ≠ some slot)
    (hrow : ∀ j < fdPerProc, (s.fdTable slot j).used = false) :
    Refs er ew (s.processExit slot) := by
  obtain ⟨hfd, hpipe, hc⟩ := processExit_frame s slot
  refine h.of_procs hfd hpipe hc (fun k hk hku => ?_) (fun k hk hku => ?_)
  · rcases (processExit_unused s slot k).mp hku with hk' | rfl
    · exact h.unused_row k hk hk'
    · exact hrow
  · rcases (processExit_unused s slot k).mp hku with hk' | rfl
    · exact (h.current k hk).2 hk'
    · exact hcur hk

lemma refs_sysExit (h : Refs nil nil s) : Refs nil nil s.sysExit := by
  unfold sysExit
  split
  case h_1 => exact h
  case h_2 slot hcur =>
    obtain ⟨hslot, -⟩ := h.current slot hcur
    obtain ⟨hrefs, -, -, hrow⟩ := refs_closeRow h hslot fdPerProc (le_refl _)
    obtain ⟨hfd, hpipe, -⟩ := processExit_frame (s.closeRow slot fdPerProc) slot
    refine ⟨?_, ?_, ?_, fun k hk hku => ?_, ?_, fun k hk => absurd hk (by simp)⟩
    · simpa only [holders, hfd, hpipe] using hrefs.read
    · simpa only [holders, hfd, hpipe] using hrefs.write
    · simpa only [hpipe] using hrefs.free
    · rw [hfd]
      rcases (processExit_unused _ slot k).mp hku with hk' | rfl
      · exact hrefs.unused_row k hk hk'
      · exact hrow
    · simpa only [hfd] using hrefs.in_range

lemma refs_yieldCurrent (h : Refs nil nil s) : Refs nil nil s.yieldCurrent := by
  unfold yieldCurrent
  split
  · exact h
  · split
    · exact h.setProc (fun hu => absurd hu (by simp)) (fun _ => by simp)
    · exact h

lemma refs_runSlot (h : Refs nil nil s) (hj : j < processMax) : Refs nil nil (s.runSlot j) := by
  have hset : Refs nil nil (s.setProc j { s.procs j with state := .running }) :=
    h.setProc (fun hz => absurd hz (by simp)) (fun _ => by simp)
  refine ⟨hset.read, hset.write, hset.free, hset.unused_row, hset.in_range, fun k hk => ?_⟩
  cases hk
  exact ⟨hj, by simp [runSlot]⟩

lemma refs_step {a : Act} (h : Refs nil nil s) (hok : KillsClosed s a) (hs : step s a = some t) :
    Refs nil nil t := by
  cases a with
  | pipe copyOk =>
    cases hs
    exact refs_sysPipe h copyOk
  | openFile file =>
    simp only [step] at hs
    split_ifs at hs with hfile
    cases hs
    exact refs_sysOpen h hfile
  | close fd =>
    cases hs
    exact refs_sysClose h fd
  | fork dir =>
    cases hs
    exact refs_sysFork h dir
  | exec dir =>
    cases hs
    exact refs_sysExec h dir
  | execPipe dir stdinFd stdoutFd =>
    cases hs
    exact (refs_sysExecPipe h dir stdinFd stdoutFd).1
  | exit =>
    cases hs
    exact refs_sysExit h
  | kill pid =>
    cases hs
    unfold sysKill
    split
    · exact h
    case h_2 slot hslot =>
      obtain ⟨hcur, hrow⟩ := hok slot hslot
      exact h.processExit hcur hrow
  | schedule j =>
    simp only [step] at hs
    split_ifs at hs with hj
    cases hs
    exact refs_runSlot (refs_yieldCurrent h) hj.1
  | spawn cr3 =>
    obtain ⟨⟨new, u⟩, hspawn, rfl⟩ := Option.map_eq_some_iff.mp hs
    exact refs_spawn h hspawn

/-! ## New processes -/

lemma sysPipe_unused (s : Kernel) (copyOk : Bool) (k : Nat) :
    ((s.sysPipe copyOk).2.procs k).state = .unused ↔ (s.procs k).state = .unused := by
  unfold sysPipe
  split
  case h_1 => rfl
  case h_2 slot _ =>
    split
    case h_1 => rfl
    case h_2 i t hcreate =>
      have hprocs : t.procs = s.procs := by
        obtain ⟨m, _, hpair⟩ := Option.map_eq_some_iff.mp hcreate
        rw [← (Prod.mk.inj hpair).2, setPipe_procs]
      split
      case h_1 => simp [hprocs]
      case h_2 rj _ =>
        dsimp only
        split
        case h_1 => simp [hprocs]
        case h_2 wj _ => split <;> simp [hprocs]

lemma sysOpen_unused (s : Kernel) (file : Option VfsFd) (k : Nat) :
    ((s.sysOpen file).2.procs k).state = .unused ↔ (s.procs k).state = .unused := by
  unfold sysOpen
  split
  · rfl
  · split <;> rfl

lemma sysClose_unused (s : Kernel) (fd k : Nat) :
    ((s.sysClose fd).2.procs k).state = .unused ↔ (s.procs k).state = .unused := by
  unfold sysClose
  split
  · rfl
  · split
    · rfl
    · exact vfsClose_unused s _ _ k

lemma runSlot_unused (hj : (s.procs j).state = .ready) {k : Nat}
    (hk : (s.procs k).state = .unused) : ((s.runSlot j).procs k).state = .unused := by
  have hne : k ≠ j := by
    rintro rfl
    rw [hj] at hk
    simp at hk
  show ((s.setProc j _).procs k).state = .unused
  rw [setProc_procs_of_ne _ _ _ hne, hk]

lemma yieldCurrent_state (s : Kernel) (k : Nat) :
    (s.yieldCurrent.procs k).state = (s.procs k).state ∨
      (s.procs k).state = .running ∧ (s.yieldCurrent.procs k).state = .ready := by
  unfold yieldCurrent
  split
  · exact .inl rfl
  case h_2 c _ =>
    split
    case isTrue hrun =>
      by_cases hk : k = c
      · subst hk
        exact .inr ⟨hrun, by simp⟩
      · exact .inl (by rw [setProc_procs_of_ne _ _ _ hk])
    case isFalse => exact .inl rfl

lemma startsFresh_spawn (h : Refs nil nil s) {cr3 cwd : Nat} {sb : Bool}
    (hs : s.processSpawnUser cr3 cwd sb = some (new, t)) : StartsFresh s t := by
  obtain ⟨hnew, hunused, -, -, hrest, hfd, -, -⟩ := processSpawnUser_some hs
  refine StartsFresh.of_new new hrest fun j hj hju => ?_
  rw [hfd, h.unused_row new hnew hunused j hj] at hju
  simp at hju

/-- Whatever call comes next, `sys_fork` apart: a process that comes to life by it has only its
redirects open. -/
lemma startsFresh_step {a : Act} (h : Refs nil nil s) (ha : ∀ dir, a ≠ .fork dir)
    (hs : step s a = some t) : StartsFresh s t := by
  cases a with
  | pipe copyOk =>
    cases hs
    exact .of_unused fun k => (sysPipe_unused s copyOk k).mpr
  | openFile file =>
    simp only [step] at hs
    split_ifs at hs
    cases hs
    exact .of_unused fun k => (sysOpen_unused s file k).mpr
  | close fd =>
    cases hs
    exact .of_unused fun k => (sysClose_unused s fd k).mpr
  | fork dir => exact absurd rfl (ha dir)
  | exec dir =>
    cases hs
    unfold sysExec
    split
    · exact .of_unused fun _ => id
    · split
      · exact .of_unused fun _ => id
      case h_2 new u hu =>
        obtain ⟨cr3, hspawn⟩ := exec_some hu
        exact startsFresh_spawn h hspawn
  | execPipe dir stdinFd stdoutFd =>
    cases hs
    exact (refs_sysExecPipe h dir stdinFd stdoutFd).2
  | exit =>
    cases hs
    unfold sysExit
    split
    · exact .of_unused fun _ => id
    case h_2 slot hcur =>
      obtain ⟨-, -, hun, -⟩ := refs_closeRow h (h.current slot hcur).1 fdPerProc (le_refl _)
      exact .of_unused fun k hk => (processExit_unused _ slot k).mpr (.inl ((hun k).mpr hk))
  | kill pid =>
    cases hs
    unfold sysKill
    split
    · exact .of_unused fun _ => id
    case h_2 slot _ => exact .of_unused fun k hk => (processExit_unused s slot k).mpr (.inl hk)
  | schedule j =>
    simp only [step] at hs
    split_ifs at hs with hj
    cases hs
    refine .of_unused fun k hk => runSlot_unused ?_ ?_
    · rcases yieldCurrent_state s j with hst | ⟨-, hst⟩
      · rw [hst, hj.2]
      · exact hst
    · rcases yieldCurrent_state s k with hst | ⟨hrun, -⟩
      · rw [hst, hk]
      · rw [hrun] at hk
        simp at hk
  | spawn cr3 =>
    obtain ⟨⟨new, u⟩, hspawn, rfl⟩ := Option.map_eq_some_iff.mp hs
    exact startsFresh_spawn h hspawn

/-! ## The result -/

lemma Refs.liveHolders_eq (h : Refs er ew s) (b : VfsBackend) (i : Nat) :
    s.liveHolders b i = s.holders b i := by
  unfold liveHolders holders count
  congr 1
  refine Finset.filter_congr fun x hx => ⟨And.right, fun hold => ⟨fun hu => ?_, hold⟩⟩
  obtain ⟨hslot, hj⟩ := Finset.mem_product.mp hx
  have hrow := h.unused_row x.1 (Finset.mem_range.mp hslot) hu x.2 (Finset.mem_range.mp hj)
  rw [hold.1] at hrow
  simp at hrow

/-- **References equal live holders** in every state of a run in which `sys_kill` only ends
other processes that have nothing open. -/
theorem refsExact_of_killsClosed (h : ReachIf step (· = boot) KillsClosed s) : RefsExact s := by
  have hrefs : Refs nil nil s :=
    h.invariant (fun _ hs => hs ▸ refs_boot) fun _ _ _ => refs_step
  refine ⟨fun i hi => ?_, fun i hi => ?_, hrefs.unused_row, hrefs.free, fun a t ha hs => ?_,
    fun i hi hw hc self len => ?_⟩
  · rw [hrefs.liveHolders_eq]
    exact hrefs.read i hi
  · rw [hrefs.liveHolders_eq]
    exact hrefs.write i hi
  · exact startsFresh_step hrefs ha hs
  · have hzero : (s.pipeTable i).writeRefs = 0 := by
      rw [hrefs.write i hi, ← hrefs.liveHolders_eq, hw]
      rfl
    simp [Pipe.readSection, hc, hzero]

/-- A pipe, a process reading from it, and a third one with nothing open that is killed. -/
def pipelineRun : List Act :=
  [.spawn 1, .schedule 0, .pipe true, .execPipe (some 2) 3 0xFFFFFFFF, .exec (some 3), .kill 3]

theorem refsExact_pipelineRun :
    ∃ s, runIf step KillsClosed boot pipelineRun = some s ∧ (s.pipeTable 0).readRefs = 2 ∧
      RefsExact s := by
  have hrun : (runIf step KillsClosed boot pipelineRun).map
      (fun s => (s.pipeTable 0).readRefs) = some 2 := by
    decide +kernel
  obtain ⟨s, hs, hr⟩ := Option.map_eq_some_iff.mp hrun
  exact ⟨s, hs, hr, refsExact_of_killsClosed (ReachIf.of_runIf (.start rfl) hs)⟩

def killRun : List Act := [.spawn 1, .schedule 0, .pipe true, .fork (some 2), .kill 2]

theorem killedWriter : ¬ ∀ s, Reach step (· = boot) s → RefsExact s := by
  intro hall
  have hrun : (run step boot killRun).map
      (fun s => ((s.procs 1).state, (s.fdTable 1 0).used)) = some (.unused, true) := by
    decide +kernel
  obtain ⟨s, hs, hpair⟩ := Option.map_eq_some_iff.mp hrun
  obtain ⟨hstate, hused⟩ := Prod.mk.inj hpair
  have hrow := (hall s (Reach.of_run rfl hs)).unused_row 1 (by decide) hstate 0 (by decide)
  rw [hused] at hrow
  simp at hrow

end NullOS.Kernel
