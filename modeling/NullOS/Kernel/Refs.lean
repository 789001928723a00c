import NullOS.Kernel.State
import NullOS.Lib.Count

/-!
# Counting pipe references

The invariant that ties the reference counts of the pipes to the descriptor table, and one
lemma for each elementary operation on the two.
-/

namespace NullOS.Kernel

open Lib Ipc Vfs

def fdIndices : Finset (Nat × Nat) := Finset.range processMax ×ˢ Finset.range fdPerProc

def holders (s : Kernel) (b : VfsBackend) (i : Nat) : Nat :=
  count fdIndices (fun x => s.fdTable x.1 x.2) fun fd => fd.Holds b i

/-! ## The invariant

`er` and `ew` count the references a call holds in hand: taken on a pipe, with no descriptor
yet (or no longer) in the table. -/

structure Refs (er ew : Nat → Nat) (s : Kernel) : Prop where
  read : ∀ i < pipeMax, (s.pipeTable i).readRefs = s.holders .pipeRead i + er i
  write : ∀ i < pipeMax, (s.pipeTable i).writeRefs = s.holders .pipeWrite i + ew i
  free : ∀ i < pipeMax, (s.pipeTable i).used = false ↔
    (s.pipeTable i).readRefs = 0 ∧ (s.pipeTable i).writeRefs = 0
  unused_row : ∀ slot < processMax, (s.procs slot).state = .unused → ∀ j < fdPerProc,
    (s.fdTable slot j).used = false
  in_range : ∀ slot < processMax, ∀ j < fdPerProc, (s.fdTable slot j).used = true →
    (s.fdTable slot j).backend = .pipeRead ∨ (s.fdTable slot j).backend = .pipeWrite →
      (s.fdTable slot j).first < pipeMax
  current : ∀ slot, s.current = some slot →
    slot < processMax ∧ (s.procs slot).state ≠ .unused

def nil : Nat → Nat := fun _ => 0

/-- One reference more, to pipe `i`. -/
def one (i : Nat) (e : Nat → Nat) : Nat → Nat := fun k => e k + if k = i then 1 else 0

def weight (fd : VfsFd) (b : VfsBackend) (i : Nat) : Nat := if fd.Holds b i then 1 else 0

variable {s t : Kernel} {er ew er' ew' : Nat → Nat} {slot j i : Nat} {fd : VfsFd}

lemma mem_fdIndices (hslot : slot < processMax) (hj : j < fdPerProc) :
    (slot, j) ∈ fdIndices :=
  Finset.mem_product.mpr ⟨Finset.mem_range.mpr hslot, Finset.mem_range.mpr hj⟩

lemma uncurry_setFd (s : Kernel) (slot j : Nat) (fd : VfsFd) :
    (fun x : Nat × Nat => (s.setFd slot j fd).fdTable x.1 x.2) =
      Function.update (fun x : Nat × Nat => s.fdTable x.1 x.2) (slot, j) fd := by
  funext ⟨a, b⟩
  by_cases h : (a, b) = (slot, j)
  · obtain ⟨rfl, rfl⟩ := Prod.mk.inj h
    simp
  · rw [Function.update_of_ne h, setFd_fdTable_of_ne]
    by_cases ha : a = slot
    · exact .inr fun hb => h (Prod.ext ha hb)
    · exact .inl ha

lemma holders_setFd (s : Kernel) (fd : VfsFd) (hslot : slot < processMax)
    (hj : j < fdPerProc) (b : VfsBackend) (i : Nat) :
    (s.setFd slot j fd).holders b i + weight (s.fdTable slot j) b i =
      s.holders b i + weight fd b i := by
  rw [holders, uncurry_setFd]
  exact count_update (f := fun x : Nat × Nat => s.fdTable x.1 x.2)
    (p := fun fd => fd.Holds b i) (mem_fdIndices hslot hj) fd

lemma weight_unused (h : fd.used = false) (b : VfsBackend) (i : Nat) : weight fd b i = 0 := by
  simp [weight, VfsFd.Holds, h]

lemma weight_used (h : fd.used = true) (b : VfsBackend) (i : Nat) :
    weight fd b i = if fd.backend = b ∧ fd.first = i then 1 else 0 := by
  simp [weight, VfsFd.Holds, h]

/-! ## One lemma for each elementary operation -/

/-- A descriptor overwritten, for whatever references change hands by it. -/
lemma Refs.setFd (h : Refs er ew s) (hslot : slot < processMax) (hj : j < fdPerProc)
    (hlive : fd.used = true → (s.procs slot).state ≠ .unused ∧
      (fd.backend = .pipeRead ∨ fd.backend = .pipeWrite → fd.first < pipeMax))
    (hread : ∀ i < pipeMax,
      er' i + weight fd .pipeRead i = er i + weight (s.fdTable slot j) .pipeRead i)
    (hwrite : ∀ i < pipeMax,
      ew' i + weight fd .pipeWrite i = ew i + weight (s.fdTable slot j) .pipeWrite i) :
    Refs er' ew' (s.setFd slot j fd) := by
  refine ⟨fun i hi => ?_, fun i hi => ?_, h.free, fun k hk hku l hl => ?_,
    fun k hk l hl => ?_, h.current⟩
  · have hold := h.read i hi
    have hset := holders_setFd s fd hslot hj .pipeRead i
    have hmove := hread i hi
    rw [setFd_pipeTable]
    omega
  · have hold := h.write i hi
    have hset := holders_setFd s fd hslot hj .pipeWrite i
    have hmove := hwrite i hi
    rw [setFd_pipeTable]
    omega
  · by_cases hkl : k = slot ∧ l = j
    · obtain ⟨rfl, rfl⟩ := hkl
      rw [setFd_fdTable_self]
      by_contra hused
      exact (hlive (by simpa using hused)).1 hku
    · rw [setFd_fdTable_of_ne s slot j fd (by tauto)]
      exact h.unused_row k hk hku l hl
  · by_cases hkl : k = slot ∧ l = j
    · obtain ⟨rfl, rfl⟩ := hkl
      rw [setFd_fdTable_self]
      exact fun hused => (hlive hused).2
    · rw [setFd_fdTable_of_ne s slot j fd (by tauto)]
      exact h.in_range k hk l hl

lemma Refs.of_procs (h : Refs er ew s) (hfd : t.fdTable = s.fdTable)
    (hpipe : t.pipeTable = s.pipeTable) (hcur : t.current = s.current)
    (hrow : ∀ k < processMax, (t.procs k).state = .unused →
      ∀ j < fdPerProc, (s.fdTable k j).used = false)
    (hlive : ∀ k, s.current = some k → (t.procs k).state ≠ .unused) : Refs er ew t := by
  refine ⟨?_, ?_, ?_, ?_, ?_, fun k hk => ?_⟩
  · simpa only [holders, hfd, hpipe] using h.read
  · simpa only [holders, hfd, hpipe] using h.write
  · simpa only [hpipe] using h.free
  · simpa only [hfd] using hrow
  · simpa only [hfd] using h.in_range
  · rw [hcur] at hk
    exact ⟨(h.current k hk).1, hlive k hk⟩

lemma Refs.setProc (h : Refs er ew s) {p : Proc}
    (hrow : p.state = .unused → ∀ j < fdPerProc, (s.fdTable slot j).used = false)
    (hcur : s.current = some slot → p.state ≠ .unused) : Refs er ew (s.setProc slot p) := by
  refine h.of_procs rfl rfl rfl (fun k hk hku => ?_) (fun k hk => ?_)
  · by_cases hks : k = slot
    · subst hks
      rw [setProc_procs_self] at hku
      exact hrow hku
    · rw [setProc_procs_of_ne _ _ _ hks] at hku
      exact h.unused_row k hk hku
  · by_cases hks : k = slot
    · subst hks
      rw [setProc_procs_self]
      exact hcur hk
    · rw [setProc_procs_of_ne _ _ _ hks]
      exact (h.current k hk).2

lemma Refs.wakeSlot (h : Refs er ew s) (w : Option Nat) : Refs er ew (s.wakeSlot w) := by
  refine h.of_procs (by simp) (by simp) (by simp) (fun k hk hku => ?_) (fun k hk => ?_)
  · rw [wakeSlot_unused] at hku
    exact h.unused_row k hk hku
  · rw [ne_eq, wakeSlot_unused]
    exact (h.current k hk).2

lemma Refs.setPipe (h : Refs er ew s) {p : Pipe}
    (hread : ∀ k < pipeMax, k ≠ i → er' k = er k) (hwrite : ∀ k < pipeMax, k ≠ i → ew' k = ew k)
    (hr : i < pipeMax → p.readRefs = s.holders .pipeRead i + er' i)
    (hw : i < pipeMax → p.writeRefs = s.holders .pipeWrite i + ew' i)
    (hfree : i < pipeMax → (p.used = false ↔ p.readRefs = 0 ∧ p.writeRefs = 0)) :
    Refs er' ew' (s.setPipe i p) := by
  refine ⟨fun k hk => ?_, fun k hk => ?_, fun k hk => ?_, h.unused_row, h.in_range, h.current⟩
  · by_cases hki : k = i
    · subst hki
      rw [setPipe_pipeTable_self]
      exact hr hk
    · rw [setPipe_pipeTable_of_ne _ _ _ hki, hread k hk hki]
      exact h.read k hk
  · by_cases hki : k = i
    · subst hki
      rw [setPipe_pipeTable_self]
      exact hw hk
    · rw [setPipe_pipeTable_of_ne _ _ _ hki, hwrite k hk hki]
      exact h.write k hk
  · by_cases hki : k = i
    · subst hki
      rw [setPipe_pipeTable_self]
      exact hfree hk
    · rw [setPipe_pipeTable_of_ne _ _ _ hki]
      exact h.free k hk

@[simp] lemma one_self (i : Nat) (e : Nat → Nat) : one i e i = e i + 1 := by simp [one]

lemma one_of_ne {k : Nat} (e : Nat → Nat) (h : k ≠ i) : one i e k = e k := by simp [one, h]

lemma Refs.releaseRead (h : Refs (one i er) ew s) : Refs er ew (s.pipeReleaseRead i) := by
  unfold pipeReleaseRead
  split
  case isTrue hi =>
    refine ⟨fun k hk => ?_, h.write, h.free, h.unused_row, h.in_range, h.current⟩
    rw [← one_of_ne (i := i) er (by omega)]
    exact h.read k hk
  case isFalse hi =>
    refine Refs.wakeSlot ?_ _
    have hold := h.read i (by omega)
    have hfree := h.free i (by omega)
    rw [one_self] at hold
    refine h.setPipe (fun k _ hk => (one_of_ne er hk).symm) (fun _ _ _ => rfl) ?_ ?_ ?_
    · intro _
      rw [Pipe.releaseRead_readRefs]
      omega
    · exact fun hi => h.write i hi
    · intro _
      -- the pipe was in use: this reference was one of its readers
      have hused : (s.pipeTable i).used = true := by
        by_contra hne
        have := (hfree.mp (by simpa using hne)).1
        omega
      simp [Pipe.releaseRead, hused]

lemma Refs.releaseWrite (h : Refs er (one i ew) s) : Refs er ew (s.pipeReleaseWrite i) := by
  unfold pipeReleaseWrite
  split
  case isTrue hi =>
    refine ⟨h.read, fun k hk => ?_, h.free, h.unused_row, h.in_range, h.current⟩
    rw [← one_of_ne (i := i) ew (by omega)]
    exact h.write k hk
  case isFalse hi =>
    refine Refs.wakeSlot ?_ _
    have hold := h.write i (by omega)
    have hfree := h.free i (by omega)
    rw [one_self] at hold
    refine h.setPipe (fun _ _ _ => rfl) (fun k _ hk => (one_of_ne ew hk).symm) ?_ ?_ ?_
    · exact fun hi => h.read i hi
    · intro _
      rw [Pipe.releaseWrite_writeRefs]
      omega
    · intro _
      have hused : (s.pipeTable i).used = true := by
        by_contra hne
        have := (hfree.mp (by simpa using hne)).2
        omega
      simp [Pipe.releaseWrite, hused]

lemma Refs.addReadRef (h : Refs er ew s) (hi : i < pipeMax)
    (hused : (s.pipeTable i).used = true) : Refs (one i er) ew (s.pipeAddReadRef i) := by
  rw [pipeAddReadRef, if_neg (by omega)]
  have hold := h.read i hi
  refine h.setPipe (fun k _ hk => one_of_ne er hk) (fun _ _ _ => rfl) ?_ (h.write i) ?_
  · intro _
    show (s.pipeTable i).readRefs + 1 = _
    rw [one_self]
    omega
  · simp [Pipe.addReadRef, hused]

lemma Refs.addWriteRef (h : Refs er ew s) (hi : i < pipeMax)
    (hused : (s.pipeTable i).used = true) : Refs er (one i ew) (s.pipeAddWriteRef i) := by
  rw [pipeAddWriteRef, if_neg (by omega)]
  have hold := h.write i hi
  refine h.setPipe (fun _ _ _ => rfl) (fun k _ hk => one_of_ne ew hk) (h.read i) ?_ ?_
  · intro _
    show (s.pipeTable i).writeRefs + 1 = _
    rw [one_self]
    omega
  · simp [Pipe.addWriteRef, hused]

lemma Refs.pipeCreate (h : Refs er ew s) (hc : s.pipeCreate = some (i, t)) :
    i < pipeMax ∧ Refs (one i er) (one i ew) t := by
  obtain ⟨k, hk, hpair⟩ := Option.map_eq_some_iff.mp hc
  obtain ⟨rfl, rfl⟩ := Prod.mk.inj hpair
  have hlt : k < pipeMax := List.mem_range.mp (List.mem_of_find?_eq_some hk)
  have hfree : (s.pipeTable k).used = false := by simpa using List.find?_some hk
  obtain ⟨hr, hw⟩ := (h.free k hlt).mp hfree
  have hread := h.read k hlt
  have hwrite := h.write k hlt
  refine ⟨hlt, h.setPipe (fun _ _ hne => one_of_ne er hne) (fun _ _ hne => one_of_ne ew hne)
    ?_ ?_ ?_⟩
  · intro _
    rw [Pipe.create_readRefs, one_self]
    omega
  · intro _
    rw [Pipe.create_writeRefs, one_self]
    omega
  · simp

/-! The releases and the additions do not look at the descriptor table. -/

lemma setFd_pipeReleaseRead (s : Kernel) (k slot j : Nat) (fd : VfsFd) :
    (s.pipeReleaseRead k).setFd slot j fd = (s.setFd slot j fd).pipeReleaseRead k := by
  unfold pipeReleaseRead
  split
  · rfl
  · cases h : (s.pipeTable k).releaseReadWakes <;> simp only [setFd_pipeTable, h] <;> rfl

lemma setFd_pipeReleaseWrite (s : Kernel) (k slot j : Nat) (fd : VfsFd) :
    (s.pipeReleaseWrite k).setFd slot j fd = (s.setFd slot j fd).pipeReleaseWrite k := by
  unfold pipeReleaseWrite
  split
  · rfl
  · cases h : (s.pipeTable k).releaseWriteWakes <;> simp only [setFd_pipeTable, h] <;> rfl

lemma setFd_pipeAddReadRef (s : Kernel) (k slot j : Nat) (fd : VfsFd) :
    (s.setFd slot j fd).pipeAddReadRef k = (s.pipeAddReadRef k).setFd slot j fd := by
  unfold pipeAddReadRef
  split <;> rfl

lemma setFd_pipeAddWriteRef (s : Kernel) (k slot j : Nat) (fd : VfsFd) :
    (s.setFd slot j fd).pipeAddWriteRef k = (s.pipeAddWriteRef k).setFd slot j fd := by
  unfold pipeAddWriteRef
  split <;> rfl

lemma weight_backend_ne (b : VfsBackend) (hb : fd.backend ≠ b) (i : Nat) :
    weight fd b i = 0 := by
  simp [weight, VfsFd.Holds, hb]

lemma weight_first (e : Nat → Nat) (hu : fd.used = true) (i : Nat) :
    e i + weight fd fd.backend i = one fd.first e i := by
  rw [weight_used hu, one]
  simp [eq_comm]

lemma Refs.setFd_close_read (h : Refs er ew s) (hslot : slot < processMax)
    (hj : j < fdPerProc) (hu : (s.fdTable slot j).used = true)
    (hb : (s.fdTable slot j).backend = .pipeRead) :
    Refs (one (s.fdTable slot j).first er) ew
      (s.setFd slot j { s.fdTable slot j with used := false }) := by
  refine h.setFd hslot hj (fun h => absurd h (by simp)) (fun i _ => ?_) (fun i _ => ?_)
  · rw [weight_unused rfl, ← weight_first er hu i, hb]
    rfl
  · rw [weight_unused rfl, weight_backend_ne _ (by simp [hb])]

lemma Refs.setFd_close_write (h : Refs er ew s) (hslot : slot < processMax)
    (hj : j < fdPerProc) (hu : (s.fdTable slot j).used = true)
    (hb : (s.fdTable slot j).backend = .pipeWrite) :
    Refs er (one (s.fdTable slot j).first ew)
      (s.setFd slot j { s.fdTable slot j with used := false }) := by
  refine h.setFd hslot hj (fun h => absurd h (by simp)) (fun i _ => ?_) (fun i _ => ?_)
  · rw [weight_unused rfl, weight_backend_ne _ (by simp [hb])]
  · rw [weight_unused rfl, ← weight_first ew hu i, hb]
    rfl

def NoPipe (fd : VfsFd) : Prop :=
  fd.used = true → fd.backend ≠ .pipeRead ∧ fd.backend ≠ .pipeWrite

lemma NoPipe.weight_read (h : NoPipe fd) (i : Nat) : weight fd .pipeRead i = 0 := by
  by_cases hu : fd.used = true
  · exact weight_backend_ne _ (h hu).1 i
  · exact weight_unused (by simpa using hu) _ i

lemma NoPipe.weight_write (h : NoPipe fd) (i : Nat) : weight fd .pipeWrite i = 0 := by
  by_cases hu : fd.used = true
  · exact weight_backend_ne _ (h hu).2 i
  · exact weight_unused (by simpa using hu) _ i

lemma Refs.setFd_noPipe (h : Refs er ew s) (hslot : slot < processMax) (hj : j < fdPerProc)
    (hlive : fd.used = true → (s.procs slot).state ≠ .unused) (hnew : NoPipe fd)
    (hold : NoPipe (s.fdTable slot j)) : Refs er ew (s.setFd slot j fd) := by
  refine h.setFd hslot hj (fun hu => ⟨hlive hu, fun hb => ?_⟩) (fun i _ => ?_) (fun i _ => ?_)
  · simp [hnew hu] at hb
  · rw [hnew.weight_read, hold.weight_read]
  · rw [hnew.weight_write, hold.weight_write]

lemma Refs.vfsClose (h : Refs er ew s) (hslot : slot < processMax) (hj : j < fdPerProc) :
    Refs er ew (s.vfsClose slot j) := by
  have hplain : NoPipe (s.fdTable slot j) →
      Refs er ew (s.setFd slot j { s.fdTable slot j with used := false }) := fun hn =>
    h.setFd_noPipe hslot hj (fun hu => absurd hu (by simp)) (fun hu => absurd hu (by simp)) hn
  unfold Kernel.vfsClose
  dsimp only
  split
  case isFalse hu => exact hplain fun hu' => absurd hu' hu
  case isTrue hu =>
    split
    case h_1 hb =>
      rw [setFd_pipeReleaseRead]
      exact (h.setFd_close_read hslot hj hu hb).releaseRead
    case h_2 hb =>
      rw [setFd_pipeReleaseWrite]
      exact (h.setFd_close_write hslot hj hu hb).releaseWrite
    case h_3 hr hw => exact hplain fun _ => ⟨hr, hw⟩

lemma Refs.copyFd (h : Refs er ew s) (hslot : slot < processMax) (hj : j < fdPerProc)
    (hfree : (s.fdTable slot j).used = false) (hlive : (s.procs slot).state ≠ .unused)
    {slot' j' : Nat} (hslot' : slot' < processMax) (hj' : j' < fdPerProc) :
    Refs er ew (s.copyFd slot j (s.fdTable slot' j')) := by
  have hdst : NoPipe (s.fdTable slot j) := fun hu => absurd hu (by simp [hfree])
  unfold Kernel.copyFd vfsDup
  split
  case isFalse hu =>
    have hnew : NoPipe (s.fdTable slot' j') := fun hu' => absurd hu' hu
    exact h.setFd_noPipe hslot hj (fun _ => hlive) hnew hdst
  case isTrue hu =>
    have hrange := h.in_range slot' hslot' j' hj' hu
    split
    case h_1 hb =>
      -- the descriptor copied is itself a holder, so the pipe is in use
      have hfirst := hrange (.inl hb)
      have hpos : 0 < s.holders .pipeRead (s.fdTable slot' j').first :=
        count_pos (mem_fdIndices hslot' hj') ⟨hu, hb, rfl⟩
      have hused := mt (h.free _ hfirst).mp fun hz => by have := h.read _ hfirst; omega
      rw [setFd_pipeAddReadRef]
      refine (h.addReadRef hfirst (by simpa using hused)).setFd hslot hj
        (fun _ => ⟨?_, fun _ => hfirst⟩) (fun i _ => ?_) (fun i _ => ?_)
      all_goals simp only [pipeAddReadRef, if_neg (not_le.mpr hfirst)]
      · exact hlive
      · rw [← weight_first er hu i, hb]
        simp [hdst.weight_read]
      · rw [weight_backend_ne _ (by simp [hb])]
        simp [hdst.weight_write]
    case h_2 hb =>
      have hfirst := hrange (.inr hb)
      have hpos : 0 < s.holders .pipeWrite (s.fdTable slot' j').first :=
        count_pos (mem_fdIndices hslot' hj') ⟨hu, hb, rfl⟩
      have hused := mt (h.free _ hfirst).mp fun hz => by have := h.write _ hfirst; omega
      rw [setFd_pipeAddWriteRef]
      refine (h.addWriteRef hfirst (by simpa using hused)).setFd hslot hj
        (fun _ => ⟨?_, fun _ => hfirst⟩) (fun i _ => ?_) (fun i _ => ?_)
      all_goals simp only [pipeAddWriteRef, if_neg (not_le.mpr hfirst)]
      · exact hlive
      · rw [weight_backend_ne _ (by simp [hb])]
        simp [hdst.weight_read]
      · rw [← weight_first ew hu i, hb]
        simp [hdst.weight_write]
    case h_3 hr hw =>
      exact h.setFd_noPipe hslot hj (fun _ => hlive) (fun _ => ⟨hr, hw⟩) hdst

end NullOS.Kernel
