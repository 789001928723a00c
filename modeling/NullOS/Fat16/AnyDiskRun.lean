import NullOS.Fat16.AnyDiskCalls
import NullOS.Fat16.Mount
import NullOS.Boot.Crash

/-!
# Sequences of calls on any disk

Two facts about a driver that trusts what it reads.

* It never writes to the boot sector or to the configuration sector, whatever is on the disk.
* It uses indices outside of the cached FAT, unless the number of clusters, the links of the FAT,
  the entries of the directories and the arguments are all in range.
-/

namespace NullOS.Fat16

open Lib

/-! ## Calls -/

def Setting.OpOk (S : Setting) (v : Vol) : Op → Prop
  | .readAt first _ _ _ => S.InTable first
  | op => S.PathsOk v op.cluster

variable {S : Setting} {s t : St} {n : Nat} {op : Op} {g : Geo} {v : Vol} {disk : Nat → Mem}

/-- **One call on any disk.** -/
lemma stays_op (h : S.Safe s) (hop : S.OpOk s.vol op)
    (hn : ¬ S.may .outOfFuel → op.turns ≤ n)
    (hslow : ¬ (op.Starts S.g n s).End S.g n → S.may .outOfFuel) :
    Stays S (op.exec S.g n) s fun _ _ => (op.Starts S.g n s).End S.g n := by
  have hdone : ∀ {α : Type} (_ : α) (t : St), S.Safe t → (op.Starts S.g n s).End S.g n →
      Stays S (pure ()) t fun _ _ => (op.Starts S.g n s).End S.g n := fun _ t ht hend =>
    .pure ht hend
  have hbool : ∀ {α : Type} (a : Option α) (t : St), S.Safe t → (op.Starts S.g n s).End S.g n →
      Stays S (pure a.isSome) t fun _ _ => (op.Starts S.g n s).End S.g n := fun _ t ht hend =>
    .pure ht hend
  cases op with
  | find dir path => exact (stays_find h hop hslow).seq hdone
  | resolveDir cwd path => exact (stays_resolveDir h hop hslow).seq hdone
  | readdir dir idx => exact (stays_readdir h (hop.dir dir .start) hslow).seq hdone
  | getPath dir outSize => exact (stays_getPath h hop hslow).seq hdone
  | readAt first pos len size => exact (stays_readAt h hop).seq fun _ t ht _ => .pure ht nofun
  | call c =>
    cases c with
    | create d path => exact ((stays_create h hop hslow).seq hbool).seq hdone
    | mkdir d path => exact (stays_mkdir h hop hn hslow).seq hdone
    | writeFile d name buf => exact (stays_writeFile h hop hn hslow).seq hdone
    | writeAt d name pos buf => exact ((stays_writeAt h hop hn hslow).seq hbool).seq hdone

/-- A call on a device on which any block operation may fail, with `turns` turns for its loops. -/
structure Attempt where
  op : Op
  io : Nat → Bool
  turns : Nat

def Attempt.run (g : Geo) (s : St) (a : Attempt) : EStateM.Result Fault St Unit :=
  a.op.exec g a.turns { s with io := a.io }

def Vol.mounted (v : Vol) (wild : Bool) : St := { vol := v, io := working, writes := [], wild }

/-! ## Mounted volumes -/

lemma fat16Init_some {io : Nat → Bool} {heap : Option (Nat → UInt16)}
    (h : fat16Init io heap disk = some (g, v)) :
    ∃ hb behind, g = geoOf (disk 0) hb ∧
      v = { ready := true, fat := loadFat g behind disk, disk } := by
  rw [fat16Init] at h
  split at h
  case isFalse => exact absurd h nofun
  split at h
  case isFalse => exact absurd h nofun
  case isTrue hb =>
    cases heap with
    | none => exact absurd h nofun
    | some behind =>
      dsimp only at h
      split at h
      case isFalse => exact absurd h nofun
      obtain ⟨rfl, rfl⟩ := Prod.mk.inj (Option.some.inj h)
      exact ⟨hb, behind, rfl, rfl⟩

lemma loadFat_lt (g : Geo) (behind : Nat → UInt16) (disk : Nat → Mem) (c : Nat) :
    loadFat g behind disk c < 0x10000 := by
  rw [loadFat]
  split
  · exact Mem.load16_lt
  · exact UInt16.toNat_lt _

/-! ## The configuration sector -/

def sectorOf (m : Mem) : Boot.Sector where
  bytes := (List.range 512).map m
  length_eq := by rw [List.length_map, List.length_range]

lemma sectorOf_getD {m : Mem} {i : Nat} (hi : i < 512) : (sectorOf m).bytes.getD i 0 = m i := by
  rw [sectorOf, List.getD_eq_getElem?_getD, List.getElem?_map, List.getElem?_range hi]
  rfl

lemma guardOk_reserved (h : Boot.guardOk (Boot.readAll fun lba => sectorOf (disk lba)) = true) :
    2 ≤ (disk 0).load16 14 := by
  have hlow := sectorOf_getD (m := disk 0) (i := 14) (by omega)
  have hhigh := sectorOf_getD (m := disk 0) (i := 15) (by omega)
  simp only [Boot.guardOk, Boot.readAll, hlow, hhigh, Bool.and_eq_true, decide_eq_true_eq] at h
  exact h.2

def stateAfter (g : Geo) (s : St) (a : Attempt) : Option St :=
  match a.run g s with
  | .ok _ t => some t
  | .error _ t => some t

def anyDisk (g : Geo) (base : Nat → Mem) (hfit : g.totalClusters ≤ g.fatEntries) : Setting where
  g
  may := fun _ => True
  base
  fits := hfit

lemma anyDisk_opOk {hfit : g.totalClusters ≤ g.fatEntries} (v : Vol) (op : Op) :
    (anyDisk g disk hfit).OpOk v op := by
  have hin : ∀ c, (anyDisk g disk hfit).InTable c := fun c h => absurd trivial h
  cases op with
  | readAt first pos len size => exact hin first
  | _ => exact ⟨fun d _ => hin d, fun _ _ _ _ _ _ _ => hin _⟩

/-- **The driver never writes to the boot sector or to the configuration sector**, on every disk
that `bootcfg` and `fat16_init` accept and whose FAT has an entry for every cluster, in any sequence
of calls with any arguments and any I/O failures. -/
theorem configSector_kept {io : Nat → Bool} {heap : Option (Nat → UInt16)} {wild : Bool}
    (hguard : Boot.guardOk (Boot.readAll fun lba => sectorOf (disk lba)) = true)
    (hinit : fat16Init io heap disk = some (g, v))
    (hfit : g.totalClusters ≤ 256 * g.fatSizeSectors)
    (hs : Reach (stateAfter g) (· = v.mounted wild) s) :
    (∀ lba ∈ s.writes, 2 ≤ lba ∧ g.Target lba) ∧ s.vol.disk Boot.bootcfgLba = disk Boot.bootcfgLba ∧
      ∀ c k, g.Number c → k < g.sectorsPerCluster →
        clusterSector g c k = g.dataStartLba + ((c - 2) * g.sectorsPerCluster + k) := by
  obtain ⟨hb, behind, hgeo, hvol⟩ := fat16Init_some hinit
  have hreserved : 2 ≤ g.fatStartLba := by
    rw [hgeo]
    exact guardOk_reserved hguard
  have hsafe : (anyDisk g disk hfit).Safe s := by
    refine hs.invariant (I := (anyDisk g disk hfit).Safe) ?_ ?_
    · rintro _ rfl
      refine ⟨fun c => ?_, fun c _ _ _ h => absurd trivial h, nofun, fun lba _ => ?_⟩
      · show v.fat c < _
        rw [hvol]
        exact loadFat_lt g behind disk c
      · show v.disk lba = disk lba
        rw [hvol]
    · intro u a w hu _ hstep
      have hu' : (anyDisk g disk hfit).Safe { u with io := a.io } :=
        ⟨hu.cells, hu.links, hu.writes, hu.reserved⟩
      have hstays := stays_op (n := a.turns) hu' (anyDisk_opOk u.vol a.op) (absurd trivial)
        fun _ => trivial
      rw [stateAfter] at hstep
      rw [Stays, Outcome] at hstays
      split at hstep
      case h_1 _ t hrun =>
        rw [show a.op.exec (anyDisk g disk hfit).g a.turns { u with io := a.io } = _ from hrun]
          at hstays
        exact Option.some.inj hstep ▸ hstays.1
      case h_2 _ t hrun =>
        rw [show a.op.exec (anyDisk g disk hfit).g a.turns { u with io := a.io } = _ from hrun]
          at hstays
        exact Option.some.inj hstep ▸ hstays.2
  refine ⟨fun lba hlba => ?_, ?_, fun c k hc hk => clusterSector_exact hfit hc hk⟩
  · exact ⟨Nat.le_trans hreserved (hsafe.writes lba hlba).fatStart_le, hsafe.writes lba hlba⟩
  · exact hsafe.reserved Boot.bootcfgLba hreserved

def bootSector : Mem := fun b =>
  match b with
  | 12 => 2
  | 13 => 1
  | 14 => 2
  | 16 => 1
  | 17 => 16
  | 19 => 20
  | 22 => 1
  | _ => 0

lemma bootSector_accepted : (bpb bootSector).Accepted := by decide

def smallDisk (root : Mem) : Nat → Mem
  | 0 => bootSector
  | 3 => root
  | _ => zeroSector

def smallVol (root : Mem) : Vol where
  ready := true
  fat := loadFat (geoOf bootSector bootSector_accepted) (fun _ => 0) (smallDisk root)
  disk := smallDisk root

lemma smallDisk_init (root : Mem) : fat16Init working (some fun _ => 0) (smallDisk root) =
    some (geoOf bootSector bootSector_accepted, smallVol root) := by
  rw [fat16Init, if_pos (show working 0 = true from rfl),
    dif_pos (show (bpb (smallDisk root 0)).Accepted from bootSector_accepted)]
  exact if_pos fun _ _ => rfl

/-- `mkdir a` on a device that fails at its third operation. -/
theorem configSector_kept_mkdir : ∃ s,
    stateAfter (geoOf bootSector bootSector_accepted) ((smallVol zeroSector).mounted false)
      ⟨.call (.mkdir 0 ⟨ascii "a", by decide⟩), (· ≠ 2), 100⟩ = some s ∧
    s.vol.disk 1 = zeroSector := by
  have hguard : Boot.guardOk (Boot.readAll fun lba => sectorOf (smallDisk zeroSector lba)) =
    true := by
    decide +kernel
  have hstep : ∃ s, stateAfter (geoOf bootSector bootSector_accepted)
      ((smallVol zeroSector).mounted false)
      ⟨.call (.mkdir 0 ⟨ascii "a", by decide⟩), (· ≠ 2), 100⟩ = some s := by
    rw [stateAfter]
    split
    · exact ⟨_, rfl⟩
    · exact ⟨_, rfl⟩
  obtain ⟨s, hs⟩ := hstep
  exact ⟨s, hs, (configSector_kept hguard (smallDisk_init zeroSector) (by decide)
    (.next (.start rfl) trivial hs)).2.1⟩

/-! ## The index of the FAT -/

def Op.Walks : Op → Prop
  | readAt _ _ _ _ => False
  | _ => True

/-- All numbers that the call can come to are indices of the cached FAT. -/
structure InRange (g : Geo) (v : Vol) (op : Op) : Prop where
  count : g.totalClusters ≤ g.fatEntries
  links : ∀ c < g.fatEntries, v.fat c < g.fatEntries ∨ 0xFFF8 ≤ v.fat c
  argument : op.cluster < g.fatEntries
  entries : op.Walks → ∀ d, Leads g v op.cluster d → ∀ lba i, DirSector g v d lba → i < 16 →
    (dirent (v.disk lba) i).Live → (dirent (v.disk lba) i).first < g.fatEntries

lemma Leads.lt {d : Nat} (h : InRange g v op) (hw : op.Walks) (hd : Leads g v op.cluster d) :
    d < g.fatEntries := by
  cases hd with
  | start => exact h.argument
  | root => exact Nat.lt_of_le_of_lt (Nat.zero_le _) h.argument
  | entry hd hsec hi hl _ => exact h.entries hw _ hd _ _ hsec hi hl

lemma InRange.opOk (hS : S.g = g) (h : InRange g v op) : S.OpOk v op := by
  subst hS
  have hpaths : op.Walks → S.PathsOk v op.cluster := fun hw =>
    ⟨fun d hd _ => hd.lt h hw, fun d hd lba i hsec hi hl _ => h.entries hw d hd lba i hsec hi hl⟩
  cases op with
  | readAt first pos len size => exact fun _ => h.argument
  | _ => exact hpaths trivial

lemma InRange.safe (hS : S.g = g) (h : InRange g s.vol op) (hcells : ∀ c, s.vol.fat c < 0x10000)
    (hwrites : ∀ lba ∈ s.writes, g.Target lba) (hbase : S.base = s.vol.disk) (io : Nat → Bool) :
    S.Safe { s with io } := by
  subst hS
  refine ⟨hcells, fun c hc hend _ hmay => ?_, hwrites, fun lba _ => ?_⟩
  · exact (h.links c (hc hmay)).resolve_right hend
  · rw [hbase]

def returned (g : Geo) (s : St) (a : Attempt) : Option St :=
  match a.run g s with
  | .ok _ t => some t
  | .error _ _ => none

def inRangeDisk (g : Geo) (base : Nat → Mem) (hfit : g.totalClusters ≤ g.fatEntries) : Setting where
  g
  may := (· = .outOfFuel)
  base
  fits := hfit

lemma InRange.attempt {a : Attempt} (h : InRange g s.vol a.op) (hcells : ∀ c, s.vol.fat c < 0x10000)
    (hwrites : ∀ lba ∈ s.writes, g.Target lba) :
    Outcome (a.op.exec g a.turns) { s with io := a.io }
      (fun _ t => (∀ c, t.vol.fat c < 0x10000) ∧ ∀ lba ∈ t.writes, g.Target lba)
      fun e _ => e = .outOfFuel := by
  have hstays := stays_op (S := inRangeDisk g s.vol.disk h.count) (n := a.turns)
    (h.safe rfl hcells hwrites rfl a.io) (h.opOk rfl) (absurd rfl) fun _ => rfl
  exact Outcome.mono hstays (fun _ t ht => ⟨ht.1.cells, ht.1.writes⟩) fun e t he => he.1

/-- **In every run of calls on a volume that `fat16_init` has mounted, in which all numbers that a
call can come to are in range, every index used for the cached FAT is inside of it.** -/
theorem fatIndex_inRange {io : Nat → Bool} {heap : Option (Nat → UInt16)}
    (hinit : fat16Init io heap disk = some (g, v))
    (hs : ReachIf (returned g) (· = v.mounted false) (fun s a => InRange g s.vol a.op) s)
    {a : Attempt} (ha : InRange g s.vol a.op) (t : St) : a.run g s ≠ .error .outOfBounds t := by
  obtain ⟨-, behind, -, hvol⟩ := fat16Init_some hinit
  have hinv : (∀ c, s.vol.fat c < 0x10000) ∧ ∀ lba ∈ s.writes, g.Target lba := by
    refine hs.invariant (I := fun s => (∀ c, s.vol.fat c < 0x10000) ∧ ∀ lba ∈ s.writes,
      g.Target lba) ?_ ?_
    · rintro _ rfl
      refine ⟨fun c => ?_, nofun⟩
      show v.fat c < _
      rw [hvol]
      exact loadFat_lt g behind disk c
    · rintro u b w ⟨hcells, hwrites⟩ hb hstep
      have hout := hb.attempt hcells hwrites
      rw [returned, Attempt.run] at hstep
      rw [Outcome] at hout
      split at hstep
      case h_2 => cases hstep
      case h_1 t hrun =>
        rw [hrun] at hout
        exact Option.some.inj hstep ▸ hout
  intro hrun
  have hout := ha.attempt hinv.1 hinv.2
  rw [Outcome, show a.op.exec g a.turns { s with io := a.io } = _ from hrun] at hout
  cases hout

/-- A condition that can be computed: the same for the entries of all sectors that a directory can
have. -/
def RangeChecked (g : Geo) (v : Vol) (op : Op) : Prop :=
  g.totalClusters ≤ g.fatEntries ∧ (∀ c < g.fatEntries, v.fat c < g.fatEntries ∨ 0xFFF8 ≤ v.fat c) ∧
    op.cluster < g.fatEntries ∧ ∀ lba < g.dataStartLba + g.fatEntries * g.sectorsPerCluster,
      ∀ i < 16, (dirent (v.disk lba) i).Live → (dirent (v.disk lba) i).first < g.fatEntries

instance : Decidable (RangeChecked g v op) := inferInstanceAs (Decidable (_ ∧ _))

lemma Meets.lt_fatEntries {c d : Nat}
    (hlinks : ∀ c < g.fatEntries, v.fat c < g.fatEntries ∨ 0xFFF8 ≤ v.fat c)
    (hd : d < g.fatEntries) (hm : Meets v.fat d c) : c < g.fatEntries := by
  induction hm with
  | start _ => exact hd
  | next _ hstop ih => exact (hlinks _ ih).resolve_right fun hend => hstop (.inr hend)

lemma DirSector.lt {d lba : Nat}
    (hlinks : ∀ c < g.fatEntries, v.fat c < g.fatEntries ∨ 0xFFF8 ≤ v.fat c)
    (hd : d < g.fatEntries) (h : DirSector g v d lba) :
    lba < g.dataStartLba + g.fatEntries * g.sectorsPerCluster := by
  rcases h with ⟨-, k, hk, rfl⟩ | ⟨-, c, hm, k, hk, rfl⟩
  · unfold Geo.dataStartLba
    omega
  · have hc := hm.lt_fatEntries hlinks hd
    have hstop := hm.not_stop
    unfold Stop at hstop
    have hmul : (c - 2 + 1) * g.sectorsPerCluster ≤ g.fatEntries * g.sectorsPerCluster :=
      Nat.mul_le_mul_right _ (by omega)
    rw [Nat.add_mul, Nat.one_mul] at hmul
    rw [clusterSector_eq (by omega) (by omega) hk]
    omega

lemma RangeChecked.inRange (h : RangeChecked g v op) : InRange g v op := by
  obtain ⟨hcount, hlinks, harg, hentries⟩ := h
  have hleads : ∀ d, Leads g v op.cluster d → d < g.fatEntries := by
    intro d hd
    induction hd with
    | start => exact harg
    | root => exact Nat.lt_of_le_of_lt (Nat.zero_le _) harg
    | entry _ hsec hi hl _ ih => exact hentries _ (hsec.lt hlinks ih) _ hi hl
  exact ⟨hcount, hlinks, harg, fun _ d hd lba i hsec hi hl =>
    hentries lba (hsec.lt hlinks (hleads d hd)) i hi hl⟩

def twoClusterFile : List Attempt :=
  [⟨.call (.mkdir 0 nameD), working, 20⟩, ⟨.call (.create 0 nameA), working, 20⟩,
    ⟨.call (.writeAt 0 nameA 0 (List.replicate 513 0)), working, 20⟩]

/-- Then the file is written to from its second cluster on. -/
theorem fatIndex_inRange_writeAt : ∃ s,
    runIf (returned (geoOf bootSector bootSector_accepted))
      (fun s a => RangeChecked (geoOf bootSector bootSector_accepted) s.vol a.op)
      ((smallVol zeroSector).mounted false) twoClusterFile = some s ∧
    s.vol.fat 3 = 4 ∧
    ∀ t, (Attempt.mk (.call (.writeAt 0 ⟨ascii "a", by decide⟩ 513 (List.replicate 600 0))) working
      20).run (geoOf bootSector bootSector_accepted) s ≠ .error .outOfBounds t := by
  have hrun : (runIf (returned (geoOf bootSector bootSector_accepted))
      (fun s a => RangeChecked (geoOf bootSector bootSector_accepted) s.vol a.op)
      ((smallVol zeroSector).mounted false) twoClusterFile).map (fun s => (s.vol.fat 3,
        decide (RangeChecked (geoOf bootSector bootSector_accepted) s.vol
          (.call (.writeAt 0 ⟨ascii "a", by decide⟩ 513 (List.replicate 600 0)))))) =
      some (4, true) := by
    decide +kernel
  obtain ⟨s, hs, heq⟩ := Option.map_eq_some_iff.mp hrun
  obtain ⟨hlink, hcheck⟩ := Prod.mk.inj heq
  have hstart : ReachIf (returned (geoOf bootSector bootSector_accepted))
      (· = (smallVol zeroSector).mounted false)
      (fun s a => RangeChecked (geoOf bootSector bootSector_accepted) s.vol a.op) _ := .start rfl
  exact ⟨s, hs, hlink, fatIndex_inRange (smallDisk_init zeroSector)
    ((hstart.of_runIf hs).mono fun _ _ => RangeChecked.inRange)
    (of_decide_eq_true hcheck).inRange⟩

/-- A file whose entry has the number 300 as its first cluster, on a disk with 256 entries in its
FAT. -/
def strayRoot : Mem :=
  putDirent zeroSector 0 { name := to83 (ascii "a"), attr := 0x20, first := 300, size := 0 }

/-- `fat16_write_file` frees the chain of a file from an index outside of the FAT on. -/
theorem fatIndex_stray : ∃ t,
    fat16Init working (some fun _ => 0) (smallDisk strayRoot) =
      some (geoOf bootSector bootSector_accepted, smallVol strayRoot) ∧
    (Attempt.mk (.call (.writeFile 0 ⟨ascii "a", by decide⟩ [])) working 100).run
      (geoOf bootSector bootSector_accepted) ((smallVol strayRoot).mounted false) =
        .error .outOfBounds t := by
  have hrun : (match (Attempt.mk (.call (.writeFile 0 ⟨ascii "a", by decide⟩ [])) working 100).run
      (geoOf bootSector bootSector_accepted) ((smallVol strayRoot).mounted false) with
      | .error .outOfBounds _ => true
      | _ => false) = true := by
    decide +kernel
  split at hrun
  case h_1 t heq => exact ⟨t, smallDisk_init strayRoot, heq⟩
  case h_2 => exact absurd hrun nofun

/-! ## Calls that return -/

def walksDisk (g : Geo) (base : Nat → Mem) (hfit : g.totalClusters ≤ g.fatEntries) (W : Walks)
    (n : Nat) : Setting where
  g
  may := fun e => e = .outOfFuel ∧ ¬ W.End g n
  base
  fits := hfit

lemma Op.outcome {io : Nat → Bool} {wild : Bool} (hwords : ∀ c, v.fat c < 0x10000)
    (hin : InRange g v op) (hn : op.turns ≤ n) :
    Outcome (op.exec g n) { v.mounted wild with io }
      (fun _ _ => (op.Starts g n { v.mounted wild with io }).End g n)
      fun e _ => e = .outOfFuel ∧ ¬ (op.Starts g n { v.mounted wild with io }).End g n := by
  have hstays : Stays _ (op.exec g n) _ _ := stays_op
    (S := walksDisk g v.disk hin.count (op.Starts g n { v.mounted wild with io }) n)
    (hin.safe (s := v.mounted wild) rfl hwords nofun rfl io) (hin.opOk rfl) (fun _ => hn)
    fun hnot => ⟨rfl, hnot⟩
  exact Outcome.mono hstays (fun _ _ ht => ht.2) fun _ _ he => he.1

/-- **A call returns if and only if every walk that it starts ends,** when all numbers that it can
come to are in range, whatever block operations fail.  The number `n` bounds both the turns of the
loops of the call and the sectors of a walk. -/
theorem call_returns (hwords : ∀ c, v.fat c < 0x10000) (hin : InRange g v op) (io : Nat → Bool)
    (wild : Bool) (hn : op.turns ≤ n) :
    ((∃ u, op.exec g n { v.mounted wild with io } = .ok () u) ↔
      ∀ t d q, op.Starts g n { v.mounted wild with io } t d q → WalkEnds g n t d q) ∧
    ((∃ t d q, op.Starts g n { v.mounted wild with io } t d q ∧ ¬ WalkEnds g n t d q) →
      ∃ u, op.exec g n { v.mounted wild with io } = .error .outOfFuel u) := by
  have hout : Outcome (op.exec g n) { v.mounted wild with io } _ _ := Op.outcome hwords hin hn
  cases hrun : op.exec g n { v.mounted wild with io } with
  | ok r u =>
    have hend := hout.result hrun
    refine ⟨⟨fun _ => hend, fun _ => ⟨u, rfl⟩⟩, ?_⟩
    rintro ⟨t, d, q, hstart, hnot⟩
    exact absurd (hend t d q hstart) hnot
  | error e u =>
    rw [Outcome, hrun] at hout
    obtain ⟨rfl, hnot⟩ := hout
    refine ⟨⟨?_, fun hend => absurd hend hnot⟩, fun _ => ⟨u, rfl⟩⟩
    rintro ⟨_, hok⟩
    cases hok

lemma not_endsIn {q : Query} {d : Nat} (hsec : ∀ k, ∃ lba, dirSectorAt g v.fat d k = some lba ∧
    q (v.disk lba) 0 = some 0) (n k : Nat) : ¬ EndsIn g q v d n working k 0 := by
  induction n generalizing k with
  | zero => exact id
  | succ n ih =>
    obtain ⟨lba, hlba, hq⟩ := hsec k
    rw [EndsIn, hlba]
    exact fun h => ih (k + 1) (h rfl 0 hq)

/-- A volume with a file `a` and a directory `b` in its root.  The only cluster of the directory is
followed by itself, and has deleted entries only. -/
def cyclicVol : Vol where
  ready := true
  fat := fun c => if c = 5 then 5 else 0
  disk := fun lba =>
    if lba = 8 then fun _ => 0xE5
    else if lba = 4 then
      putDirent (putDirent zeroSector 0 (newFile (to83 (ascii "a")))) 1
        (newDirectory (to83 (ascii "b")) 5)
    else zeroSector

lemma cyclicVol_fat (c : Nat) : cyclicVol.fat c < 6 := by
  show (if c = 5 then 5 else 0) < 6
  split
  · decide
  · decide

lemma cyclicVol_words (c : Nat) : cyclicVol.fat c < 0x10000 :=
  Nat.lt_trans (cyclicVol_fat c) (by decide)

lemma cyclicVol_inRange {op : Op} (hop : op.cluster < 256) : InRange smallGeo cyclicVol op := by
  refine ⟨by decide, fun c _ => .inl (Nat.lt_trans (cyclicVol_fat c) (by decide)), hop,
    fun _ d _ lba i _ hi hl => ?_⟩
  by_cases hlba : lba = 8
  · rw [show cyclicVol.disk lba = fun _ => 0xE5 from if_pos hlba] at hl
    exact absurd hl (Dirent.Deleted.not_live rfl)
  by_cases hroot : lba = 4
  · subst hroot
    have hall : ∀ i < 16, (dirent (cyclicVol.disk 4) i).first < 256 := by decide +kernel
    exact hall i hi
  · rw [show cyclicVol.disk lba = zeroSector from (if_neg hlba).trans (if_neg hroot)] at hl
    exact absurd hl dirent_zeroSector_empty.not_live

lemma cyclicVol_sector (k : Nat) : dirSectorAt smallGeo cyclicVol.fat 5 k = some 8 := by
  have hchain : ∀ j, chainAt cyclicVol.fat 5 j = some 5 := by
    intro j
    induction j with
    | zero => rfl
    | succ j ih =>
      rw [chainAt, ih]
      rfl
  rw [dirSectorAt, if_neg (by decide), hchain, show k % smallGeo.sectorsPerCluster = 0 from
    Nat.mod_one k]
  rfl

/-- `a` is found in the root, although the directory beside it is a cycle.  A lookup in that
directory does not return. -/
theorem call_returns_cyclic :
    (∃ u, (Op.find 0 ⟨ascii "a", by decide⟩).exec smallGeo 1 (cyclicVol.mounted false) =
      .ok () u) ∧
    ∀ n, ∃ u, (Op.find 5 ⟨ascii "a", by decide⟩).exec smallGeo n (cyclicVol.mounted false) =
      .error .outOfFuel u := by
  constructor
  · have hin : InRange smallGeo cyclicVol (.find 0 ⟨ascii "a", by decide⟩) :=
      cyclicVol_inRange (by decide)
    refine (call_returns cyclicVol_words hin working false (Nat.zero_le 1)).1.mpr ?_
    rintro t d q ⟨-, -, hask⟩
    cases hask with
    | here =>
      have hfound : byName (to83 (ascii "a")) (cyclicVol.disk 4) 0 = none := by decide +kernel
      exact endsIn_stop (s := cyclicVol.mounted false) rfl hfound
    | deeper hmore _ _ _ => exact absurd rfl hmore
  · intro n
    have hmore : byName (to83 (ascii "a")) (cyclicVol.disk 8) 0 = some 0 := by decide +kernel
    have hin : InRange smallGeo cyclicVol (.find 5 ⟨ascii "a", by decide⟩) :=
      cyclicVol_inRange (by decide)
    exact (call_returns cyclicVol_words hin working false (Nat.zero_le n)).2
      ⟨_, 5, _, ⟨rfl, by decide, .here⟩, not_endsIn (fun k => ⟨8, cyclicVol_sector k, hmore⟩) n 0⟩

/-- `fat16_readdir` never returns on this volume, whatever number of turns it is given. -/
theorem readdir_cyclic : (∀ c, cyclicVol.fat c < 0x10000) ∧
    InRange smallGeo cyclicVol (.readdir 5 0) ∧
    ∀ n, ∃ t, (Op.readdir 5 0).exec smallGeo n cyclicVol.start = .error .outOfFuel t := by
  refine ⟨cyclicVol_words, cyclicVol_inRange (by decide), fun n => ?_⟩
  have hmore : listing 0 (cyclicVol.disk 8) 0 = some 0 := by decide +kernel
  have hout : Outcome ((Op.readdir 5 0).exec smallGeo n) cyclicVol.start _ _ :=
    Op.outcome (v := cyclicVol) cyclicVol_words (cyclicVol_inRange (by decide)) (Nat.zero_le n)
  obtain ⟨e, t, hrun, rfl, -⟩ := hout.faults fun _ _ hend => not_endsIn
    (fun k => ⟨8, cyclicVol_sector k, hmore⟩) n 0 (hend _ 5 _ ⟨rfl, rfl, rfl, rfl⟩)
  exact ⟨t, hrun⟩

end NullOS.Fat16
