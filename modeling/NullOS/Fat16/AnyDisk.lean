import NullOS.Fat16.Writes
import NullOS.Fat16.Listing
import NullOS.Lib.Outcome

/-!
# The driver on any disk

What the driver does on a disk that may hold anything.  A program `Stays` when every sector it
writes to is one that its cluster arithmetic names without wrapping around, and the reserved sectors
keep their content, also when it ends with a fault.  Which faults are possible depends on what is
known of the disk, so it is a parameter: an index outside of the FAT, and running out of turns when
a walk through a directory does not end.
-/

namespace NullOS.Fat16

open Lib

/-! ## Addresses -/

def Geo.Number (g : Geo) (c : Nat) : Prop := 2 ≤ c ∧ (c < 0x10000 ∨ c < g.totalClusters)

/-- A sector of the FAT or of the root directory, or of a cluster, with its address computed in
unbounded numbers. -/
def Geo.Target (g : Geo) (lba : Nat) : Prop :=
  g.fatStartLba ≤ lba ∧ lba < g.dataStartLba ∨
    ∃ c k, g.Number c ∧ k < g.sectorsPerCluster ∧
      lba = g.dataStartLba + ((c - 2) * g.sectorsPerCluster + k)

section Addresses

variable {g : Geo} {c k lba : Nat}

/-- In 32 bits no address wraps around, also when the disk has more clusters than 16 bits can
number. -/
lemma clusterSector_exact (hfit : g.totalClusters ≤ g.fatEntries) (hc : g.Number c)
    (hk : k < g.sectorsPerCluster) :
    clusterSector g c k = g.dataStartLba + ((c - 2) * g.sectorsPerCluster + k) := by
  obtain ⟨h2, hlt | hlt⟩ := hc
  · exact clusterSector_eq h2 hlt hk
  have hstart := g.fatStartLba_lt
  have hroot := g.rootSectorCount_le
  have hfs := g.fatSizeSectors_lt
  have hspc := g.sectorsPerCluster_lt
  have hfats : g.numFats * g.fatSizeSectors ≤ 0xFF * g.fatSizeSectors :=
    Nat.mul_le_mul_right _ (Nat.le_of_lt_succ g.numFats_lt)
  have hclusters : (c - 2) * g.sectorsPerCluster ≤ (256 * g.fatSizeSectors - 2) * 0xFF := by
    unfold Geo.fatEntries at hfit
    exact Nat.mul_le_mul (by omega) (by omega)
  have hdata : g.dataStartLba ≤ 0xFFFF + 0xFF * g.fatSizeSectors + 0x1000 := by
    unfold Geo.dataStartLba Geo.rootStartLba
    omega
  have hentries : c < 0x1000000 := by
    unfold Geo.fatEntries at hfit
    omega
  rw [clusterSector, fat16ClusterToLba, show (c + 0x100000000 - 2) % 0x100000000 = c - 2 by omega]
  omega

lemma fat16ClusterToLba_eq_sector (g : Geo) (c : Nat) :
    fat16ClusterToLba g c = clusterSector g c 0 := by
  rw [clusterSector, Nat.add_zero, fat16ClusterToLba, Nat.mod_mod]

lemma target_clusterSector (hfit : g.totalClusters ≤ g.fatEntries) (hc : g.Number c)
    (hk : k < g.sectorsPerCluster) : g.Target (clusterSector g c k) :=
  .inr ⟨c, k, hc, hk, clusterSector_exact hfit hc hk⟩

lemma target_root (hk : k < g.rootSectorCount) : g.Target (g.rootStartLba + k) := by
  refine .inl ⟨?_, ?_⟩
  · unfold Geo.rootStartLba
    omega
  · unfold Geo.dataStartLba
    omega

lemma Geo.Target.fatStart_le (h : g.Target lba) : g.fatStartLba ≤ lba := by
  have hle : g.fatStartLba ≤ g.dataStartLba := by
    unfold Geo.dataStartLba Geo.rootStartLba
    omega
  rcases h with ⟨h, -⟩ | ⟨c, k, -, -, rfl⟩
  · exact h
  · omega

lemma number_of_not_stop (h : ¬ Stop c) : g.Number c := by
  unfold Stop at h
  exact ⟨by omega, .inl (by omega)⟩

end Addresses

/-! ## Programs that stay in their place -/

/-- A disk, the faults that may happen on it, and what its reserved sectors hold. -/
structure Setting where
  g : Geo
  may : Fault → Prop
  base : Nat → Mem
  fits : g.totalClusters ≤ g.fatEntries

variable {S : Setting} {s t : St} {n c d lba : Nat} {α β : Type}

/-- The index is inside of the FAT, unless that does not matter. -/
def Setting.InTable (S : Setting) (c : Nat) : Prop := ¬ S.may .outOfBounds → c < S.g.fatEntries

/-- The driver has written to nothing else than targets, and the numbers in the FAT are 16-bit
numbers that do not lead out of it, unless that does not matter. -/
structure Setting.Safe (S : Setting) (s : St) : Prop where
  cells : ∀ c, s.vol.fat c < 0x10000
  links : ∀ c, S.InTable c → ¬ 0xFFF8 ≤ s.vol.fat c → s.vol.fat c ≠ 0 → S.InTable (s.vol.fat c)
  writes : ∀ lba ∈ s.writes, S.g.Target lba
  reserved : ∀ lba < S.g.fatStartLba, s.vol.disk lba = S.base lba

/-- The program keeps the driver safe, it faults only as it may, and `Q` holds when it returns. -/
def Stays (S : Setting) (m : Fs α) (s : St) (Q : α → St → Prop) : Prop :=
  Outcome m s (fun a t => S.Safe t ∧ Q a t) fun e t => S.may e ∧ S.Safe t

namespace Stays

variable {m : Fs α} {f : α → Fs β} {P Q : α → St → Prop} {R : β → St → Prop}

protected lemma pure {a : α} (h : S.Safe s) (hq : Q a s) : Stays S (pure a) s Q :=
  Outcome.of_ok rfl ⟨h, hq⟩

lemma mono (h : Stays S m s P) (hpq : ∀ a t, S.Safe t → P a t → Q a t) : Stays S m s Q :=
  Outcome.mono h (fun a t ht => ⟨ht.1, hpq a t ht.1 ht.2⟩) fun _ _ he => he

lemma seq (h : Stays S m s P) (hf : ∀ a t, S.Safe t → P a t → Stays S (f a) t R) :
    Stays S (m >>= f) s R :=
  Outcome.bind (Outcome.mono h (fun a t ht => hf a t ht.1 ht.2) fun _ _ he => he)

lemma seqRun (h : Stays S m s P)
    (hf : ∀ a t, m s = .ok a t → S.Safe t → P a t → Stays S (f a) t R) :
    Stays S (m >>= f) s R :=
  Outcome.bind (Outcome.mono (Outcome.run h) (fun a t ht => hf a t ht.1 ht.2.1 ht.2.2)
    fun _ _ he => he)

protected lemma get {f : St → Fs β} (hf : Stays S (f s) s R) : Stays S (get >>= f) s R := hf

lemma fault {e : Fault} (h : S.Safe s) (he : S.may e) : Stays S (throw e) s Q :=
  Outcome.of_error rfl ⟨he, h⟩

end Stays

/-! ## Sectors -/

lemma stays_blockReadSector (h : S.Safe s) (lba : Nat) :
    Stays S (blockReadSector lba) s fun r t => t.vol = s.vol ∧
      ∀ buf, r = some buf → buf = s.vol.disk lba := by
  refine Outcome.of_ok rfl ⟨⟨h.cells, h.links, h.writes, h.reserved⟩, rfl, ?_⟩
  intro buf hbuf
  split at hbuf
  · exact (Option.some.inj hbuf).symm
  · exact absurd hbuf nofun

lemma stays_blockWriteSector (h : S.Safe s) (hlba : S.g.Target lba) (buf : Mem) :
    Stays S (blockWriteSector lba buf) s fun _ t => t.vol.fat = s.vol.fat := by
  refine Outcome.of_ok rfl ⟨⟨h.cells, h.links, ?_, ?_⟩, rfl⟩
  · intro b hb
    rcases List.mem_cons.mp hb with rfl | hb
    · exact hlba
    · exact h.writes b hb
  · intro b hb
    have hne : b ≠ lba := by
      have := hlba.fatStart_le
      omega
    dsimp only
    split
    · rw [Function.update_of_ne hne]
      exact h.reserved b hb
    · exact h.reserved b hb

lemma stays_writeSectors (h : S.Safe s) {ws : List (Nat × Mem)}
    (hws : ∀ w ∈ ws, S.g.Target w.1) :
    Stays S (writeSectors ws) s fun _ t => t.vol.fat = s.vol.fat := by
  induction ws generalizing s with
  | nil => exact .pure h rfl
  | cons w ws ih =>
    refine (stays_blockWriteSector h (hws w List.mem_cons_self) w.2).seq ?_
    intro ok t ht hfat
    split
    · refine (ih ht fun b hb => hws b (List.mem_cons_of_mem _ hb)).mono ?_
      intro _ u _ hu
      rw [hu, hfat]
    · exact .pure ht hfat

lemma stays_flushFat (h : S.Safe s) :
    Stays S (fat16FlushFat S.g) s fun _ t => t.vol.fat = s.vol.fat := by
  refine .get (stays_writeSectors h ?_)
  intro w hw
  obtain ⟨f, hf, k, hk, rfl⟩ := mem_fatImage.mp hw
  refine .inl ⟨by dsimp only; omega, ?_⟩
  exact Nat.lt_of_lt_of_le (fatLba_lt hf hk) (rootStartLba_le S.g)

lemma stays_zeroCluster (h : S.Safe s) (hc : S.g.Number c) :
    Stays S (writeSectors (zeroCluster S.g c)) s fun _ t => t.vol.fat = s.vol.fat := by
  refine stays_writeSectors h ?_
  intro w hw
  obtain ⟨k, hk, rfl⟩ := List.mem_map.mp hw
  exact target_clusterSector S.fits hc (List.mem_range.mp hk)

/-! ## The FAT -/

lemma stays_getFat (h : S.Safe s) (hc : S.InTable c) :
    Stays S (getFat S.g c) s fun x t => t = s ∧ x = s.vol.fat c := by
  by_cases hin : c < S.g.fatEntries ∨ s.wild = true
  · refine Outcome.of_ok (if_pos hin) ⟨h, rfl, rfl⟩
  · refine Outcome.of_error (if_neg hin) ⟨?_, h⟩
    by_contra hmay
    exact hin (.inl (hc hmay))

/-- A number that may be stored in the FAT. -/
def Setting.Link (S : Setting) (x : Nat) : Prop := x = 0 ∨ 0xFFF8 ≤ x ∨ S.InTable x

lemma Setting.Safe.setFat (h : S.Safe s) {x : Nat} (hx : S.Link (x % 0x10000)) :
    S.Safe (s.withFat (Function.update s.vol.fat c (x % 0x10000))) := by
  have hval : ∀ b, (s.withFat (Function.update s.vol.fat c (x % 0x10000))).vol.fat b =
      if b = c then x % 0x10000 else s.vol.fat b := fun b => Function.update_apply _ _ _ b
  refine ⟨fun b => ?_, fun b hb hend h0 => ?_, h.writes, h.reserved⟩
  · rw [hval]
    split
    · omega
    · exact h.cells b
  · rw [hval] at hend h0 ⊢
    split at hend
    case isTrue heq =>
      rw [if_pos heq] at h0 ⊢
      exact hx.elim (absurd · h0) (·.elim (absurd · hend) id)
    case isFalse hne =>
      rw [if_neg hne] at h0 ⊢
      exact h.links b hb hend h0

lemma stays_setFat (h : S.Safe s) (hc : S.InTable c) {x : Nat} (hx : S.Link (x % 0x10000)) :
    Stays S (setFat S.g c x) s fun _ t =>
      t = s.withFat (Function.update s.vol.fat c (x % 0x10000)) := by
  by_cases hin : c < S.g.fatEntries ∨ s.wild = true
  · exact Outcome.of_ok (if_pos hin) ⟨h.setFat hx, rfl⟩
  · refine Outcome.of_error (if_neg hin) ⟨?_, h⟩
    by_contra hmay
    exact hin (.inl (hc hmay))

lemma Setting.Safe.next (h : S.Safe s) (hc : S.InTable c) (hstop : ¬ Stop (s.vol.fat c)) :
    S.InTable (s.vol.fat c) := by
  unfold Stop at hstop
  exact h.links c hc (by omega) (by omega)

lemma Setting.inTable_of_lt (S : Setting) (hc : c < S.g.totalClusters) : S.InTable c :=
  fun _ => Nat.lt_of_lt_of_le hc S.fits

lemma Setting.link_of_lt (S : Setting) (hc : c < S.g.totalClusters) : S.Link (c % 0x10000) :=
  .inr (.inr (S.inTable_of_lt (Nat.lt_of_le_of_lt (Nat.mod_le _ _) hc)))

lemma stays_nextCluster (h : S.Safe s) (hc : 2 ≤ c → S.InTable c) :
    Stays S (fat16NextCluster S.g c) s fun x t => t = s ∧ (¬ Stop x → S.InTable x) ∧
      (2 ≤ c → x = s.vol.fat c) := by
  rw [fat16NextCluster]
  split
  case isTrue hlow =>
    refine .pure h ⟨rfl, fun hstop => absurd ?_ hstop, fun h2 => absurd hlow (by omega)⟩
    exact .inr (by decide)
  case isFalse hhigh =>
    have hin := hc (by omega)
    refine (stays_getFat h hin).mono ?_
    rintro x _ _ ⟨rfl, rfl⟩
    exact ⟨rfl, h.next hin, fun _ => rfl⟩

lemma stays_allocFrom (h : S.Safe s) {k : Nat} (h2 : 2 ≤ c) (hk : c + k ≤ S.g.totalClusters) :
    Stays S (allocFrom S.g k c) s fun r t => r = 0 ∧ t = s ∨
      2 ≤ r ∧ r < S.g.totalClusters ∧ s.vol.fat r = 0 ∧ t = s.alloc r := by
  induction k generalizing c with
  | zero => exact .pure h (.inl ⟨rfl, rfl⟩)
  | succ k ih =>
    have hin := S.inTable_of_lt (c := c) (by omega)
    refine (stays_getFat h hin).seq ?_
    rintro x _ _ ⟨rfl, rfl⟩
    split
    case isTrue hfree =>
      refine (stays_setFat h hin (.inr (.inl (by decide)))).seq ?_
      rintro _ _ ht rfl
      exact .pure ht (.inr ⟨h2, by omega, hfree, rfl⟩)
    case isFalse => exact ih (by omega) (by omega)

lemma stays_allocCluster (h : S.Safe s) :
    Stays S (fat16AllocCluster S.g) s fun r t => r = 0 ∧ t = s ∨
      2 ≤ r ∧ r < S.g.totalClusters ∧ s.vol.fat r = 0 ∧ t = s.alloc r := by
  by_cases h2 : 2 ≤ S.g.totalClusters
  · exact stays_allocFrom h (Nat.le_refl 2) (by omega)
  · rw [fat16AllocCluster, Nat.sub_eq_zero_of_le (by omega)]
    exact .pure h (.inl ⟨rfl, rfl⟩)

/-! ## The walk through a directory -/

inductive Meets (fat : Nat → Nat) (d : Nat) : Nat → Prop
  | start : ¬ Stop d → Meets fat d d
  | next {c : Nat} : Meets fat d c → ¬ Stop (fat c) → Meets fat d (fat c)

def DirSector (g : Geo) (v : Vol) (d lba : Nat) : Prop :=
  d = 0 ∧ (∃ k < g.rootSectorCount, lba = g.rootStartLba + k) ∨
    d ≠ 0 ∧ ∃ c, Meets v.fat d c ∧ ∃ k < g.sectorsPerCluster, lba = clusterSector g c k

section Directories

variable {g : Geo} {v : Vol} {fat : Nat → Nat} {k found : Nat} {it : DirIter}

lemma Meets.not_stop (h : Meets fat d c) : ¬ Stop c := by
  cases h with
  | start hd => exact hd
  | next _ hc => exact hc

lemma Meets.inTable (h : S.Safe s) (hd : S.InTable d) (hm : Meets s.vol.fat d c) :
    S.InTable c := by
  induction hm with
  | start _ => exact hd
  | next _ hstop ih => exact h.next ih hstop

lemma DirSector.target (hfit : g.totalClusters ≤ g.fatEntries) (h : DirSector g v d lba) :
    g.Target lba := by
  rcases h with ⟨-, k, hk, rfl⟩ | ⟨-, c, hm, k, hk, rfl⟩
  · exact target_root hk
  · exact target_clusterSector hfit (number_of_not_stop hm.not_stop) hk

/-- Cluster `j` of the chain of a directory; there is none behind its end. -/
def chainAt (fat : Nat → Nat) (d : Nat) : Nat → Option Nat
  | 0 => if Stop d then none else some d
  | j + 1 => (chainAt fat d j).bind fun c => if Stop (fat c) then none else some (fat c)

def dirSectorAt (g : Geo) (fat : Nat → Nat) (d k : Nat) : Option Nat :=
  if d = 0 then if k < g.rootSectorCount then some (g.rootStartLba + k) else none
  else (chainAt fat d (k / g.sectorsPerCluster)).map fun c =>
    clusterSector g c (k % g.sectorsPerCluster)

lemma chainAt_meets {j : Nat} (h : chainAt fat d j = some c) : Meets fat d c := by
  induction j generalizing c with
  | zero =>
    rw [chainAt] at h
    split at h
    · cases h
    case isFalse hd =>
      obtain rfl := Option.some.inj h
      exact .start hd
  | succ j ih =>
    obtain ⟨b, hb, hnext⟩ := Option.bind_eq_some_iff.mp h
    split at hnext
    · cases hnext
    case isFalse hc =>
      obtain rfl := Option.some.inj hnext
      exact .next (ih hb) hc

lemma dirSector_of_at (h : dirSectorAt g v.fat d k = some lba) : DirSector g v d lba := by
  rw [dirSectorAt] at h
  split at h
  case isTrue hd =>
    split at h
    case isFalse => cases h
    case isTrue hk => exact .inl ⟨hd, k, hk, (Option.some.inj h).symm⟩
  case isFalse hd =>
    obtain ⟨c, hc, rfl⟩ := Option.map_eq_some_iff.mp h
    exact .inr ⟨hd, c, chainAt_meets hc, _, Nat.mod_lt _ g.sectorsPerCluster_pos, rfl⟩

/-- The iterator has delivered `k` sectors of directory `d`. -/
structure Passed (g : Geo) (fat : Nat → Nat) (d k : Nat) (it : DirIter) : Prop where
  dir : it.dirCluster = d
  root : d = 0 → it.rootSector = k
  cluster : it.cluster = d ∧ (d = 0 ∨ k = 0 ∧ it.clusterSector = 0) ∨
    d ≠ 0 ∧ ∃ m, k = m + 1 ∧ chainAt fat d (m / g.sectorsPerCluster) = some it.cluster ∧
      it.clusterSector = m % g.sectorsPerCluster + 1

lemma passed_init (g : Geo) (fat : Nat → Nat) (d : Nat) : Passed g fat d 0 (dirIterInit d) :=
  ⟨rfl, fun _ => rfl, .inl ⟨rfl, .inr ⟨rfl, rfl⟩⟩⟩

lemma Passed.inTable (h : S.Safe s) (hd : S.InTable d) (hp : Passed S.g s.vol.fat d k it) :
    S.InTable it.cluster := by
  rcases hp.cluster with ⟨heq, -⟩ | ⟨-, m, -, hc, -⟩
  · exact heq ▸ hd
  · exact (chainAt_meets hc).inTable h hd

lemma stays_iterAdvance (h : S.Safe s) (hd : S.InTable d) (h0 : d ≠ 0)
    (hp : Passed S.g s.vol.fat d k it) (hstop : ¬ Stop it.cluster) :
    Stays S (iterAdvance S.g it) s fun r t => t = s ∧
      r = (chainAt s.vol.fat d (k / S.g.sectorsPerCluster)).map fun c =>
        { it with cluster := c, clusterSector := k % S.g.sectorsPerCluster } := by
  have hpos := S.g.sectorsPerCluster_pos
  rcases hp.cluster with ⟨hc, hroot | ⟨rfl, hsec⟩⟩ | ⟨-, m, rfl, hc, hsec⟩
  · exact absurd hroot h0
  · rw [hc] at hstop
    rw [iterAdvance, if_neg (by omega), Nat.zero_div, chainAt, if_neg hstop, Nat.zero_mod, ← hc,
      ← hsec]
    exact .pure h ⟨rfl, rfl⟩
  · have hm := Nat.div_add_mod m S.g.sectorsPerCluster
    have hlt := Nat.mod_lt m hpos
    rw [iterAdvance, hsec]
    split
    case isTrue hlast =>
      have hnext : m + 1 = S.g.sectorsPerCluster * (m / S.g.sectorsPerCluster + 1) := by
        rw [Nat.mul_add, Nat.mul_one]
        omega
      have h2 : 2 ≤ it.cluster := by
        unfold Stop at hstop
        omega
      rw [hnext, Nat.mul_div_cancel_left _ hpos, Nat.mul_mod_right, chainAt, hc, Option.bind_some]
      refine (stays_nextCluster h fun _ => (chainAt_meets hc).inTable h hd).seq ?_
      rintro x t _ ⟨rfl, -, hx⟩
      obtain rfl := hx h2
      split
      · exact .pure h ⟨rfl, rfl⟩
      · exact .pure h ⟨rfl, rfl⟩
    case isFalse hmore =>
      have hdiv : (m + 1) / S.g.sectorsPerCluster = m / S.g.sectorsPerCluster := by
        rw [Nat.div_eq_of_lt_le]
        · rw [Nat.mul_comm]
          omega
        · rw [Nat.mul_comm, Nat.mul_add]
          omega
      have hmod : (m + 1) % S.g.sectorsPerCluster = m % S.g.sectorsPerCluster + 1 := by
        have := Nat.div_add_mod (m + 1) S.g.sectorsPerCluster
        rw [hdiv] at this
        omega
      rw [hdiv, hmod, hc, ← hsec]
      exact .pure h ⟨rfl, rfl⟩

def St.ticked (s : St) : St := { s with io := fun k => s.io (k + 1) }

lemma stays_nextSector (h : S.Safe s) (hd : S.InTable d) (hp : Passed S.g s.vol.fat d k it) :
    Stays S (dirIterNextSector S.g it) s fun r t =>
      dirSectorAt S.g s.vol.fat d k = none ∧ r = (.done, it) ∧ t = s ∨
      ∃ lba, dirSectorAt S.g s.vol.fat d k = some lba ∧ t = s.ticked ∧
        (s.io 0 = false ∧ r.1 = .error ∨
          s.io 0 = true ∧ r.1 = .sector lba (s.vol.disk lba) ∧
          Passed S.g s.vol.fat d (k + 1) r.2) := by
  have hread : ∀ (lba : Nat) {β : Type} {R : β → St → Prop} {f : Option Mem → Fs β},
      (s.io 0 = true → Stays S (f (some (s.vol.disk lba))) s.ticked R) →
      (s.io 0 = false → Stays S (f none) s.ticked R) →
      Stays S (blockReadSector lba >>= f) s R := by
    intro lba β R f hok hfail
    refine Outcome.bind (Outcome.of_ok rfl ?_)
    split
    case isTrue hio => exact hok hio
    case isFalse hio => exact hfail (Bool.eq_false_iff.mpr hio)
  have hticked : S.Safe s.ticked := ⟨h.cells, h.links, h.writes, h.reserved⟩
  rw [dirIterNextSector, hp.dir, dirSectorAt]
  by_cases h0 : d = 0
  · rw [if_pos h0, if_pos h0, hp.root h0]
    split
    case isTrue hge => exact .pure h (.inl ⟨if_neg (Nat.not_lt.mpr hge), rfl, rfl⟩)
    case isFalse hlt =>
      rw [if_pos (Nat.lt_of_not_le hlt)]
      refine hread _ (fun hio => .pure hticked ?_) fun hio => .pure hticked ?_
      · refine .inr ⟨_, rfl, rfl, .inr ⟨hio, rfl, rfl, fun _ => rfl, .inl ⟨?_, .inl h0⟩⟩⟩
        exact hp.cluster.elim (·.1) fun hsub => absurd h0 hsub.1
      · exact .inr ⟨_, rfl, rfl, .inl ⟨hio, rfl⟩⟩
  · rw [if_neg h0, if_neg h0]
    split
    case isTrue hstop =>
      refine .pure h (.inl ⟨?_, rfl, rfl⟩)
      rcases hp.cluster with ⟨hc, hroot | ⟨rfl, -⟩⟩ | ⟨-, m, -, hc, -⟩
      · exact absurd hroot h0
      · rw [Nat.zero_div, chainAt, if_pos (hc ▸ hstop)]
        rfl
      · exact absurd hstop (chainAt_meets hc).not_stop
    case isFalse hstop =>
      refine (stays_iterAdvance h hd h0 hp hstop).seq ?_
      rintro _ t _ ⟨rfl, rfl⟩
      cases hc : chainAt t.vol.fat d (k / S.g.sectorsPerCluster) with
      | none => exact .pure h (.inl ⟨rfl, rfl, rfl⟩)
      | some c =>
        refine hread _ (fun hio => .pure hticked ?_) fun hio => .pure hticked ?_
        · exact .inr ⟨_, rfl, rfl, .inr ⟨hio, rfl, hp.dir, fun hroot => absurd hroot h0,
            .inr ⟨h0, k, rfl, hc, rfl⟩⟩⟩
        · exact .inr ⟨_, rfl, rfl, .inl ⟨hio, rfl⟩⟩

end Directories

/-! ## Walks that end -/

/-- What a walk through a directory does at a sector, with the number of entries counted so far: it
stops there, or it goes on with another number. -/
abbrev Query := Mem → Nat → Option Nat

/-- A walk up to the first sector in which something is found. -/
def search (pick : Mem → Option α) : Query := fun buf found =>
  if (pick buf).isNone then some found else none

def listing (idx : Nat) : Query := fun buf found =>
  match readdirIn idx buf found (List.range 16) with
  | .more found => some found
  | _ => none

/-- One of the next `n` sectors, from sector `k` on, does not exist, or cannot be read, or the walk
stops there. -/
def EndsIn (g : Geo) (q : Query) (v : Vol) (d : Nat) : Nat → (Nat → Bool) → Nat → Nat → Prop
  | 0, _, _, _ => False
  | n + 1, io, k, found =>
      match dirSectorAt g v.fat d k with
      | none => True
      | some lba => io 0 = true → ∀ found', q (v.disk lba) found = some found' →
          EndsIn g q v d n (fun j => io (j + 1)) (k + 1) found'

def WalkEnds (g : Geo) (n : Nat) (s : St) (d : Nat) (q : Query) : Prop :=
  EndsIn g q s.vol d n s.io 0 0

section Walks

variable {g : Geo} {k found found' : Nat} {it : DirIter} {q : Query} {pick : Mem → Option α}

lemma endsIn_none (h : dirSectorAt g s.vol.fat d k = none) :
    EndsIn g q s.vol d (n + 1) s.io k found := by
  rw [EndsIn, h]
  trivial

lemma endsIn_error (h : dirSectorAt g s.vol.fat d k = some lba) (hio : s.io 0 = false) :
    EndsIn g q s.vol d (n + 1) s.io k found := by
  rw [EndsIn, h]
  exact fun hio' => absurd (hio'.symm.trans hio) nofun

lemma endsIn_stop (h : dirSectorAt g s.vol.fat d k = some lba)
    (hq : q (s.vol.disk lba) found = none) : EndsIn g q s.vol d (n + 1) s.io k found := by
  rw [EndsIn, h]
  exact fun _ _ hmore => absurd (hmore.symm.trans hq) nofun

lemma endsIn_more (h : dirSectorAt g s.vol.fat d k = some lba) (hio : s.io 0 = true)
    (hq : q (s.vol.disk lba) found = some found') :
    EndsIn g q s.vol d (n + 1) s.io k found ↔
      EndsIn g q s.ticked.vol d n s.ticked.io (k + 1) found' := by
  rw [EndsIn, h]
  refine ⟨fun hend => hend hio found' hq, fun hend _ _ hmore => ?_⟩
  obtain rfl := Option.some.inj (hq.symm.trans hmore)
  exact hend

lemma stays_dirScan (h : S.Safe s) (hd : S.InTable d) (hp : Passed S.g s.vol.fat d k it)
    (found : Nat)
    (hslow : ¬ EndsIn S.g (search pick) s.vol d n s.io k found → S.may .outOfFuel) :
    Stays S (dirScan S.g pick n it) s fun r t => t.vol = s.vol ∧
      EndsIn S.g (search pick) s.vol d n s.io k found ∧
      (∀ it', r = .done it' → S.InTable it'.cluster) ∧
      ∀ a lba buf, r = .hit a lba buf → DirSector S.g s.vol d lba ∧ buf = s.vol.disk lba ∧
        pick buf = some a := by
  induction n generalizing it s k with
  | zero => exact .fault h (hslow id)
  | succ n ih =>
    refine (stays_nextSector h hd hp).seq ?_
    rintro ⟨next, it'⟩ t ht (⟨hnone, heq, rfl⟩ | ⟨lba, hsec, rfl, ⟨hio, rfl⟩ | ⟨hio, rfl, hp'⟩⟩)
    · obtain ⟨rfl, rfl⟩ := Prod.mk.inj heq
      refine .pure h ⟨rfl, endsIn_none hnone, ?_, nofun⟩
      rintro _ ⟨⟩
      exact hp.inTable h hd
    · exact .pure ht ⟨rfl, endsIn_error hsec hio, nofun, nofun⟩
    · dsimp only
      split
      case h_1 a hpick =>
        refine .pure ht ⟨rfl, endsIn_stop hsec (by simp [search, hpick]), nofun, ?_⟩
        rintro _ _ _ ⟨⟩
        exact ⟨dirSector_of_at hsec, rfl, hpick⟩
      case h_2 hpick =>
        have hq : search pick (s.vol.disk lba) found = some found := by simp [search, hpick]
        have hmore := endsIn_more (n := n) hsec hio hq
        rw [hmore] at hslow ⊢
        exact ih ht hp' hslow

lemma stays_readdirLoop {idx : Nat} (h : S.Safe s) (hd : S.InTable d)
    (hp : Passed S.g s.vol.fat d k it)
    (hslow : ¬ EndsIn S.g (listing idx) s.vol d n s.io k found → S.may .outOfFuel) :
    Stays S (readdirLoop S.g idx n it found) s fun _ _ =>
      EndsIn S.g (listing idx) s.vol d n s.io k found := by
  induction n generalizing it s k found with
  | zero => exact .fault h (hslow id)
  | succ n ih =>
    refine (stays_nextSector h hd hp).seq ?_
    rintro ⟨next, it'⟩ t ht (⟨hnone, heq, rfl⟩ | ⟨lba, hsec, rfl, ⟨hio, rfl⟩ | ⟨hio, rfl, hp'⟩⟩)
    · obtain ⟨rfl, rfl⟩ := Prod.mk.inj heq
      exact .pure h (endsIn_none hnone)
    · exact .pure ht (endsIn_error hsec hio)
    · dsimp only
      split
      case h_1 hstop => exact .pure ht (endsIn_stop hsec (by simp [listing, hstop]))
      case h_2 i hentry => exact .pure ht (endsIn_stop hsec (by simp [listing, hentry]))
      case h_3 found' hmore =>
        have hnext := endsIn_more (n := n) hsec hio
          (show listing idx (s.vol.disk lba) found = some found' by simp [listing, hmore])
        rw [hnext] at hslow ⊢
        exact ih ht hp' hslow

end Walks

end NullOS.Fat16
