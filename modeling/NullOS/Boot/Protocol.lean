import NullOS.Boot.Crash
import Mathlib.Algebra.Order.BigOperators.Group.Multiset
import Mathlib.Algebra.Order.Ring.Nat
import Mathlib.Algebra.Group.Action.Defs

/-!
# Boot failures and crashes across boots

The machine is off, runs a normal boot, or is in Safe Mode.  A boot counts itself (`kmain`), its
first keyboard read resets the counter (`sys_read`), Safe Mode can reset it too, and a crash leaves
a record.  A sector is written whole, so that a power loss in an event is one before it or after it.
-/

namespace NullOS.Boot

open Lib

def bootcfgFailThreshold : UInt32 := 3

/-- What the machine is doing.  A normal boot has `g_boot_considered_up`. -/
inductive Mode
  | off
  | normal (c : BootCfg) (up : Bool)
  | safe (c : BootCfg)

def Mode.cfg : Mode → Option BootCfg
  | .off => none
  | .normal c _ => some c
  | .safe c => some c

/-- The machine, and how many normal boots have been started since the last event that is to reset
the counter.  No code reads `started`: it is kept from the events. -/
structure Machine where
  disk : Nat → Sector
  mode : Mode
  started : Nat

inductive Event
  | boot (requested : Bool)
  | firstKeyboardRead
  | crash (info : CrashInfo)
  | rebootNormally
  | rebootKeepCounter
  | powerLoss
deriving DecidableEq

/-- The part of `kmain` that decides about Safe Mode. -/
def kmain (s : Machine) (requested : Bool) : Machine :=
  let c := (bootcfgRead (readAll s.disk)).2
  if c.available = false then { s with mode := .normal c false }
  else
    let fails := bootcfgBufGetU32 c.cfg kFailCount.toCStr 0
    if (crashRecordLoad c.cfg).1 = 1 ∨ fails ≥ bootcfgFailThreshold ∨ requested = true then
      { s with mode := .safe c }
    else
      let c := { c with cfg := (bootcfgBufSetU32 c.cfg kFailCount.toCStr (fails + 1)).2 }
      let w := bootcfgWrite c true s.disk
      { s with disk := w.2.2, mode := .normal w.2.1 false }

/-- The part of `sys_read` that runs at the first keyboard read. -/
def sysRead (s : Machine) (c : BootCfg) : Machine :=
  if c.available = false then { s with mode := .normal c true }
  else
    let cfg := (bootcfgBufSetU32 c.cfg kFailCount.toCStr 0).2
    let w := bootcfgWrite { c with cfg := crashRecordClearIfAcknowledged cfg } true s.disk
    { s with disk := w.2.2, mode := .normal w.2.1 true }

def rebootNormally (s : Machine) (c : BootCfg) : Machine :=
  let cfg := (bootcfgBufSetU32 c.cfg kFailCount.toCStr 0).2
  let w := bootcfgWrite { c with cfg := crashRecordAcknowledge cfg } true s.disk
  { s with disk := w.2.2, mode := .off }

def crashReset (s : Machine) (c : BootCfg) (info : CrashInfo) : Machine :=
  { s with disk := (crashSave c.available true true s.disk info).2, mode := .off }

def handle (s : Machine) : Event → Option Machine
  | .boot requested =>
      match s.mode with
      | .off => some (kmain s requested)
      | _ => none
  | .firstKeyboardRead =>
      match s.mode with
      | .normal c false => some (sysRead s c)
      | _ => none
  | .crash info => s.mode.cfg.map fun c => crashReset s c info
  | .rebootNormally =>
      match s.mode with
      | .safe c => some (rebootNormally s c)
      | _ => none
  | .rebootKeepCounter =>
      match s.mode with
      | .safe _ => some { s with mode := .off }
      | _ => none
  | .powerLoss => some { s with mode := .off }

/-- How many normal boots there have been, `n` before the event: the count starts anew at the first
keyboard read of a boot and at `Reboot normally`. -/
def bootsAfter (n : Nat) (mode : Mode) : Event → Nat
  | .boot _ =>
      match mode with
      | .normal _ _ => n + 1
      | _ => n
  | .firstKeyboardRead | .rebootNormally => 0
  | _ => n

def protoStep (s : Machine) (e : Event) : Option Machine :=
  (handle s e).map fun t => { t with started := bootsAfter s.started t.mode e }

/-- The machine is off and the configuration is empty. -/
structure Fresh (s : Machine) : Prop where
  off : s.mode = .off
  guard : guardOk (readAll s.disk) = true
  empty : configOf (s.disk bootcfgLba) = bootcfgBufInit
  started : s.started = 0

/-! ## Room -/

def bootKeys : List Key := kFailCount :: crashKeys

/-- The map has only keys of the kernel, with values no longer than a number. -/
def Small (m : Conf) : Prop :=
  ∀ k v, m.lookup k = some v → k ∈ bootKeys ∧ v.bytes.length ≤ 12

variable {m m' : Conf} {k : Key} {v : Value} {buf : Sector}

lemma small_empty : Small ∅ := fun _ _ h => absurd h (by simp)

lemma Small.insert (h : Small m) (hk : k ∈ bootKeys) (hv : v.bytes.length ≤ 12) :
    Small (m.insert k v) := by
  intro k' v' hlookup
  by_cases hkk : k' = k
  · subst hkk
    rw [Finmap.lookup_insert] at hlookup
    obtain rfl := Option.some.inj hlookup
    exact ⟨hk, hv⟩
  · rw [Finmap.lookup_insert_of_ne m hkk] at hlookup
    exact h k' v' hlookup

lemma Small.erase (h : Small m) (k : Key) : Small (m.erase k) := by
  intro k' v' hlookup
  by_cases hkk : k' = k
  · subst hkk
    rw [Finmap.lookup_erase] at hlookup
    simp at hlookup
  · rw [Finmap.lookup_erase_ne hkk] at hlookup
    exact h k' v' hlookup

lemma Small.textLen_le (h : Small m) : textLen m ≤ 511 := by
  have hentry : ∀ b ∈ m.entries, b.1 ∈ bootKeys ∧ b.2.bytes.length ≤ 12 := fun b hb =>
    h b.1 b.2 (Finmap.mem_lookup_iff.mpr hb)
  have hkey : ∀ k ∈ bootKeys, k.bytes.length ≤ 15 := by decide
  have hline : ∀ n ∈ m.entries.map fun b => (lineOf b.1.bytes b.2.bytes).length, n ≤ 29 := by
    intro n hn
    obtain ⟨b, hb, rfl⟩ := Multiset.mem_map.mp hn
    have hk := hkey _ (hentry b hb).1
    have hv := (hentry b hb).2
    rw [lineOf_length]
    omega
  have hcard : m.entries.card ≤ 7 := by
    have hsub : m.keys ⊆ bootKeys.toFinset := fun k hk => by
      obtain ⟨v, hv⟩ := Finmap.mem_iff.mp (Finmap.mem_keys.mp hk)
      exact List.mem_toFinset.mpr (h k v hv).1
    have hle := Finset.card_le_card hsub
    have hseven : bootKeys.toFinset.card ≤ 7 := List.toFinset_card_le bootKeys
    have hkeys : m.keys.card = m.entries.card := Multiset.card_map _ _
    omega
  have hsum := Multiset.sum_le_card_nsmul _ 29 hline
  rw [Multiset.card_map, smul_eq_mul] at hsum
  rw [textLen, magicLen]
  omega

lemma Encodes.setNumber (h : Encodes buf m) (hm : Small m) (hk : k ∈ bootKeys) (value : UInt32)
    (hex : Bool) : ∃ buf', bootcfgBufSet buf k.toCStr (number value hex).toCStr = (0, buf') ∧
      Encodes buf' (m.insert k (number value hex)) ∧ Small (m.insert k (number value hex)) := by
  have hsmall := hm.insert hk (number_length value hex)
  obtain ⟨buf', heq, henc⟩ := h.set_room hsmall.textLen_le
  exact ⟨buf', heq, henc, hsmall⟩

lemma Encodes.setEach_small (h : Encodes buf m) (hm : Small m) {bs : List (Σ _ : Key, Value)}
    (hbs : ∀ b ∈ bs, b.1 ∈ bootKeys ∧ b.2.bytes.length ≤ 12) :
    ∃ buf', Boot.setEach buf bs = some buf' ∧ Small (insertEach m bs) := by
  induction bs generalizing buf m with
  | nil => exact ⟨buf, rfl, hm⟩
  | cons b bs ih =>
    obtain ⟨hb, hbs⟩ := List.forall_mem_cons.mp hbs
    have hsmall := hm.insert hb.1 hb.2
    obtain ⟨buf₁, heq, henc⟩ := h.set_room hsmall.textLen_le
    obtain ⟨buf', heq', hsmall'⟩ := ih henc hsmall hbs
    refine ⟨buf', ?_, hsmall'⟩
    rw [Boot.setEach, heq]
    exact heq'

lemma crashBindings_small (info : CrashInfo) :
    ∀ b ∈ crashBindings info, b.1 ∈ bootKeys ∧ b.2.bytes.length ≤ 12 := by
  intro b hb
  refine ⟨.tail _ (List.mem_map_of_mem (f := Sigma.fst) hb), ?_⟩
  obtain ⟨value, hex, hv⟩ : ∃ value hex, b.2 = number value hex := by
    simp only [crashBindings, recordOf, List.mem_cons, List.not_mem_nil, or_false] at hb
    obtain rfl | rfl | rfl | rfl | rfl | rfl := hb <;> exact ⟨_, _, rfl⟩
  rw [hv]
  exact number_length value hex

/-! ## The counter and the record in a map -/

def fails (m : Conf) : UInt32 := numberOf (m.lookup kFailCount) 0

lemma record_congr (h : ∀ k ∈ crashKeys, m'.lookup k = m.lookup k) : record m' = record m := by
  simp only [crashKeys, List.forall_mem_cons] at h
  obtain ⟨hpending, htype, heip, herr, hcr2, hticks, -⟩ := h
  simp only [record, hpending, htype, heip, herr, hcr2, hticks]

@[simp] lemma record_setFails (m : Conf) (v : Value) :
    record (m.insert kFailCount v) = record m := by
  have hne : ∀ k ∈ crashKeys, k ≠ kFailCount := by decide
  exact record_congr fun k hk => Finmap.lookup_insert_of_ne m (hne k hk)

@[simp] lemma fails_setFails (m : Conf) (value : UInt32) :
    fails (m.insert kFailCount (number value false)) = value := by
  rw [fails, Finmap.lookup_insert, numberOf_number]

lemma fails_congr (h : m'.lookup kFailCount = m.lookup kFailCount) : fails m' = fails m := by
  rw [fails, fails, h]

lemma record_acknowledge {info : CrashInfo} (h : record m = (1, some info)) :
    record (m.insert kPending (number 2 false)) = (2, some info) := by
  have hne : kType ≠ kPending ∧ kEip ≠ kPending ∧ kErr ≠ kPending ∧ kCr2 ≠ kPending ∧
      kTicks ≠ kPending := by decide
  obtain ⟨htype, heip, herr, hcr2, hticks⟩ := hne
  unfold record at h ⊢
  dsimp only at h
  split at h
  · exact absurd (Prod.mk.inj h).1 (by decide)
  · simp only [Finmap.lookup_insert, numberOf_number, Finmap.lookup_insert_of_ne m htype,
      Finmap.lookup_insert_of_ne m heip, Finmap.lookup_insert_of_ne m herr,
      Finmap.lookup_insert_of_ne m hcr2, Finmap.lookup_insert_of_ne m hticks]
    rw [if_neg (by decide), (Prod.mk.inj h).2]

lemma record_state (m : Conf) {state : UInt32} (hstate : state = 1 ∨ state = 2) :
    numberOf (m.lookup kPending) 0 = state ↔ (record m).1 = state := by
  unfold record
  dsimp only
  split
  case isTrue h =>
    constructor
    · rintro rfl
      exact absurd hstate (not_or.mpr h)
    · rintro rfl
      exact absurd hstate (by decide)
  case isFalse => exact Iff.rfl

lemma Encodes.removeEach (h : Encodes buf m) (ks : List Key) :
    Encodes (ks.foldl (fun cfg k => (bootcfgBufRemove cfg k.toCStr).2) buf)
      (ks.foldl (fun m k => m.erase k) m) := by
  induction ks generalizing buf m with
  | nil => exact h
  | cons k ks ih => exact ih (h.remove k).2

lemma Small.eraseEach (h : Small m) (ks : List Key) :
    Small (ks.foldl (fun m k => m.erase k) m) := by
  induction ks generalizing m with
  | nil => exact h
  | cons k ks ih => exact ih (h.erase k)

lemma lookup_eraseEach {ks : List Key} (h : k ∉ ks) :
    (ks.foldl (fun m k => m.erase k) m).lookup k = m.lookup k := by
  induction ks generalizing m with
  | nil => rfl
  | cons k' ks ih =>
    obtain ⟨hk, h⟩ := List.ne_and_not_mem_of_not_mem_cons h
    exact (ih h).trans (Finmap.lookup_erase_ne hk)

/-! ## The machine and its map -/

structure Holds (s : Machine) (m : Conf) : Prop where
  guard : guardOk (readAll s.disk) = true
  encodes : Encodes (configOf (s.disk bootcfgLba)) m
  small : Small m
  loaded : ∀ c, s.mode.cfg = some c → c = ⟨configOf (s.disk bootcfgLba), true⟩

namespace Holds

variable {s t : Machine} {info : CrashInfo}

lemma write (h : Holds s m) {cfg : Sector} (henc : Encodes cfg m') (hsmall : Small m') {mode : Mode}
    (hmode : ∀ c, mode.cfg = some c → c = ⟨cfg, true⟩) {started : Nat} :
    Holds { disk := Function.update s.disk bootcfgLba cfg, mode := mode, started := started }
    m' := by
  have hcfg : configOf (Function.update s.disk bootcfgLba cfg bootcfgLba) = cfg := by
    rw [Function.update_self, henc.configOf]
  refine ⟨h.guard, ?_, hsmall, ?_⟩
  · dsimp only
    rwa [hcfg]
  · dsimp only
    rwa [hcfg]

lemma quiet (h : Holds s m) {mode : Mode} {started : Nat}
    (hmode : ∀ c, mode.cfg = some c → c = ⟨configOf (s.disk bootcfgLba), true⟩) :
    Holds { disk := s.disk, mode := mode, started := started } m :=
  ⟨h.guard, h.encodes, h.small, hmode⟩

lemma bootcfgWrite_eq {cfg : Sector} (henc : Encodes cfg m') (disk : Nat → Sector) :
    bootcfgWrite ⟨cfg, true⟩ true disk =
      (0, ⟨cfg, true⟩, Function.update disk bootcfgLba cfg) := by
  simp only [bootcfgWrite, Bool.true_eq_false, if_false, henc.terminate, if_true]

lemma setNumber (h : Holds s m) (value : UInt32) : ∃ cfg,
    bootcfgBufSetU32 (configOf (s.disk bootcfgLba)) kFailCount.toCStr value = (0, cfg) ∧
      Encodes cfg (m.insert kFailCount (number value false)) ∧
      Small (m.insert kFailCount (number value false)) :=
  h.encodes.setNumber h.small (by decide) value false

/-! ## What each event does -/

def EntersSafeMode (m : Conf) (requested : Bool) : Prop :=
  (record m).1 = 1 ∨ fails m ≥ bootcfgFailThreshold ∨ requested = true

lemma boot (h : Holds s m) {requested : Bool} (hstep : protoStep s (.boot requested) = some t) :
    (EntersSafeMode m requested ∧ t.started = s.started ∧ Holds t m ∧
      t.mode = .safe ⟨configOf (s.disk bootcfgLba), true⟩) ∨
    (¬EntersSafeMode m requested ∧ t.started = s.started + 1 ∧ (∃ c, t.mode = .normal c false) ∧
      Holds t (m.insert kFailCount (number (fails m + 1) false))) := by
  obtain ⟨u, hu, rfl⟩ := Option.map_eq_some_iff.mp hstep
  have ht : u = kmain s requested := by
    simp only [handle] at hu
    split at hu
    · exact (Option.some.inj hu).symm
    · simp at hu
  have hfails : bootcfgBufGetU32 (configOf (s.disk bootcfgLba)) kFailCount.toCStr 0 = fails m :=
    h.encodes.getU32 kFailCount 0
  simp only [kmain, bootcfgRead_cfg h.guard h.encodes, hfails, h.encodes.load, Bool.true_eq_false,
    if_false] at ht
  split at ht
  case isTrue hsafe =>
    subst ht
    exact .inl ⟨hsafe, rfl, h.quiet fun c hc => (Option.some.inj hc).symm, rfl⟩
  case isFalse hsafe =>
    obtain ⟨cfg, hset, henc, hsmall⟩ := h.setNumber (fails m + 1)
    rw [hset, bootcfgWrite_eq henc] at ht
    subst ht
    refine .inr ⟨hsafe, rfl, ⟨_, rfl⟩, h.write henc hsmall ?_⟩
    rintro c ⟨⟩
    rfl

def cleared (m : Conf) : Conf :=
  if (record m).1 = 2 then crashKeys.foldl (fun m k => m.erase k) m else m

lemma clear_encodes {cfg : Sector} (henc : Encodes cfg m) :
    Encodes (crashRecordClearIfAcknowledged cfg) (cleared m) := by
  have hstate := record_state m (.inr (rfl : (2 : UInt32) = 2))
  rw [crashRecordClearIfAcknowledged, henc.getU32, cleared]
  by_cases h : (record m).1 = 2
  · rw [if_pos h, if_neg (not_not.mpr (hstate.mpr h))]
    exact henc.removeEach crashKeys
  · rw [if_neg h, if_pos (mt hstate.mp h)]
    exact henc

lemma firstRead (h : Holds s m) (hstep : protoStep s .firstKeyboardRead = some t) :
    t.started = 0 ∧ Holds t (cleared (m.insert kFailCount (number 0 false))) := by
  obtain ⟨u, hu, rfl⟩ := Option.map_eq_some_iff.mp hstep
  simp only [handle] at hu
  split at hu
  case h_2 => simp at hu
  case h_1 c hmode =>
    obtain rfl : c = ⟨configOf (s.disk bootcfgLba), true⟩ := h.loaded c (by rw [hmode]; rfl)
    obtain ⟨cfg, hset, henc, hsmall⟩ := h.setNumber 0
    have hclear := clear_encodes henc
    simp only [sysRead, hset, Bool.true_eq_false, if_false, bootcfgWrite_eq hclear,
      Option.some.injEq] at hu
    subst hu
    refine ⟨rfl, h.write hclear ?_ ?_⟩
    · unfold cleared
      split
      · exact hsmall.eraseEach crashKeys
      · exact hsmall
    · rintro c ⟨⟩
      rfl

def acknowledged (m : Conf) : Conf :=
  if (record m).1 = 1 then m.insert kPending (number 2 false) else m

lemma acknowledge_encodes {cfg : Sector} (henc : Encodes cfg m) (hsmall : Small m) :
    Encodes (crashRecordAcknowledge cfg) (acknowledged m) ∧ Small (acknowledged m) := by
  have hstate := record_state m (.inl (rfl : (1 : UInt32) = 1))
  rw [crashRecordAcknowledge, henc.getU32, acknowledged]
  by_cases h : (record m).1 = 1
  · obtain ⟨cfg', hset, henc', hsmall'⟩ := henc.setNumber (k := kPending) hsmall (by decide) 2 false
    rw [if_pos h, if_pos (hstate.mpr h), bootcfgBufSetU32, hset]
    exact ⟨henc', hsmall'⟩
  · rw [if_neg h, if_neg (mt hstate.mp h)]
    exact ⟨henc, hsmall⟩

lemma reboot (h : Holds s m) (hstep : protoStep s .rebootNormally = some t) :
    t.started = 0 ∧ Holds t (acknowledged (m.insert kFailCount (number 0 false))) := by
  obtain ⟨u, hu, rfl⟩ := Option.map_eq_some_iff.mp hstep
  simp only [handle] at hu
  split at hu
  case h_2 => simp at hu
  case h_1 c hmode =>
    obtain rfl : c = ⟨configOf (s.disk bootcfgLba), true⟩ := h.loaded c (by rw [hmode]; rfl)
    obtain ⟨cfg, hset, henc, hsmall⟩ := h.setNumber 0
    obtain ⟨hack, hsmall'⟩ := acknowledge_encodes henc hsmall
    simp only [rebootNormally, hset, bootcfgWrite_eq hack, Option.some.injEq] at hu
    subst hu
    refine ⟨rfl, h.write hack hsmall' ?_⟩
    nofun

lemma crash (h : Holds s m) (hstep : protoStep s (.crash info) = some t) :
    t.started = s.started ∧ Holds t (insertEach m (crashBindings info)) := by
  obtain ⟨u, hu, rfl⟩ := Option.map_eq_some_iff.mp hstep
  obtain ⟨c, hc, rfl⟩ := Option.map_eq_some_iff.mp hu
  obtain rfl := h.loaded c hc
  obtain ⟨cfg, hset, hsmall⟩ := h.encodes.setEach_small h.small (crashBindings_small info)
  have henc := h.encodes.setEach hset
  have hstart : (if true && bootcfgBufValid (s.disk bootcfgLba) then s.disk bootcfgLba
      else bootcfgBufInit) = configOf (s.disk bootcfgLba) := rfl
  simp only [crashReset, crashSave, Bool.true_eq_false, if_false, hstart, h.encodes.terminate,
    putRecord_eq, hset, if_true]
  refine ⟨rfl, h.write henc hsmall ?_⟩
  rintro _ ⟨⟩

lemma switchOff (h : Holds s m) {e : Event} (he : e = .rebootKeepCounter ∨ e = .powerLoss)
    (hstep : protoStep s e = some t) : t.started = s.started ∧ Holds t m := by
  obtain ⟨u, hu, rfl⟩ := Option.map_eq_some_iff.mp hstep
  obtain rfl | rfl := he
  · simp only [handle] at hu
    split at hu
    case h_2 => simp at hu
    case h_1 =>
      obtain rfl := Option.some.inj hu
      exact ⟨rfl, h.quiet nofun⟩
  · obtain rfl := Option.some.inj hu
    exact ⟨rfl, h.quiet nofun⟩

end Holds

/-! ## Histories -/

section Histories

variable {s t : Machine} {e : Event} {info : CrashInfo}

def Machine.saved (s : Machine) : UInt32 × Option CrashInfo :=
  crashRecordLoad (configOf (s.disk bootcfgLba))

lemma Holds.saved_eq (h : Holds s m) : s.saved = record m := h.encodes.load

/-- The counter in the sector is the number of boots since it was reset. -/
def Counted (s : Machine) : Prop :=
  ∃ m, Holds s m ∧ fails m = .ofNat s.started ∧ s.started ≤ 3

lemma fails_cleared (m : Conf) : fails (Holds.cleared m) = fails m := by
  unfold Holds.cleared
  split
  · exact fails_congr (lookup_eraseEach (by decide))
  · rfl

lemma fails_acknowledged (m : Conf) : fails (Holds.acknowledged m) = fails m := by
  unfold Holds.acknowledged
  split
  · exact fails_congr (Finmap.lookup_insert_of_ne m (by decide))
  · rfl

lemma counted_fresh (h : Fresh s) : Counted s := by
  refine ⟨∅, ⟨h.guard, ?_, small_empty, ?_⟩, ?_, ?_⟩
  · rw [h.empty]
    exact encodes_init
  · rw [h.off]
    nofun
  · rw [h.started]
    rfl
  · rw [h.started]
    exact Nat.zero_le 3

lemma threshold_iff {n : Nat} (h : n ≤ 3) : UInt32.ofNat n ≥ bootcfgFailThreshold ↔ n = 3 := by
  obtain rfl | rfl | rfl | rfl : n = 0 ∨ n = 1 ∨ n = 2 ∨ n = 3 := by omega
  all_goals decide

lemma Counted.step (h : Counted s) (hstep : protoStep s e = some t) : Counted t := by
  obtain ⟨m, hm, hfails, hle⟩ := h
  cases e with
  | boot requested =>
    obtain ⟨-, hstarted, ht, -⟩ | ⟨hsafe, hstarted, -, ht⟩ := hm.boot hstep
    · exact ⟨m, ht, by rwa [hstarted], by rwa [hstarted]⟩
    · refine ⟨_, ht, ?_, ?_⟩
      · rw [fails_setFails, hfails, hstarted, UInt32.ofNat_add]
        rfl
      · have hne : s.started ≠ 3 := fun h3 => hsafe
          (.inr (.inl (by rw [hfails]; exact (threshold_iff hle).mpr h3)))
        omega
  | firstKeyboardRead =>
    obtain ⟨hstarted, ht⟩ := hm.firstRead hstep
    exact ⟨_, ht, by rw [fails_cleared, fails_setFails, hstarted]; rfl, by omega⟩
  | crash info =>
    obtain ⟨hstarted, ht⟩ := hm.crash hstep
    refine ⟨_, ht, ?_, by rwa [hstarted]⟩
    rw [hstarted, ← hfails]
    exact fails_congr (lookup_insertEach_of_notMem (by rw [crashBindings, recordOf_keys]; decide))
  | rebootNormally =>
    obtain ⟨hstarted, ht⟩ := hm.reboot hstep
    exact ⟨_, ht, by rw [fails_acknowledged, fails_setFails, hstarted]; rfl, by omega⟩
  | rebootKeepCounter =>
    obtain ⟨hstarted, ht⟩ := hm.switchOff (.inl rfl) hstep
    exact ⟨m, ht, by rwa [hstarted], by rwa [hstarted]⟩
  | powerLoss =>
    obtain ⟨hstarted, ht⟩ := hm.switchOff (.inr rfl) hstep
    exact ⟨m, ht, by rwa [hstarted], by rwa [hstarted]⟩

def Event.Keeps (state : UInt32) : Event → Prop
  | .crash _ => False
  | .firstKeyboardRead => state ≠ 2
  | .rebootNormally => state ≠ 1
  | _ => True

lemma Counted.saved_step (h : Counted s) (hstep : protoStep s e = some t) (he : e.Keeps s.saved.1) :
    t.saved = s.saved := by
  obtain ⟨m, hm, -⟩ := h
  rw [hm.saved_eq] at he ⊢
  cases e with
  | boot requested =>
    obtain ⟨-, -, ht, -⟩ | ⟨-, -, -, ht⟩ := hm.boot hstep
    · exact ht.saved_eq
    · rw [ht.saved_eq, record_setFails]
  | firstKeyboardRead =>
    have ht := (hm.firstRead hstep).2
    rw [ht.saved_eq, Holds.cleared, record_setFails, if_neg he, record_setFails]
  | crash info => exact he.elim
  | rebootNormally =>
    have ht := (hm.reboot hstep).2
    rw [ht.saved_eq, Holds.acknowledged, record_setFails, if_neg he, record_setFails]
  | rebootKeepCounter => exact (hm.switchOff (.inl rfl) hstep).2.saved_eq
  | powerLoss => exact (hm.switchOff (.inr rfl) hstep).2.saved_eq

lemma Counted.saved_run (h : Counted s) (hs : s.saved = (1, some info)) {es : List Event}
    (hes : ∀ e ∈ es, e ≠ .rebootNormally ∧ ∀ i, e ≠ .crash i)
    (hrun : run protoStep s es = some t) : Counted t ∧ t.saved = (1, some info) := by
  induction es generalizing s with
  | nil =>
    obtain rfl := Option.some.inj hrun
    exact ⟨h, hs⟩
  | cons e es ih =>
    rw [run_cons, Option.bind_eq_some_iff] at hrun
    obtain ⟨u, hu, hrest⟩ := hrun
    obtain ⟨⟨hreboot, hcrash⟩, hes⟩ := List.forall_mem_cons.mp hes
    have hkeeps : e.Keeps s.saved.1 := by
      rw [hs]
      cases e with
      | crash i => exact absurd rfl (hcrash i)
      | rebootNormally => exact absurd rfl hreboot
      | firstKeyboardRead => exact (by decide : (1 : UInt32) ≠ 2)
      | _ => trivial
    exact ih (h.step hu) ((h.saved_step hu hkeeps).trans hs) hes hrest

structure Obeys (s : Machine) : Prop where
  /-- The counter is the number of boots since it was reset. -/
  count_eq : bootcfgBufGetU32 (configOf (s.disk bootcfgLba)) kFailCount.toCStr 0 = .ofNat s.started
  /-- It never exceeds its limit, on the disk and in memory. -/
  count_le : bootcfgBufGetU32 (configOf (s.disk bootcfgLba)) kFailCount.toCStr 0 ≤
    bootcfgFailThreshold
  loaded_le : ∀ c, s.mode.cfg = some c →
    bootcfgBufGetU32 c.cfg kFailCount.toCStr 0 ≤ bootcfgFailThreshold
  crash_saved : ∀ info t, protoStep s (.crash info) = some t → t.saved = (1, some info)
  /-- From then on every boot enters Safe Mode with this record, until there is a newer one or
  `Reboot normally` is chosen. -/
  crash_pending : ∀ info es requested t u w, protoStep s (.crash info) = some t →
    run protoStep t es = some u → (∀ e ∈ es, e ≠ .rebootNormally ∧ ∀ i, e ≠ .crash i) →
    protoStep u (.boot requested) = some w →
    ∃ c, w.mode = .safe c ∧ crashRecordLoad c.cfg = (1, some info)
  /-- `Reboot normally` acknowledges a pending record. -/
  acknowledges : ∀ info t, s.saved = (1, some info) → protoStep s .rebootNormally = some t →
    t.saved = (2, some info)
  /-- An acknowledged record stays until the first keyboard read of a normal boot or a crash. -/
  acknowledged : ∀ info e t, s.saved = (2, some info) → protoStep s e = some t →
    e ≠ .firstKeyboardRead → (∀ i, e ≠ .crash i) → t.saved = (2, some info)
  /-- Without a flag and a pending record, Safe Mode is entered after three boots. -/
  safe_iff : ∀ t, protoStep s (.boot false) = some t → s.saved.1 ≠ 1 →
    ((∃ c, t.mode = .safe c) ↔ s.started = 3)

lemma Counted.obeys (h : Counted s) : Obeys s := by
  obtain ⟨m, hm, hfails, hle⟩ := id h
  have heq : bootcfgBufGetU32 (configOf (s.disk bootcfgLba)) kFailCount.toCStr 0 =
      .ofNat s.started := (hm.encodes.getU32 kFailCount 0).trans hfails
  have hcount : bootcfgBufGetU32 (configOf (s.disk bootcfgLba)) kFailCount.toCStr 0 ≤
      bootcfgFailThreshold := by
    rw [heq]
    obtain h3 | h3 | h3 | h3 : s.started = 0 ∨ s.started = 1 ∨ s.started = 2 ∨ s.started = 3 := by
      omega
    all_goals rw [h3]; decide
  have hcrash : ∀ info t, protoStep s (.crash info) = some t → t.saved = (1, some info) := by
    intro info t hstep
    rw [(hm.crash hstep).2.saved_eq]
    exact (hasRecord_crashBindings m info).record_eq (.inl rfl)
  refine ⟨heq, hcount, ?_, hcrash, ?_, ?_, ?_, ?_⟩
  · intro c hc
    rw [hm.loaded c hc]
    exact hcount
  · intro info es requested t u w ht hu hes hw
    obtain ⟨⟨mu, hmu, -⟩, hsaved⟩ := (h.step ht).saved_run (hcrash info t ht) hes hu
    obtain ⟨-, -, -, hmode⟩ | ⟨hsafe, -⟩ := hmu.boot hw
    · exact ⟨_, hmode, hsaved⟩
    · exact absurd (.inl (by rw [← hmu.saved_eq, hsaved])) hsafe
  · intro info t hs hstep
    rw [hm.saved_eq] at hs
    have hs' : record (m.insert kFailCount (number 0 false)) = (1, some info) := by
      rw [record_setFails, hs]
    rw [(hm.reboot hstep).2.saved_eq, Holds.acknowledged, if_pos (by rw [hs'])]
    exact record_acknowledge hs'
  · intro info e t hs hstep hread hcrash
    refine (h.saved_step hstep ?_).trans hs
    rw [hs]
    cases e with
    | crash i => exact absurd rfl (hcrash i)
    | firstKeyboardRead => exact absurd rfl hread
    | rebootNormally => exact (by decide : (2 : UInt32) ≠ 1)
    | _ => trivial
  · intro t hstep hpending
    rw [hm.saved_eq] at hpending
    obtain ⟨hsafe, -, -, hmode⟩ | ⟨hsafe, -, ⟨c, hmode⟩, -⟩ := hm.boot hstep
    · refine ⟨fun _ => ?_, fun _ => ⟨_, hmode⟩⟩
      obtain h1 | hfull | hflag := hsafe
      · exact absurd h1 hpending
      · rw [hfails] at hfull
        exact (threshold_iff hle).mp hfull
      · exact absurd hflag (by decide)
    · refine ⟨fun ⟨c', hc'⟩ => absurd (hmode.symm.trans hc') (by simp), fun h3 => absurd ?_ hsafe⟩
      exact .inr (.inl (by rw [hfails]; exact (threshold_iff hle).mpr h3))

/-- **Boot failures and crashes across boots**: every history from an empty configuration keeps to
the protocol. -/
theorem bootProtocol (h : Reach protoStep Fresh s) : Obeys s := by
  have hcounted : Counted s :=
    h.invariant (I := Counted) (fun _ => counted_fresh) fun _ _ _ hs _ hstep => hs.step hstep
  exact hcounted.obeys

def blankMachine : Machine := { disk := blankDisk, mode := .off, started := 0 }

lemma blankMachine_fresh : Fresh blankMachine :=
  ⟨rfl, by decide +kernel, by decide +kernel, rfl⟩

/-- A boot that comes up and crashes, one into Safe Mode that acknowledges the crash, one that comes
up, and three that lose power. -/
def crashThenFail : List Event :=
  [.boot false, .firstKeyboardRead, .crash ⟨14, 0x101234, 2, 0, 7⟩, .boot false, .rebootNormally,
    .boot false, .firstKeyboardRead, .powerLoss, .boot false, .powerLoss, .boot false, .powerLoss,
    .boot false, .powerLoss]

theorem bootProtocol_crashThenFail :
    ∃ s, run protoStep blankMachine crashThenFail = some s ∧ s.started = 3 ∧ Obeys s := by
  have hrun : (run protoStep blankMachine crashThenFail).map Machine.started = some 3 := by
    decide +kernel
  obtain ⟨s, hs, hstarted⟩ := Option.map_eq_some_iff.mp hrun
  exact ⟨s, hs, hstarted, bootProtocol (.of_run blankMachine_fresh hs)⟩

end Histories

end NullOS.Boot
