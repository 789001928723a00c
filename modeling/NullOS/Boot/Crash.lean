import NullOS.Boot.Number

/-!
# The crash record

`crash_save` puts a record of the crash into the configuration sector, without the normal I/O, and
`crash_record_load` finds it at the next boot (`kernel/crashdump.c`).
-/

namespace NullOS.Boot

open Lib

/-! ## The keys -/

def kFailCount : Key := ⟨⟨ascii "boot_fail_count", by decide⟩, by decide⟩

def kPending : Key := ⟨⟨ascii "crash_pending", by decide⟩, by decide⟩

def kType : Key := ⟨⟨ascii "crash_type", by decide⟩, by decide⟩

def kEip : Key := ⟨⟨ascii "crash_eip", by decide⟩, by decide⟩

def kErr : Key := ⟨⟨ascii "crash_err", by decide⟩, by decide⟩

def kCr2 : Key := ⟨⟨ascii "crash_cr2", by decide⟩, by decide⟩

def kTicks : Key := ⟨⟨ascii "crash_ticks", by decide⟩, by decide⟩

def crashKeys : List Key := [kPending, kType, kEip, kErr, kCr2, kTicks]

/-! ## The sector on disk -/

def bootcfgLba : Nat := 1

def guardOk (read : Nat → Option Sector) : Bool :=
  match read 0 with
  | none => false
  | some s0 =>
      let at8 := fun i => (s0.bytes.getD i 0).toNat
      at8 11 + 0x100 * at8 12 == 512 && at8 14 + 0x100 * at8 15 > bootcfgLba

structure BootCfg where
  cfg : Sector
  available : Bool

def bootcfgRead (read : Nat → Option Sector) : Int × BootCfg :=
  if guardOk read = false then (-1, ⟨cfgReset, false⟩)
  else match read bootcfgLba with
    | none => (-1, ⟨cfgReset, false⟩)
    | some raw =>
        if hasMagic raw then (1, ⟨raw.terminate, true⟩) else (0, ⟨cfgReset, true⟩)

def bootcfgWrite (c : BootCfg) (writeOk : Bool) (disk : Nat → Sector) :
    Int × BootCfg × (Nat → Sector) :=
  if c.available = false then (-1, c, disk)
  else
    let c' := { c with cfg := c.cfg.terminate }
    if writeOk then (0, c', Function.update disk bootcfgLba c'.cfg) else (-1, c', disk)

/-! ## The record -/

structure CrashInfo where
  intNo : UInt32
  eip : UInt32
  errCode : UInt32
  cr2 : UInt32
  ticks : UInt32
deriving DecidableEq

def recordOf (state : UInt32) (info : CrashInfo) : List (Σ _ : Key, Value) :=
  [⟨kPending, number state false⟩, ⟨kType, number info.intNo false⟩, ⟨kEip, number info.eip true⟩,
    ⟨kErr, number info.errCode true⟩, ⟨kCr2, number info.cr2 true⟩,
    ⟨kTicks, number info.ticks false⟩]

def orFail (r : Int × Sector) : Option Sector := if r.1 < 0 then none else some r.2

def putRecord (buf : Sector) (info : CrashInfo) : Option Sector := do
  let buf ← orFail (bootcfgBufSetU32 buf kPending.toCStr 1)
  let buf ← orFail (bootcfgBufSetU32 buf kType.toCStr info.intNo)
  let buf ← orFail (bootcfgBufSetHex32 buf kEip.toCStr info.eip)
  let buf ← orFail (bootcfgBufSetHex32 buf kErr.toCStr info.errCode)
  let buf ← orFail (bootcfgBufSetHex32 buf kCr2.toCStr info.cr2)
  orFail (bootcfgBufSetU32 buf kTicks.toCStr info.ticks)

/-- `crash_save`.  A failed write leaves the sector as it was. -/
def crashSave (available readOk writeOk : Bool) (disk : Nat → Sector) (info : CrashInfo) :
    Bool × (Nat → Sector) :=
  if available = false then (false, disk)
  else
    let raw := disk bootcfgLba
    let start := if readOk && bootcfgBufValid raw then raw else bootcfgBufInit
    match putRecord start.terminate info with
    | none => (false, disk)
    | some sector =>
        if writeOk then (true, Function.update disk bootcfgLba sector) else (false, disk)

/-- `crash_record_load`: the state, and for a state of 1 or 2 the record. -/
def crashRecordLoad (cfg : Sector) : UInt32 × Option CrashInfo :=
  let state := bootcfgBufGetU32 cfg kPending.toCStr 0
  if state ≠ 1 ∧ state ≠ 2 then (0, none)
  else (state, some
    { intNo := bootcfgBufGetU32 cfg kType.toCStr 0
      eip := bootcfgBufGetU32 cfg kEip.toCStr 0
      errCode := bootcfgBufGetU32 cfg kErr.toCStr 0
      cr2 := bootcfgBufGetU32 cfg kCr2.toCStr 0
      ticks := bootcfgBufGetU32 cfg kTicks.toCStr 0 })

def crashRecordAcknowledge (cfg : Sector) : Sector :=
  if bootcfgBufGetU32 cfg kPending.toCStr 0 = 1 then
    (bootcfgBufSetU32 cfg kPending.toCStr 2).2
  else cfg

def crashRecordClearIfAcknowledged (cfg : Sector) : Sector :=
  if bootcfgBufGetU32 cfg kPending.toCStr 0 ≠ 2 then cfg
  else crashKeys.foldl (fun cfg k => (bootcfgBufRemove cfg k.toCStr).2) cfg

/-! ## Saving and loading -/

section Save

variable {buf : Sector} {m : Conf} {info : CrashInfo}

def crashBindings (info : CrashInfo) : List (Σ _ : Key, Value) := recordOf 1 info

def setEach (buf : Sector) : List (Σ _ : Key, Value) → Option Sector
  | [] => some buf
  | b :: bs => (orFail (bootcfgBufSet buf b.1.toCStr b.2.toCStr)).bind fun buf => setEach buf bs

lemma putRecord_eq (buf : Sector) (info : CrashInfo) :
    putRecord buf info = setEach buf (crashBindings info) := by
  simp only [putRecord, crashBindings, recordOf, setEach, Option.bind_fun_some]
  rfl

def insertEach (m : Conf) (bs : List (Σ _ : Key, Value)) : Conf :=
  bs.foldl (fun m b => m.insert b.1 b.2) m

lemma Encodes.terminate (h : Encodes buf m) : buf.terminate = buf := by
  obtain ⟨bs, -, rfl, hfits⟩ := h
  obtain ⟨n, hn⟩ : ∃ n, 493 - (text bs).length = n + 1 :=
    ⟨492 - (text bs).length, by simp only [Fits, magicLen] at hfits; omega⟩
  have hbytes : (bufOf bs).bytes = (magic ++ text bs ++ List.replicate n 0) ++ [0] := by
    rw [bufOf_bytes hfits, hn, List.replicate_succ']
    simp only [List.append_assoc]
  have hlen : (magic ++ text bs ++ List.replicate n 0).length = 511 := by
    have h512 := (bufOf bs).length_eq
    rw [hbytes, List.length_append] at h512
    exact Nat.succ.inj h512
  rw [Sector.terminate, hbytes, ← hlen, List.take_left, Sector.pad_append_zeros, bufOf]

lemma Encodes.setEach {bs : List (Σ _ : Key, Value)} {buf' : Sector} (h : Encodes buf m)
    (hset : setEach buf bs = some buf') : Encodes buf' (insertEach m bs) := by
  induction bs generalizing buf m with
  | nil =>
    cases hset
    exact h
  | cons b bs ih =>
    rw [Boot.setEach] at hset
    obtain hfull | hroom := Nat.lt_or_ge 511 (textLen (m.insert b.1 b.2))
    · rw [h.set_full hfull] at hset
      simp [orFail] at hset
    · obtain ⟨buf₁, heq, henc⟩ := h.set_room hroom
      rw [heq] at hset
      exact ih henc hset

lemma lookup_insertEach_of_notMem {bs : List (Σ _ : Key, Value)} {k : Key} (h : k ∉ bs.keys) :
    (insertEach m bs).lookup k = m.lookup k := by
  induction bs generalizing m with
  | nil => rfl
  | cons b bs ih =>
    obtain ⟨hb, h⟩ := List.ne_and_not_mem_of_not_mem_cons h
    exact (ih h).trans (Finmap.lookup_insert_of_ne m hb)

lemma lookup_insertEach {bs : List (Σ _ : Key, Value)} (hnd : bs.NodupKeys) {b : Σ _ : Key, Value}
    (hb : b ∈ bs) : (insertEach m bs).lookup b.1 = some b.2 := by
  induction bs generalizing m with
  | nil => exact absurd hb List.not_mem_nil
  | cons b' bs ih =>
    obtain ⟨hnot, hnd⟩ := List.nodupKeys_cons.mp hnd
    obtain rfl | hb := List.mem_cons.mp hb
    · exact (lookup_insertEach_of_notMem hnot).trans (Finmap.lookup_insert m)
    · exact ih hnd hb

lemma recordOf_keys (state : UInt32) (info : CrashInfo) :
    (recordOf state info).keys = crashKeys := rfl

lemma recordOf_nodup (state : UInt32) (info : CrashInfo) : (recordOf state info).NodupKeys := by
  show crashKeys.Nodup
  decide

def HasRecord (m : Conf) (state : UInt32) (info : CrashInfo) : Prop :=
  ∀ b ∈ recordOf state info, m.lookup b.1 = some b.2

def record (m : Conf) : UInt32 × Option CrashInfo :=
  let state := numberOf (m.lookup kPending) 0
  if state ≠ 1 ∧ state ≠ 2 then (0, none)
  else (state, some
    { intNo := numberOf (m.lookup kType) 0
      eip := numberOf (m.lookup kEip) 0
      errCode := numberOf (m.lookup kErr) 0
      cr2 := numberOf (m.lookup kCr2) 0
      ticks := numberOf (m.lookup kTicks) 0 })

lemma Encodes.load (h : Encodes buf m) : crashRecordLoad buf = record m := by
  simp only [crashRecordLoad, h.getU32, record]

lemma HasRecord.record_eq {state : UInt32} (h : HasRecord m state info)
    (hstate : state = 1 ∨ state = 2) : record m = (state, some info) := by
  have hne : ¬(state ≠ 1 ∧ state ≠ 2) := by
    rintro ⟨h1, h2⟩
    exact hstate.elim h1 h2
  have hpending := h ⟨kPending, _⟩ (.head _)
  have htype := h ⟨kType, _⟩ (.tail _ (.head _))
  have heip := h ⟨kEip, _⟩ (.tail _ (.tail _ (.head _)))
  have herr := h ⟨kErr, _⟩ (.tail _ (.tail _ (.tail _ (.head _))))
  have hcr2 := h ⟨kCr2, _⟩ (.tail _ (.tail _ (.tail _ (.tail _ (.head _)))))
  have hticks := h ⟨kTicks, _⟩ (.tail _ (.tail _ (.tail _ (.tail _ (.tail _ (.head _))))))
  simp only [record, hpending, htype, heip, herr, hcr2, hticks, numberOf_number, if_neg hne]

lemma hasRecord_crashBindings (m : Conf) (info : CrashInfo) :
    HasRecord (insertEach m (crashBindings info)) 1 info := fun _ hb =>
  lookup_insertEach (recordOf_nodup 1 info) hb

/-- A sector without the magic line, or one that the store has made. -/
def Stored (s : Sector) : Prop :=
  hasMagic s = false ∨ Reach bufStep (· = bootcfgBufInit) s

lemma Encodes.hasMagic (h : Encodes buf m) : hasMagic buf = true :=
  List.isPrefixOf_iff_prefix.mpr h.magic_prefix

/-- The configuration in a sector: without the magic line it is empty. -/
def configOf (s : Sector) : Sector := if bootcfgBufValid s then s else bootcfgBufInit

lemma Encodes.configOf (h : Encodes buf m) : configOf buf = buf := if_pos h.hasMagic

lemma Stored.encodes {s : Sector} (h : Stored s) : ∃ m, Encodes (configOf s) m := by
  obtain h | h := h
  · exact ⟨∅, by rw [Boot.configOf, bootcfgBufValid, h]; exact encodes_init⟩
  · obtain ⟨m, henc⟩ := exists_encodes h
    exact ⟨m, by rwa [henc.configOf]⟩

def readAll (disk : Nat → Sector) : Nat → Option Sector := fun lba => some (disk lba)

lemma bootcfgRead_cfg {disk : Nat → Sector} (hguard : guardOk (readAll disk) = true)
    (henc : Encodes (configOf (disk bootcfgLba)) m) :
    (bootcfgRead (readAll disk)).2 = ⟨configOf (disk bootcfgLba), true⟩ := by
  rw [bootcfgRead, if_neg (by simp [hguard])]
  simp only [readAll]
  by_cases h : hasMagic (disk bootcfgLba) = true
  · have hconfig : Boot.configOf (disk bootcfgLba) = disk bootcfgLba := if_pos h
    rw [hconfig] at henc ⊢
    rw [if_pos h, henc.terminate]
  · rw [if_neg h, show Boot.configOf (disk bootcfgLba) = bootcfgBufInit from if_neg h]
    rfl

lemma get_insertEach {buf' : Sector} {state : UInt32} (h : Encodes buf m)
    (h' : Encodes buf' (insertEach m (recordOf state info))) {key : CStr}
    (hkey : ∀ k ∈ crashKeys, k.toCStr ≠ key) (max : Int) :
    bootcfgBufGet buf' key max = bootcfgBufGet buf key max := by
  by_cases hguard : max ≤ 0 ∨ keyValid key.bytes = false
  · rw [bootcfgBufGet, bootcfgBufGet, if_pos hguard, if_pos hguard]
  · obtain ⟨hmax, hvalid⟩ := not_or.mp hguard
    have hk : (⟨key, by simpa using hvalid⟩ : Key) ∉ (recordOf state info).keys := fun hmem =>
      hkey _ hmem rfl
    have hget := h.get ⟨key, by simpa using hvalid⟩ (Int.not_le.mp hmax)
    rw [← lookup_insertEach_of_notMem hk] at hget
    exact (h'.get ⟨key, by simpa using hvalid⟩ (Int.not_le.mp hmax)).trans hget.symm

/-- **A crash record survives the reset.**  When `crash_save` returns 1 the next boot finds the
saved values, and all other keys are as before.  When it returns 0 the disk is unchanged. -/
theorem crashSave_survives (disk : Nat → Sector) (hdisk : Stored (disk bootcfgLba))
    (info : CrashInfo) (available writeOk : Bool) :
    let saved := crashSave available true writeOk disk info
    (saved.1 = true → writeOk = true ∧ (∃ s, saved.2 = Function.update disk bootcfgLba s) ∧
      (guardOk (readAll disk) = true →
        crashRecordLoad (bootcfgRead (readAll saved.2)).2.cfg = (1, some info) ∧
        ∀ key : CStr, (∀ k ∈ crashKeys, k.toCStr ≠ key) → ∀ max,
          bootcfgBufGet (bootcfgRead (readAll saved.2)).2.cfg key max =
            bootcfgBufGet (bootcfgRead (readAll disk)).2.cfg key max)) ∧
    (saved.1 = false → saved.2 = disk) := by
  obtain ⟨m, henc⟩ := hdisk.encodes
  intro saved
  have hsaved : saved = crashSave available true writeOk disk info := rfl
  clear_value saved
  rw [crashSave] at hsaved
  split at hsaved
  · subst hsaved
    exact ⟨nofun, fun _ => rfl⟩
  have hstart : (if true && bootcfgBufValid (disk bootcfgLba) then disk bootcfgLba
      else bootcfgBufInit) = configOf (disk bootcfgLba) := rfl
  dsimp only at hsaved
  rw [hstart, henc.terminate, putRecord_eq] at hsaved
  split at hsaved
  · subst hsaved
    exact ⟨nofun, fun _ => rfl⟩
  rename_i sector hset
  have henc' := henc.setEach hset
  split at hsaved
  case isFalse =>
    subst hsaved
    exact ⟨nofun, fun _ => rfl⟩
  case isTrue hwrite =>
    subst hsaved
    refine ⟨fun _ => ⟨hwrite, ⟨sector, rfl⟩, fun hguard => ?_⟩, nofun⟩
    have hguard' : guardOk (readAll (Function.update disk bootcfgLba sector)) = true := hguard
    have hsector : configOf (Function.update disk bootcfgLba sector bootcfgLba) = sector := by
      rw [Function.update_self, henc'.configOf]
    have hread := bootcfgRead_cfg hguard' (by rwa [hsector])
    rw [hsector] at hread
    refine ⟨?_, fun key hkey max => ?_⟩
    · rw [hread]
      exact henc'.load.trans ((hasRecord_crashBindings m info).record_eq (.inl rfl))
    · rw [hread, bootcfgRead_cfg hguard henc]
      exact get_insertEach henc henc' hkey max

def blankDisk : Nat → Sector := fun lba =>
  if lba = 0 then .pad (List.replicate 11 0 ++ [0, 2, 1, 2, 0]) else .pad []

/-- The first crash on a blank disk is saved. -/
theorem crashSave_survives_blank :
    let info : CrashInfo := ⟨14, 0x101234, 2, 0xFFFFFFFF, 0⟩
    let saved := crashSave true true true blankDisk info
    saved.1 = true ∧ crashRecordLoad (bootcfgRead (readAll saved.2)).2.cfg = (1, some info) := by
  intro info saved
  have hsaved : saved.1 = true := by decide +kernel
  obtain ⟨hsuccess, -⟩ :=
    crashSave_survives blankDisk (.inl (by decide +kernel)) info true true
  exact ⟨hsaved, ((hsuccess hsaved).2.2 (by decide +kernel)).1⟩

end Save

end NullOS.Boot
