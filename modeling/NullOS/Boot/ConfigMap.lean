import NullOS.Boot.Config
import NullOS.Lib.Run
import Mathlib.Data.Finmap

/-!
# The boot configuration as a finite map

`Encodes` says which finite map from keys to values a buffer holds.  Reading, setting and removing
a key act on the buffer as the map operations do.
-/

namespace NullOS.Boot

open Lib

abbrev Conf := Finmap fun _ : Key => Value

def textLen (m : Conf) : Nat :=
  magicLen + (m.entries.map fun b => (lineOf b.1.bytes b.2.bytes).length).sum

def valueOf (m : Conf) (key : CStr) : Option Value :=
  if h : keyValid key.bytes = true then m.lookup ⟨key, h⟩ else none

/-- The buffer holds the bindings of the map in some order. -/
def Encodes (buf : Sector) (m : Conf) : Prop :=
  ∃ bs : List (Σ _ : Key, Value), m.entries = bs ∧ buf = bufOf bs ∧ Fits bs

variable {buf : Sector} {m : Conf} {k : Key} {v : Value}

lemma textLen_of_entries {bs : List (Σ _ : Key, Value)} (h : m.entries = bs) :
    textLen m = magicLen + (text bs).length := by
  rw [textLen, h, Multiset.map_coe, Multiset.sum_coe, text, List.length_flatMap]

lemma entries_insert : (m.insert k v).entries = ⟨k, v⟩ ::ₘ (m.erase k).entries := by
  have hinsert : m.insert k v = (m.erase k).insert k v := by
    refine Finmap.ext_lookup fun k' => ?_
    by_cases hk : k' = k
    · subst hk
      rw [Finmap.lookup_insert, Finmap.lookup_insert]
    · rw [Finmap.lookup_insert_of_ne _ hk, Finmap.lookup_insert_of_ne _ hk,
        Finmap.lookup_erase_ne hk]
  rw [hinsert, Finmap.entries_insert_of_notMem Finmap.notMem_erase_self]

lemma encodes_init : Encodes bootcfgBufInit ∅ :=
  ⟨[], rfl, by rw [bufOf, text_nil, List.append_nil]; rfl, by unfold Fits; decide⟩

namespace Encodes

lemma split (h : Encodes buf m) (k : Key) :
    (m.lookup k = none ∧ ∃ bs : List (Σ _ : Key, Value), (m.erase k).entries = bs ∧
      m.entries = bs ∧ buf = bufOf bs ∧ Fits bs ∧ k ∉ bs.keys) ∨
    ∃ v pre post, m.lookup k = some v ∧ (m.erase k).entries = (pre ++ post : List _) ∧
      m.entries = (pre ++ ⟨k, v⟩ :: post : List _) ∧
      buf = bufOf (pre ++ ⟨k, v⟩ :: post) ∧ Fits (pre ++ ⟨k, v⟩ :: post) ∧ k ∉ pre.keys := by
  obtain ⟨bs, hbs, hbuf, hfits⟩ := h
  have hnd : bs.NodupKeys := by
    have hm := m.nodupKeys
    rwa [hbs, Multiset.coe_nodupKeys] at hm
  have hm : m = AList.toFinmap ⟨bs, hnd⟩ := Finmap.ext hbs
  have hlookup : m.lookup k = bs.dlookup k := by rw [hm]; rfl
  have herase : (m.erase k).entries = (bs.kerase k : List _) := by
    rw [hm, Finmap.erase_toFinmap]
    rfl
  by_cases hk : k ∈ bs.keys
  · obtain ⟨v, pre, post, hpre, rfl, hkerase⟩ := List.exists_of_kerase hk
    refine .inr ⟨v, pre, post, ?_, ?_, hbs, hbuf, hfits, hpre⟩
    · rw [hlookup]
      exact List.mem_dlookup hnd (by simp)
    · rw [herase, hkerase]
  · rw [List.kerase_of_notMem_keys hk] at herase
    refine .inl ⟨?_, bs, herase, hbs, hbuf, hfits, hk⟩
    rw [hlookup, List.dlookup_eq_none.mpr hk]

lemma get (h : Encodes buf m) (k : Key) {max : Int} (hmax : 0 < max) :
    bootcfgBufGet buf k.toCStr max =
      (m.lookup k).map fun v => v.bytes.take (max - 1).toNat := by
  have hguard : ¬(max ≤ 0 ∨ keyValid k.bytes = false) := by
    simp [k.valid, hmax]
  rw [bootcfgBufGet, if_neg hguard]
  obtain ⟨hnone, bs, -, -, rfl, hfits, hk⟩ | ⟨v, pre, post, hsome, -, -, rfl, hfits, hk⟩ :=
    h.split k
  · rw [findKey_absent hfits hk, hnone]
    rfl
  · rw [findKey_present hfits hk, hsome]
    simp only [Nat.add_sub_cancel_left, Option.map_some, Option.some.injEq]
    rw [Nat.min_comm, ← List.take_take, value_bufOf hfits]

lemma remove (h : Encodes buf m) (k : Key) :
    (bootcfgBufRemove buf k.toCStr).1 = (if k ∈ m then 1 else 0) ∧
      Encodes (bootcfgBufRemove buf k.toCStr).2 (m.erase k) := by
  rw [bootcfgBufRemove, if_neg (by simp [k.valid])]
  obtain ⟨hnone, bs, herase, -, rfl, hfits, hk⟩ |
    ⟨v, pre, post, hsome, herase, -, rfl, hfits, hk⟩ := h.split k
  · rw [findKey_absent hfits hk, if_neg (Finmap.lookup_eq_none.mp hnone)]
    exact ⟨rfl, bs, herase, rfl, hfits⟩
  · rw [findKey_present hfits hk, if_pos (Finmap.mem_of_lookup_eq_some hsome)]
    dsimp only
    rw [oldLen_bufOf hfits, cut_bufOf hfits]
    refine ⟨rfl, pre ++ post, herase, rfl, ?_⟩
    simp only [Fits, text_append, text_cons, List.length_append] at hfits ⊢
    omega

lemma set_eq (h : Encodes buf m) (k : Key) (v : Value) :
    ∃ bs : List (Σ _ : Key, Value), (m.insert k v).entries = bs ∧
      bootcfgBufSet buf k.toCStr v.toCStr =
        if textLen (m.insert k v) > 511 then (-1, buf) else (0, bufOf bs) := by
  have hadd : ∀ bs : List (Σ _ : Key, Value), (m.erase k).entries = bs →
      (m.insert k v).entries = (bs ++ [⟨k, v⟩] : List _) := by
    intro bs hbs
    rw [entries_insert, hbs, Multiset.cons_coe, Multiset.coe_eq_coe]
    exact (List.perm_append_singleton _ _).symm
  have hlen : ∀ bs : List (Σ _ : Key, Value), (text (bs ++ [⟨k, v⟩])).length =
      (text bs).length + (k.bytes.length + 1 + v.bytes.length + 1) := by
    intro bs
    rw [text_append, List.length_append, text_cons, text_nil, List.append_nil, lineOf_length]
  rw [bootcfgBufSet, if_neg (by simp [k.valid]), if_neg v.noNewline]
  obtain ⟨-, bs, herase, -, rfl, hfits, hk⟩ |
    ⟨v', pre, post, -, herase, -, rfl, hfits, hk⟩ := h.split k
  · refine ⟨_, hadd bs herase, ?_⟩
    rw [findKey_absent hfits hk, textLen_of_entries (hadd bs herase), hlen]
    simp only [cfgUsed_bufOf hfits, appendLine_bufOf hfits, CStr.length, Nat.add_assoc]
  · refine ⟨_, hadd _ herase, ?_⟩
    have hused : magicLen + (text (pre ++ ⟨k, v'⟩ :: post)).length -
        (lineOf k.bytes v'.bytes).length = magicLen + (text (pre ++ post)).length := by
      simp only [text_append, text_cons, List.length_append]
      omega
    have hfits' : Fits (pre ++ post) := by
      rw [Fits, ← hused]
      exact (Nat.sub_le _ _).trans hfits
    rw [findKey_present hfits hk, textLen_of_entries (hadd _ herase), hlen]
    simp only [cfgUsed_bufOf hfits, oldLen_bufOf hfits, cut_bufOf hfits, hused,
      appendLine_bufOf hfits', CStr.length]
    simp only [Nat.add_assoc]

lemma set_full (h : Encodes buf m) (hfull : 511 < textLen (m.insert k v)) :
    bootcfgBufSet buf k.toCStr v.toCStr = (-1, buf) := by
  obtain ⟨bs, -, hset⟩ := h.set_eq k v
  rw [hset, if_pos hfull]

lemma set_room (h : Encodes buf m) (hroom : textLen (m.insert k v) ≤ 511) :
    ∃ buf', bootcfgBufSet buf k.toCStr v.toCStr = (0, buf') ∧ Encodes buf' (m.insert k v) := by
  obtain ⟨bs, hbs, hset⟩ := h.set_eq k v
  refine ⟨bufOf bs, by rw [hset, if_neg (Nat.not_lt.mpr hroom)], bs, hbs, rfl, ?_⟩
  rwa [textLen_of_entries hbs] at hroom

lemma magic_prefix (h : Encodes buf m) : magic <+: buf.bytes := by
  obtain ⟨bs, -, rfl, hfits⟩ := h
  exact ⟨_, (bufOf_bytes hfits).symm⟩

lemma last_nul (h : Encodes buf m) : buf.bytes.getLast? = some 0 := by
  obtain ⟨bs, -, rfl, hfits⟩ := h
  have hlen : 0 < 493 - (text bs).length := by
    simp only [Fits, magicLen] at hfits
    omega
  rw [bufOf_bytes hfits, ← List.append_assoc, List.getLast?_append, List.getLast?_replicate,
    if_neg (Nat.ne_of_gt hlen)]
  rfl

lemma get_valueOf (h : Encodes buf m) {key : CStr} {max : Int} (hmax : 0 < max)
    (hlong : ∀ v ∈ valueOf m key, (v.length : Int) < max) :
    bootcfgBufGet buf key max = (valueOf m key).map fun v => v.bytes := by
  by_cases hk : keyValid key.bytes = true
  · have hvalue : valueOf m key = m.lookup ⟨key, hk⟩ := dif_pos hk
    rw [hvalue] at hlong ⊢
    rw [h.get ⟨key, hk⟩ hmax]
    refine Option.map_congr fun v hv => List.take_of_length_le ?_
    have hv := hlong v hv
    simp only [CStr.length] at hv
    omega
  · rw [bootcfgBufGet, if_pos (.inr (by simpa using hk)), valueOf, dif_neg hk]
    rfl

end Encodes

/-! ## Histories of a buffer -/

inductive BufCall
  | set (key value : CStr)
  | remove (key : CStr)

def bufStep (buf : Sector) : BufCall → Option Sector
  | .set key value => some (bootcfgBufSet buf key value).2
  | .remove key => some (bootcfgBufRemove buf key).2

/-- What the store returns, and what it holds afterwards, when it holds `m`. -/
structure ActsAs (buf : Sector) (m : Conf) : Prop where
  starts : magic <+: buf.bytes
  ends : buf.bytes.getLast? = some 0
  /-- With room for the value, reading a key delivers it. -/
  get : ∀ (key : CStr) (max : Int), 0 < max → (∀ v ∈ valueOf m key, (v.length : Int) < max) →
    bootcfgBufGet buf key max = (valueOf m key).map fun v => v.bytes
  /-- Setting either binds the key, or returns -1 and leaves all bytes as they are. -/
  set : ∀ key value : CStr, ∀ ret buf', bootcfgBufSet buf key value = (ret, buf') →
    (ret = 0 ∧ ∃ k v, k.toCStr = key ∧ v.toCStr = value ∧ Encodes buf' (m.insert k v)) ∨
      ret = -1 ∧ buf' = buf
  /-- A valid key and a value without `'\n'` are refused only for their length. -/
  set_full : ∀ (k : Key) (v : Value),
    (bootcfgBufSet buf k.toCStr v.toCStr).1 = -1 ↔ textLen (m.insert k v) > 511
  /-- Removing returns 1 for a key that was bound, 0 for another valid key and -1 otherwise. -/
  remove : ∀ key ret buf', bootcfgBufRemove buf key = (ret, buf') →
    (∃ k, k.toCStr = key ∧ ret = (if k ∈ m then 1 else 0) ∧ Encodes buf' (m.erase k)) ∨
      keyValid key.bytes = false ∧ ret = -1 ∧ buf' = buf

lemma Encodes.actsAs (h : Encodes buf m) : ActsAs buf m where
  starts := h.magic_prefix
  ends := h.last_nul
  get := fun key max hmax hlong => h.get_valueOf hmax hlong
  set := by
    intro key value ret buf' hset
    by_cases hk : keyValid key.bytes = true
    swap
    · rw [bootcfgBufSet, if_pos (by simpa using hk)] at hset
      cases hset
      exact .inr ⟨rfl, rfl⟩
    by_cases hv : newline ∈ value.bytes
    · rw [bootcfgBufSet, if_neg (by simp [hk]), if_pos hv] at hset
      cases hset
      exact .inr ⟨rfl, rfl⟩
    have hset : bootcfgBufSet buf (Key.toCStr ⟨key, hk⟩) (Value.toCStr ⟨value, hv⟩) = (ret, buf') :=
      hset
    obtain hroom | hfull := Nat.lt_or_ge 511 (textLen (m.insert ⟨key, hk⟩ ⟨value, hv⟩))
    · rw [h.set_full hroom] at hset
      cases hset
      exact .inr ⟨rfl, rfl⟩
    · obtain ⟨buf'', heq, henc⟩ := h.set_room hfull
      rw [heq] at hset
      cases hset
      exact .inl ⟨rfl, _, _, rfl, rfl, henc⟩
  set_full := by
    intro k v
    obtain hroom | hfull := Nat.lt_or_ge 511 (textLen (m.insert k v))
    · rw [h.set_full hroom]
      simp [hroom]
    · obtain ⟨buf', heq, -⟩ := h.set_room hfull
      rw [heq]
      simp [hfull]
  remove := by
    intro key ret buf' hremove
    by_cases hk : keyValid key.bytes = true
    · obtain ⟨hret, henc⟩ := h.remove ⟨key, hk⟩
      simp only [hremove] at hret henc
      exact .inl ⟨⟨key, hk⟩, rfl, hret, henc⟩
    · rw [bootcfgBufRemove, if_pos (by simpa using hk)] at hremove
      cases hremove
      exact .inr ⟨by simpa using hk, rfl, rfl⟩

lemma Encodes.step {c : BufCall} {buf' : Sector} (h : Encodes buf m)
    (hstep : bufStep buf c = some buf') : ∃ m', Encodes buf' m' := by
  cases c with
  | set key value =>
    cases hstep
    obtain ⟨-, k, v, -, -, henc⟩ | ⟨-, hsame⟩ := h.actsAs.set key value _
      (bootcfgBufSet buf key value).2 rfl
    · exact ⟨_, henc⟩
    · exact ⟨m, by rwa [hsame]⟩
  | remove key =>
    cases hstep
    obtain ⟨k, -, -, henc⟩ | ⟨-, -, hsame⟩ := h.actsAs.remove key _ (bootcfgBufRemove buf key).2 rfl
    · exact ⟨_, henc⟩
    · exact ⟨m, by rwa [hsame]⟩

lemma exists_encodes (h : Reach bufStep (· = bootcfgBufInit) buf) : ∃ m, Encodes buf m := by
  refine h.invariant (I := fun buf => ∃ m, Encodes buf m) ?_ ?_
  · rintro s rfl
    exact ⟨∅, encodes_init⟩
  · rintro s c t ⟨m, henc⟩ - hstep
    exact henc.step hstep

/-- **The store is a finite map.**  Every buffer that calls have made from an empty one holds a
map, and whatever map it holds, reading, setting and removing act on it as the map operations. -/
theorem storeIsMap (h : Reach bufStep (· = bootcfgBufInit) buf) :
    (∃ m, Encodes buf m) ∧ ∀ m, Encodes buf m → ActsAs buf m :=
  ⟨exists_encodes h, fun _ henc => henc.actsAs⟩

/-- Two keys are set, and the first one is removed again. -/
theorem storeIsMap_setRemove :
    let k : CStr := ⟨ascii "k", by decide⟩
    let foo : CStr := ⟨ascii "foo", by decide⟩
    let both := (bootcfgBufSet (bootcfgBufSet bootcfgBufInit k ⟨ascii "v", by decide⟩).2
      foo ⟨ascii "17", by decide⟩).2
    let buf := (bootcfgBufRemove both k).2
    bootcfgBufGet both k 16 = some (ascii "v") ∧ bootcfgBufGet buf k 16 = none ∧
      bootcfgBufGet buf foo 16 = some (ascii "17") ∧
      (∃ m, Encodes buf m) ∧ ∀ m, Encodes buf m → ActsAs buf m :=
  ⟨by decide +kernel, by decide +kernel, by decide +kernel, storeIsMap (.next (a := .remove _)
    (.next (a := .set _ _) (.next (a := .set _ _) (.start rfl) trivial rfl) trivial rfl)
    trivial rfl)⟩

end NullOS.Boot
