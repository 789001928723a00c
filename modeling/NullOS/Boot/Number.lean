import NullOS.Boot.ConfigMap

/-!
# Numbers in the boot configuration

`fmt_u32`, `parse_u32` and the functions that read and set a number.  A 32-bit number that is
written in decimal or in hexadecimal reads back as itself.
-/

namespace NullOS.Boot

open Lib

def digitChar (d : Nat) : UInt8 := .ofNat (if d < 10 then 48 + d else 97 + (d - 10))

/-- The loop of `fmt_u32` that fills `tmp` from its end.  There is room for ten digits. -/
def fmtDigits (base : Nat) : Nat → Nat → List UInt8 → List UInt8
  | 0, _, tmp => tmp
  | n + 1, value, tmp =>
      if value = 0 then tmp else fmtDigits base n (value / base) (digitChar (value % base) :: tmp)

def fmtU32 (value : UInt32) (hex : Bool) : List UInt8 :=
  (if hex then ascii "0x" else []) ++
    if value = 0 then ascii "0"
    else fmtDigits (if hex then 16 else 10) 10 value.toNat []

def digitValue (base : Nat) (c : UInt8) : Option Nat :=
  if 48 ≤ c ∧ c ≤ 57 then some (c.toNat - 48)
  else if base = 16 ∧ 97 ≤ c ∧ c ≤ 102 then some (c.toNat - 97 + 10)
  else if base = 16 ∧ 65 ≤ c ∧ c ≤ 70 then some (c.toNat - 65 + 10)
  else none

def parseDigits (base : Nat) : List UInt8 → Nat → Option Nat
  | [], r => some r
  | c :: rest, r =>
      match digitValue base c with
      | none => none
      | some d =>
          if r > (0xFFFFFFFF - d) / base then none else parseDigits base rest (r * base + d)

def hexForm (v : List UInt8) : Bool :=
  v.length > 2 && v[0]? == some 48 && (v[1]? == some 120 || v[1]? == some 88)

def parseU32 (v : List UInt8) (dflt : UInt32) : UInt32 :=
  let parsed := if hexForm v then parseDigits 16 (v.drop 2) 0 else parseDigits 10 v 0
  (parsed.map UInt32.ofNat).getD dflt

def bootcfgBufGetU32 (buf : Sector) (key : CStr) (dflt : UInt32) : UInt32 :=
  match bootcfgBufGet buf key 16 with
  | none => dflt
  | some [] => dflt
  | some v => parseU32 v dflt

/-! ## The digits read back -/

lemma digitChar_ne {d : Nat} (h : d < 16) :
    digitChar d ≠ 0 ∧ digitChar d ≠ newline ∧ digitChar d ≠ 120 ∧ digitChar d ≠ 88 := by
  revert d
  decide

lemma digitValue_digitChar {d : Nat} (h : d < 10) : digitValue 10 (digitChar d) = some d := by
  revert d
  decide

lemma digitValue_hexChar {d : Nat} (h : d < 16) : digitValue 16 (digitChar d) = some d := by
  revert d
  decide

lemma parseDigits_fmtDigits {base : Nat} (hbase : 0 < base)
    (hdigit : ∀ d < base, digitValue base (digitChar d) = some d) {n value : Nat}
    {tmp : List UInt8} (hn : value < base ^ n) (hvalue : value ≤ 0xFFFFFFFF) :
    parseDigits base (fmtDigits base n value tmp) 0 = parseDigits base tmp value := by
  induction n generalizing value tmp with
  | zero =>
    obtain rfl : value = 0 := by simpa using hn
    rfl
  | succ n ih =>
    rw [fmtDigits]
    split
    case isTrue h =>
      subst h
      rfl
    case isFalse =>
      have hlt : value / base < base ^ n := by
        rw [Nat.pow_succ] at hn
        exact Nat.div_lt_of_lt_mul (Nat.mul_comm _ _ ▸ hn)
      have hmod : value % base < base := Nat.mod_lt _ hbase
      have hsplit : value / base * base + value % base = value := Nat.div_add_mod' _ _
      have hfits : ¬value / base > (0xFFFFFFFF - value % base) / base := by
        rw [gt_iff_lt, Nat.not_lt, Nat.le_div_iff_mul_le hbase]
        omega
      rw [ih hlt ((Nat.div_le_self _ _).trans hvalue), parseDigits, hdigit _ hmod]
      simp only [hfits, if_false, hsplit]

lemma mem_fmtDigits {base : Nat} (hbase : 0 < base) {n value : Nat} {tmp : List UInt8} {c : UInt8}
    (h : c ∈ fmtDigits base n value tmp) : c ∈ tmp ∨ ∃ d < base, c = digitChar d := by
  induction n generalizing value tmp with
  | zero => exact .inl h
  | succ n ih =>
    rw [fmtDigits] at h
    split at h
    · exact .inl h
    · obtain h | h := ih h
      · obtain rfl | h := List.mem_cons.mp h
        · exact .inr ⟨_, Nat.mod_lt _ hbase, rfl⟩
        · exact .inl h
      · exact .inr h

lemma fmtDigits_length {base n value : Nat} {tmp : List UInt8} :
    (fmtDigits base n value tmp).length ≤ n + tmp.length := by
  induction n generalizing value tmp with
  | zero => exact Nat.le_add_left _ _
  | succ n ih =>
    rw [fmtDigits]
    split
    · exact Nat.le_add_left _ _
    · refine ih.trans ?_
      rw [List.length_cons]
      omega

lemma fmtDigits_ne_nil {base n value : Nat} {tmp : List UInt8} (htmp : tmp ≠ []) :
    fmtDigits base n value tmp ≠ [] := by
  induction n generalizing value tmp with
  | zero => exact htmp
  | succ n ih =>
    rw [fmtDigits]
    split
    · exact htmp
    · exact ih (List.cons_ne_nil _ _)

def digitsOf (value : UInt32) (base : Nat) : List UInt8 :=
  if value = 0 then ascii "0" else fmtDigits base 10 value.toNat []

lemma fmtU32_eq (value : UInt32) (hex : Bool) :
    fmtU32 value hex =
      (if hex then ascii "0x" else []) ++ digitsOf value (if hex then 16 else 10) := rfl

lemma mem_digitsOf {value : UInt32} {base : Nat} {c : UInt8} (hbase : 0 < base)
    (h : c ∈ digitsOf value base) : ∃ d < base, c = digitChar d := by
  unfold digitsOf at h
  split at h
  · exact ⟨0, hbase, List.mem_singleton.mp h⟩
  · exact (mem_fmtDigits hbase h).resolve_left List.not_mem_nil

lemma digitsOf_ne_nil (value : UInt32) (base : Nat) : digitsOf value base ≠ [] := by
  unfold digitsOf
  split
  · exact List.cons_ne_nil _ _
  · rename_i h
    have hne : value.toNat ≠ 0 := fun h0 => h (UInt32.toNat_inj.mp h0)
    rw [fmtDigits, if_neg hne]
    exact fmtDigits_ne_nil (List.cons_ne_nil _ _)

lemma digitsOf_length (value : UInt32) (base : Nat) : (digitsOf value base).length ≤ 10 := by
  unfold digitsOf
  split
  · decide
  · exact fmtDigits_length

lemma parseDigits_digitsOf {value : UInt32} {base : Nat} (hbase : 10 ≤ base)
    (hdigit : ∀ d < base, digitValue base (digitChar d) = some d) :
    parseDigits base (digitsOf value base) 0 = some value.toNat := by
  have hlt := value.toNat_lt
  unfold digitsOf
  split
  case isTrue h =>
    subst h
    have h0 : digitValue base 48 = some 0 := hdigit 0 (by omega)
    show parseDigits base [48] 0 = some 0
    simp only [parseDigits, h0, Nat.not_lt_zero, gt_iff_lt, if_false, Nat.zero_mul]
  case isFalse =>
    have hpow : value.toNat < base ^ 10 := by
      have hle : 10 ^ 10 ≤ base ^ 10 := Nat.pow_le_pow_left hbase 10
      omega
    exact parseDigits_fmtDigits (by omega) hdigit hpow (by omega)

lemma hexForm_decimal (value : UInt32) : hexForm (digitsOf value 10) = false := by
  refine Bool.eq_false_iff.mpr fun h => ?_
  simp only [hexForm, Bool.and_eq_true, Bool.or_eq_true, beq_iff_eq, decide_eq_true_eq] at h
  obtain ⟨-, h1⟩ := h
  obtain ⟨c, hc, hx⟩ : ∃ c ∈ digitsOf value 10, c = 120 ∨ c = 88 := by
    obtain h1 | h1 := h1
    · exact ⟨_, List.mem_of_getElem? h1, .inl rfl⟩
    · exact ⟨_, List.mem_of_getElem? h1, .inr rfl⟩
  obtain ⟨d, hd, rfl⟩ := mem_digitsOf (by decide) hc
  obtain ⟨-, -, h120, h88⟩ := digitChar_ne (d := d) (by omega)
  exact hx.elim h120 h88

/-- **A number reads back as itself**, in both forms. -/
lemma parseU32_fmtU32 (value dflt : UInt32) (hex : Bool) :
    parseU32 (fmtU32 value hex) dflt = value := by
  cases hex with
  | false =>
    have hform : hexForm (fmtU32 value false) = false := hexForm_decimal value
    simp only [parseU32, hform]
    rw [fmtU32_eq]
    show ((parseDigits 10 (digitsOf value 10) 0).map UInt32.ofNat).getD dflt = value
    rw [parseDigits_digitsOf (by decide) fun d hd => digitValue_digitChar hd]
    exact UInt32.ofNat_toNat
  | true =>
    have hpos : 0 < (digitsOf value 16).length := List.length_pos_iff.mpr (digitsOf_ne_nil value 16)
    have hform : hexForm (fmtU32 value true) = true := by
      show hexForm (48 :: 120 :: digitsOf value 16) = true
      simp [hexForm, hpos]
    simp only [parseU32, hform]
    show ((parseDigits 16 (digitsOf value 16) 0).map UInt32.ofNat).getD dflt = value
    rw [parseDigits_digitsOf (by decide) fun d hd => digitValue_hexChar hd]
    exact UInt32.ofNat_toNat

/-! ## Numbers as values -/

lemma mem_fmtU32 {value : UInt32} {hex : Bool} {c : UInt8} (h : c ∈ fmtU32 value hex) :
    c ≠ 0 ∧ c ≠ newline := by
  have hprefix : ∀ hex : Bool, ∀ c ∈ (if hex then ascii "0x" else []), c ≠ 0 ∧ c ≠ newline := by
    intro hex c hc
    cases hex with
    | false => exact absurd hc List.not_mem_nil
    | true =>
      have hc : c ∈ [0x30, 0x78] := hc
      rcases List.mem_pair.mp hc with rfl | rfl
      · decide
      · decide
  rw [fmtU32_eq] at h
  obtain h | h := List.mem_append.mp h
  · exact hprefix hex c h
  · obtain ⟨d, hd, rfl⟩ := mem_digitsOf (by cases hex <;> decide) h
    have hd' : d < 16 := by
      cases hex <;> simp at hd <;> omega
    exact ⟨(digitChar_ne hd').1, (digitChar_ne hd').2.1⟩

def number (value : UInt32) (hex : Bool) : Value where
  bytes := fmtU32 value hex
  noNul := fun h => (mem_fmtU32 h).1 rfl
  noNewline := fun h => (mem_fmtU32 h).2 rfl

lemma number_length (value : UInt32) (hex : Bool) : (number value hex).bytes.length ≤ 12 := by
  have h := digitsOf_length value (if hex then 16 else 10)
  show (fmtU32 value hex).length ≤ 12
  rw [fmtU32_eq, List.length_append]
  cases hex
  · exact (Nat.zero_add _).le.trans (h.trans (by decide))
  · exact Nat.add_le_add (Nat.le_refl 2) h

lemma number_ne_nil (value : UInt32) (hex : Bool) : (number value hex).bytes ≠ [] := by
  intro h
  exact digitsOf_ne_nil _ _ (List.append_eq_nil_iff.mp h).2

def bootcfgBufSetU32 (buf : Sector) (key : CStr) (value : UInt32) : Int × Sector :=
  bootcfgBufSet buf key (number value false).toCStr

def bootcfgBufSetHex32 (buf : Sector) (key : CStr) (value : UInt32) : Int × Sector :=
  bootcfgBufSet buf key (number value true).toCStr

variable {buf : Sector} {m : Conf} {k : Key}

def numberOf (v : Option Value) (dflt : UInt32) : UInt32 :=
  match v.map fun v => v.bytes.take 15 with
  | none => dflt
  | some [] => dflt
  | some w => parseU32 w dflt

lemma Encodes.getU32 (h : Encodes buf m) (k : Key) (dflt : UInt32) :
    bootcfgBufGetU32 buf k.toCStr dflt = numberOf (m.lookup k) dflt := by
  rw [bootcfgBufGetU32, h.get k (by decide)]
  rfl

@[simp] lemma numberOf_number (value dflt : UInt32) (hex : Bool) :
    numberOf (some (number value hex)) dflt = value := by
  have htake : (number value hex).bytes.take 15 = (number value hex).bytes :=
    List.take_of_length_le ((number_length value hex).trans (by decide))
  rw [numberOf, Option.map_some, htake]
  split
  case h_1 heq => simp at heq
  case h_2 heq => exact absurd (Option.some.inj heq) (number_ne_nil value hex)
  case h_3 v hne heq =>
    obtain rfl := Option.some.inj heq
    exact parseU32_fmtU32 value dflt hex

end NullOS.Boot
