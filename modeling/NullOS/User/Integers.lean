import NullOS.User.Format
import Mathlib.Data.Nat.Digits.Lemmas

/-!
# The integer conversions

What C99 asks of `%d`, `%i`, `%u`, `%x` and `%X`, with flags, width, precision and length modifier,
and that `format` does it.
-/

namespace NullOS.User

open Lib

/-! ## Conversions -/

inductive Flag
  | minus
  | zero
  | plus
  | space
deriving DecidableEq

def Flag.char : Flag → UInt8
  | .minus => '-'.toUInt8
  | .zero => '0'.toUInt8
  | .plus => '+'.toUInt8
  | .space => ' '.toUInt8

inductive Amount
  | digits (ds : List (Fin 10))
  | star
deriving DecidableEq

namespace Amount

def decimalFrom (n : Nat) (ds : List (Fin 10)) : Nat := ds.foldl (fun n d => n * 10 + d.val) n

def decimal (ds : List (Fin 10)) : Nat := decimalFrom 0 ds

def digitText (ds : List (Fin 10)) : List UInt8 := ds.map fun d => .ofNat ('0'.toNat + d.val)

def text : Amount → List UInt8
  | digits ds => digitText ds
  | star => ['*'.toUInt8]

def value (a : Amount) (ap : VaList) : Int :=
  match a with
  | digits ds => decimal ds
  | star => ap.int

def after (a : Amount) (ap : VaList) : VaList :=
  match a with
  | digits _ => ap
  | star => ap.next

end Amount

def precText (prec : Option Amount) : List UInt8 :=
  match prec with
  | none => []
  | some p => '.'.toUInt8 :: p.text

def precAfter (prec : Option Amount) (ap : VaList) : VaList :=
  match prec with
  | none => ap
  | some p => p.after ap

inductive Modifier
  | none
  | h
  | hh
  | l
deriving DecidableEq

namespace Modifier

def text : Modifier → List UInt8
  | none => []
  | h => ascii "h"
  | hh => ascii "hh"
  | l => ascii "l"

def bits : Modifier → Nat
  | none => 32
  | h => 16
  | hh => 8
  | l => 32

end Modifier

inductive Kind
  | d
  | i
  | u
  | x
  | X
deriving DecidableEq

namespace Kind

def char : Kind → UInt8
  | d => 'd'.toUInt8
  | i => 'i'.toUInt8
  | u => 'u'.toUInt8
  | x => 'x'.toUInt8
  | X => 'X'.toUInt8

def signed : Kind → Bool
  | d => true
  | i => true
  | u => false
  | x => false
  | X => false

def base : Kind → Nat
  | d => 10
  | i => 10
  | u => 10
  | x => 16
  | X => 16

end Kind

/-- An integer conversion.  No width is a width without digits; a `'0'` in front of a width is a
flag. -/
structure Conversion where
  flags : List Flag
  width : Amount
  prec : Option Amount
  modifier : Modifier
  kind : Kind
  width_ok : ∀ ds, width = .digits ds → ds.head? ≠ some 0

/-! ## What C99 asks -/

def c99Digit (upper : Bool) (d : Nat) : UInt8 :=
  if d < 10 then .ofNat ('0'.toNat + d)
  else .ofNat ((if upper then 'A'.toNat else 'a'.toNat) + (d - 10))

def shortest (base : Nat) (upper : Bool) (n : Nat) : List UInt8 :=
  if n = 0 then [c99Digit upper 0] else (Nat.digits base n).reverse.map (c99Digit upper)

def c99Field (left zero : Bool) (width : Nat) (prec : Option Nat) (sign digits : List UInt8) :
    List UInt8 :=
  let body := List.replicate (prec.getD 0 - digits.length) '0'.toUInt8 ++ digits
  let fill := width - (sign ++ body).length
  if left then sign ++ body ++ List.replicate fill ' '.toUInt8
  else if zero && prec.isNone then sign ++ List.replicate fill '0'.toUInt8 ++ body
  else List.replicate fill ' '.toUInt8 ++ sign ++ body

namespace Conversion

variable (c : Conversion) (ap : VaList)

def text : List UInt8 :=
  '%'.toUInt8 :: (c.flags.map Flag.char ++ (c.width.text ++ (precText c.prec ++
    (c.modifier.text ++ [c.kind.char]))))

def precArgs : VaList := c.width.after ap

def precision : Option Nat :=
  match c.prec with
  | none => none
  | some p => if p.value (c.precArgs ap) < 0 then none else some (p.value (c.precArgs ap)).toNat

def valueArgs : VaList := precAfter c.prec (c.precArgs ap)

def after : VaList := (c.valueArgs ap).next

/-- The argument, converted to the type that the modifier says. -/
def value : Int :=
  if c.kind.signed then Int.bmod (c.valueArgs ap).arg.toNat (2 ^ c.modifier.bits)
  else (c.valueArgs ap).arg.toNat % 2 ^ c.modifier.bits

def sign : List UInt8 :=
  if c.kind.signed = false then []
  else if c.value ap < 0 then ['-'.toUInt8]
  else if .plus ∈ c.flags then ['+'.toUInt8]
  else if .space ∈ c.flags then [' '.toUInt8]
  else []

def digits : List UInt8 :=
  if c.value ap = 0 ∧ c.precision ap = some 0 then []
  else shortest c.kind.base (c.kind = .X) (c.value ap).natAbs

/-- What C99 asks a conversion to print.  A negative width is the flag `'-'` and a width. -/
def c99 : List UInt8 :=
  c99Field (.minus ∈ c.flags || c.width.value ap < 0) (.zero ∈ c.flags)
    (c.width.value ap).natAbs (c.precision ap) (c.sign ap) (c.digits ap)

/-- The width and the precision are below 100000. -/
structure InRange : Prop where
  width : (c.width.value ap).natAbs < 100000
  prec : ∀ p ∈ c.prec, p.value (c.precArgs ap) < 100000

end Conversion

/-! ## Writing a number -/

section Number

variable {σ : Type} {put : σ → UInt8 → σ} {s : σ}

lemma digitOf_eq {upper : Bool} {d : Nat} (h : d < 16) : digitOf upper d = c99Digit upper d := by
  revert d upper
  decide +kernel

lemma fillDigits_eq {base : Nat} (hbase : 1 < base) (hle : base ≤ 16) {upper : Bool} {room v : Nat}
    (hv : v < base ^ room) :
    fillDigits base upper room v = (Nat.digits base v).map (c99Digit upper) := by
  induction room generalizing v with
  | zero =>
    obtain rfl : v = 0 := by simpa using hv
    rw [Nat.digits_zero]
    rfl
  | succ room ih =>
    rw [fillDigits]
    split
    case isTrue hzero =>
      rw [hzero, Nat.digits_zero]
      rfl
    case isFalse hne =>
      have hlt : v / base < base ^ room := by
        rw [Nat.pow_succ] at hv
        exact Nat.div_lt_of_lt_mul (Nat.mul_comm _ _ ▸ hv)
      have hmod : v % base < 16 := (Nat.mod_lt _ (by omega)).trans_le hle
      rw [ih hlt, digitOf_eq hmod, Nat.digits_def' hbase (Nat.pos_of_ne_zero hne), List.map_cons]

lemma digits_eq {base : Nat} (hbase : 10 ≤ base) (hle : base ≤ 16) {upper : Bool} {v : UInt32}
    {prec : Int} :
    (if v = 0 then (if prec ≠ 0 then ascii "0" else []) else fillDigits base upper 12 v.toNat) =
      (if v.toNat = 0 ∧ prec = 0 then [] else shortest base upper v.toNat).reverse := by
  have hzero : v = 0 ↔ v.toNat = 0 := ⟨fun h => by rw [h]; rfl, fun h => UInt32.toNat_inj.mp h⟩
  by_cases hv : v.toNat = 0
  · rw [if_pos (hzero.mpr hv)]
    by_cases hp : prec = 0
    · rw [if_neg (not_not.mpr hp), if_pos ⟨hv, hp⟩]
      rfl
    · rw [if_pos hp, if_neg (fun h => hp h.2), shortest, if_pos hv]
      rfl
  · have hlt : v.toNat < base ^ 12 := by
      calc v.toNat < 2 ^ 32 := v.toNat_lt
        _ ≤ 10 ^ 12 := by decide
        _ ≤ base ^ 12 := Nat.pow_le_pow_left hbase 12
    rw [if_neg (mt hzero.mp hv), if_neg (fun h => hv h.1), shortest, if_neg hv,
      fillDigits_eq (by omega) hle hlt, List.map_reverse, List.reverse_reverse]

lemma foldl_pad (c : UInt8) (n : Int) : pad put s c n = (List.replicate n.toNat c).foldl put s :=
    rfl

lemma length_shortest {base : Nat} (hbase : 10 ≤ base) {upper : Bool} {v : Nat} (hv : v < 2 ^ 32) :
    (shortest base upper v).length ≤ 10 := by
  rw [shortest]
  split
  · exact Nat.le_of_ble_eq_true rfl
  · rw [List.length_map, List.length_reverse, Nat.digits_length_le_iff (by omega)]
    calc v < 2 ^ 32 := hv
      _ ≤ 10 ^ 10 := by decide
      _ ≤ base ^ 10 := Nat.pow_le_pow_left hbase 10

def precOf (prec : Int) : Option Nat := if prec < 0 then none else some prec.toNat

def signOf (sign : UInt8) : List UInt8 := if sign = 0 then [] else [sign]

lemma foldl_signOf (sign : UInt8) :
    (if sign ≠ 0 then put s sign else s) = (signOf sign).foldl put s := by
  by_cases h : sign = 0
  · rw [if_neg (not_not.mpr h), signOf, if_pos h]
    rfl
  · rw [if_pos h, signOf, if_neg h]
    rfl

lemma int32_of_range {n : Int} (hlo : -2 ^ 31 ≤ n) (hhi : n < 2 ^ 31) : int32 n = n := by
  rw [int32, Int.bmod_eq_of_le] <;> omega

lemma precOf_getD (prec : Int) : (precOf prec).getD 0 = prec.toNat := by
  rw [precOf]
  split
  · rw [Option.getD_none]
    omega
  · rfl

lemma precOf_isNone (prec : Int) : (precOf prec).isNone = decide (prec < 0) := by
  rw [precOf]
  split <;> simp_all

lemma length_signOf (sign : UInt8) :
    ((signOf sign).length : Int) = (if sign ≠ 0 then 1 else 0) ∧ (signOf sign).length ≤ 1 := by
  by_cases h : sign = 0
  · rw [if_neg (not_not.mpr h), signOf, if_pos h]
    exact ⟨rfl, Nat.zero_le 1⟩
  · rw [if_pos h, signOf, if_neg h]
    exact ⟨rfl, Nat.le_refl 1⟩

lemma fill_eq {width total : Int} {n : Nat} (hn : n < 2 ^ 30) (hwidth : width < 2 ^ 30)
    (htotal : total = n) :
    (if width > int32 total then int32 (width - int32 total) else 0) =
    ((width.toNat - n : Nat) : Int) := by
  have heq : int32 total = n := by
    rw [htotal, int32_of_range (by omega) (by omega)]
  rw [heq]
  split
  · rw [int32_of_range (by omega) (by omega)]
    omega
  · omega

lemma emitNumber_field {sp : Spec} {v : UInt32} {base : Nat} {upper : Bool} {sign : UInt8}
    (hbase : 10 ≤ base) (hle : base ≤ 16) (hwidth : sp.width < 100000) (hprec : sp.prec < 100000) :
    emitNumber put s sp v base upper sign [] =
      (c99Field sp.left sp.zero sp.width.toNat (precOf sp.prec) (signOf sign)
        (if v.toNat = 0 ∧ sp.prec = 0 then [] else shortest base upper v.toNat)).foldl put s := by
  rw [emitNumber, digits_eq hbase hle]
  have hlen : (if v.toNat = 0 ∧ sp.prec = 0 then [] else shortest base upper v.toNat).length ≤
    10 := by
    split
    · exact Nat.zero_le _
    · exact length_shortest hbase v.toNat_lt
  generalize (if v.toNat = 0 ∧ sp.prec = 0 then [] else shortest base upper v.toNat) =
    digits at hlen ⊢
  obtain ⟨hsign, hsignle⟩ := length_signOf sign
  have hzeros : (if sp.prec > (digits.length : Int) then sp.prec - digits.length else 0) =
      ((sp.prec.toNat - digits.length : Nat) : Int) := by
    split <;> omega
  rw [List.length_reverse, List.reverse_reverse, hzeros, ← hsign, c99Field, precOf_getD,
    precOf_isNone]
  generalize hz : sp.prec.toNat - digits.length = z
  have hbody : (signOf sign ++ (List.replicate z '0'.toUInt8 ++ digits)).length =
      (signOf sign).length + (z + digits.length) := by simp
  rw [fill_eq (n := (signOf sign ++ (List.replicate z '0'.toUInt8 ++ digits)).length) (by omega)
    (by omega) (by rw [hbody, List.length_nil]; omega)]
  generalize sp.width.toNat - (signOf sign ++ (List.replicate z '0'.toUInt8 ++ digits)).length =
    fill
  simp only [foldl_pad, Int.toNat_natCast, foldl_signOf, List.foldl_nil]
  cases sp.left with
  | true => simp [List.foldl_append]
  | false =>
    cases hzero : sp.zero && decide (sp.prec < 0) with
    | true => simp [hzero, List.foldl_append]
    | false => simp [hzero, List.foldl_append]

end Number

/-! ## Scanning a conversion -/

section Scan

variable {rest : List UInt8} {sp : Spec} {ap : VaList}

def notFlag (c : UInt8) : Bool :=
  c != '-'.toUInt8 && c != '0'.toUInt8 && c != '+'.toUInt8 && c != ' '.toUInt8

lemma scanFlags_flags (hrest : ∀ c ∈ rest.head?, notFlag c = true) (flags : List Flag) :
    scanFlags sp (flags.map Flag.char ++ rest) =
      ({ sp with
          left := sp.left || .minus ∈ flags
          zero := sp.zero || .zero ∈ flags
          plus := sp.plus || .plus ∈ flags
          space := sp.space || .space ∈ flags }, rest) := by
  induction flags generalizing sp with
  | nil =>
    cases rest with
    | nil => simp [scanFlags]
    | cons c rest =>
      have hc := hrest c rfl
      simp only [notFlag, Bool.and_eq_true, bne_iff_ne] at hc
      simp [scanFlags, hc]
  | cons f flags ih =>
    rw [List.map_cons, List.cons_append, scanFlags]
    cases f with
    | minus =>
      rw [if_pos (by decide), ih]
      simp
    | zero =>
      rw [if_neg (by decide), if_pos (by decide), ih]
      simp
    | plus =>
      rw [if_neg (by decide), if_neg (by decide), if_pos (by decide), ih]
      simp
    | space =>
      rw [if_neg (by decide), if_neg (by decide), if_neg (by decide), if_pos (by decide), ih]
      simp

lemma digit_char (d : Fin 10) :
    isDigit (.ofNat ('0'.toNat + d.val)) = true ∧
      ((UInt8.ofNat ('0'.toNat + d.val)).toNat : Int) - '0'.toNat = d.val := by
  revert d
  decide +kernel

lemma le_decimalFrom (ds : List (Fin 10)) (n : Nat) : n ≤ Amount.decimalFrom n ds := by
  induction ds generalizing n with
  | nil => exact Nat.le_refl n
  | cons d ds ih => exact (show n ≤ n * 10 + d.val by omega).trans (ih _)

lemma precDigits_digits (hrest : ∀ c ∈ rest.head?, isDigit c = false) (ds : List (Fin 10)) {n : Nat}
    (h : Amount.decimalFrom n ds < 100000) :
    precDigits n (Amount.digitText ds ++ rest) = (Int.ofNat (Amount.decimalFrom n ds), rest) := by
  induction ds generalizing n with
  | nil =>
    cases rest with
    | nil => rfl
    | cons c rest =>
      show precDigits n (c :: rest) = _
      rw [precDigits, if_neg (by rw [hrest c rfl]; decide)]
      rfl
  | cons d ds ih =>
    obtain ⟨hdigit, hvalue⟩ := digit_char d
    have hn : n < 100000 := (le_decimalFrom (d :: ds) n).trans_lt h
    have hadd : addDigit n (.ofNat ('0'.toNat + d.val)) = ((n * 10 + d.val : Nat) : Int) := by
      rw [addDigit, if_pos (by omega), hvalue]
      push_cast
      rfl
    show precDigits n (.ofNat ('0'.toNat + d.val) :: (Amount.digitText ds ++ rest)) = _
    rw [precDigits, if_pos hdigit, hadd, ih h]
    rfl

lemma widthDigits_eq {n : Int} (hn : 0 ≤ n) (fmt : List UInt8) :
    widthDigits n fmt = precDigits n fmt := by
  induction fmt generalizing n with
  | nil => rfl
  | cons c fmt ih =>
    rw [widthDigits, precDigits, if_neg (Int.not_lt.mpr hn)]
    split
    · next hdigit =>
      refine ih ?_
      simp only [isDigit, Bool.and_eq_true, decide_eq_true_eq] at hdigit
      have hle : '0'.toNat ≤ c.toNat := UInt8.le_iff_toNat_le.mp hdigit.1
      rw [addDigit]
      split <;> omega
    · rfl

lemma widthDigits_digits (hrest : ∀ c ∈ rest.head?, isDigit c = false) (ds : List (Fin 10))
    (h : Amount.decimal ds < 100000) :
    widthDigits (-1) (Amount.digitText ds ++ rest) =
      (if ds = [] then -1 else (Amount.decimal ds : Int), rest) := by
  cases ds with
  | nil =>
    cases rest with
    | nil => rfl
    | cons c rest =>
      show widthDigits (-1) (c :: rest) = _
      rw [widthDigits, if_neg (by rw [hrest c rfl]; decide)]
      rfl
  | cons d ds =>
    have hprec := precDigits_digits hrest (d :: ds) h
    have hfirst : widthDigits (-1) (Amount.digitText (d :: ds) ++ rest) =
        widthDigits 0 (Amount.digitText (d :: ds) ++ rest) := by
      show widthDigits (-1) (_ :: (Amount.digitText ds ++ rest)) = widthDigits 0 (_ :: _)
      rw [widthDigits, widthDigits, if_pos (digit_char d).1, if_pos (digit_char d).1]
      rfl
    rw [hfirst, widthDigits_eq (Int.le_refl 0), if_neg (List.cons_ne_nil d ds)]
    exact hprec

/-- A width without digits stays -1, and the sign of another one is in the flag. -/
def widthOf (a : Amount) (ap : VaList) : Int :=
  if a = .digits [] then -1 else (a.value ap).natAbs

lemma head?_digitText {ds : List (Fin 10)} {c : UInt8}
    (hc : c ∈ (Amount.digitText ds ++ rest).head?) :
    (∃ d, ds.head? = some d ∧ c = .ofNat ('0'.toNat + d.val)) ∨ c ∈ rest.head? := by
  cases ds with
  | nil => exact .inr hc
  | cons d ds => exact .inl ⟨d, rfl, (Option.some.inj hc).symm⟩

lemma digit_ne_star (d : Fin 10) : UInt8.ofNat ('0'.toNat + d.val) ≠ '*'.toUInt8 := by
  revert d
  decide +kernel

lemma head?_digitText_ne_star {ds : List (Fin 10)} (hrest : ∀ c ∈ rest.head?, c ≠ '*'.toUInt8) :
    ¬(Amount.digitText ds ++ rest).head? = some '*'.toUInt8 := by
  intro h
  rcases head?_digitText h with ⟨d, -, hd⟩ | hc
  · exact digit_ne_star d hd.symm
  · exact hrest _ hc rfl

lemma scanWidth_star (h : ap.int.natAbs < 100000) :
    scanWidth sp ('*'.toUInt8 :: rest) ap =
      ({ sp with left := sp.left || ap.int < 0, width := ap.int.natAbs }, rest, ap.next) := by
  have hhead : ('*'.toUInt8 :: rest).head? = some '*'.toUInt8 := rfl
  rw [scanWidth, if_pos hhead]
  generalize ap.int = w at h
  by_cases hneg : w < 0
  · have hwidth : int32 (-w) = (w.natAbs : Int) := by
      rw [int32_of_range (by omega) (by omega)]
      omega
    simp only [hneg, if_true, hwidth, decide_true, Bool.or_true]
    rfl
  · have hwidth : (w.natAbs : Int) = w := by omega
    simp only [hneg, if_false, hwidth, decide_false, Bool.or_false]
    rfl

lemma scanWidth_digits (hdigit : ∀ c ∈ rest.head?, isDigit c = false)
    (hstar : ∀ c ∈ rest.head?, c ≠ '*'.toUInt8) (hsp : sp.width = -1) {ds : List (Fin 10)}
    (h : Amount.decimal ds < 100000) :
    scanWidth sp (Amount.digitText ds ++ rest) ap =
      ({ sp with width := if ds = [] then -1 else (Amount.decimal ds : Int) }, rest, ap) := by
  have hwidth := widthDigits_digits hdigit ds h
  rw [scanWidth, if_neg (head?_digitText_ne_star hstar), hsp, hwidth]

lemma scanWidth_width {a : Amount} (hdigit : ∀ c ∈ rest.head?, isDigit c = false)
    (hstar : ∀ c ∈ rest.head?, c ≠ '*'.toUInt8) (hsp : sp.width = -1)
    (h : (a.value ap).natAbs < 100000) :
    scanWidth sp (a.text ++ rest) ap =
      ({ sp with left := sp.left || a.value ap < 0, width := widthOf a ap }, rest, a.after ap) := by
  cases a with
  | star => exact scanWidth_star h
  | digits ds =>
    rw [Amount.value, Int.natAbs_natCast] at h
    have hsign : ¬(Amount.digits ds).value ap < 0 := Int.not_lt.mpr (Int.natCast_nonneg _)
    simp only [hsign, decide_false, Bool.or_false, widthOf, Amount.digits.injEq]
    exact scanWidth_digits hdigit hstar hsp h

def precSpec (prec : Option Amount) (ap : VaList) : Int :=
  match prec with
  | none => -1
  | some p => if p.value ap < 0 then -1 else p.value ap

lemma scanPrec_star :
    scanPrec sp ('.'.toUInt8 :: '*'.toUInt8 :: rest) ap =
      ({ sp with prec := if ap.int < 0 then -1 else ap.int }, rest, ap.next) := rfl

lemma scanPrec_digits (hdigit : ∀ c ∈ rest.head?, isDigit c = false)
    (hstar : ∀ c ∈ rest.head?, c ≠ '*'.toUInt8) {ds : List (Fin 10)}
    (h : Amount.decimal ds < 100000) :
    scanPrec sp ('.'.toUInt8 :: (Amount.digitText ds ++ rest)) ap =
      ({ sp with prec := Amount.decimal ds }, rest, ap) := by
  have hhead : ('.'.toUInt8 :: (Amount.digitText ds ++ rest)).head? = some '.'.toUInt8 := rfl
  have hprec : precDigits 0 (Amount.digitText ds ++ rest) = (Int.ofNat (Amount.decimal ds), rest) :=
    precDigits_digits hdigit ds h
  rw [scanPrec, if_pos hhead, List.tail_cons]
  dsimp only
  rw [if_neg (head?_digitText_ne_star hstar), hprec]
  rfl

lemma scanPrec_prec {prec : Option Amount} (hdigit : ∀ c ∈ rest.head?, isDigit c = false)
    (hstar : ∀ c ∈ rest.head?, c ≠ '*'.toUInt8) (hdot : ∀ c ∈ rest.head?, c ≠ '.'.toUInt8)
    (hsp : sp.prec = -1) (h : ∀ p ∈ prec, p.value ap < 100000) :
    scanPrec sp (precText prec ++ rest) ap =
      ({ sp with prec := precSpec prec ap }, rest, precAfter prec ap) := by
  cases prec with
  | none =>
    have hhead : ¬rest.head? = some '.'.toUInt8 := fun heq => hdot _ heq rfl
    show scanPrec sp rest ap = _
    rw [scanPrec, if_neg hhead, precSpec, ← hsp]
    rfl
  | some p =>
    cases p with
    | star => exact scanPrec_star
    | digits ds =>
      have hvalue := h _ rfl
      have hsign : ¬(Amount.digits ds).value ap < 0 := Int.not_lt.mpr (Int.natCast_nonneg _)
      simp only [precSpec, hsign, if_false]
      rw [Amount.value] at hvalue
      exact scanPrec_digits hdigit hstar (by omega)

def Modifier.length : Modifier → Length
  | .none => .none
  | .h => .h
  | .hh => .hh
  | .l => .none

lemma scanLength_modifier (m : Modifier) (k : Kind) :
    scanLength (m.text ++ k.char :: rest) = (m.length, k.char :: rest) := by
  cases m <;> cases k <;> rfl

def stops (c : UInt8) : Bool :=
  notFlag c && !isDigit c && c != '*'.toUInt8 && c != '.'.toUInt8

lemma stops_iff {c : UInt8} : stops c = true ↔
    notFlag c = true ∧ isDigit c = false ∧ c ≠ '*'.toUInt8 ∧ c ≠ '.'.toUInt8 := by
  simp [stops, and_assoc]

lemma stops_modifier {m : Modifier} {k : Kind} {c : UInt8}
    (hc : c ∈ (m.text ++ k.char :: rest).head?) : stops c = true := by
  cases m <;> cases k <;> cases hc <;> decide

lemma head_prec {prec : Option Amount} {m : Modifier} {k : Kind} {c : UInt8}
    (hc : c ∈ (precText prec ++ (m.text ++ k.char :: rest)).head?) :
    c = '.'.toUInt8 ∨ stops c = true := by
  cases prec with
  | none => exact .inr (stops_modifier hc)
  | some p => exact .inl (Option.some.inj hc).symm

lemma notFlag_digit {d : Fin 10} (h : d ≠ 0) : notFlag (.ofNat ('0'.toNat + d.val)) = true := by
  revert d
  decide +kernel

end Scan

namespace Conversion

variable (c : Conversion) (ap : VaList)

lemma precision_eq : c.precision ap = precOf (precSpec c.prec (c.precArgs ap)) := by
  rw [precision]
  cases c.prec with
  | none => rfl
  | some p =>
    show _ = precOf (if p.value (c.precArgs ap) < 0 then -1 else p.value (c.precArgs ap))
    dsimp only
    split
    · rfl
    · next h => rw [precOf, if_neg h]

lemma head_width {rest : List UInt8} {ch : UInt8}
    (hc : ch ∈ (c.width.text ++ (precText c.prec ++ (c.modifier.text ++ c.kind.char ::
    rest))).head?) : notFlag ch = true := by
  have hrest : ch ∈ (precText c.prec ++ (c.modifier.text ++ c.kind.char :: rest)).head? →
      notFlag ch = true := by
    intro hc
    rcases head_prec hc with rfl | hstop
    · decide
    · exact (stops_iff.mp hstop).1
  cases hw : c.width with
  | star =>
    rw [hw] at hc
    cases hc
    decide
  | digits ds =>
    rw [hw] at hc
    rcases head?_digitText hc with ⟨d, hd, rfl⟩ | hc
    · refine notFlag_digit ?_
      rintro rfl
      exact c.width_ok ds hw hd
    · exact hrest hc

def spec : Spec where
  left := .minus ∈ c.flags || c.width.value ap < 0
  zero := .zero ∈ c.flags
  plus := .plus ∈ c.flags
  space := .space ∈ c.flags
  width := widthOf c.width ap
  prec := precSpec c.prec (c.precArgs ap)

lemma text_append (rest : List UInt8) : c.text ++ rest = '%'.toUInt8 ::
    (c.flags.map Flag.char ++ (c.width.text ++ (precText c.prec ++
      (c.modifier.text ++ c.kind.char :: rest)))) := by
  rw [text]
  simp only [List.cons_append, List.append_assoc, List.nil_append]

lemma scan_text (h : c.InRange ap) (rest : List UInt8) :
    scan (c.flags.map Flag.char ++ (c.width.text ++ (precText c.prec ++
      (c.modifier.text ++ c.kind.char :: rest)))) ap =
      ⟨c.spec ap, c.modifier.length, c.kind.char :: rest, c.valueArgs ap⟩ := by
  have hhead : ∀ ch ∈ (c.width.text ++ (precText c.prec ++
      (c.modifier.text ++ c.kind.char :: rest))).head?, notFlag ch = true :=
    fun ch hc => c.head_width hc
  have hwidth : ∀ ch ∈ (precText c.prec ++ (c.modifier.text ++ c.kind.char :: rest)).head?,
      isDigit ch = false ∧ ch ≠ '*'.toUInt8 := by
    intro ch hc
    rcases head_prec hc with rfl | hstop
    · decide
    · exact ⟨(stops_iff.mp hstop).2.1, (stops_iff.mp hstop).2.2.1⟩
  have hstop : ∀ ch ∈ (c.modifier.text ++ c.kind.char :: rest).head?,
      isDigit ch = false ∧ ch ≠ '*'.toUInt8 ∧ ch ≠ '.'.toUInt8 :=
    fun ch hc => (stops_iff.mp (stops_modifier hc)).2
  have hprec : ∀ p ∈ c.prec, p.value (c.width.after ap) < 100000 := h.prec
  rw [scan, scanFlags_flags hhead]
  dsimp only
  rw [scanWidth_width (fun ch hc => (hwidth ch hc).1) (fun ch hc => (hwidth ch hc).2) rfl h.width]
  dsimp only
  rw [scanPrec_prec (fun ch hc => (hstop ch hc).1) (fun ch hc => (hstop ch hc).2.1)
    (fun ch hc => (hstop ch hc).2.2) rfl hprec]
  dsimp only
  rw [scanLength_modifier]
  rfl

end Conversion

/-! ## The values -/

lemma narrowInt_eq (m : Modifier) (ap : VaList) :
    narrowInt m.length ap.int = Int.bmod ap.arg.toNat (2 ^ m.bits) := by
  have htwice : ∀ n ≤ 32, (int32 ap.arg.toNat).bmod (2 ^ n) = Int.bmod ap.arg.toNat (2 ^ n) :=
    fun n hn => Int.bmod_bmod_of_dvd (Nat.pow_dvd_pow 2 hn)
  cases m with
  | none => rfl
  | l => rfl
  | h => exact htwice 16 (by decide)
  | hh => exact htwice 8 (by decide)

lemma narrowUnsigned_eq (m : Modifier) (v : UInt32) :
    (narrowUnsigned m.length v).toNat = v.toNat % 2 ^ m.bits := by
  cases m with
  | none => exact (Nat.mod_eq_of_lt v.toNat_lt).symm
  | l => exact (Nat.mod_eq_of_lt v.toNat_lt).symm
  | h => exact UInt32.toNat_mod v _
  | hh => exact UInt32.toNat_mod v _

lemma magnitude {v : Int} (hlo : -2 ^ 31 ≤ v) (hhi : v < 2 ^ 31) :
    (if v < 0 then 0 - UInt32.ofInt v else UInt32.ofInt v).toNat = v.natAbs := by
  have hof : (UInt32.ofInt v).toNat = (v % 2 ^ 32).toNat := by
    have hlt : v % 2 ^ 32 < 2 ^ 32 := Int.emod_lt_of_pos v (by decide)
    rw [UInt32.ofInt, UInt32.toNat_ofNat']
    omega
  split
  · rw [UInt32.toNat_sub, hof, UInt32.toNat_zero]
    omega
  · rw [hof]
    omega

lemma Modifier.bits_le (m : Modifier) : m.bits ≤ 32 := by
  cases m <;> decide

lemma bmod_range {n : Nat} (hpos : 0 < n) (hn : n ≤ 2 ^ 32) (a : Int) :
    -2 ^ 31 ≤ a.bmod n ∧ a.bmod n < 2 ^ 31 := by
  have hlo := Int.le_bmod (x := a) hpos
  have hhi := Int.bmod_lt (x := a) hpos
  omega

lemma convert_signed {strings : UInt32 → CStr} {σ : Type} {put : σ → UInt8 → σ} {s : σ} {sp : Spec}
    {m : Modifier} {k : Kind} {text : List UInt8} {ap : VaList} (h : k.signed = true) :
    convert strings put s sp m.length k.char text ap =
      (emitInt put s sp (narrowInt m.length ap.int), ap.next) := by
  cases k <;> cases h <;> cases m <;> rfl

lemma convert_unsigned {strings : UInt32 → CStr} {σ : Type} {put : σ → UInt8 → σ}
    {s : σ} {sp : Spec}
    {m : Modifier} {k : Kind} {text : List UInt8} {ap : VaList} (h : k.signed = false) :
    convert strings put s sp m.length k.char text ap =
      (emitNumber put s sp (narrowUnsigned m.length ap.arg) k.base (k = .X) 0 [], ap.next) := by
  cases k <;> cases h <;> cases m <;> rfl

namespace Conversion

variable (c : Conversion) (ap : VaList)

lemma value_range (h : c.kind.signed = true) : -2 ^ 31 ≤ c.value ap ∧ c.value ap < 2 ^ 31 := by
  rw [value, if_pos h]
  exact bmod_range (Nat.two_pow_pos _) (Nat.pow_le_pow_right (by decide) c.modifier.bits_le) _

lemma base_range : 10 ≤ c.kind.base ∧ c.kind.base ≤ 16 := by
  cases c.kind <;> decide

lemma width_eq : (widthOf c.width ap).toNat = (c.width.value ap).natAbs := by
  rw [widthOf]
  split
  · next h =>
    rw [h]
    rfl
  · rfl

lemma spec_lt (h : c.InRange ap) : (c.spec ap).width < 100000 ∧ (c.spec ap).prec < 100000 := by
  constructor
  · show widthOf c.width ap < 100000
    have hwidth := h.width
    rw [widthOf]
    split <;> omega
  · show precSpec c.prec (c.precArgs ap) < 100000
    cases hp : c.prec with
    | none => exact Int.lt_of_lt_of_le (by decide : (-1 : Int) < 0) (by decide)
    | some p =>
      have hprec := h.prec p hp
      show (if _ then (-1 : Int) else _) < 100000
      split <;> omega

lemma emitNumber_spec {σ : Type} {put : σ → UInt8 → σ} {s : σ} {v : UInt32} {sign : UInt8}
    (h : c.InRange ap) (hv : v.toNat = (c.value ap).natAbs) (hsign : signOf sign = c.sign ap) :
    emitNumber put s (c.spec ap) v c.kind.base (c.kind = .X) sign [] = (c.c99 ap).foldl put s := by
  obtain ⟨hlow, hhigh⟩ := c.base_range
  obtain ⟨hwidth, hprec⟩ := c.spec_lt ap h
  have hzero : (v.toNat = 0 ∧ (c.spec ap).prec = 0) ↔
      (c.value ap = 0 ∧ c.precision ap = some 0) := by
    rw [hv, Int.natAbs_eq_zero, precision_eq]
    refine and_congr_right fun _ => ?_
    show precSpec c.prec (c.precArgs ap) = 0 ↔ _
    rw [precOf]
    split
    · simp only [reduceCtorEq, iff_false]
      omega
    · rw [Option.some.injEq]
      omega
  rw [emitNumber_field hlow hhigh hwidth hprec, c99, digits, hsign, precision_eq, ← width_eq, hv]
  rw [precision_eq, hv] at hzero
  simp only [hzero]
  rfl

lemma signOf_signed (h : c.kind.signed = true) :
    signOf (if c.value ap < 0 then '-'.toUInt8 else if (c.spec ap).plus then '+'.toUInt8
      else if (c.spec ap).space then ' '.toUInt8 else 0) = c.sign ap := by
  have hsigned : ¬c.kind.signed = false := by
    rw [h]
    decide
  rw [sign, if_neg hsigned]
  simp only [spec, decide_eq_true_eq]
  split_ifs <;> rfl

lemma convert_c99 {strings : UInt32 → CStr} {σ : Type} {put : σ → UInt8 → σ} {s : σ}
    {text : List UInt8} (h : c.InRange ap) :
    convert strings put s (c.spec ap) c.modifier.length c.kind.char text (c.valueArgs ap) =
      ((c.c99 ap).foldl put s, c.after ap) := by
  cases hk : c.kind.signed with
  | true =>
    obtain ⟨hlo, hhi⟩ := c.value_range ap hk
    have hvalue : narrowInt c.modifier.length (c.valueArgs ap).int = c.value ap := by
      rw [narrowInt_eq, value, if_pos hk]
    have hbase : c.kind.base = 10 ∧ decide (c.kind = .X) = false := by
      revert hk
      cases c.kind <;> decide
    rw [convert_signed hk, hvalue, emitInt, ← hbase.1, ← hbase.2]
    rw [emitNumber_spec c ap h (magnitude hlo hhi) (c.signOf_signed ap hk)]
    rfl
  | false =>
    have hvalue : (narrowUnsigned c.modifier.length (c.valueArgs ap).arg).toNat =
      (c.value ap).natAbs := by
      rw [narrowUnsigned_eq, value, if_neg (by rw [hk]; decide)]
      rfl
    rw [convert_unsigned hk, emitNumber_spec c ap h hvalue]
    · rfl
    · rw [sign, if_pos hk]
      rfl

end Conversion

/-- **The integer conversions are those of C99.**  On any sink, a conversion anywhere in the format
string puts the text that C99 asks for, and `format` goes on behind it. -/
theorem format_integer (strings : UInt32 → CStr) {σ : Type} (put : σ → UInt8 → σ) (s : σ)
    (c : Conversion) (rest : List UInt8) (ap : VaList) (h : c.InRange ap) :
    format strings put s (c.text ++ rest) ap =
      format strings put ((c.c99 ap).foldl put s) rest (c.after ap) := by
  have hscan := c.scan_text ap h rest
  have hfmt : (scan (c.flags.map Flag.char ++ (c.width.text ++ (precText c.prec ++
      (c.modifier.text ++ c.kind.char :: rest)))) ap).fmt = c.kind.char :: rest := by rw [hscan]
  rw [c.text_append, format_conversion hfmt, hscan]
  dsimp only
  rw [c.convert_c99 ap h]

/-- `%-+8.3hhd` of 0x181, which is -127 as a `signed char`. -/
theorem format_integer_narrow :
    let c : Conversion :=
      ⟨[.minus, .plus], .digits [8], some (.digits [3]), .hh, .d, by rintro _ ⟨⟩; decide⟩
    let ap : VaList := fun _ => 0x181
    c.text = ascii "%-+8.3hhd" ∧ c.c99 ap = ascii "-127    " ∧
      format (fun _ => ⟨[], nofun⟩) (fun (l : List UInt8) ch => l ++ [ch]) []
          (c.text ++ ascii "|") ap =
        format (fun _ => ⟨[], nofun⟩) (fun (l : List UInt8) ch => l ++ [ch])
          ((c.c99 ap).foldl (fun l ch => l ++ [ch]) []) (ascii "|") (c.after ap) :=
  ⟨by decide +kernel, by decide +kernel,
    format_integer _ _ _ _ _ _ ⟨by decide, by rintro _ ⟨⟩; decide⟩⟩

end NullOS.User
