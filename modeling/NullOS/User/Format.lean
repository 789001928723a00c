import NullOS.Lib.Text
import NullOS.Lib.Sink
import Mathlib.Data.Nat.Digits.Defs
import Mathlib.Data.UInt

/-!
# The formatter of the user library

`user/lib/nosstdio.c`.  The functions call `s->put` and nothing else of the sink, so they are
functions of any `put`.  An argument list is the sequence of 32-bit words on the stack; a word that
is used as a pointer leads to the string that `strings` gives.
-/

namespace NullOS.User

open Lib

def int32 (n : Int) : Int := n.bmod (2 ^ 32)

abbrev VaList := Nat → UInt32

namespace VaList

def arg (ap : VaList) : UInt32 := ap 0

def next (ap : VaList) : VaList := fun i => ap (i + 1)

def int (ap : VaList) : Int := int32 ap.arg.toNat

end VaList

structure Spec where
  left : Bool
  zero : Bool
  plus : Bool
  space : Bool
  width : Int
  prec : Int
deriving DecidableEq

/-! ## Writing to a sink -/

section Emit

variable {σ : Type} (put : σ → UInt8 → σ)

def pad (s : σ) (c : UInt8) (n : Int) : σ := (List.replicate n.toNat c).foldl put s

def digitOf (upper : Bool) (d : Nat) : UInt8 :=
  (ascii (if upper then "0123456789ABCDEF" else "0123456789abcdef")).getD d 0

/-- The loop of `emit_number` that fills `digits`, which has room for a number of them. -/
def fillDigits (base : Nat) (upper : Bool) : Nat → Nat → List UInt8
  | 0, _ => []
  | room + 1, v => if v = 0 then [] else digitOf upper (v % base) :: fillDigits base upper room
      (v / base)

def emitNumber (s : σ) (sp : Spec) (v : UInt32) (base : Nat) (upper : Bool) (sign : UInt8)
    (pfx : List UInt8) : σ :=
  let digits := if v = 0 then (if sp.prec ≠ 0 then ascii "0" else [])
    else fillDigits base upper 12 v.toNat
  let zeros := if sp.prec > digits.length then sp.prec - digits.length else 0
  let total := int32 (digits.length + zeros + pfx.length + if sign ≠ 0 then 1 else 0)
  let fill := if sp.width > total then int32 (sp.width - total) else 0
  let zeroPad := sp.zero && !sp.left && sp.prec < 0
  let s := if !sp.left && !zeroPad then pad put s ' '.toUInt8 fill else s
  let s := if sign ≠ 0 then put s sign else s
  let s := pfx.foldl put s
  let s := if zeroPad then pad put s '0'.toUInt8 fill else s
  let s := pad put s '0'.toUInt8 zeros
  let s := digits.reverse.foldl put s
  if sp.left then pad put s ' '.toUInt8 fill else s

def emitInt (s : σ) (sp : Spec) (v : Int) : σ :=
  let mag := if v < 0 then 0 - UInt32.ofInt v else UInt32.ofInt v
  let sign := if v < 0 then '-'.toUInt8 else if sp.plus then '+'.toUInt8
    else if sp.space then ' '.toUInt8 else 0
  emitNumber put s sp mag 10 false sign []

def emitChar (s : σ) (sp : Spec) (ch : UInt8) : σ :=
  let fill := if sp.width > 1 then sp.width - 1 else 0
  let s := if sp.left then s else pad put s ' '.toUInt8 fill
  let s := put s ch
  if sp.left then pad put s ' '.toUInt8 fill else s

/-- `emit_string`, where a null pointer gives no string. -/
def emitString (s : σ) (sp : Spec) (str : Option CStr) : σ :=
  let str := match str with
    | none => ascii "(null)"
    | some str => str.bytes
  let n := if sp.prec < 0 then str.length else min str.length sp.prec.toNat
  let fill := if sp.width > n then sp.width - n else 0
  let s := if sp.left then s else pad put s ' '.toUInt8 fill
  let s := (str.take n).foldl put s
  if sp.left then pad put s ' '.toUInt8 fill else s

end Emit

/-! ## Scanning a conversion -/

def scanFlags (sp : Spec) : List UInt8 → Spec × List UInt8
  | [] => (sp, [])
  | c :: fmt =>
      if c = '-'.toUInt8 then scanFlags { sp with left := true } fmt
      else if c = '0'.toUInt8 then scanFlags { sp with zero := true } fmt
      else if c = '+'.toUInt8 then scanFlags { sp with plus := true } fmt
      else if c = ' '.toUInt8 then scanFlags { sp with space := true } fmt
      else (sp, c :: fmt)

def isDigit (c : UInt8) : Bool := '0'.toUInt8 ≤ c && c ≤ '9'.toUInt8

/-- One more digit of a width or a precision.  Beyond 100000 digits are skipped. -/
def addDigit (n : Int) (c : UInt8) : Int :=
  if n < 100000 then n * 10 + (c.toNat - '0'.toNat) else n

def widthDigits (width : Int) : List UInt8 → Int × List UInt8
  | [] => (width, [])
  | c :: fmt =>
      if isDigit c then widthDigits (addDigit (if width < 0 then 0 else width) c) fmt
      else (width, c :: fmt)

def precDigits (prec : Int) : List UInt8 → Int × List UInt8
  | [] => (prec, [])
  | c :: fmt => if isDigit c then precDigits (addDigit prec c) fmt else (prec, c :: fmt)

def scanWidth (sp : Spec) (fmt : List UInt8) (ap : VaList) : Spec × List UInt8 × VaList :=
  if fmt.head? = some '*'.toUInt8 then
    let w := ap.int
    let sp := if w < 0 then { sp with left := true, width := int32 (-w) }
      else { sp with width := w }
    (sp, fmt.tail, ap.next)
  else
    let r := widthDigits sp.width fmt
    ({ sp with width := r.1 }, r.2, ap)

def scanPrec (sp : Spec) (fmt : List UInt8) (ap : VaList) : Spec × List UInt8 × VaList :=
  if fmt.head? = some '.'.toUInt8 then
    let fmt := fmt.tail
    if fmt.head? = some '*'.toUInt8 then
      let p := ap.int
      ({ sp with prec := if p < 0 then -1 else p }, fmt.tail, ap.next)
    else
      let r := precDigits 0 fmt
      ({ sp with prec := r.1 }, r.2, ap)
  else (sp, fmt, ap)

inductive Length
  | none
  | h
  | hh
  | ll
deriving DecidableEq

def scanLength (fmt : List UInt8) : Length × List UInt8 :=
  if fmt.head? = some 'h'.toUInt8 then
    if fmt.tail.head? = some 'h'.toUInt8 then (.hh, fmt.tail.tail) else (.h, fmt.tail)
  else if fmt.head? = some 'l'.toUInt8 then
    if fmt.tail.head? = some 'l'.toUInt8 then (.ll, fmt.tail.tail) else (.none, fmt.tail)
  else (.none, fmt)

/-- What has been read of a conversion when `fmt` is at its last character. -/
structure Scanned where
  sp : Spec
  length : Length
  fmt : List UInt8
  ap : VaList

def scan (fmt : List UInt8) (ap : VaList) : Scanned :=
  let r := scanFlags ⟨false, false, false, false, -1, -1⟩ fmt
  let r := scanWidth r.1 r.2 ap
  let r := scanPrec r.1 r.2.1 r.2.2
  let l := scanLength r.2.1
  ⟨r.1, l.1, l.2, r.2.2⟩

/-! ## The loop -/

def narrowInt (lm : Length) (v : Int) : Int :=
  match lm with
  | .h => v.bmod (2 ^ 16)
  | .hh => v.bmod (2 ^ 8)
  | _ => v

def narrowUnsigned (lm : Length) (v : UInt32) : UInt32 :=
  match lm with
  | .h => v % 2 ^ 16
  | .hh => v % 2 ^ 8
  | _ => v

section Format

variable (strings : UInt32 → CStr) {σ : Type} (put : σ → UInt8 → σ)

/-- The `switch` over the conversion character `c`.  `text` is the conversion as it stands in the
format string. -/
def convert (s : σ) (sp : Spec) (lm : Length) (c : UInt8) (text : List UInt8) (ap : VaList) :
    σ × VaList :=
  let c := if lm = .ll ∧ (c = 'd'.toUInt8 ∨ c = 'i'.toUInt8 ∨ c = 'u'.toUInt8 ∨ c = 'x'.toUInt8 ∨
    c = 'X'.toUInt8) then '?'.toUInt8 else c
  if c = 'd'.toUInt8 ∨ c = 'i'.toUInt8 then
    (emitInt put s sp (narrowInt lm ap.int), ap.next)
  else if c = 'u'.toUInt8 ∨ c = 'x'.toUInt8 ∨ c = 'X'.toUInt8 then
    (emitNumber put s sp (narrowUnsigned lm ap.arg) (if c = 'u'.toUInt8 then 10 else 16)
      (c = 'X'.toUInt8) 0 [], ap.next)
  else if c = 'p'.toUInt8 then
    (emitNumber put s { sp with prec := -1 } ap.arg 16 false 0 (ascii "0x"), ap.next)
  else if c = 'c'.toUInt8 then (emitChar put s sp ap.arg.toUInt8, ap.next)
  else if c = 's'.toUInt8 then
    (emitString put s sp (if ap.arg = 0 then none else some (strings ap.arg)), ap.next)
  else if c = '%'.toUInt8 then (put s '%'.toUInt8, ap)
  else (text.foldl put s, ap)

lemma scanFlags_suffix (sp : Spec) (fmt : List UInt8) : (scanFlags sp fmt).2 <:+ fmt := by
  fun_induction scanFlags sp fmt with
  | case1 => exact List.suffix_rfl
  | case2 sp fmt ih => exact ih.trans (List.suffix_cons _ _)
  | case3 sp fmt _ ih => exact ih.trans (List.suffix_cons _ _)
  | case4 sp fmt _ _ ih => exact ih.trans (List.suffix_cons _ _)
  | case5 sp fmt _ _ _ ih => exact ih.trans (List.suffix_cons _ _)
  | case6 => exact List.suffix_rfl

lemma widthDigits_suffix (width : Int) (fmt : List UInt8) : (widthDigits width fmt).2 <:+ fmt := by
  fun_induction widthDigits width fmt with
  | case1 => exact List.suffix_rfl
  | case2 width c fmt _ ih => exact ih.trans (List.suffix_cons _ _)
  | case3 => exact List.suffix_rfl

lemma precDigits_suffix (prec : Int) (fmt : List UInt8) : (precDigits prec fmt).2 <:+ fmt := by
  fun_induction precDigits prec fmt with
  | case1 => exact List.suffix_rfl
  | case2 prec c fmt _ ih => exact ih.trans (List.suffix_cons _ _)
  | case3 => exact List.suffix_rfl

lemma scanWidth_suffix (sp : Spec) (fmt : List UInt8) (ap : VaList) :
    (scanWidth sp fmt ap).2.1 <:+ fmt := by
  unfold scanWidth
  split
  · exact List.tail_suffix fmt
  · exact widthDigits_suffix _ _

lemma scanPrec_suffix (sp : Spec) (fmt : List UInt8) (ap : VaList) :
    (scanPrec sp fmt ap).2.1 <:+ fmt := by
  unfold scanPrec
  split
  · dsimp only
    split
    · exact (List.tail_suffix _).trans (List.tail_suffix fmt)
    · exact (precDigits_suffix _ _).trans (List.tail_suffix fmt)
  · exact List.suffix_rfl

lemma scanLength_suffix (fmt : List UInt8) : (scanLength fmt).2 <:+ fmt := by
  unfold scanLength
  split_ifs
  · exact (List.tail_suffix _).trans (List.tail_suffix fmt)
  · exact List.tail_suffix fmt
  · exact (List.tail_suffix _).trans (List.tail_suffix fmt)
  · exact List.tail_suffix fmt
  · exact List.suffix_rfl

lemma scan_suffix (fmt : List UInt8) (ap : VaList) : (scan fmt ap).fmt <:+ fmt :=
  (scanLength_suffix _).trans <| (scanPrec_suffix _ _ _).trans <|
    (scanWidth_suffix _ _ _).trans (scanFlags_suffix _ _)

def format (s : σ) (fmt : List UInt8) (ap : VaList) : σ :=
  match fmt with
  | [] => s
  | c :: start =>
      if c ≠ '%'.toUInt8 then format (put s c) start ap
      else
        let r := scan start ap
        match _h : r.fmt with
        | [] => (c :: start).foldl put s
        | c' :: rest =>
            let text := (c :: start).take ((c :: start).length - rest.length)
            let q := convert strings put s r.sp r.length c' text r.ap
            format q.1 rest q.2
termination_by fmt.length
decreasing_by
  · exact Nat.lt_succ_self _
  · have hle := (scan_suffix start ap).length_le
    have hlen : (c' :: rest).length ≤ start.length := by
      rw [← _h]
      exact hle
    simp only [List.length_cons] at hlen ⊢
    omega

variable {strings put} {s : σ} {c : UInt8} {start rest : List UInt8} {ap : VaList}

lemma format_nil : format strings put s [] ap = s := by
  unfold format
  rfl

lemma format_other (h : c ≠ '%'.toUInt8) :
    format strings put s (c :: start) ap = format strings put (put s c) start ap := by
  rw [format, if_pos h]

lemma format_incomplete (h : (scan start ap).fmt = []) :
    format strings put s ('%'.toUInt8 :: start) ap = ('%'.toUInt8 :: start).foldl put s := by
  rw [format, if_neg (not_not.mpr rfl)]
  dsimp only
  split
  · rfl
  · next heq => cases h.symm.trans heq

/-- A conversion as it stands in the format string, when `rest` follows it. -/
def literal (start rest : List UInt8) : List UInt8 :=
  ('%'.toUInt8 :: start).take (('%'.toUInt8 :: start).length - rest.length)

lemma format_conversion (h : (scan start ap).fmt = c :: rest) :
    format strings put s ('%'.toUInt8 :: start) ap =
      format strings put
        (convert strings put s (scan start ap).sp (scan start ap).length c (literal start rest)
          (scan start ap).ap).1 rest
        (convert strings put s (scan start ap).sp (scan start ap).length c (literal start rest)
          (scan start ap).ap).2 := by
  rw [format, if_neg (not_not.mpr rfl)]
  dsimp only
  split
  · next heq => cases h.symm.trans heq
  · next heq =>
    cases h.symm.trans heq
    rfl

end Format

/-! ## The output -/

lemma pad_emits (c : UInt8) (n : Int) : Emits fun _ put s => pad put s c n := .list _

lemma emitNumber_emits (sp : Spec) (v : UInt32) (base : Nat) (upper : Bool) (sign : UInt8)
    (pfx : List UInt8) : Emits fun _ put s => emitNumber put s sp v base upper sign pfx := by
  unfold emitNumber
  dsimp only
  exact Emits.seq
    (.seq (.seq (.seq (.seq (.seq (.ite (pad_emits _ _) .none) (.ite (.one sign) .none))
    (.list pfx)) (.ite (pad_emits _ _) .none)) (pad_emits _ _)) (.list _))
    (.ite (pad_emits _ _) .none)

lemma emitChar_emits (sp : Spec) (ch : UInt8) : Emits fun _ put s => emitChar put s sp ch := by
  unfold emitChar
  dsimp only
  exact Emits.seq (.seq (.ite .none (pad_emits _ _)) (.one ch)) (.ite (pad_emits _ _) .none)

lemma emitString_emits (sp : Spec) (str : Option CStr) :
    Emits fun _ put s => emitString put s sp str := by
  unfold emitString
  dsimp only
  exact Emits.seq (.seq (.ite .none (pad_emits _ _)) (.list _)) (.ite (pad_emits _ _) .none)

variable (strings : UInt32 → CStr)

lemma convert_emits (sp : Spec) (lm : Length) (c : UInt8) (text : List UInt8) (ap : VaList) :
    Emits fun _ put s => (convert strings put s sp lm c text ap).1 := by
  unfold convert
  dsimp only
  simp only [apply_ite Prod.fst]
  exact .ite (emitNumber_emits _ _ _ _ _ _) <| .ite (emitNumber_emits _ _ _ _ _ _) <|
    .ite (emitNumber_emits _ _ _ _ _ _) <| .ite (emitChar_emits _ _) <|
    .ite (emitString_emits _ _) <| .ite (.one _) (.list text)

lemma convert_args {σ τ : Type} (put : σ → UInt8 → σ) (put' : τ → UInt8 → τ) (s : σ) (s' : τ)
    (sp : Spec) (lm : Length) (c : UInt8) (text : List UInt8) (ap : VaList) :
    (convert strings put s sp lm c text ap).2 = (convert strings put' s' sp lm c text ap).2 := by
  unfold convert
  simp only [apply_ite Prod.snd]

/-- The characters that `format` puts: what it leaves on the sink that keeps everything. -/
def output (fmt : List UInt8) (ap : VaList) : List UInt8 :=
  format strings (fun l c => l ++ [c]) [] fmt ap

lemma format_emits (fmt : List UInt8) (ap : VaList) :
    Emits fun _ put s => format strings put s fmt ap := by
  -- Induction on the length of what is left of the format string.
  induction hn : fmt.length using Nat.strong_induction_on generalizing fmt ap with
  | _ n ih =>
    cases fmt with
    | nil =>
      simp only [format_nil]
      exact .none
    | cons c start =>
      rw [List.length_cons] at hn
      by_cases hc : c = '%'.toUInt8
      · subst hc
        cases hscan : (scan start ap).fmt with
        | nil =>
          simp only [format_incomplete hscan]
          exact .list _
        | cons c rest =>
          have hlen : rest.length < n := by
            have hle := (scan_suffix start ap).length_le
            rw [hscan, List.length_cons] at hle
            omega
          simp only [format_conversion hscan]
          have hconv := convert_emits strings (scan start ap).sp (scan start ap).length c
            (literal start rest) (scan start ap).ap
          obtain ⟨ap', hargs⟩ : ∃ ap', ∀ (σ : Type) (put : σ → UInt8 → σ) (s : σ),
              (convert strings put s (scan start ap).sp (scan start ap).length c
              (literal start rest)
                (scan start ap).ap).2 = ap' :=
            ⟨_, fun σ put s => convert_args strings put (fun (_ : Unit) _ => ()) s () _ _ _ _ _⟩
          simp only [hargs]
          exact hconv.seq (ih _ hlen rest ap' rfl)
      · simp only [format_other hc]
        exact (Emits.one c).seq (ih _ (by omega) start ap rfl)

lemma format_eq {σ : Type} (put : σ → UInt8 → σ) (s : σ) (fmt : List UInt8) (ap : VaList) :
    format strings put s fmt ap = (output strings fmt ap).foldl put s :=
  (format_emits strings fmt ap).eq put s

end NullOS.User
