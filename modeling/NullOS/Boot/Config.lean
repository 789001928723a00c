import NullOS.Lib.Text
import Mathlib.Data.List.Sigma

/-!
# The boot configuration sector

`kernel/bootcfg.c`: a text of `key=value` lines after a magic line, in one sector of 512 bytes
filled up with NULs.  The loops that move or clear a range of the buffer are one operation each.
-/

namespace NullOS.Boot

open Lib

@[ext] structure Sector where
  bytes : List UInt8
  length_eq : bytes.length = 512
deriving DecidableEq

namespace Sector

/-- The bytes from the start of a sector, followed by NULs.  What goes beyond the sector is cut. -/
def pad (l : List UInt8) : Sector where
  bytes := (l ++ List.replicate 512 0).take 512
  length_eq := by rw [List.length_take, List.length_append, List.length_replicate]; omega

/-- The bytes `l` are stored from index `off` on. -/
def write (buf : Sector) (off : Nat) (l : List UInt8) : Sector :=
  pad (buf.bytes.take off ++ l ++ buf.bytes.drop (off + l.length))

/-- The tail from `ls + len` on is moved down to `ls`, and the end is filled with NULs. -/
def cut (buf : Sector) (ls len : Nat) : Sector :=
  pad (buf.bytes.take ls ++ buf.bytes.drop (ls + len))

def terminate (buf : Sector) : Sector := pad (buf.bytes.take 511)

lemma pad_bytes {l : List UInt8} (h : l.length ≤ 512) :
    (pad l).bytes = l ++ List.replicate (512 - l.length) 0 := by
  show (l ++ List.replicate 512 0).take 512 = _
  rw [List.take_append, List.take_of_length_le h, List.take_replicate,
    Nat.min_eq_left (Nat.sub_le _ _)]

lemma pad_append_zeros {l : List UInt8} {n : Nat} : pad (l ++ List.replicate n 0) = pad l := by
  ext1
  simp only [pad, List.append_assoc, ← List.replicate_add, List.take_append, List.take_replicate]
  rw [Nat.min_eq_left (by omega), Nat.min_eq_left (by omega)]

end Sector

/-! ## The functions on a buffer -/

def magic : List UInt8 := ascii "# nullos-config v1\n"

def magicLen : Nat := 19

def keyMax : Nat := 31

def newline : UInt8 := 10

def equals : UInt8 := 61

def cfgReset : Sector := .pad magic

def hasMagic (buf : Sector) : Bool := magic.isPrefixOf buf.bytes

def keyChar (c : UInt8) : Bool :=
  (97 ≤ c && c ≤ 122) || (48 ≤ c && c ≤ 57) || c == 95

def keyValid (key : List UInt8) : Bool :=
  key.length != 0 && key.length ≤ keyMax && key.all keyChar

def lineHas (key text : List UInt8) : Bool :=
  key.length < text.length && text[key.length]? == some equals && text.take key.length == key

/-- The loop of `find_key`.  `line` is what has been read of the line that starts at `ls`, and
`rest` is what follows in the buffer. -/
def findFrom (key : List UInt8) (ls : Nat) (line : List UInt8) :
    List UInt8 → Option (Nat × Nat × Nat)
  | [] => if lineHas key line then some (ls, ls + key.length + 1, ls + line.length) else none
  | c :: rest =>
      if c = 0 then
        if lineHas key line then some (ls, ls + key.length + 1, ls + line.length) else none
      else if c = newline then
        if lineHas key line then some (ls, ls + key.length + 1, ls + line.length)
        else findFrom key (ls + line.length + 1) [] rest
      else findFrom key ls (line ++ [c]) rest

def findKey (cfg : Sector) (key : List UInt8) : Option (Nat × Nat × Nat) :=
  findFrom key magicLen [] (cfg.bytes.drop magicLen)

def cfgUsed (cfg : Sector) : Nat :=
  magicLen + ((cfg.bytes.drop magicLen).takeWhile (· ≠ 0)).length

def bootcfgBufInit : Sector := cfgReset

def bootcfgBufValid (buf : Sector) : Bool := hasMagic buf

/-- `bootcfg_buf_get`: the bytes stored in `out` before its NUL, whose number is returned, or
`none` for -1. -/
def bootcfgBufGet (buf : Sector) (key : CStr) (max : Int) : Option (List UInt8) :=
  if max ≤ 0 ∨ keyValid key.bytes = false then none
  else match findKey buf key.bytes with
    | none => none
    | some (_, vs, le) => some ((buf.bytes.drop vs).take (min (le - vs) (max - 1).toNat))

def oldLen (buf : Sector) (ls le : Nat) : Nat :=
  le - ls + if buf.bytes[le]? = some newline then 1 else 0

def lineOf (key value : List UInt8) : List UInt8 := key ++ equals :: value ++ [newline]

/-- The end of `bootcfg_buf_set`: a line is stored at the end of the text. -/
def appendLine (buf : Sector) (key value : List UInt8) : Sector :=
  buf.write (cfgUsed buf) (lineOf key value ++ [0])

def bootcfgBufSet (buf : Sector) (key value : CStr) : Int × Sector :=
  if keyValid key.bytes = false then (-1, buf)
  else if newline ∈ value.bytes then (-1, buf)
  else
    let used := cfgUsed buf
    let newLen := key.length + 1 + value.length + 1
    match findKey buf key.bytes with
    | none =>
        if used + newLen > 511 then (-1, buf)
        else (0, appendLine buf key.bytes value.bytes)
    | some (ls, _, le) =>
        if used - oldLen buf ls le + newLen > 511 then (-1, buf)
        else (0, appendLine (buf.cut ls (oldLen buf ls le)) key.bytes value.bytes)

def bootcfgBufRemove (buf : Sector) (key : CStr) : Int × Sector :=
  if keyValid key.bytes = false then (-1, buf)
  else match findKey buf key.bytes with
    | none => (0, buf)
    | some (ls, _, le) => (1, buf.cut ls (oldLen buf ls le))

/-! ## Lines -/

@[ext] structure Key extends CStr where
  valid : keyValid bytes = true
deriving DecidableEq

@[ext] structure Value extends CStr where
  noNewline : newline ∉ bytes
deriving DecidableEq

def text (bs : List (Σ _ : Key, Value)) : List UInt8 :=
  bs.flatMap fun b => lineOf b.1.bytes b.2.bytes

lemma magic_length : magic.length = magicLen := by decide

lemma keyChar_ne {c : UInt8} (h : keyChar c = true) : c ≠ 0 ∧ c ≠ newline ∧ c ≠ equals := by
  refine ⟨?_, ?_, ?_⟩ <;> rintro rfl <;> exact absurd h (by decide)

namespace Key

variable (k : Key)

lemma char {c : UInt8} (h : c ∈ k.bytes) : keyChar c = true :=
  List.all_eq_true.mp (Bool.and_eq_true_iff.mp k.valid).2 c h

lemma noNewline : newline ∉ k.bytes := fun h => (keyChar_ne (k.char h)).2.1 rfl

lemma noEquals : equals ∉ k.bytes := fun h => (keyChar_ne (k.char h)).2.2 rfl

end Key

@[simp] lemma text_nil : text [] = [] := rfl

@[simp] lemma text_cons (b : Σ _ : Key, Value) (bs : List (Σ _ : Key, Value)) :
    text (b :: bs) = lineOf b.1.bytes b.2.bytes ++ text bs := rfl

@[simp] lemma text_append (bs bs' : List (Σ _ : Key, Value)) :
    text (bs ++ bs') = text bs ++ text bs' := List.flatMap_append

lemma lineOf_length (key value : List UInt8) :
    (lineOf key value).length = key.length + 1 + value.length + 1 := by
  simp [lineOf]
  omega

lemma text_noNul (bs : List (Σ _ : Key, Value)) : 0 ∉ text bs := by
  intro h
  obtain ⟨⟨k, v⟩, -, h⟩ := List.mem_flatMap.mp h
  have hk := k.noNul
  have hv := v.noNul
  simp [lineOf, hk, hv, equals, newline] at h

/-! ## Looking for a key -/

section FindKey

variable {key : List UInt8} {ls : Nat} {line rest : List UInt8}

lemma lineHas_iff : lineHas key line = true ↔ key ++ [equals] <+: line := by
  simp only [lineHas, Bool.and_eq_true, decide_eq_true_eq, beq_iff_eq]
  constructor
  · rintro ⟨⟨hlt, heq⟩, htake⟩
    refine ⟨line.drop (key.length + 1), ?_⟩
    conv_rhs => rw [← List.take_append_drop key.length line, htake]
    rw [List.drop_eq_getElem_cons hlt, List.append_assoc]
    rw [List.getElem?_eq_getElem hlt, Option.some.injEq] at heq
    rw [heq]
    rfl
  · rintro ⟨t, rfl⟩
    simp

/-- Neither key has an `'='`, so that the first one of the line ends the key. -/
lemma lineHas_binding (k : Key) {k' : Key} {value : List UInt8} :
    lineHas k.bytes (k'.bytes ++ equals :: value) = true ↔ k = k' := by
  rw [lineHas_iff]
  constructor
  · rintro ⟨t, ht⟩
    have hkey := congrArg (List.takeWhile (· ≠ equals)) ht
    have hk : ∀ c ∈ k.bytes, decide (c ≠ equals) = true := fun c hc =>
      decide_eq_true fun h => k.noEquals (h ▸ hc)
    have hk' : ∀ c ∈ k'.bytes, decide (c ≠ equals) = true := fun c hc =>
      decide_eq_true fun h => k'.noEquals (h ▸ hc)
    rw [List.append_assoc, List.takeWhile_append_of_pos hk, List.takeWhile_append_of_pos hk']
      at hkey
    ext1
    simpa using hkey
  · rintro rfl
    exact ⟨value, by simp⟩

lemma findFrom_line {part : List UInt8} (h0 : 0 ∉ part) (hn : newline ∉ part) :
    findFrom key ls line (part ++ newline :: rest) =
      if lineHas key (line ++ part) then
        some (ls, ls + key.length + 1, ls + (line ++ part).length)
      else findFrom key (ls + (line ++ part).length + 1) [] rest := by
  induction part generalizing line with
  | nil =>
    rw [List.nil_append, List.append_nil, findFrom, if_neg (by decide), if_pos rfl]
  | cons c part ih =>
    obtain ⟨hc0, h0⟩ := List.ne_and_not_mem_of_not_mem_cons h0
    obtain ⟨hcn, hn⟩ := List.ne_and_not_mem_of_not_mem_cons hn
    rw [List.cons_append, findFrom, if_neg (Ne.symm hc0), if_neg (Ne.symm hcn), ih h0 hn,
      List.append_assoc]
    rfl

lemma findFrom_zeros {n : Nat} : findFrom key ls [] (List.replicate n 0) = none := by
  cases n with
  | zero => rfl
  | succ n => rfl

variable {k : Key} {v : Value} {bs : List (Σ _ : Key, Value)}

lemma findFrom_lineOf {k' : Key} :
    findFrom k.bytes ls [] (lineOf k'.bytes v.bytes ++ rest) =
      if k = k' then some (ls, ls + k.bytes.length + 1, ls + k.bytes.length + 1 + v.bytes.length)
      else findFrom k.bytes (ls + (lineOf k'.bytes v.bytes).length) [] rest := by
  have h0 : 0 ∉ k'.bytes ++ equals :: v.bytes := by
    simp [k'.noNul, v.noNul, equals]
  have hn : newline ∉ k'.bytes ++ equals :: v.bytes := by
    simp [k'.noNewline, v.noNewline, show newline ≠ equals by decide]
  have hline : lineOf k'.bytes v.bytes ++ rest =
      (k'.bytes ++ equals :: v.bytes) ++ newline :: rest := by simp [lineOf]
  rw [hline, findFrom_line h0 hn, List.nil_append]
  by_cases h : k = k'
  · subst h
    rw [if_pos ((lineHas_binding k).mpr rfl), if_pos rfl]
    simp
    omega
  · rw [if_neg (mt (lineHas_binding k).mp h), if_neg h]
    simp [lineOf]
    congr 1

lemma findFrom_text (h : k ∉ bs.keys) :
    findFrom k.bytes ls [] (text bs ++ rest) =
      findFrom k.bytes (ls + (text bs).length) [] rest := by
  induction bs generalizing ls with
  | nil => rfl
  | cons b bs ih =>
    obtain ⟨hb, h⟩ := List.ne_and_not_mem_of_not_mem_cons h
    rw [text_cons, List.append_assoc, findFrom_lineOf, if_neg hb, ih h, List.length_append,
      Nat.add_assoc]

end FindKey

/-! ## Buffers that hold a list of bindings -/

section Buffer

variable {k : Key} {v : Value} {bs pre post : List (Σ _ : Key, Value)}

def bufOf (bs : List (Σ _ : Key, Value)) : Sector := .pad (magic ++ text bs)

/-- The bindings leave room for the NUL at the end. -/
def Fits (bs : List (Σ _ : Key, Value)) : Prop := magicLen + (text bs).length ≤ 511

lemma bufOf_bytes (h : Fits bs) :
    (bufOf bs).bytes = magic ++ (text bs ++ List.replicate (493 - (text bs).length) 0) := by
  have hlen : (magic ++ text bs).length = magicLen + (text bs).length := by
    rw [List.length_append, magic_length]
  rw [bufOf, Sector.pad_bytes (by rw [hlen]; exact Nat.le_trans h (by omega)), List.append_assoc,
    hlen, magicLen, Nat.sub_add_eq]

lemma bufOf_drop (h : Fits bs) :
    (bufOf bs).bytes.drop magicLen = text bs ++ List.replicate (493 - (text bs).length) 0 := by
  rw [bufOf_bytes h, ← magic_length, List.drop_left]

lemma findKey_absent (h : Fits bs) (hk : k ∉ bs.keys) : findKey (bufOf bs) k.bytes = none := by
  rw [findKey, bufOf_drop h, findFrom_text hk, findFrom_zeros]

def lineStart (pre : List (Σ _ : Key, Value)) : Nat := magicLen + (text pre).length

lemma findKey_present (h : Fits (pre ++ ⟨k, v⟩ :: post)) (hk : k ∉ pre.keys) :
    findKey (bufOf (pre ++ ⟨k, v⟩ :: post)) k.bytes =
      some (lineStart pre, lineStart pre + k.bytes.length + 1,
        lineStart pre + k.bytes.length + 1 + v.bytes.length) := by
  rw [findKey, bufOf_drop h, text_append, List.append_assoc, findFrom_text hk, text_cons,
    List.append_assoc, findFrom_lineOf, if_pos rfl]
  rfl

lemma cfgUsed_bufOf (h : Fits bs) : cfgUsed (bufOf bs) = magicLen + (text bs).length := by
  have htext : ∀ c ∈ text bs, decide (c ≠ 0) = true := fun c hc =>
    decide_eq_true fun h0 => text_noNul bs (h0 ▸ hc)
  have hzeros : ∀ n, (List.replicate n (0 : UInt8)).takeWhile (fun c => decide (c ≠ 0)) = [] := by
    intro n
    cases n <;> rfl
  rw [cfgUsed, bufOf_drop h, List.takeWhile_append_of_pos htext, hzeros, List.append_nil]

lemma bufOf_split (h : Fits (pre ++ ⟨k, v⟩ :: post)) :
    ∃ n, (bufOf (pre ++ ⟨k, v⟩ :: post)).bytes =
      (magic ++ text pre) ++ (lineOf k.bytes v.bytes ++ (text post ++ List.replicate n 0)) := by
  have hbytes := bufOf_bytes h
  simp only [text_append, text_cons, List.append_assoc] at hbytes ⊢
  exact ⟨_, hbytes⟩

lemma lineStart_eq : (magic ++ text pre).length = lineStart pre := by
  rw [List.length_append, magic_length, lineStart]

lemma oldLen_bufOf (h : Fits (pre ++ ⟨k, v⟩ :: post)) :
    oldLen (bufOf (pre ++ ⟨k, v⟩ :: post)) (lineStart pre)
      (lineStart pre + k.bytes.length + 1 + v.bytes.length) = (lineOf k.bytes v.bytes).length := by
  obtain ⟨n, hsplit⟩ := bufOf_split h
  have hend : lineStart pre + k.bytes.length + 1 + v.bytes.length =
      (magic ++ text pre).length + (k.bytes ++ equals :: v.bytes).length := by
    rw [lineStart_eq, List.length_append, List.length_cons]
    omega
  have hnl : (bufOf (pre ++ ⟨k, v⟩ :: post)).bytes[
      lineStart pre + k.bytes.length + 1 + v.bytes.length]? = some newline := by
    rw [hsplit, hend, List.getElem?_append_right (Nat.le_add_right _ _), Nat.add_sub_cancel_left,
      lineOf, List.append_assoc, List.append_assoc, ← List.append_assoc k.bytes,
      List.getElem?_append_right (Nat.le_refl _), Nat.sub_self]
    rfl
  rw [oldLen, if_pos hnl, lineOf_length]
  omega

lemma cut_bufOf (h : Fits (pre ++ ⟨k, v⟩ :: post)) :
    (bufOf (pre ++ ⟨k, v⟩ :: post)).cut (lineStart pre) (lineOf k.bytes v.bytes).length =
      bufOf (pre ++ post) := by
  obtain ⟨n, hsplit⟩ := bufOf_split h
  rw [Sector.cut, hsplit, ← lineStart_eq, List.take_left, ← List.drop_drop, List.drop_left,
    List.drop_left, ← List.append_assoc, Sector.pad_append_zeros, bufOf, text_append,
    List.append_assoc]

lemma appendLine_bufOf (h : Fits bs) :
    appendLine (bufOf bs) k.bytes v.bytes = bufOf (bs ++ [⟨k, v⟩]) := by
  have hused : cfgUsed (bufOf bs) = (magic ++ text bs).length := by
    rw [cfgUsed_bufOf h, List.length_append, magic_length]
  have hzeros : ∀ n j, (lineOf k.bytes v.bytes ++ [(0 : UInt8)]) ++ (List.replicate n 0).drop j =
      lineOf k.bytes v.bytes ++ List.replicate (n - j + 1) 0 := by
    intro n j
    rw [List.drop_replicate, List.append_assoc]
    rfl
  have hbytes := (bufOf_bytes h).trans (List.append_assoc _ _ _).symm
  rw [appendLine, Sector.write, hused, hbytes, List.take_left, ← List.drop_drop, List.drop_left,
    List.append_assoc, hzeros, ← List.append_assoc,
    Sector.pad_append_zeros, bufOf, text_append, text_cons, text_nil, List.append_nil,
    List.append_assoc]

lemma value_bufOf (h : Fits (pre ++ ⟨k, v⟩ :: post)) :
    ((bufOf (pre ++ ⟨k, v⟩ :: post)).bytes.drop (lineStart pre + k.bytes.length + 1)).take
      v.bytes.length = v.bytes := by
  obtain ⟨n, hsplit⟩ := bufOf_split h
  rw [hsplit, ← lineStart_eq, Nat.add_assoc, ← List.drop_drop, List.drop_left, lineOf,
    List.append_assoc, List.append_assoc, ← List.drop_drop, List.drop_left]
  exact List.take_left

end Buffer

end NullOS.Boot
