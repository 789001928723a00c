import NullOS.Boot.Crash

/-!
# The boot configuration with any text in the sector

`bootcfg_read` accepts every sector that starts with the magic line.  `bootcfg_set` removes the
first line of the key and appends a new one to what is left: if that does not end with a newline the
new line is glued to it, and if it has another line of the key, that one is found first.
-/

namespace NullOS.Boot

open Lib

/-! ## Texts -/

/-- The finished lines, without their newlines, and what follows the last newline. -/
structure Text where
  lines : List (List UInt8)
  last : List UInt8
  lines_ok : ∀ l ∈ lines, newline ∉ l ∧ 0 ∉ l
  last_ok : newline ∉ last ∧ 0 ∉ last

namespace Text

variable {t : Text} {key line : List UInt8}

def joined (lines : List (List UInt8)) : List UInt8 := lines.flatMap fun l => l ++ [newline]

def bytes (t : Text) : List UInt8 := joined t.lines ++ t.last

def first (lines : List (List UInt8)) (key : List UInt8) : Option (List UInt8) :=
  (lines.find? (lineHas key)).map fun l => l.drop (key.length + 1)

/-- The value on the first line with the key.  The last part counts as a line. -/
def value (t : Text) (key : List UInt8) : Option (List UInt8) := first (t.lines ++ [t.last]) key

/-- The text without its first line with the key. -/
def erase (t : Text) (key : List UInt8) : Text :=
  if t.lines.any (lineHas key) then
    { t with
      lines := t.lines.eraseP (lineHas key)
      lines_ok := fun l hl => t.lines_ok l (List.mem_of_mem_eraseP hl) }
  else if lineHas key t.last then { t with last := [], last_ok := ⟨nofun, nofun⟩ }
  else t

def append (t : Text) (line : List UInt8) (h : newline ∉ line ∧ 0 ∉ line) : Text where
  lines := t.lines ++ [t.last ++ line]
  last := []
  lines_ok := by
    intro l hl
    rcases List.mem_append.mp hl with hl | hl
    · exact t.lines_ok l hl
    · rw [List.mem_singleton.mp hl, List.mem_append, List.mem_append]
      exact ⟨not_or.mpr ⟨t.last_ok.1, h.1⟩, not_or.mpr ⟨t.last_ok.2, h.2⟩⟩
  last_ok := ⟨nofun, nofun⟩

lemma joined_append (a b : List (List UInt8)) : joined (a ++ b) = joined a ++ joined b :=
  List.flatMap_append

lemma joined_cons (l : List UInt8) (a : List (List UInt8)) :
    joined (l :: a) = l ++ newline :: joined a := by
  rw [joined, List.flatMap_cons, List.append_assoc]
  rfl

lemma append_bytes (h : newline ∉ line ∧ 0 ∉ line) :
    (t.append line h).bytes = t.bytes ++ (line ++ [newline]) := by
  rw [bytes, append, joined_append, joined_cons, bytes]
  simp [joined]

lemma noNul : 0 ∉ t.bytes := by
  intro h
  rcases List.mem_append.mp h with h | h
  · obtain ⟨l, hl, h0⟩ := List.mem_flatMap.mp h
    rcases List.mem_append.mp h0 with h0 | h0
    · exact (t.lines_ok l hl).2 h0
    · exact absurd (List.mem_singleton.mp h0) (by decide)
  · exact t.last_ok.2 h

lemma exists_bytes {l : List UInt8} (h : 0 ∉ l) : ∃ t : Text, t.bytes = l := by
  induction l with
  | nil => exact ⟨⟨[], [], nofun, nofun, nofun⟩, rfl⟩
  | cons c l ih =>
    obtain ⟨hc0, h0⟩ := List.ne_and_not_mem_of_not_mem_cons h
    obtain ⟨⟨lines, last, hlines, hlast⟩, rfl⟩ := ih h0
    by_cases hc : c = newline
    · refine ⟨⟨[] :: lines, last, ?_, hlast⟩, ?_⟩
      · intro l hl
        rcases List.mem_cons.mp hl with rfl | hl
        · exact ⟨nofun, nofun⟩
        · exact hlines l hl
      · rw [hc]
        rfl
    · have hok : ∀ l : List UInt8, newline ∉ l ∧ 0 ∉ l → newline ∉ c :: l ∧ 0 ∉ c :: l := by
        rintro l ⟨hn, h0⟩
        exact ⟨List.not_mem_cons_of_ne_of_not_mem (Ne.symm hc) hn,
          List.not_mem_cons_of_ne_of_not_mem hc0 h0⟩
      cases lines with
      | nil => exact ⟨⟨[], c :: last, nofun, hok last hlast⟩, rfl⟩
      | cons l lines =>
        refine ⟨⟨(c :: l) :: lines, last, ?_, hlast⟩, rfl⟩
        intro l' hl'
        rcases List.mem_cons.mp hl' with rfl | hl'
        · exact hok l (hlines l List.mem_cons_self)
        · exact hlines l' (List.mem_cons_of_mem _ hl')

/-- Where the first line with the key is. -/
inductive Place (t : Text) (key : List UInt8) : Prop
  | lines {pre post : List (List UInt8)} {l : List UInt8} : (∀ m ∈ pre, lineHas key m = false) →
      lineHas key l = true → t.lines = pre ++ l :: post →
      t.lines.eraseP (lineHas key) = pre ++ post → Place t key
  | last : (∀ m ∈ t.lines, lineHas key m = false) → lineHas key t.last = true → Place t key
  | absent : (∀ m ∈ t.lines, lineHas key m = false) → lineHas key t.last = false → Place t key

lemma place (t : Text) (key : List UInt8) : Place t key := by
  by_cases h : ∃ l ∈ t.lines, lineHas key l = true
  · obtain ⟨l, hl, hkey⟩ := h
    obtain ⟨l, pre, post, hpre, hkey, heq, herase⟩ := List.exists_of_eraseP hl hkey
    exact .lines (fun m hm => Bool.eq_false_iff.mpr (hpre m hm)) hkey heq herase
  · have hno : ∀ m ∈ t.lines, lineHas key m = false := fun m hm =>
      Bool.eq_false_iff.mpr fun hkey => h ⟨m, hm, hkey⟩
    cases hlast : lineHas key t.last with
    | true => exact .last hno hlast
    | false => exact .absent hno hlast

lemma any_eq_false (h : ∀ m ∈ t.lines, lineHas key m = false) :
    ¬t.lines.any (lineHas key) = true := by
  rw [List.any_eq_true]
  rintro ⟨m, hm, hkey⟩
  exact Bool.eq_false_iff.mp (h m hm) hkey

lemma erase_lines {pre post : List (List UInt8)} {l : List UInt8} (hkey : lineHas key l = true)
    (hlines : t.lines = pre ++ l :: post) (herase : t.lines.eraseP (lineHas key) = pre ++ post) :
    (t.erase key).lines = pre ++ post ∧ (t.erase key).last = t.last := by
  have hany : t.lines.any (lineHas key) = true := by
    rw [List.any_eq_true]
    exact ⟨l, by simp [hlines], hkey⟩
  rw [erase, if_pos hany]
  exact ⟨herase, rfl⟩

lemma erase_last (hno : ∀ m ∈ t.lines, lineHas key m = false) (hkey : lineHas key t.last = true) :
    (t.erase key).lines = t.lines ∧ (t.erase key).last = [] := by
  rw [erase, if_neg (any_eq_false hno), if_pos hkey]
  exact ⟨rfl, rfl⟩

lemma erase_absent (hno : ∀ m ∈ t.lines, lineHas key m = false)
    (hkey : lineHas key t.last = false) : t.erase key = t := by
  rw [erase, if_neg (any_eq_false hno), if_neg (Bool.eq_false_iff.mp hkey)]

/-! ## The value of a key -/

section First

variable {a b : List (List UInt8)} {l : List UInt8}

lemma first_append : first (a ++ b) key = (first a key).or (first b key) := by
  rw [first, List.find?_append, first, first]
  cases a.find? (lineHas key) <;> rfl

lemma first_eq_none : first a key = none ↔ ∀ m ∈ a, lineHas key m = false := by
  rw [first, Option.map_eq_none_iff, List.find?_eq_none]
  exact forall₂_congr fun m _ => Bool.eq_false_iff.symm

lemma first_one (h : lineHas key l = true) : first [l] key = some (l.drop (key.length + 1)) := by
  rw [first, List.find?_cons_of_pos h]
  rfl

lemma first_one_none (h : lineHas key l = false) : first [l] key = none :=
  first_eq_none.mpr fun m hm => by rwa [List.mem_singleton.mp hm]

end First

lemma lineHas_nil : lineHas key [] = false := rfl

lemma value_append (h : newline ∉ line ∧ 0 ∉ line) :
    (t.append line h).value key = (first t.lines key).or (first [t.last ++ line] key) := by
  show first ((t.lines ++ [t.last ++ line]) ++ [[]]) key = _
  rw [first_append, first_append, first_one_none lineHas_nil, Option.or_none]

lemma lineHas_unique {k k' : Key} {l : List UInt8} (hne : k' ≠ k) (h : lineHas k.bytes l = true) :
    lineHas k'.bytes l = false := by
  obtain ⟨w, rfl⟩ := lineHas_iff.mp h
  rw [List.append_assoc]
  exact Bool.eq_false_iff.mpr (mt (lineHas_binding k').mp hne)

lemma value_erase_of_ne {k k' : Key} (hne : k' ≠ k) :
    (t.erase k.bytes).value k'.bytes = t.value k'.bytes := by
  have hskip : ∀ l, lineHas k.bytes l = true → first [l] k'.bytes = none := fun l hl =>
    first_one_none (lineHas_unique hne hl)
  rw [value, value]
  rcases t.place k.bytes with ⟨-, hkey, hlines, herase⟩ | ⟨hno, hkey⟩ | ⟨hno, hkey⟩
  · obtain ⟨h1, h2⟩ := erase_lines hkey hlines herase
    rename_i pre post l
    have hcons : l :: post = [l] ++ post := rfl
    rw [h1, h2, hlines, hcons]
    simp only [first_append, hskip l hkey, Option.none_or]
  · obtain ⟨h1, h2⟩ := erase_last hno hkey
    rw [h1, h2, first_append, first_append, hskip _ hkey, first_one_none lineHas_nil]
  · rw [erase_absent hno hkey]

end Text

/-! ## Buffers that hold a text -/

/-- The text of a buffer ends at the first NUL. -/
def Stores (buf : Sector) (t : Text) : Prop :=
  ∃ junk, buf.bytes = magic ++ (t.bytes ++ 0 :: junk)

/-- `bootcfg_read` has loaded this buffer from a sector with the magic line. -/
def Loaded (buf : Sector) : Prop := ∃ read, bootcfgRead read = (1, ⟨buf, true⟩)

lemma Sector.terminate_bytes (buf : Sector) : buf.terminate.bytes = buf.bytes.take 511 ++ [0] := by
  have hlen : (buf.bytes.take 511).length = 511 := by
    rw [List.length_take, buf.length_eq]
    rfl
  rw [Sector.terminate, Sector.pad_bytes (by omega), hlen]
  rfl

lemma stores_terminate {raw : Sector} (h : hasMagic raw = true) : ∃ t, Stores raw.terminate t := by
  obtain ⟨rest, hrest⟩ := List.isPrefixOf_iff_prefix.mp h
  have hbytes : raw.terminate.bytes = magic ++ (rest.take 492 ++ [0]) := by
    rw [Sector.terminate_bytes, ← hrest, List.take_append, magic_length,
      List.take_of_length_le (by rw [magic_length]; decide), List.append_assoc]
    rfl
  obtain ⟨before, junk, hsplit, hnot⟩ := List.eq_append_cons_of_mem
    (List.mem_append_right (rest.take 492) (List.mem_singleton_self (0 : UInt8)))
  obtain ⟨t, ht⟩ := Text.exists_bytes hnot
  exact ⟨t, junk, by rw [hbytes, hsplit, ht]⟩

lemma Loaded.stores {buf : Sector} (h : Loaded buf) : ∃ t, Stores buf t := by
  obtain ⟨read, hread⟩ := h
  unfold bootcfgRead at hread
  split at hread
  · cases hread
  · split at hread
    · cases hread
    · split at hread
      · next hmagic =>
        cases hread
        exact stores_terminate hmagic
      · cases hread

section FindFrom

variable {key rest : List UInt8} {ls : Nat}

lemma findFrom_joined {lines : List (List UInt8)} (hok : ∀ l ∈ lines, newline ∉ l ∧ 0 ∉ l)
    (hno : ∀ l ∈ lines, lineHas key l = false) :
    findFrom key ls [] (Text.joined lines ++ rest) =
      findFrom key (ls + (Text.joined lines).length) [] rest := by
  induction lines generalizing ls with
  | nil => rfl
  | cons l lines ih =>
    obtain ⟨hn, h0⟩ := hok l List.mem_cons_self
    have hkey : ¬lineHas key ([] ++ l) = true := Bool.eq_false_iff.mp (hno l List.mem_cons_self)
    rw [Text.joined_cons, List.append_assoc, List.cons_append, findFrom_line h0 hn, if_neg hkey,
      ih (fun m hm => hok m (List.mem_cons_of_mem l hm))
        (fun m hm => hno m (List.mem_cons_of_mem l hm))]
    congr 1
    simp only [List.nil_append, List.length_append, List.length_cons]
    omega

lemma findFrom_last {line part : List UInt8} (hn : newline ∉ part) (h0 : 0 ∉ part) :
    findFrom key ls line (part ++ 0 :: rest) =
      if lineHas key (line ++ part) then
        some (ls, ls + key.length + 1, ls + (line ++ part).length)
      else none := by
  induction part generalizing line with
  | nil => rw [List.nil_append, List.append_nil, findFrom, if_pos rfl]
  | cons c part ih =>
    obtain ⟨hc0, h0⟩ := List.ne_and_not_mem_of_not_mem_cons h0
    obtain ⟨hcn, hn⟩ := List.ne_and_not_mem_of_not_mem_cons hn
    rw [List.cons_append, findFrom, if_neg (Ne.symm hc0), if_neg (Ne.symm hcn), ih hn h0,
      List.append_assoc]
    rfl

end FindFrom

/-- What `find_key` finds: between `pre` and `rest` there is the first line with the key, with its
newline if it has one. -/
structure Found (buf : Sector) (t : Text) (key pre line old rest : List UInt8) : Prop where
  find : findKey buf key =
    some (pre.length, pre.length + key.length + 1, pre.length + line.length)
  has : lineHas key line = true
  value : t.value key = some (line.drop (key.length + 1))
  bytes : buf.bytes = pre ++ (old ++ rest)
  starts : line <+: old
  oldLen : oldLen buf pre.length (pre.length + line.length) = old.length
  erased : ∃ junk, pre ++ rest = magic ++ ((t.erase key).bytes ++ 0 :: junk)
  length : t.bytes.length = (t.erase key).bytes.length + old.length
  more : rest ≠ []

section Find

variable {buf : Sector} {t : Text} {key junk : List UInt8}

lemma drop_magic (h : buf.bytes = magic ++ (t.bytes ++ 0 :: junk)) :
    buf.bytes.drop magicLen = Text.joined t.lines ++ (t.last ++ 0 :: junk) := by
  rw [h, ← magic_length, List.drop_left, Text.bytes, List.append_assoc]

lemma magic_append_length (l : List UInt8) : (magic ++ l).length = magicLen + l.length := by
  rw [List.length_append, magic_length]

lemma getElem?_after {pre line rest : List UInt8} {c : UInt8}
    (h : buf.bytes = pre ++ (line ++ c :: rest)) :
    buf.bytes[pre.length + line.length]? = some c := by
  rw [h, List.getElem?_append_right (Nat.le_add_right _ _), Nat.add_sub_cancel_left,
    List.getElem?_append_right (Nat.le_refl _), Nat.sub_self]
  rfl

lemma found_lines (h : buf.bytes = magic ++ (t.bytes ++ 0 :: junk)) {pre post : List (List UInt8)}
    {l : List UInt8} (hpre : ∀ m ∈ pre, lineHas key m = false) (hkey : lineHas key l = true)
    (hlines : t.lines = pre ++ l :: post) (herase : t.lines.eraseP (lineHas key) = pre ++ post) :
    Found buf t key (magic ++ Text.joined pre) l (l ++ [newline])
      (Text.joined post ++ (t.last ++ 0 :: junk)) := by
  have hok : ∀ m ∈ pre, newline ∉ m ∧ 0 ∉ m := fun m hm => t.lines_ok m (by simp [hlines, hm])
  obtain ⟨hn, h0⟩ := t.lines_ok l (by simp [hlines])
  have hall : buf.bytes = (magic ++ Text.joined pre) ++
      (l ++ newline :: (Text.joined post ++ (t.last ++ 0 :: junk))) := by
    rw [h, Text.bytes, hlines, Text.joined_append, Text.joined_cons]
    simp only [List.append_assoc, List.cons_append]
  obtain ⟨h1, h2⟩ := Text.erase_lines hkey hlines herase
  refine ⟨?_, hkey, ?_, ?_, List.prefix_append _ _, ?_, ⟨junk, ?_⟩, ?_, by simp⟩
  · rw [findKey, drop_magic h, hlines, Text.joined_append, List.append_assoc,
      findFrom_joined hok hpre, Text.joined_cons, List.append_assoc, List.cons_append,
      findFrom_line h0 hn, List.nil_append, if_pos hkey, magic_append_length]
  · have hcons : l :: post = [l] ++ post := rfl
    rw [Text.value, hlines, hcons, Text.first_append, Text.first_append, Text.first_append,
      Text.first_eq_none.mpr hpre, Text.first_one hkey]
    rfl
  · rw [hall, List.append_assoc l]
    rfl
  · rw [oldLen, if_pos (getElem?_after hall), Nat.add_sub_cancel_left, List.length_append]
    rfl
  · rw [Text.bytes, h1, h2, Text.joined_append]
    simp only [List.append_assoc]
  · rw [Text.bytes, Text.bytes, h1, h2, hlines, Text.joined_append, Text.joined_append,
      Text.joined_cons]
    simp only [List.length_append, List.length_cons, List.length_nil]
    omega

lemma found_last (h : buf.bytes = magic ++ (t.bytes ++ 0 :: junk))
    (hno : ∀ m ∈ t.lines, lineHas key m = false) (hkey : lineHas key t.last = true) :
    Found buf t key (magic ++ Text.joined t.lines) t.last t.last (0 :: junk) := by
  have hall : buf.bytes = (magic ++ Text.joined t.lines) ++ (t.last ++ 0 :: junk) := by
    rw [h, Text.bytes]
    simp only [List.append_assoc]
  obtain ⟨h1, h2⟩ := Text.erase_last hno hkey
  refine ⟨?_, hkey, ?_, hall, List.prefix_rfl, ?_, ⟨junk, ?_⟩, ?_, by simp⟩
  · rw [findKey, drop_magic h, findFrom_joined t.lines_ok hno,
      findFrom_last t.last_ok.1 t.last_ok.2, List.nil_append, if_pos hkey, magic_append_length]
  · rw [Text.value, Text.first_append, Text.first_eq_none.mpr hno, Text.first_one hkey]
    rfl
  · rw [oldLen, getElem?_after hall, if_neg (by decide), Nat.add_sub_cancel_left]
    rfl
  · rw [Text.bytes, h1, h2]
    simp only [List.append_assoc, List.nil_append]
  · rw [Text.bytes, Text.bytes, h1, h2, List.append_nil, List.length_append]

end Find

namespace Stores

variable {buf : Sector} {t : Text} {key : List UInt8}

lemma find (h : Stores buf t) (key : List UInt8) :
    (findKey buf key = none ∧ t.value key = none ∧ t.erase key = t) ∨
      ∃ pre line old rest, Found buf t key pre line old rest := by
  obtain ⟨junk, hbytes⟩ := h
  rcases t.place key with ⟨hpre, hkey, hlines, herase⟩ | ⟨hno, hkey⟩ | ⟨hno, hkey⟩
  · exact .inr ⟨_, _, _, _, found_lines hbytes hpre hkey hlines herase⟩
  · exact .inr ⟨_, _, _, _, found_last hbytes hno hkey⟩
  · refine .inl ⟨?_, ?_, Text.erase_absent hno hkey⟩
    · rw [findKey, drop_magic hbytes, findFrom_joined t.lines_ok hno,
        findFrom_last t.last_ok.1 t.last_ok.2, List.nil_append, if_neg (Bool.eq_false_iff.mp hkey)]
    · rw [Text.value, Text.first_append, Text.first_eq_none.mpr hno, Text.first_one_none hkey]
      rfl

lemma used (h : Stores buf t) : cfgUsed buf = magicLen + t.bytes.length := by
  obtain ⟨junk, hbytes⟩ := h
  have htext : ∀ c ∈ t.bytes, decide (c ≠ 0) = true := fun c hc =>
    decide_eq_true fun h0 => t.noNul (h0 ▸ hc)
  rw [cfgUsed, hbytes, ← magic_length, List.drop_left, List.takeWhile_append_of_pos htext,
    List.takeWhile_cons_of_neg (by decide), List.append_nil]

lemma cut {pre line old rest : List UInt8} (hf : Found buf t key pre line old rest) :
    Stores (buf.cut pre.length (oldLen buf pre.length (pre.length + line.length)))
    (t.erase key) := by
  obtain ⟨junk, hrest⟩ := hf.erased
  have hlen : (pre ++ rest).length ≤ 512 := by
    have hbuf := buf.length_eq
    rw [hf.bytes] at hbuf
    simp only [List.length_append] at hbuf ⊢
    omega
  refine ⟨junk ++ List.replicate (512 - (pre ++ rest).length) 0, ?_⟩
  rw [Sector.cut, hf.oldLen, hf.bytes, List.take_left, ← List.drop_drop, List.drop_left,
    List.drop_left, Sector.pad_bytes hlen, hrest]
  simp only [List.append_assoc, List.cons_append]

lemma appendLine (h : Stores buf t) {value : List UInt8}
    (hline : newline ∉ key ++ equals :: value ∧ 0 ∉ key ++ equals :: value)
    (hroom : cfgUsed buf + (lineOf key value).length ≤ 511) :
    Stores (appendLine buf key value) (t.append (key ++ equals :: value) hline) := by
  have hused := h.used
  obtain ⟨junk, hbytes⟩ := h
  have hall : buf.bytes = (magic ++ t.bytes) ++ 0 :: junk := by rw [hbytes, List.append_assoc]
  have hat : cfgUsed buf = (magic ++ t.bytes).length := by rw [hused, magic_append_length]
  generalize hjunk : (0 :: junk).drop (lineOf key value ++ [0]).length = rest
  have hbuf := buf.length_eq
  have hlen : ((magic ++ t.bytes) ++ (lineOf key value ++ [0]) ++ rest).length ≤ 512 := by
    rw [hall] at hbuf
    rw [hat] at hroom
    rw [← hjunk]
    simp only [List.length_append, List.length_drop, List.length_cons, List.length_nil]
      at hbuf hroom ⊢
    omega
  refine ⟨rest ++ List.replicate
    (512 - ((magic ++ t.bytes) ++ (lineOf key value ++ [0]) ++ rest).length) 0, ?_⟩
  rw [Boot.appendLine, Sector.write, hat, hall, List.take_left, ← List.drop_drop, List.drop_left,
    hjunk, Sector.pad_bytes hlen, Text.append_bytes, lineOf]
  simp only [List.append_assoc, List.cons_append, List.nil_append]

lemma get (h : Stores buf t) (k : Key) {max : Int} (hmax : 0 < max) :
    bootcfgBufGet buf k.toCStr max =
      (t.value k.bytes).map fun w => w.take (max - 1).toNat := by
  have hguard : ¬(max ≤ 0 ∨ keyValid k.bytes = false) := by
    simp [k.valid, hmax]
  rw [bootcfgBufGet, if_neg hguard]
  rcases h.find k.bytes with ⟨hnone, hvalue, -⟩ | ⟨pre, line, old, rest, hf⟩
  · rw [hnone, hvalue]
    rfl
  · obtain ⟨sep, rfl⟩ := hf.starts
    obtain ⟨w, hw⟩ := lineHas_iff.mp hf.has
    have hdrop : buf.bytes.drop (pre.length + k.bytes.length + 1) =
        line.drop (k.bytes.length + 1) ++ (sep ++ rest) := by
      rw [hf.bytes, Nat.add_assoc, ← List.drop_drop, List.drop_left, List.append_assoc,
        List.drop_append_of_le_length]
      rw [← hw]
      simp
    have hlen : pre.length + line.length - (pre.length + k.bytes.length + 1) =
        (line.drop (k.bytes.length + 1)).length := by
      rw [List.length_drop]
      omega
    rw [hf.find, hf.value]
    simp only [Option.map_some, Option.some.injEq]
    rw [hdrop, hlen, Nat.min_comm, ← List.take_take, List.take_left]

lemma remove (h : Stores buf t) (k : Key) :
    Stores (bootcfgBufRemove buf k.toCStr).2 (t.erase k.bytes) := by
  rw [bootcfgBufRemove, if_neg (by simp [k.valid])]
  rcases h.find k.bytes with ⟨hnone, -, herase⟩ | ⟨pre, line, old, rest, hf⟩
  · rw [hnone, herase]
    exact h
  · rw [hf.find]
    exact cut hf

end Stores

lemma binding_ok (k : Key) (v : Value) :
    newline ∉ k.bytes ++ equals :: v.bytes ∧ 0 ∉ k.bytes ++ equals :: v.bytes :=
  ⟨by simp [k.noNewline, v.noNewline, show newline ≠ equals by decide],
    by simp [k.noNul, v.noNul, equals]⟩

namespace Stores

variable {buf buf' : Sector} {t : Text} {k : Key} {v : Value}

/-- A `bootcfg_set` that returns 0 appends a line to the text without the first line of the key, and
there is room for it. -/
lemma set (h : Stores buf t) (hset : bootcfgBufSet buf k.toCStr v.toCStr = (0, buf')) :
    cfgUsed (bootcfgBufRemove buf k.toCStr).2 + (lineOf k.bytes v.bytes).length ≤ 511 ∧
      Stores buf' ((t.erase k.bytes).append (k.bytes ++ equals :: v.bytes) (binding_ok k v)) := by
  have hremove := h.remove k
  rw [bootcfgBufRemove, if_neg (by simp [k.valid])] at hremove ⊢
  rw [bootcfgBufSet, if_neg (by simp [k.valid]), if_neg v.noNewline] at hset
  rcases h.find k.bytes with ⟨hnone, -, -⟩ | ⟨pre, line, old, rest, hf⟩
  · rw [hnone] at hset hremove ⊢
    dsimp only at hset hremove ⊢
    split at hset
    · cases hset
    · next hroom =>
      cases hset
      have hroom : cfgUsed buf + (lineOf k.bytes v.bytes).length ≤ 511 := by
        rw [lineOf_length]
        exact Nat.not_lt.mp hroom
      exact ⟨hroom, hremove.appendLine _ hroom⟩
  · have hused : cfgUsed buf - old.length = magicLen + (t.erase k.bytes).bytes.length := by
      rw [h.used, hf.length, ← Nat.add_assoc, Nat.add_sub_cancel]
    rw [hf.find] at hset hremove ⊢
    dsimp only at hset hremove ⊢
    split at hset
    · cases hset
    · next hroom =>
      cases hset
      have hroom : cfgUsed (buf.cut pre.length (oldLen buf pre.length (pre.length + line.length))) +
          (lineOf k.bytes v.bytes).length ≤ 511 := by
        rw [lineOf_length, hremove.used, ← hused, ← hf.oldLen]
        exact Nat.not_lt.mp hroom
      exact ⟨hroom, hremove.appendLine _ hroom⟩

end Stores

/-! ## What a new line does -/

/-- What `bootcfg_set` is for: the key has the value now, and other keys deliver what they did. -/
def Tolerated (buf : Sector) (key value : CStr) (buf' : Sector) : Prop :=
  (∀ max : Int, value.length < max → bootcfgBufGet buf' key max = some value.bytes) ∧
    ∀ key', key' ≠ key → ∀ max, bootcfgBufGet buf' key' max = bootcfgBufGet buf key' max

/-- The text, without the first line of the key, is one to which a line for it can be appended. -/
structure Ready (e : Text) (key value : CStr) : Prop where
  /-- Another line with the key has the new value. -/
  again : ∀ w, Text.first e.lines key.bytes = some w → w = value.bytes
  /-- If the last line has no newline, there is another line of the key, and the line that the new
  one makes with the last one is not found for any key. -/
  glued : e.last ≠ [] → Text.first e.lines key.bytes ≠ none ∧
    ∀ k : Key, k.toCStr ≠ key → Text.first e.lines k.bytes = none →
      lineHas k.bytes (e.last ++ (key.bytes ++ equals :: value.bytes)) = false

section Line

variable {e : Text} {k k' : Key} {v : Value}

lemma not_lineHas_glued {last w : List UInt8} (hne : last ≠ [])
    (hlast : lineHas k.bytes last = false) :
    lineHas k.bytes (last ++ (k.bytes ++ equals :: w)) = false := by
  refine Bool.eq_false_iff.mpr fun h => ?_
  have hpre := lineHas_iff.mp h
  rcases Nat.lt_or_ge k.bytes.length last.length with hlt | hge
  -- The `'='` would stand in `last`, or among the characters of the key.
  · have hin : k.bytes ++ [equals] <+: last :=
      List.prefix_of_prefix_length_le hpre (List.prefix_append _ _)
        (by rw [List.length_append]; exact hlt)
    exact Bool.eq_false_iff.mp hlast (lineHas_iff.mpr hin)
  · have hpos := List.length_pos_of_ne_nil hne
    have hidx : k.bytes.length - last.length < k.bytes.length := by
      have := List.length_pos_of_ne_nil hne
      omega
    have hget := (List.prefix_iff_getElem?.mp hpre) k.bytes.length (by simp)
    rw [List.getElem?_append_right hge, List.getElem?_append_left hidx] at hget
    refine k.noEquals ?_
    have hmem := List.mem_of_getElem? hget
    simpa using hmem

lemma lineHas_append {key l : List UInt8} (m : List UInt8) (h : lineHas key l = true) :
    lineHas key (l ++ m) = true :=
  lineHas_iff.mpr ((lineHas_iff.mp h).trans (List.prefix_append _ _))

lemma first_glued {key l : List UInt8} (m : List UInt8) (h : lineHas key l = true) :
    Text.first [l ++ m] key = some (l.drop (key.length + 1) ++ m) := by
  have hlen : key.length + 1 ≤ l.length := by
    have hle := (lineHas_iff.mp h).length_le
    rwa [List.length_append] at hle
  rw [Text.first_one (lineHas_append m h), List.drop_append_of_le_length hlen]

lemma first_binding : Text.first [k.bytes ++ equals :: v.bytes] k.bytes = some v.bytes := by
  rw [Text.first_one ((lineHas_binding k).mpr rfl)]
  simp

lemma value_set_iff :
    (e.append (k.bytes ++ equals :: v.bytes) (binding_ok k v)).value k.bytes = some v.bytes ↔
      (∀ w, Text.first e.lines k.bytes = some w → w = v.bytes) ∧
        (e.last ≠ [] → Text.first e.lines k.bytes ≠ none) := by
  rw [Text.value_append]
  cases hfirst : Text.first e.lines k.bytes with
  | some w => simp
  | none =>
    rw [Option.none_or]
    simp only [reduceCtorEq, false_imp_iff, implies_true, true_and, ne_eq, not_true_eq_false,
      imp_false, not_not]
    constructor
    · intro h
      by_contra hne
      cases hlast : lineHas k.bytes e.last with
      | true =>
        rw [first_glued _ hlast, Option.some.injEq] at h
        have hlen := congrArg List.length h
        simp only [List.length_append, List.length_cons] at hlen
        omega
      | false =>
        rw [Text.first_one_none (not_lineHas_glued hne hlast)] at h
        cases h
    · intro h
      rw [h]
      exact first_binding

lemma value_set_other_iff (hne : k' ≠ k) :
    (e.append (k.bytes ++ equals :: v.bytes) (binding_ok k v)).value k'.bytes = e.value k'.bytes ↔
      (e.last ≠ [] → Text.first e.lines k'.bytes = none →
        lineHas k'.bytes (e.last ++ (k.bytes ++ equals :: v.bytes)) = false) := by
  rw [Text.value_append, Text.value, Text.first_append]
  cases hfirst : Text.first e.lines k'.bytes with
  | some w => simp
  | none =>
    rw [Option.none_or, Option.none_or]
    by_cases hlast : e.last = []
    · have hline : lineHas k'.bytes (k.bytes ++ equals :: v.bytes) = false :=
        Bool.eq_false_iff.mpr (mt (lineHas_binding k').mp hne)
      rw [hlast, List.nil_append, Text.first_one_none hline, Text.first_one_none Text.lineHas_nil]
      simp
    · simp only [ne_eq, hlast, not_false_eq_true, forall_const]
      constructor
      · intro h
        refine Bool.eq_false_iff.mpr fun hhas => ?_
        cases hold : lineHas k'.bytes e.last with
        | false =>
          rw [Text.first_one hhas, Text.first_one_none hold] at h
          cases h
        | true =>
          rw [first_glued _ hold, Text.first_one hold, Option.some.injEq] at h
          have hlen := congrArg List.length h
          simp only [List.length_append, List.length_cons] at hlen
          omega
      · intro h
        have hold : lineHas k'.bytes e.last = false :=
          Bool.eq_false_iff.mpr fun hold => Bool.eq_false_iff.mp h (lineHas_append _ hold)
        rw [Text.first_one_none h, Text.first_one_none hold]

end Line

/-! ## The calls on any text -/

variable {buf buf' : Sector} {t t' : Text}

lemma get_invalid {key : CStr} (h : keyValid key.bytes = false) (max : Int) :
    bootcfgBufGet buf key max = none := by
  rw [bootcfgBufGet, if_pos (.inr h)]

/-- Two texts deliver the same for a key if and only if they hold the same value. -/
lemma get_congr_iff (h : Stores buf t) (h' : Stores buf' t') (k : Key) :
    (∀ max, bootcfgBufGet buf' k.toCStr max = bootcfgBufGet buf k.toCStr max) ↔
      t'.value k.bytes = t.value k.bytes := by
  constructor
  · intro hget
    have hbig : ∀ w : Option (List UInt8), ∀ n : Nat, (∀ l ∈ w, l.length ≤ n) →
        w.map (fun l => l.take n) = w := by
      intro w n hw
      cases w with
      | none => rfl
      | some l => rw [Option.map_some, List.take_of_length_le (hw l rfl)]
    obtain ⟨n, hn⟩ : ∃ n : Nat, (∀ l ∈ t'.value k.bytes, l.length ≤ n) ∧
        ∀ l ∈ t.value k.bytes, l.length ≤ n := by
      refine ⟨((t'.value k.bytes).getD []).length + ((t.value k.bytes).getD []).length, ?_, ?_⟩
      · intro l hl
        rw [Option.mem_def.mp hl]
        exact Nat.le_add_right _ _
      · intro l hl
        rw [Option.mem_def.mp hl]
        exact Nat.le_add_left _ _
    have hmax := hget (n + 1)
    rw [h.get k (by omega), h'.get k (by omega), Int.add_sub_cancel, Int.toNat_natCast,
      hbig _ n hn.1, hbig _ n hn.2] at hmax
    exact hmax
  · intro hvalue max
    rcases lt_or_ge 0 max with hmax | hmax
    · rw [h.get k hmax, h'.get k hmax, hvalue]
    · rw [bootcfgBufGet, bootcfgBufGet, if_pos (.inl hmax), if_pos (.inl hmax)]

/-- With room for it, a value is delivered if and only if the text holds it. -/
lemma get_value_iff (h : Stores buf t) (k : Key) (v : Value) :
    (∀ max : Int, v.toCStr.length < max → bootcfgBufGet buf k.toCStr max = some v.bytes) ↔
      t.value k.bytes = some v.bytes := by
  constructor
  · intro hget
    -- A room that is large enough for either value.
    have hmax := hget (v.bytes.length + ((t.value k.bytes).getD []).length + 1) (by
      simp only [CStr.length]
      omega)
    rw [h.get k (by omega)] at hmax
    cases hvalue : t.value k.bytes with
    | none =>
      rw [hvalue] at hmax
      cases hmax
    | some w =>
      rw [hvalue, Option.map_some, Option.some.injEq, List.take_of_length_le] at hmax
      · rw [hmax]
      · simp only [Option.getD_some]
        omega
  · intro hvalue max hmax
    simp only [CStr.length] at hmax
    rw [h.get k (by omega), hvalue, Option.map_some, List.take_of_length_le (by omega)]

lemma others_iff {k : Key} {v : Value} (h : Stores buf t)
    (hnew : Stores buf'
      ((t.erase k.bytes).append (k.bytes ++ equals :: v.bytes) (binding_ok k v))) :
    (∀ key', key' ≠ k.toCStr → ∀ max, bootcfgBufGet buf' key' max = bootcfgBufGet buf key' max) ↔
      ∀ k' : Key, k'.toCStr ≠ k.toCStr → (t.erase k.bytes).last ≠ [] →
        Text.first (t.erase k.bytes).lines k'.bytes = none →
          lineHas k'.bytes ((t.erase k.bytes).last ++ (k.bytes ++ equals :: v.bytes)) = false := by
  have hone : ∀ k' : Key, k'.toCStr ≠ k.toCStr →
      ((∀ max, bootcfgBufGet buf' k'.toCStr max = bootcfgBufGet buf k'.toCStr max) ↔
        ((t.erase k.bytes).last ≠ [] → Text.first (t.erase k.bytes).lines k'.bytes = none →
          lineHas k'.bytes ((t.erase k.bytes).last ++ (k.bytes ++ equals :: v.bytes)) =
          false)) := by
    intro k' hne
    have hkey : k' ≠ k := fun heq => hne (congrArg Key.toCStr heq)
    rw [get_congr_iff h hnew, ← Text.value_erase_of_ne (t := t) hkey, value_set_other_iff hkey]
  constructor
  · intro hall k' hne
    exact (hone k' hne).mp (hall k'.toCStr hne)
  · intro hall key' hne max
    by_cases hk' : keyValid key'.bytes = true
    · exact (hone ⟨key', hk'⟩ hne).mpr (hall ⟨key', hk'⟩ hne) max
    · rw [get_invalid (by simpa using hk'), get_invalid (by simpa using hk')]

lemma set_zero {key value : CStr} (hset : bootcfgBufSet buf key value = (0, buf')) :
    ∃ (k : Key) (v : Value), k.toCStr = key ∧ v.toCStr = value := by
  by_cases hk : keyValid key.bytes = true
  · by_cases hv : newline ∈ value.bytes
    · rw [bootcfgBufSet, if_neg (by simp [hk]), if_pos hv] at hset
      cases hset
    · exact ⟨⟨key, hk⟩, ⟨value, hv⟩, rfl, rfl⟩
  · rw [bootcfgBufSet, if_pos (by simpa using hk)] at hset
    cases hset

lemma tolerated_iff {key value : CStr} (h : Stores buf t)
    (hset : bootcfgBufSet buf key value = (0, buf')) :
    Tolerated buf key value buf' ↔ Ready (t.erase key.bytes) key value := by
  obtain ⟨k, v, rfl, rfl⟩ := set_zero hset
  obtain ⟨-, hnew⟩ := h.set hset
  rw [Tolerated, get_value_iff hnew, value_set_iff, others_iff h hnew]
  constructor
  · rintro ⟨⟨hagain, hkey⟩, hglued⟩
    exact ⟨hagain, fun hlast => ⟨hkey hlast, fun k' hne => hglued k' hne hlast⟩⟩
  · rintro ⟨hagain, hglued⟩
    exact ⟨⟨hagain, fun hlast => (hglued hlast).1⟩, fun k' hne hlast => (hglued hlast).2 k' hne⟩

lemma set_refused {key value : CStr} (h : (bootcfgBufSet buf key value).1 ≠ 0) :
    (bootcfgBufSet buf key value).2 = buf := by
  revert h
  fun_cases bootcfgBufSet buf key value <;> simp

lemma Stores.step {c : BufCall} (h : Stores buf t) (hstep : bufStep buf c = some buf') :
    ∃ t', Stores buf' t' := by
  cases c with
  | set key value =>
    cases hstep
    by_cases hzero : (bootcfgBufSet buf key value).1 = 0
    · have hset : bootcfgBufSet buf key value = (0, (bootcfgBufSet buf key value).2) :=
        Prod.ext hzero rfl
      obtain ⟨k, v, rfl, rfl⟩ := set_zero hset
      exact ⟨_, (h.set hset).2⟩
    · exact ⟨t, by rwa [set_refused hzero]⟩
  | remove key =>
    cases hstep
    by_cases hk : keyValid key.bytes = true
    · exact ⟨_, h.remove ⟨key, hk⟩⟩
    · refine ⟨t, ?_⟩
      rw [bootcfgBufRemove, if_pos (by simpa using hk)]
      exact h

/-- The indices that the functions use without comparing them with `SECTOR_SIZE` are in the sector.
-/
structure InBounds (buf : Sector) : Prop where
  line : ∀ key ls vs le, findKey buf key = some (ls, vs, le) → ls < vs ∧ vs ≤ le ∧ le < 512
  append : ∀ key value buf', bootcfgBufSet buf key value = (0, buf') →
    cfgUsed (bootcfgBufRemove buf key).2 + (lineOf key.bytes value.bytes).length < 512

lemma Stores.inBounds (h : Stores buf t) : InBounds buf where
  line := by
    intro key ls vs le hfind
    rcases h.find key with ⟨hnone, -, -⟩ | ⟨pre, line, old, rest, hf⟩
    · rw [hnone] at hfind
      cases hfind
    · rw [hf.find] at hfind
      cases hfind
      have hkey := (lineHas_iff.mp hf.has).length_le
      have hold := hf.starts.length_le
      have hrest := List.length_pos_of_ne_nil hf.more
      have hbuf := buf.length_eq
      rw [hf.bytes] at hbuf
      simp only [List.length_append, List.length_singleton] at hkey hbuf
      omega
  append := by
    intro key value buf' hset
    obtain ⟨k, v, rfl, rfl⟩ := set_zero hset
    exact Nat.lt_succ_of_le (h.set hset).1

lemma exists_stores (h : Reach bufStep Loaded buf) : ∃ t, Stores buf t := by
  refine h.invariant (I := fun buf => ∃ t, Stores buf t) (fun s hs => hs.stores) ?_
  rintro s c s' ⟨t, ht⟩ - hstep
  exact ht.step hstep

/-- **When the store tolerates a text.**  No function leaves the sector, and a key that is set has
its value, with all others unchanged, if and only if the text without the first line of the key can
take the new line. -/
theorem set_tolerated_iff (h : Reach bufStep Loaded buf) :
    InBounds buf ∧ (∃ t, Stores buf t) ∧
      ∀ t, Stores buf t → ∀ key value buf', bootcfgBufSet buf key value = (0, buf') →
        (Tolerated buf key value buf' ↔ Ready (t.erase key.bytes) key value) := by
  obtain ⟨t, ht⟩ := exists_stores h
  exact ⟨ht.inBounds, ⟨t, ht⟩, fun t ht key value buf' hset => tolerated_iff ht hset⟩

def bootSector : Sector := .pad (List.replicate 11 0 ++ [0, 2, 1, 2, 0])

lemma loaded_terminate {raw : Sector} (h : hasMagic raw = true) : Loaded raw.terminate := by
  refine ⟨fun lba => some (if lba = 0 then bootSector else raw), ?_⟩
  have hguard : guardOk (fun lba => some (if lba = 0 then bootSector else raw)) = true := by
    simp only [guardOk, if_true]
    decide +kernel
  rw [bootcfgRead, if_neg (by rw [hguard]; decide)]
  simp [bootcfgLba, h]

/-- A line that is no binding, a line of another key, and then a new key. -/
theorem set_tolerated_iff_edited :
    let raw := Sector.pad (magic ++ ascii "no binding\nfoo=1\n")
    (bootcfgBufSet raw.terminate ⟨ascii "k", by decide⟩ ⟨ascii "3", by decide⟩).1 = 0 ∧
    InBounds raw.terminate ∧ (∃ t, Stores raw.terminate t) ∧
      ∀ t, Stores raw.terminate t → ∀ key value buf',
        bootcfgBufSet raw.terminate key value = (0, buf') →
          (Tolerated raw.terminate key value buf' ↔ Ready (t.erase key.bytes) key value) :=
  ⟨by decide +kernel, set_tolerated_iff (.start (loaded_terminate (by decide +kernel)))⟩

/-- `foo=1` without a newline: the new line is glued to it, the key is not found and `foo` has
another value.  `k=1` and `k=2` on two lines: the second is the value after `k` is set to 3. -/
theorem set_not_tolerated :
    let k : CStr := ⟨ascii "k", by decide⟩
    let foo : CStr := ⟨ascii "foo", by decide⟩
    let v : CStr := ⟨ascii "3", by decide⟩
    let open1 := Sector.pad (magic ++ ascii "foo=1")
    let twice := Sector.pad (magic ++ ascii "k=1\nk=2\n")
    (Loaded open1.terminate ∧ (bootcfgBufSet open1.terminate k v).1 = 0 ∧
      bootcfgBufGet (bootcfgBufSet open1.terminate k v).2 k 16 = none ∧
      bootcfgBufGet open1.terminate foo 16 = some (ascii "1") ∧
      bootcfgBufGet (bootcfgBufSet open1.terminate k v).2 foo 16 = some (ascii "1k=3")) ∧
    Loaded twice.terminate ∧ (bootcfgBufSet twice.terminate k v).1 = 0 ∧
      bootcfgBufGet (bootcfgBufSet twice.terminate k v).2 k 16 = some (ascii "2") := by
  refine ⟨⟨loaded_terminate ?_, ?_, ?_, ?_, ?_⟩, loaded_terminate ?_, ?_, ?_⟩ <;> decide +kernel

end NullOS.Boot
