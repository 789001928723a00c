import NullOS.Lib.Text
import NullOS.Lib.Bytes

/-!
# The ramfs image

`tools/make_ramfs.py` writes the image, `kernel/ramfs.c` looks names up in it.  A pointer into the
image is the rest of the image from there on, and reading behind its end is a fault (`none`).
-/

namespace NullOS.Vfs

open Lib

/-! ## Writing the image -/

structure RamFile where
  name : CStr
  data : List UInt8
deriving DecidableEq

def pack32 (n : Nat) : Option (List UInt8) :=
  if n < 0x100000000 then some ((List.range 4).map (Mem.byteOf n)) else none

def packName (name : CStr) : Option (List UInt8) :=
  if name.bytes.all (· < 128) = false ∨ 32 ≤ name.length then none
  else some (name.bytes ++ List.replicate (32 - name.length) 0)

def packEntry (name : CStr) (offset size : Nat) : Option (List UInt8) := do
  let name ← packName name
  let offset ← pack32 offset
  let size ← pack32 size
  pure (name ++ offset ++ size)

def packTable : Nat → List RamFile → Option (List UInt8)
  | _, [] => some []
  | offset, f :: files => do
      let entry ← packEntry f.name offset f.data.length
      let rest ← packTable (offset + f.data.length) files
      pure (entry ++ rest)

def blob (files : List RamFile) : List UInt8 := files.flatMap RamFile.data

def dataStart (files : List RamFile) : Nat := 4 + files.length * 40

/-- The image that `make_ramfs.py` writes; `none` when it exits with an error. -/
def makeRamfs (files : List RamFile) : Option (List UInt8) :=
  -- without files the script stops with its usage text
  if files.isEmpty then none
  else do
    let header ← pack32 files.length
    let table ← packTable (dataStart files) files
    pure (header ++ table ++ blob files)

/-! ## Reading it -/

/-- The mounted image: `ramfs_base` with `ramfs_size` bytes, and `ramfs_nfiles`. -/
structure Ramfs where
  image : List UInt8
  nfiles : Nat
deriving DecidableEq

def word32 : List UInt8 → Option Nat
  | b0 :: b1 :: b2 :: b3 :: _ =>
      some (b0.toNat + 0x100 * b1.toNat + 0x10000 * b2.toNat + 0x1000000 * b3.toNat)
  | _ => none

/-- `ramfs_init`: `none` leaves ramfs without an image. -/
def ramfsInit (data : List UInt8) : Option Ramfs := do
  let nfiles ← word32 data
  pure { image := data, nfiles }

def sameName : List UInt8 → List UInt8 → Option Bool
  | _, [] => none
  | [], b :: _ => some (b == 0)
  | a :: as, b :: bs => if a = b then sameName as bs else some false

/-- The loop of `ramfs_find`: `k` more entries, the first one at `e`. -/
def findEntry (size : Nat) (name : CStr) : Nat → List UInt8 → Option (Option (Nat × Nat))
  | 0, _ => some none
  | k + 1, e => do
      let same ← sameName name.bytes e
      if same then do
        let offset ← word32 (e.drop 32)
        let sz ← word32 (e.drop 36)
        if size < (offset + sz) % 0x100000000 then pure none else pure (some (offset, sz))
      else findEntry size name k (e.drop 40)

/-- `ramfs_find`: the offset and the size for 1, `some none` for 0. -/
def ramfsFind (ram : Option Ramfs) (name : CStr) : Option (Option (Nat × Nat)) :=
  match ram with
  | none => some none
  | some r => findEntry r.image.length name r.nfiles (r.image.drop 4)

/-! ## The entries of an image -/

variable {n offset : Nat} {name : CStr} {rest : List UInt8} {f : RamFile} {files : List RamFile}

lemma pack32_some (h : n < 0x100000000) :
    pack32 n = some [Mem.byteOf n 0, Mem.byteOf n 1, Mem.byteOf n 2, Mem.byteOf n 3] := if_pos h

lemma word32_pack (h : n < 0x100000000) :
    word32 ([Mem.byteOf n 0, Mem.byteOf n 1, Mem.byteOf n 2, Mem.byteOf n 3] ++ rest) = some n := by
  simp only [List.cons_append, List.nil_append, word32, Mem.byteOf, UInt8.toNat_ofNat',
    Option.some.injEq]
  omega

lemma sameName_packed {as bs : List UInt8} (ha : 0 ∉ as) (hb : 0 ∉ bs) {k : Nat} :
    sameName as (bs ++ List.replicate (k + 1) 0 ++ rest) = some (decide (as = bs)) := by
  induction as generalizing bs with
  | nil =>
    cases bs with
    | nil => rfl
    | cons b bs =>
      have hb0 : b ≠ 0 := fun h => hb (h ▸ List.mem_cons_self)
      simp [sameName, hb0]
  | cons a as ih =>
    have ha0 : a ≠ 0 := fun h => ha (h ▸ List.mem_cons_self)
    cases bs with
    | nil => simp [sameName, List.replicate_succ, ha0]
    | cons b bs =>
      have hrec := ih (fun h => ha (List.mem_cons_of_mem _ h)) fun h => hb
        (List.mem_cons_of_mem _ h)
      simp only [List.cons_append, sameName, hrec, List.cons.injEq]
      split
      case isTrue h => simp [h]
      case isFalse h => simp [h]

def NameOk (name : CStr) : Prop := name.bytes.all (· < 128) = true ∧ name.length < 32

lemma packName_some (h : NameOk name) :
    packName name = some (name.bytes ++ List.replicate (31 - name.length + 1) 0) := by
  have hlen := h.2
  rw [packName, if_neg (by simp [h.1, hlen]), show 32 - name.length = 31 - name.length + 1 by omega]

def entryBytes (name : CStr) (offset size : Nat) : List UInt8 :=
  name.bytes ++ List.replicate (31 - name.length + 1) 0 ++
    [Mem.byteOf offset 0, Mem.byteOf offset 1, Mem.byteOf offset 2, Mem.byteOf offset 3] ++
    [Mem.byteOf size 0, Mem.byteOf size 1, Mem.byteOf size 2, Mem.byteOf size 3]

lemma packEntry_some {offset size : Nat} (h : NameOk name) (ho : offset < 0x100000000)
    (hs : size < 0x100000000) :
    packEntry name offset size = some (entryBytes name offset size) := by
  rw [packEntry, packName_some h, pack32_some ho, pack32_some hs]
  rfl

lemma entryBytes_drop (offset size : Nat) (rest : List UInt8) (h : NameOk name) :
    (entryBytes name offset size ++ rest).drop 32 =
      [Mem.byteOf offset 0, Mem.byteOf offset 1, Mem.byteOf offset 2, Mem.byteOf offset 3] ++
        ([Mem.byteOf size 0, Mem.byteOf size 1, Mem.byteOf size 2, Mem.byteOf size 3] ++ rest) := by
  have hlen : (name.bytes ++ List.replicate (31 - name.length + 1) (0 : UInt8)).length = 32 := by
    have := h.2
    simp only [List.length_append, List.length_replicate, CStr.length] at this ⊢
    omega
  rw [entryBytes, List.append_assoc, List.append_assoc, ← hlen, List.drop_left]

lemma findEntry_succ {size imageSize k : Nat} (h : NameOk f.name) (ho : offset < 0x100000000)
    (hs : size < 0x100000000) :
    findEntry imageSize name (k + 1) (entryBytes f.name offset size ++ rest) =
      if name = f.name then
        some (if imageSize < (offset + size) % 0x100000000 then none else some (offset, size))
      else findEntry imageSize name k rest := by
  have hdrop := entryBytes_drop offset size rest h
  have h36 : (entryBytes f.name offset size ++ rest).drop 36 =
      [Mem.byteOf size 0, Mem.byteOf size 1, Mem.byteOf size 2, Mem.byteOf size 3] ++ rest := by
    rw [show 36 = 32 + 4 from rfl, ← List.drop_drop, hdrop]
    rfl
  have h40 : (entryBytes f.name offset size ++ rest).drop 40 = rest := by
    rw [show 40 = 36 + 4 from rfl, ← List.drop_drop, h36]
    rfl
  have hname : sameName name.bytes (entryBytes f.name offset size ++ rest) =
      some (decide (name = f.name)) := by
    rw [entryBytes, List.append_assoc, List.append_assoc, sameName_packed name.noNul f.name.noNul]
    exact congrArg some (decide_eq_decide.mpr CStr.ext_iff.symm)
  rw [findEntry, hname]
  by_cases hn : name = f.name
  · rw [if_pos hn]
    simp only [hn, decide_true, Option.bind_eq_bind, Option.bind_some, if_true]
    rw [hdrop, word32_pack ho, h36, word32_pack hs]
    simp only [Option.bind_some]
    split <;> rfl
  · rw [if_neg hn]
    simp only [hn, decide_false, Option.bind_eq_bind, Option.bind_some, Bool.false_eq_true,
      if_false, h40]

/-! ## The image of a list of files -/

/-- The first file with a name: where its data starts, when those of the first one start at
`offset`, and the data. -/
def locate : Nat → List RamFile → CStr → Option (Nat × List UInt8)
  | _, [], _ => none
  | offset, f :: files, name =>
      if name = f.name then some (offset, f.data) else locate (offset + f.data.length) files name

lemma locate_data (offset : Nat) (files : List RamFile) (name : CStr) :
    (locate offset files name).map Prod.snd =
      (files.find? fun f => f.name = name).map RamFile.data := by
  induction files generalizing offset with
  | nil => rfl
  | cons f files ih =>
    rw [locate, List.find?_cons]
    by_cases h : name = f.name
    · simp [h]
    · simp [h, Ne.symm h, ih]

lemma locate_blob {o : Nat} {data : List UInt8} (h : locate offset files name = some (o, data)) :
    ∃ pre post, blob files = pre ++ (data ++ post) ∧ o = offset + pre.length := by
  induction files generalizing offset with
  | nil => simp [locate] at h
  | cons f files ih =>
    rw [locate] at h
    split at h
    · obtain ⟨rfl, rfl⟩ := Prod.mk.inj (Option.some.inj h)
      exact ⟨[], blob files, rfl, rfl⟩
    · obtain ⟨pre, post, hblob, rfl⟩ := ih h
      refine ⟨f.data ++ pre, post, ?_, ?_⟩
      · show f.data ++ blob files = _
        rw [hblob, List.append_assoc]
      · rw [List.length_append, Nat.add_assoc]

lemma packTable_some (offset : Nat) (hnames : ∀ f ∈ files, NameOk f.name)
    (hsize : offset + (blob files).length < 0x100000000) :
    ∃ table, packTable offset files = some table ∧ table.length = files.length * 40 ∧
      ∀ imageSize, offset + (blob files).length ≤ imageSize → ∀ name rest,
        findEntry imageSize name files.length (table ++ rest) =
          some ((locate offset files name).map fun x => (x.1, x.2.length)) := by
  induction files generalizing offset with
  | nil => exact ⟨[], rfl, rfl, fun _ _ _ _ => rfl⟩
  | cons f files ih =>
    obtain ⟨hf, hnames⟩ := List.forall_mem_cons.mp hnames
    have hblob : (blob (f :: files)).length = f.data.length + (blob files).length :=
      List.length_append
    rw [hblob] at hsize
    obtain ⟨table, htable, hlen, hfind⟩ := ih (offset + f.data.length) hnames (by omega)
    have hoffset : offset < 0x100000000 := by omega
    have hlength : f.data.length < 0x100000000 := by omega
    have hentry := packEntry_some hf hoffset hlength
    refine ⟨entryBytes f.name offset f.data.length ++ table, ?_, ?_, ?_⟩
    · rw [packTable, hentry, htable]
      rfl
    · have hname := hf.2
      simp only [entryBytes, List.length_append, List.length_replicate, List.length_cons,
        List.length_nil, hlen, CStr.length] at hname ⊢
      omega
    · intro imageSize himage name rest
      rw [hblob] at himage
      have hcheck : ¬imageSize < (offset + f.data.length) % 0x100000000 := by
        rw [Nat.mod_eq_of_lt (by omega)]
        omega
      rw [List.length_cons, List.append_assoc, findEntry_succ hf (by omega) (by omega),
        if_neg hcheck, locate, hfind imageSize (by omega) name rest]
      split <;> rfl

structure Mounted (files : List RamFile) (r : Ramfs) : Prop where
  length : r.image.length = dataStart files + (blob files).length
  /-- Looking a name up finds the first file of that name. -/
  find : ∀ name, ramfsFind (some r) name =
    some ((locate (dataStart files) files name).map fun x => (x.1, x.2.length))
  /-- The data of that file stand where the entry says. -/
  data : ∀ name o data, locate (dataStart files) files name = some (o, data) →
    ∃ post, r.image.drop o = data ++ post

lemma makeRamfs_mounted (hne : files ≠ []) (hnames : ∀ f ∈ files, NameOk f.name)
    (hsize : dataStart files + (blob files).length < 0x80000000) :
    ∃ image r, makeRamfs files = some image ∧ ramfsInit image = some r ∧ r.image = image ∧
      Mounted files r := by
  obtain ⟨table, htable, hlen, hfind⟩ :=
    packTable_some (dataStart files) hnames (by omega)
  have hcount : files.length < 0x100000000 := by
    simp only [dataStart] at hsize
    omega
  have hheader := pack32_some hcount
  generalize hword : [Mem.byteOf files.length 0, Mem.byteOf files.length 1,
    Mem.byteOf files.length 2, Mem.byteOf files.length 3] = header at hheader
  have hwlen : header.length = 4 := by rw [← hword]; rfl
  have himage : makeRamfs files = some (header ++ table ++ blob files) := by
    rw [makeRamfs, if_neg (by simpa using hne), hheader, htable]
    rfl
  have hstart : (header ++ table).length = dataStart files := by
    rw [List.length_append, hwlen, hlen, dataStart]
  refine ⟨_, ⟨header ++ table ++ blob files, files.length⟩, himage, ?_, rfl, ?_, ?_, ?_⟩
  · rw [ramfsInit, List.append_assoc, ← hword, word32_pack hcount]
    rfl
  · rw [List.length_append, hstart]
  · intro name
    rw [ramfsFind, List.append_assoc, ← hwlen, List.drop_left]
    refine hfind _ ?_ name (blob files)
    simp only [List.length_append, hwlen, hlen, dataStart]
    omega
  · intro name o data hdata
    obtain ⟨pre, post, hblob, rfl⟩ := locate_blob hdata
    refine ⟨post, ?_⟩
    rw [← hstart, ← List.drop_drop, List.drop_left, hblob, List.drop_left]

end NullOS.Vfs
