import NullOS.Vfs.Fd
import NullOS.Vfs.Ramfs
import NullOS.Fat16.File

/-!
# Files through descriptors

The calls of `kernel/fs/vfs.c` on files: the ramfs image first, then the FAT16 volume.  Reading a
file of the image through a descriptor delivers its data in order, whatever the lengths asked for.
-/

namespace NullOS.Vfs

open Lib Fat16

/-! ## Opening -/

def vfsStoreName (name : List UInt8) : List UInt8 := name.take 31

def lastComponent (last : List UInt8) : List UInt8 → List UInt8
  | [] => last
  | c :: p => lastComponent (if c = 0x2F then p else last) p

def vfsStoreFinalComponent (path : List UInt8) : List UInt8 :=
  vfsStoreName (lastComponent path path)

def fat16Fd (path : List UInt8) (first size parent : Nat) : VfsFd :=
  { used := true, backend := .fat16, first, size, pos := 0, parentCluster := parent,
    name := vfsStoreFinalComponent path }

def vfsOpen (g : Geo) (n : Nat) (ram : Option Ramfs) (cwdCluster : Nat) (name : CStr) :
    Fs (Option VfsFd) :=
  match ramfsFind ram name with
  | none => throw .outOfBounds
  | some (some (off, sz)) =>
      pure (some
        { used := true, backend := .ramfs, first := off, size := sz, pos := 0, parentCluster := 0,
          name := vfsStoreName name.bytes })
  | some none => do
      let s ← get
      if s.vol.ready then do
        let found ← fat16Find g n cwdCluster name.bytes
        match found with
        | .found f => pure (some (fat16Fd name.bytes f.first f.size f.parent))
        | .missing => pure none
        | .ioError => pure none
      else pure none

/-! ## Reading and writing -/

def int32 (n : Nat) : Int :=
  if n % 0x100000000 < 0x80000000 then (n % 0x100000000 : Nat)
  else (n % 0x100000000 : Nat) - 0x100000000

def ramfsRead (ram : Option Ramfs) (fd : VfsFd) (len : Nat) : Fs (Int × List UInt8 × VfsFd) :=
  match ram with
  | none => pure (-1, [], fd)
  | some r =>
      let avail := (fd.size + 0x100000000 - fd.pos) % 0x100000000
      if avail = 0 then pure (0, [], fd)
      else
        let len := min len avail
        if fd.first + fd.pos + len ≤ r.image.length then
          pure (int32 len, (r.image.drop (fd.first + fd.pos)).take len,
            { fd with pos := (fd.pos + len) % 0x100000000 })
        else throw .outOfBounds

/-- `vfs_read`: the result, the bytes in `buf` and the descriptor. -/
def vfsRead (g : Geo) (ram : Option Ramfs) (fd : VfsFd) (len : Nat) :
    Fs (Int × List UInt8 × VfsFd) :=
  if fd.used = false ∨ len = 0 then pure (-1, [], fd)
  else match fd.backend with
    | .ramfs => ramfsRead ram fd len
    | .fat16 => do
        let r ← fat16ReadAt g fd.first fd.pos len fd.size
        match r with
        | none => pure (-1, [], fd)
        | some bytes =>
            let ret := int32 bytes.length
            pure (ret, bytes,
              if 0 < ret then { fd with pos := (fd.pos + bytes.length) % 0x100000000 } else fd)
    | _ => pure (-1, [], fd)

/-- `vfs_write`: the result and the descriptor. -/
def vfsWrite (g : Geo) (n : Nat) (fd : VfsFd) (buf : List UInt8) : Fs (Int × VfsFd) :=
  if fd.used = false ∨ fd.backend ≠ .fat16 then pure (-1, fd)
  else if buf.length = 0 then pure (0, fd)
  else do
    let r ← fat16WriteAt g n fd.parentCluster fd.name fd.pos buf
    match r with
    | none => pure (-1, fd)
    | some out =>
        if int32 out.written < 0 then pure (-1, fd)
        else
          pure (if out.written = buf.length then 0 else -1,
            { fd with
              first := out.first
              size := out.size
              pos := (fd.pos + out.written) % 0x100000000 })

/-! ## Reading a file of the image -/

def readEach (g : Geo) (ram : Option Ramfs) : VfsFd → List Nat → Fs (List (Int × List UInt8))
  | _, [] => pure []
  | fd, len :: lens => do
      let r ← vfsRead g ram fd len
      let rest ← readEach g ram r.2.2 lens
      pure ((r.1, r.2.1) :: rest)

/-- The data in pieces of the given lengths; past the end the pieces are empty. -/
def chunks (data : List UInt8) : List Nat → List (List UInt8)
  | [] => []
  | len :: lens => data.take len :: chunks (data.drop len) lens

variable {g : Geo} {r : Ramfs} {fd : VfsFd} {s : St} {len : Nat} {data post : List UInt8}

structure OnImage (r : Ramfs) (fd : VfsFd) (data : List UInt8) : Prop where
  used : fd.used = true
  backend : fd.backend = .ramfs
  pos : fd.pos ≤ fd.size
  size : fd.size < 0x80000000
  /-- The data that are still to be read stand in the image. -/
  rest : ∃ post, r.image.drop (fd.first + fd.pos) = data ++ post
  length : data.length = fd.size - fd.pos

lemma int32_small {n : Nat} (h : n < 0x80000000) : int32 n = n := by
  rw [int32, Nat.mod_eq_of_lt (by omega), if_pos h]

lemma OnImage.read (h : OnImage r fd data) (hlen : 0 < len) :
    ∃ fd', vfsRead g (some r) fd len s = .ok ((data.take len).length, data.take len, fd') s ∧
      OnImage r fd' (data.drop len) := by
  obtain ⟨post, hrest⟩ := h.rest
  have hpos := h.pos
  have hsize := h.size
  have hdata := h.length
  have havail : (fd.size + 0x100000000 - fd.pos) % 0x100000000 = data.length := by omega
  have hread : vfsRead g (some r) fd len = ramfsRead (some r) fd len := by
    rw [vfsRead, if_neg (by simp [h.used]; omega), h.backend]
  rw [hread]
  simp only [ramfsRead, havail]
  by_cases hempty : data.length = 0
  · obtain rfl := List.eq_nil_of_length_eq_zero hempty
    refine ⟨fd, by simp; rfl, ?_⟩
    rw [List.drop_nil]
    exact h
  · have himage := congrArg List.length hrest
    rw [List.length_drop, List.length_append] at himage
    have hmin : (data.take len).length = min len data.length := List.length_take
    have htake : (r.image.drop (fd.first + fd.pos)).take (min len data.length) = data.take len := by
      rw [hrest, List.take_append_of_le_length (Nat.min_le_right _ _)]
      exact List.take_eq_take_min.symm
    have hnext : (fd.pos + min len data.length) % 0x100000000 = fd.pos + min len data.length :=
      Nat.mod_eq_of_lt (by omega)
    rw [if_neg hempty, if_pos (by omega), htake, hnext, int32_small (by omega), hmin]
    refine ⟨_, rfl, h.used, h.backend, ?_, hsize, ⟨post, ?_⟩, ?_⟩
    · show fd.pos + min len data.length ≤ fd.size
      omega
    · show r.image.drop (fd.first + (fd.pos + min len data.length)) = _
      rw [← Nat.add_assoc, ← List.drop_drop, hrest, List.drop_append_of_le_length
        (Nat.min_le_right _ _)]
      congr 1
      obtain hle | hle := Nat.le_total len data.length
      · rw [Nat.min_eq_left hle]
      · rw [Nat.min_eq_right hle, List.drop_length, List.drop_of_length_le hle]
    · show (data.drop len).length = fd.size - (fd.pos + min len data.length)
      rw [List.length_drop]
      omega

lemma OnImage.readEach (h : OnImage r fd data) {lens : List Nat} (hlens : ∀ len ∈ lens, 0 < len) :
    Vfs.readEach g (some r) fd lens s =
      .ok ((chunks data lens).map fun c => ((c.length : Int), c)) s := by
  induction lens generalizing fd data with
  | nil => rfl
  | cons len lens ih =>
    obtain ⟨hlen, hlens⟩ := List.forall_mem_cons.mp hlens
    obtain ⟨fd', hread, hfd'⟩ := h.read (g := g) (s := s) hlen
    show EStateM.bind _ _ s = _
    rw [EStateM.bind, hread]
    show EStateM.bind _ _ s = _
    rw [EStateM.bind, ih hfd' hlens]
    rfl

/-- **The image round trip.**  The image of a list of files, of which there must be one, can be
mounted.  A name is found exactly when a file has it, and then reading with any lengths delivers the
data of the first file of that name, in order. -/
theorem ramfs_roundTrip (files : List RamFile) (hnames : ∀ f ∈ files, NameOk f.name)
    (hsize : dataStart files + (blob files).length < 0x80000000) :
    (files = [] → makeRamfs files = none) ∧ (files ≠ [] → ∃ image r,
      makeRamfs files = some image ∧ image.length = dataStart files + (blob files).length ∧
      ramfsInit image = some r ∧ ∀ name : CStr,
        ramfsFind (some r) name ≠ none ∧
        (ramfsFind (some r) name ≠ some none ↔ ∃ f ∈ files, f.name = name) ∧
        ∀ f, files.find? (fun f => f.name = name) = some f → ∀ g n cwd s, ∃ fd,
          vfsOpen g n (some r) cwd name s = .ok (some fd) s ∧
          ∀ lens : List Nat, (∀ len ∈ lens, 0 < len) →
            readEach g (some r) fd lens s =
              .ok ((chunks f.data lens).map fun c => ((c.length : Int), c)) s) := by
  refine ⟨fun hnil => by rw [makeRamfs, hnil]; rfl, fun hne => ?_⟩
  obtain ⟨image, r, himage, hinit, rfl, hm⟩ := makeRamfs_mounted hne hnames hsize
  refine ⟨_, r, himage, hm.length, hinit, fun name => ⟨?_, ?_, ?_⟩⟩
  · rw [hm.find]
    exact Option.some_ne_none _
  · have hdata := congrArg Option.isSome (locate_data (dataStart files) files name)
    rw [Option.isSome_map, Option.isSome_map] at hdata
    rw [hm.find, Ne, Option.some.injEq, Option.map_eq_none_iff, ← Ne, ← Option.isSome_iff_ne_none,
      hdata, List.find?_isSome]
    simp
  · intro f hf g n cwd s
    have hdata := locate_data (dataStart files) files name
    rw [hf, Option.map_some, Option.map_eq_some_iff] at hdata
    obtain ⟨⟨o, data⟩, hloc, rfl⟩ := hdata
    obtain ⟨post, hpost⟩ := hm.data name o f.data hloc
    refine ⟨_, by rw [vfsOpen, hm.find, hloc]; rfl, fun lens hlens => ?_⟩
    have hlen := congrArg List.length hpost
    rw [List.length_drop, List.length_append, hm.length] at hlen
    have hon : OnImage r
        { used := true, backend := .ramfs, first := o, size := f.data.length, pos := 0,
          parentCluster := 0, name := vfsStoreName name.bytes } f.data :=
      ⟨rfl, rfl, Nat.zero_le _, by dsimp only; omega, ⟨post, hpost⟩, rfl⟩
    exact hon.readEach hlens

/-- Two files of one name: the first one is found. -/
theorem ramfs_roundTrip_twice :
    let a : CStr := ⟨ascii "a", by decide⟩
    let files : List RamFile := [⟨a, [1, 2, 3]⟩, ⟨a, [4]⟩]
    ∃ image r, makeRamfs files = some image ∧ ramfsInit image = some r ∧
      ∀ g n cwd s, ∃ fd, vfsOpen g n (some r) cwd a s = .ok (some fd) s ∧
        readEach g (some r) fd [2, 2, 2] s = .ok [(2, [1, 2]), (1, [3]), (0, [])] s := by
  intro a files
  have hnames : ∀ f ∈ files, NameOk f.name := by
    simp only [NameOk]
    decide
  obtain ⟨image, r, himage, -, hinit, hname⟩ :=
    (ramfs_roundTrip files hnames (by decide)).2 (by simp [files])
  refine ⟨image, r, himage, hinit, fun g n cwd s => ?_⟩
  obtain ⟨fd, hopen, hread⟩ := (hname a).2.2 ⟨a, [1, 2, 3]⟩ (by decide) g n cwd s
  exact ⟨fd, hopen, hread [2, 2, 2] (by decide)⟩

end NullOS.Vfs
