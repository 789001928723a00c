import NullOS.Fat16.Basic

/-!
# Listing directories, and the way back to the root

`fat16_resolve_dir`, `fat16_readdir` and `fat16_get_path`.  The path of a directory is not stored
anywhere: `fat16_get_path` follows `..` up to the root and looks up in each directory the name of
the one it came from.
-/

namespace NullOS.Fat16

open Lib

/-- What `fat16_resolve_dir` returns: 1 with the cluster, 0, -1 or -2. -/
inductive DirSearch
  | dir (cluster : Nat)
  | missing
  | ioError
  | notDir
deriving DecidableEq

def fat16ResolveDir (g : Geo) (n cwdCluster : Nat) (path : List UInt8) : Fs DirSearch := do
  let s ← get
  if s.vol.ready then
    if path = [] ∨ path = [0x2F] then pure (.dir 0)
    else do
      let r ← resolvePath g n cwdCluster path
      match r with
      | .missing => pure .missing
      | .ioError => pure .ioError
      | .found (parent, name83) => do
          let r ← dirLookup g n parent name83
          match r with
          | .missing => pure .missing
          | .ioError => pure .ioError
          | .found h => if h.entry.Directory then pure (.dir h.entry.first) else pure .notDir
  else pure .ioError

/-! ## Names -/

/-- `dirent_display_name`, as a string: what is in the buffer up to the first NUL. -/
def direntDisplayName (e : Dirent) : List UInt8 :=
  let base := (e.name.take 8).takeWhile (· ≠ 0x20)
  let ext := (e.name.drop 8).takeWhile (· ≠ 0x20)
  (if ∃ c ∈ e.name.drop 8, c ≠ 0x20 then base ++ 0x2E :: ext else base).takeWhile (· ≠ 0)

inductive Listed
  /-- The end mark: there are no more entries. -/
  | stop
  | entry (i : Nat)
  /-- The sector is used up, with this value of `found`. -/
  | more (found : Nat)
deriving DecidableEq

def readdirIn (idx : Nat) (buf : Mem) : Nat → List Nat → Listed
  | found, [] => .more found
  | found, i :: is =>
      if (dirent buf i).Empty then .stop
      else if (dirent buf i).Deleted then readdirIn idx buf found is
      else if (dirent buf i).VolumeId then readdirIn idx buf found is
      else if (dirent buf i).byte0 = 0x2E then readdirIn idx buf found is
      else if found = idx then .entry i
      else readdirIn idx buf (found + 1) is

def readdirLoop (g : Geo) (idx : Nat) : Nat → DirIter → Nat → Fs (Option Dirent)
  | 0, _, _ => throw .outOfFuel
  | n + 1, it, found => do
      let r ← dirIterNextSector g it
      match r with
      | (.sector _ buf, it) =>
          match readdirIn idx buf found (List.range 16) with
          | .stop => pure none
          | .entry i => pure (some (dirent buf i))
          | .more found => readdirLoop g idx n it found
      | (.done, _) => pure none
      | (.error, _) => pure none

structure DirInfo where
  name : List UInt8
  size : Nat
  isDir : Bool
deriving DecidableEq

def fat16Readdir (g : Geo) (n dirCluster idx : Nat) : Fs (Option DirInfo) := do
  let s ← get
  if s.vol.ready then do
    let r ← readdirLoop g idx n (dirIterInit dirCluster) 0
    pure (r.map fun e =>
      { name := direntDisplayName e, size := e.size, isDir := decide e.Directory })
  else pure none

/-! ## The path of a directory -/

/-- The loop of `dir_find_child_name` over the entries of a sector: `some none` at the end of the
directory. -/
def childIn (child : Nat) (buf : Mem) : List Nat → Option (Option Nat)
  | [] => none
  | i :: is =>
      if (dirent buf i).Empty then some none
      else if (dirent buf i).Deleted then childIn child buf is
      else if (dirent buf i).VolumeId then childIn child buf is
      else if ¬ (dirent buf i).Directory then childIn child buf is
      else if (dirent buf i).byte0 = 0x2E then childIn child buf is
      else if (dirent buf i).first ≠ child then childIn child buf is
      else some (some i)

def dirFindChildName (g : Geo) (n parent child : Nat) : Fs (Search (List UInt8)) := do
  let r ← dirScan g (fun buf => childIn child buf (List.range 16)) n (dirIterInit parent)
  match r with
  | .hit none _ _ => pure .missing
  | .hit (some i) _ buf => pure (.found (direntDisplayName (dirent buf i)))
  | .done _ => pure .missing
  | .error => pure .ioError

def fat16PathMaxDepth : Nat := 16

/-- The loop of `fat16_get_path`, with `k` levels left: `tmp` is what stands at the end of the
buffer `tmp[128]`, before its NUL. -/
def getPathLoop (g : Geo) (n : Nat) : Nat → Nat → List UInt8 → Fs (Option (List UInt8))
  | 0, cluster, tmp => pure (if cluster = 0 then some tmp else none)
  | k + 1, cluster, tmp =>
      if cluster = 0 then pure (some tmp)
      else if Stop cluster then pure none
      else do
        let up ← dirLookup g n cluster dotdot83
        match up with
        | .missing => pure none
        | .ioError => pure none
        | .found h => do
            let name ← dirFindChildName g n h.entry.first cluster
            match name with
            | .missing => pure none
            | .ioError => pure none
            | .found name =>
                if 127 - tmp.length < name.length + 1 then pure none
                else getPathLoop g n k h.entry.first (0x2F :: name ++ tmp)

/-- `fat16_get_path`: the path in `out`, or `none` for -1. -/
def fat16GetPath (g : Geo) (n dirCluster outSize : Nat) : Fs (Option (List UInt8)) := do
  if outSize < 2 then pure none
  else if dirCluster = 0 then pure (some [0x2F])
  else do
    let s ← get
    if s.vol.ready then do
      let r ← getPathLoop g n fat16PathMaxDepth dirCluster []
      match r with
      | none => pure none
      | some path => pure (if outSize < path.length + 1 then none else some path)
    else pure none

end NullOS.Fat16
