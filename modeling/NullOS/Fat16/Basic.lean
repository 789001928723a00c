import NullOS.Lib.Bytes
import NullOS.Lib.Ends

/-!
# The FAT16 driver

`kernel/fs/fat16.c` over a block device whose operations may fail.  An index outside of the FAT
cache is a fault.  The buffers `dir_buf` and `sector_buf` are passed on as values.  Loops that
follow links have an explicit number of turns `n`, and running out of it is a fault as well.
Strings are the bytes before the terminating NUL.
-/

namespace NullOS.Fat16

open Lib

/-! ## The volume -/

/-- What `fat16_init` has read from sector 0. -/
structure Geo where
  fatStartLba : Nat
  numFats : Nat
  fatSizeSectors : Nat
  rootSectorCount : Nat
  sectorsPerCluster : Nat
  totalClusters : Nat
  fatStartLba_lt : fatStartLba < 0x10000
  numFats_lt : numFats < 0x100
  fatSizeSectors_lt : fatSizeSectors < 0x10000
  /-- `root_entry_count` is a 16-bit field. -/
  rootSectorCount_le : rootSectorCount ≤ 0x1000
  sectorsPerCluster_pos : 0 < sectorsPerCluster
  sectorsPerCluster_lt : sectorsPerCluster < 0x100

namespace Geo

variable (g : Geo)

def rootStartLba : Nat := g.fatStartLba + g.numFats * g.fatSizeSectors

def dataStartLba : Nat := g.rootStartLba + g.rootSectorCount

def fatEntries : Nat := 256 * g.fatSizeSectors

def bytesPerCluster : Nat := g.sectorsPerCluster * 512

end Geo

/-- The mounted volume: `g_ready`, the FAT cache and the sectors of the disk. -/
structure Vol where
  ready : Bool
  fat : Nat → Nat
  disk : Nat → Mem

/-- The volume, which of the coming block operations succeed, and the sectors that
`block_write_sector` was called for so far, the last one first. -/
structure St where
  vol : Vol
  io : Nat → Bool
  writes : List Nat
  /-- An index outside of `g_fat` is not a fault: it reads or writes the memory behind. -/
  wild : Bool
  /-- The sectors that `block_write_sector` failed for. -/
  lost : List Nat := []

inductive Fault
  /-- A loop has used up its turns. -/
  | outOfFuel
  /-- An index outside of `g_fat`, or outside of the ramfs image. -/
  | outOfBounds
deriving DecidableEq

abbrev Fs := EStateM Fault St

def working : Nat → Bool := fun _ => true

def Vol.start (v : Vol) : St := { vol := v, io := working, writes := [], wild := false }

def Vol.startOn (v : Vol) (io : Nat → Bool) : St := { vol := v, io, writes := [], wild := false }

def blockReadSector (lba : Nat) : Fs (Option Mem) := fun s =>
  .ok (if s.io 0 then some (s.vol.disk lba) else none) { s with io := fun k => s.io (k + 1) }

/-- `block_write_sector`.  A failed write leaves its sector unchanged. -/
def blockWriteSector (lba : Nat) (buf : Mem) : Fs Bool := fun s =>
  .ok (s.io 0)
    { s with
      vol := { s.vol with
        disk := if s.io 0 then Function.update s.vol.disk lba buf else s.vol.disk }
      io := fun k => s.io (k + 1)
      writes := lba :: s.writes
      lost := if s.io 0 then s.lost else lba :: s.lost }

def writeSectors : List (Nat × Mem) → Fs Bool
  | [] => pure true
  | (lba, buf) :: rest => do
      let ok ← blockWriteSector lba buf
      if ok then writeSectors rest else pure false

/-! ## The FAT -/

def getFat (g : Geo) (c : Nat) : Fs Nat := fun s =>
  if c < g.fatEntries ∨ s.wild = true then .ok (s.vol.fat c) s else .error .outOfBounds s

def setFat (g : Geo) (c x : Nat) : Fs Unit := fun s =>
  if c < g.fatEntries ∨ s.wild = true then
    .ok () { s with vol := { s.vol with fat := Function.update s.vol.fat c (x % 0x10000) } }
  else .error .outOfBounds s

def fat16NextCluster (g : Geo) (cluster : Nat) : Fs Nat :=
  if cluster < 2 then pure 0xFFFF else getFat g cluster

/-- `fat16_cluster_to_lba`, in 32 bits. -/
def fat16ClusterToLba (g : Geo) (cluster : Nat) : Nat :=
  (g.dataStartLba + (cluster + 0x100000000 - 2) % 0x100000000 * g.sectorsPerCluster) % 0x100000000

def clusterSector (g : Geo) (cluster k : Nat) : Nat :=
  (fat16ClusterToLba g cluster + k) % 0x100000000

/-- A cluster number that ends a chain. -/
def Stop (x : Nat) : Prop := x < 2 ∨ 0xFFF8 ≤ x

instance : DecidablePred Stop := fun _ => inferInstanceAs (Decidable (_ ∨ _))

def fatSector (fat : Nat → Nat) (k : Nat) : Mem :=
  fun b => Mem.byteOf (fat (256 * k + b / 2)) (b % 2)

def fatImage (g : Geo) (fat : Nat → Nat) : List (Nat × Mem) :=
  (List.range g.numFats).flatMap fun f =>
    (List.range g.fatSizeSectors).map fun k =>
      (g.fatStartLba + f * g.fatSizeSectors + k, fatSector fat k)

def fat16FlushFat (g : Geo) : Fs Bool := do
  let s ← get
  writeSectors (fatImage g s.vol.fat)

def fat16FreeChain (g : Geo) : Nat → Nat → Fs Unit
  | 0, _ => throw .outOfFuel
  | n + 1, cluster =>
      if Stop cluster then pure ()
      else do
        let next ← getFat g cluster
        setFat g cluster 0
        fat16FreeChain g n next

def allocFrom (g : Geo) : Nat → Nat → Fs Nat
  | 0, _ => pure 0
  | k + 1, c => do
      let x ← getFat g c
      if x = 0 then do
        setFat g c 0xFFFF
        pure c
      else allocFrom g k (c + 1)

/-- `fat16_alloc_cluster`: 0 when the disk is full. -/
def fat16AllocCluster (g : Geo) : Fs Nat := allocFrom g (g.totalClusters - 2) 2

/-! ## Names -/

def fat16Toupper (c : UInt8) : UInt8 := if 0x61 ≤ c ∧ c ≤ 0x7A then c - 32 else c

def padTo (k : Nat) (bytes : List UInt8) : List UInt8 :=
  bytes ++ List.replicate (k - bytes.length) 0x20

def dot83 : List UInt8 := padTo 11 [0x2E]

def dotdot83 : List UInt8 := padTo 11 [0x2E, 0x2E]

/-- `to_8_3`: the base name up to the first dot, at most eight bytes of it, and at most three
bytes after that dot. -/
def to83 (name : List UInt8) : List UInt8 :=
  if name = [0x2E] then dot83
  else if name = [0x2E, 0x2E] then dotdot83
  else
    padTo 8 (((name.takeWhile (· ≠ 0x2E)).take 8).map fat16Toupper) ++
      padTo 3 ((((name.dropWhile (· ≠ 0x2E)).drop 1).take 3).map fat16Toupper)

/-- `path_next_component`, with `comp[64]`: the component, and what follows it. -/
def pathNextComponent (path : List UInt8) : List UInt8 × List UInt8 :=
  let comp := (path.takeWhile (· ≠ 0x2F)).take 63
  (comp, (path.drop comp.length).dropWhile (· = 0x2F))

/-! ## Directory entries -/

/-- `fat16_dirent_t`, without the fields that no function reads.  They are zero in every entry
that is created. -/
structure Dirent where
  /-- `name` and `ext`, eleven bytes. -/
  name : List UInt8
  attr : UInt8
  first : Nat
  size : Nat
deriving DecidableEq

namespace Dirent

def byte0 (e : Dirent) : UInt8 := e.name.headD 0

/-- `DIRENT_EMPTY`. -/
def Empty (e : Dirent) : Prop := e.byte0 = 0

/-- `DIRENT_DELETED`. -/
def Deleted (e : Dirent) : Prop := e.byte0 = 0xE5

/-- `ATTR_VOLUME_ID`. -/
def VolumeId (e : Dirent) : Prop := e.attr &&& 0x08 ≠ 0

/-- `ATTR_DIRECTORY`. -/
def Directory (e : Dirent) : Prop := e.attr &&& 0x10 ≠ 0

def Live (e : Dirent) : Prop := ¬ e.Empty ∧ ¬ e.Deleted ∧ ¬ e.VolumeId

instance : DecidablePred Empty := fun _ => inferInstanceAs (Decidable (_ = _))
instance : DecidablePred Deleted := fun _ => inferInstanceAs (Decidable (_ = _))
instance : DecidablePred VolumeId := fun _ => inferInstanceAs (Decidable (_ ≠ _))
instance : DecidablePred Directory := fun _ => inferInstanceAs (Decidable (_ ≠ _))
instance : DecidablePred Live := fun _ => inferInstanceAs (Decidable (_ ∧ _ ∧ _))

def bytes (e : Dirent) : Nat → UInt8 := fun k =>
  if k < 11 then e.name.getD k 0
  else if k = 11 then e.attr
  else if 26 ≤ k ∧ k < 28 then Mem.byteOf e.first (k - 26)
  else if 28 ≤ k ∧ k < 32 then Mem.byteOf e.size (k - 28)
  else 0

end Dirent

def dirent (buf : Mem) (i : Nat) : Dirent :=
  { name := (List.range 11).map fun j => buf (32 * i + j)
    attr := buf (32 * i + 11)
    first := buf.load16 (32 * i + 26)
    size := buf.load32 (32 * i + 28) }

def putDirent (buf : Mem) (i : Nat) (e : Dirent) : Mem := buf.blit (32 * i) 32 e.bytes

def updateDirent (buf : Mem) (i first size : Nat) : Mem :=
  (buf.store16 (32 * i + 26) first).store32 (32 * i + 28) size

def zeroSector : Mem := fun _ => 0

def zeroCluster (g : Geo) (cluster : Nat) : List (Nat × Mem) :=
  (List.range g.sectorsPerCluster).map fun k => (clusterSector g cluster k, zeroSector)

/-! ## Directories -/

structure DirIter where
  dirCluster : Nat
  rootSector : Nat
  cluster : Nat
  clusterSector : Nat

def dirIterInit (dirCluster : Nat) : DirIter :=
  { dirCluster, rootSector := 0, cluster := dirCluster, clusterSector := 0 }

/-- What `dir_iter_next_sector` returns: 1 with the sector, 0 or -1. -/
inductive NextSector
  | sector (lba : Nat) (buf : Mem)
  | done
  | error

/-- The step to the next cluster when the current one is used up; `none` at the end of the
chain. -/
def iterAdvance (g : Geo) (it : DirIter) : Fs (Option DirIter) :=
  if g.sectorsPerCluster ≤ it.clusterSector then do
    let next ← fat16NextCluster g it.cluster
    if Stop next then pure none
    else pure (some { it with cluster := next, clusterSector := 0 })
  else pure (some it)

def dirIterNextSector (g : Geo) (it : DirIter) : Fs (NextSector × DirIter) :=
  if it.dirCluster = 0 then
    if g.rootSectorCount ≤ it.rootSector then pure (.done, it)
    else do
      let r ← blockReadSector (g.rootStartLba + it.rootSector)
      match r with
      | none => pure (.error, it)
      | some buf =>
          pure (.sector (g.rootStartLba + it.rootSector) buf,
            { it with rootSector := it.rootSector + 1 })
  else if Stop it.cluster then pure (.done, it)
  else do
    let step ← iterAdvance g it
    match step with
    | none => pure (.done, it)
    | some it => do
        let r ← blockReadSector (Fat16.clusterSector g it.cluster it.clusterSector)
        match r with
        | none => pure (.error, it)
        | some buf =>
            pure (.sector (Fat16.clusterSector g it.cluster it.clusterSector) buf,
              { it with clusterSector := it.clusterSector + 1 })

/-- How the loop over the sectors of a directory ends: at a sector where something was found, at
the end of the directory, or with an I/O error. -/
inductive Scan (α : Type)
  | hit (a : α) (lba : Nat) (buf : Mem)
  | done (it : DirIter)
  | error

/-- `while ((r = dir_iter_next_sector(&it, dir_buf, &lba)) == 1)`, up to the first sector in which
`pick` finds something. -/
def dirScan {α : Type} (g : Geo) (pick : Mem → Option α) : Nat → DirIter → Fs (Scan α)
  | 0, _ => throw .outOfFuel
  | n + 1, it => do
      let r ← dirIterNextSector g it
      match r with
      | (.sector lba buf, it) =>
          match pick buf with
          | some a => pure (.hit a lba buf)
          | none => dirScan g pick n it
      | (.done, it) => pure (.done it)
      | (.error, _) => pure .error

inductive Search (α : Type)
  | found (a : α)
  | missing
  | ioError
deriving DecidableEq

/-- What `dir_lookup` delivers: the entry, where it is, and the sector left in `dir_buf`. -/
structure Hit where
  entry : Dirent
  lba : Nat
  index : Nat
  buf : Mem

/-- The loop of `dir_lookup` over the entries of a sector: `some none` at the end of the
directory. -/
def lookupIn (name83 : List UInt8) (buf : Mem) : List Nat → Option (Option Nat)
  | [] => none
  | i :: is =>
      if (dirent buf i).Empty then some none
      else if (dirent buf i).Deleted then lookupIn name83 buf is
      else if (dirent buf i).VolumeId then lookupIn name83 buf is
      else if (dirent buf i).name = name83 then some (some i)
      else lookupIn name83 buf is

def dirLookup (g : Geo) (n dirCluster : Nat) (name83 : List UInt8) : Fs (Search Hit) := do
  let r ← dirScan g (fun buf => lookupIn name83 buf (List.range 16)) n (dirIterInit dirCluster)
  match r with
  | .hit none _ _ => pure .missing
  | .hit (some index) lba buf => pure (.found { entry := dirent buf index, lba, index, buf })
  | .done _ => pure .missing
  | .error => pure .ioError

def freeEntry (buf : Mem) : Option Nat :=
  (List.range 16).find? fun i => (dirent buf i).Empty ∨ (dirent buf i).Deleted

/-- The end of `dir_insert`: a subdirectory grows by a cluster, whose first slot gets the
entry. -/
def dirGrow (g : Geo) (lastCluster : Nat) (entry : Dirent) : Fs Bool := do
  let newCluster ← fat16AllocCluster g
  if newCluster = 0 then pure false
  else do
    let zeroed ← writeSectors (zeroCluster g newCluster)
    if zeroed then do
      let stored ← blockWriteSector (fat16ClusterToLba g newCluster) (putDirent zeroSector 0 entry)
      if stored then do
        setFat g lastCluster newCluster
        setFat g newCluster 0xFFFF
        fat16FlushFat g
      else pure false
    else pure false

def dirInsert (g : Geo) (n dirCluster : Nat) (entry : Dirent) : Fs Bool := do
  let r ← dirScan g freeEntry n (dirIterInit dirCluster)
  match r with
  | .hit i lba buf => blockWriteSector lba (putDirent buf i entry)
  | .error => pure false
  | .done it => if dirCluster = 0 then pure false else dirGrow g it.cluster entry

/-! ## Paths -/

/-- The loop of `resolve_path`, at a path that starts with a component. -/
def resolveLoop (g : Geo) (n : Nat) : Nat → Nat → List UInt8 → Fs (Search (Nat × List UInt8))
  | 0, _, _ => throw .outOfFuel
  | k + 1, dir, path =>
      let comp := (pathNextComponent path).1
      let rest := (pathNextComponent path).2
      if rest = [] then pure (.found (dir, to83 comp))
      else do
        let r ← dirLookup g n dir (to83 comp)
        match r with
        | .found h =>
            if h.entry.Directory then resolveLoop g n k h.entry.first rest else pure .missing
        | .missing => pure .missing
        | .ioError => pure .ioError

/-- `resolve_path`: the cluster of the directory that contains the final component, and its
stored name. -/
def resolvePath (g : Geo) (n cwdCluster : Nat) (path : List UInt8) :
    Fs (Search (Nat × List UInt8)) :=
  let dir := if path.head? = some 0x2F then 0 else cwdCluster
  let path := path.dropWhile (· = 0x2F)
  if path = [] then pure .missing else resolveLoop g n path.length dir path

structure FileRef where
  first : Nat
  size : Nat
  parent : Nat
deriving DecidableEq

def fat16Find (g : Geo) (n dirCluster : Nat) (path : List UInt8) : Fs (Search FileRef) := do
  let s ← get
  if s.vol.ready then do
    let r ← resolvePath g n dirCluster path
    match r with
    | .missing => pure .missing
    | .ioError => pure .ioError
    | .found (parent, name83) => do
        let r ← dirLookup g n parent name83
        match r with
        | .missing => pure .missing
        | .ioError => pure .ioError
        | .found h =>
            if h.entry.VolumeId ∨ h.entry.Directory then pure .missing
            else pure (.found { first := h.entry.first, size := h.entry.size, parent })
  else pure .missing

/-! ## Creation -/

def newFile (name83 : List UInt8) : Dirent :=
  { name := name83, attr := 0x20, first := 0, size := 0 }

def newDirectory (name83 : List UInt8) (cluster : Nat) : Dirent :=
  { name := name83, attr := 0x10, first := cluster % 0x10000, size := 0 }

/-- `fat16_create`: the parent's cluster, or `none` for -1. -/
def fat16Create (g : Geo) (n dirCluster : Nat) (path : List UInt8) : Fs (Option Nat) := do
  let s ← get
  if s.vol.ready then do
    let r ← resolvePath g n dirCluster path
    match r with
    | .missing => pure none
    | .ioError => pure none
    | .found (parent, name83) => do
        let found ← dirLookup g n parent name83
        match found with
        | .found h => if h.entry.Directory then pure none else pure (some parent)
        | .ioError => pure none
        | .missing => do
            let ok ← dirInsert g n parent (newFile name83)
            if ok then pure (some parent) else pure none
  else pure none

def dotSector (cluster parent : Nat) : Mem :=
  putDirent (putDirent zeroSector 0 (newDirectory dot83 cluster)) 1 (newDirectory dotdot83 parent)

def makeDirectory (g : Geo) (n parent : Nat) (name83 : List UInt8) : Fs Bool := do
  let newCluster ← fat16AllocCluster g
  if newCluster = 0 then pure false
  else do
    let zeroed ← writeSectors (zeroCluster g newCluster)
    if zeroed then do
      let stored ← blockWriteSector (fat16ClusterToLba g newCluster) (dotSector newCluster parent)
      if stored then do
        let ok ← dirInsert g n parent (newDirectory name83 newCluster)
        if ok then fat16FlushFat g
        else do
          fat16FreeChain g n newCluster
          pure false
      else pure false
    else pure false

def fat16Mkdir (g : Geo) (n dirCluster : Nat) (path : List UInt8) : Fs Bool := do
  let s ← get
  if s.vol.ready then do
    let r ← resolvePath g n dirCluster path
    match r with
    | .missing => pure false
    | .ioError => pure false
    | .found (parent, name83) => do
        let found ← dirLookup g n parent name83
        match found with
        | .found h => if h.entry.Directory then pure true else pure false
        | .ioError => pure false
        | .missing => makeDirectory g n parent name83
  else pure false

end NullOS.Fat16
