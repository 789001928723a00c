import NullOS.Fat16.Basic

/-!
# File contents in the FAT16 driver

`fat16_write_file`, `fat16_write_at` and `fat16_read_at`.  The bytes to be written are a list, and
its length is `len`.
-/

namespace NullOS.Fat16

open Lib

/-! ## Replacing a file -/

/-- The sectors of one cluster of a file whose whole content is `buf`; `written` bytes are already
on the disk.  Positions are 32-bit. -/
def payload (g : Geo) (buf : List UInt8) (cluster written : Nat) : List (Nat × Mem) :=
  (List.range g.sectorsPerCluster).map fun sec =>
    (clusterSector g cluster sec,
      fun b => buf.getD ((written + 512 * sec + b) % 0x100000000) 0)

/-- The new cluster `c` is linked to the one before it, if there is one, and ends the chain. -/
def linkCluster (g : Geo) (prevCluster c : Nat) : Fs Unit := do
  if prevCluster = 0 then pure () else setFat g prevCluster c
  setFat g c 0xFFFF

/-- The loop of `fat16_write_file`: the first cluster of the new chain, or `none` for -1. -/
def writeFileLoop (g : Geo) (buf : List UInt8) : Nat → Nat → Nat → Nat → Fs (Option Nat)
  | 0, _, _, _ => throw .outOfFuel
  | n + 1, firstNew, prevCluster, written =>
      if written < buf.length then do
        let c ← fat16AllocCluster g
        if c = 0 then pure none
        else do
          linkCluster g prevCluster c
          let ok ← writeSectors (payload g buf c written)
          if ok then
            writeFileLoop g buf n (if prevCluster = 0 then c else firstNew) c
              (written + min g.bytesPerCluster (buf.length - written))
          else pure none
      else pure (some firstNew)

def fat16WriteFile (g : Geo) (n parentCluster : Nat) (name buf : List UInt8) : Fs Bool := do
  let s ← get
  if s.vol.ready then do
    let found ← dirLookup g n parentCluster (to83 name)
    match found with
    | .missing => pure false
    | .ioError => pure false
    | .found h =>
        if h.entry.Directory then pure false
        else do
          fat16FreeChain g n h.entry.first
          let chain ← writeFileLoop g buf n 0 0 0
          match chain with
          | none => pure false
          | some firstNew => do
              let ok ← blockWriteSector h.lba
                (updateDirent h.buf h.index (if buf.length = 0 then 0 else firstNew) buf.length)
              if ok then fat16FlushFat g else pure false
  else pure false

/-! ## Writing at a position -/

/-- Where `fat16_write_at` is in the chain: the cluster, whether this call has allocated it, and
`fat_dirty`. -/
structure Cursor where
  cluster : Nat
  fresh : Bool
  fatDirty : Bool

/-- The step to the next cluster of the chain, which grows at its end; `none` when the disk is
full. -/
def cursorNext (g : Geo) (cur : Cursor) : Fs (Option Cursor) := do
  let next ← getFat g cur.cluster
  if Stop next then do
    let c ← fat16AllocCluster g
    if c = 0 then pure none
    else do
      setFat g cur.cluster c
      pure (some { cluster := c, fresh := true, fatDirty := true })
  else pure (some { cur with cluster := next, fresh := false })

/-- The loop that looks for the cluster of byte `pos`; `none` after the return -1. -/
def seekLoop (g : Geo) : Nat → Cursor → Fs (Option Cursor)
  | 0, cur => pure (some cur)
  | k + 1, cur => do
      let r ← cursorNext g cur
      match r with
      | some cur => seekLoop g k cur
      | none =>
          if cur.fatDirty then do
            let _ ← fat16FlushFat g
            pure none
          else pure none

/-- The first part of `fat16_write_at`: the cluster that holds byte `pos`, and the first one. -/
def seekStart (g : Geo) (first pos : Nat) : Fs (Option (Nat × Cursor)) :=
  if first < 2 then do
    let c ← fat16AllocCluster g
    if c = 0 then pure none
    else pure (some (c, { cluster := c, fresh := true, fatDirty := true }))
  else do
    let r ← seekLoop g (pos / g.bytesPerCluster)
      { cluster := first, fresh := false, fatDirty := false }
    pure (r.map fun cur => (first, cur))

/-- The sector that a partial write starts from; `none` after a read error. -/
def oldSector (n : Nat) (fresh : Bool) (lba : Nat) : Fs (Option Mem) :=
  if n < 512 then
    if fresh then pure (some zeroSector) else blockReadSector lba
  else pure (some zeroSector)

/-- The second part: the data, sector by sector.  The result is the number of bytes written and
`fat_dirty`. -/
def writeAtLoop (g : Geo) (buf : List UInt8) : Nat → Cursor → Nat → Nat → Fs (Nat × Bool)
  | 0, _, _, _ => throw .outOfFuel
  | n + 1, cur, off, written =>
      if written < buf.length then do
        let lba := clusterSector g cur.cluster (off / 512)
        let len := min (512 - off % 512) (buf.length - written)
        let old ← oldSector len cur.fresh lba
        match old with
        | none => pure (written, cur.fatDirty)
        | some sector => do
            let ok ← blockWriteSector lba
              (sector.blit (off % 512) len fun i => buf.getD (written + i) 0)
            if ok then
              if g.bytesPerCluster ≤ off + len ∧ written + len < buf.length then do
                let r ← cursorNext g cur
                match r with
                | none => pure (written + len, cur.fatDirty)
                | some cur => writeAtLoop g buf n cur 0 (written + len)
              else writeAtLoop g buf n cur (off + len) (written + len)
            else pure (written, cur.fatDirty)
      else pure (written, cur.fatDirty)

structure WriteOut where
  written : Nat
  first : Nat
  size : Nat
deriving DecidableEq

def flushDirty (g : Geo) (fatDirty : Bool) : Fs Bool :=
  if fatDirty then fat16FlushFat g else pure true

def writeCommit (g : Geo) (n parentCluster : Nat) (name83 : List UInt8) (existing : Dirent)
    (first newSize written : Nat) (fatDirty : Bool) : Fs (Option WriteOut) := do
  let flushed ← flushDirty g fatDirty
  if flushed then
    if newSize ≠ existing.size ∨ first ≠ existing.first then do
      let again ← dirLookup g n parentCluster name83
      match again with
      | .missing => pure none
      | .ioError => pure none
      | .found h => do
          let ok ← blockWriteSector h.lba (updateDirent h.buf h.index first newSize)
          if ok ∧ 0 < written then pure (some { written, first, size := newSize }) else pure none
    else if 0 < written then pure (some { written, first, size := newSize })
    else pure none
  else pure none

def fat16WriteAt (g : Geo) (n parentCluster : Nat) (name : List UInt8) (pos : Nat)
    (buf : List UInt8) : Fs (Option WriteOut) := do
  let s ← get
  if s.vol.ready then do
    let found ← dirLookup g n parentCluster (to83 name)
    match found with
    | .missing => pure none
    | .ioError => pure none
    | .found h =>
        let e := h.entry
        if e.Directory then pure none
        else if e.size < pos then pure none
        else if 0xFFFFFFFF - pos < buf.length then pure none
        else if e.first < 2 ∧ pos ≠ 0 then pure none
        else if buf.length = 0 then pure (some { written := 0, first := e.first, size := e.size })
        else do
          let start ← seekStart g e.first pos
          match start with
          | none => pure none
          | some (first, cur) => do
              let (written, fatDirty) ← writeAtLoop g buf n cur (pos % g.bytesPerCluster) 0
              writeCommit g n parentCluster (to83 name) e first (max e.size (pos + written))
                written fatDirty
  else pure none

/-! ## Reading at a position -/

/-- The inner loop of `fat16_read_at`: `k` more sectors of the cluster, from sector `secIdx` on;
whether no read has failed, and the bytes read so far. -/
def readSectors (lba len : Nat) : Nat → Nat → Nat → List UInt8 → Fs (Bool × List UInt8)
  | 0, _, _, acc => pure (true, acc)
  | k + 1, secIdx, secOff, acc =>
      if acc.length < len then do
        let r ← blockReadSector ((lba + secIdx) % 0x100000000)
        match r with
        | none => pure (false, acc)
        | some buf =>
            readSectors lba len k (secIdx + 1) 0
              (acc ++ (List.range (min (len - acc.length) (512 - secOff))).map fun i =>
                buf (secOff + i))
      else pure (true, acc)

/-- The outer loop.  Every turn reads at least one byte, so `len` turns are enough. -/
def readLoop (g : Geo) (len : Nat) : Nat → Nat → Nat → List UInt8 → Fs (List UInt8)
  | 0, _, _, acc => pure acc
  | k + 1, cluster, clusterOff, acc =>
      if acc.length < len ∧ cluster < 0xFFF8 then do
        let r ← readSectors (fat16ClusterToLba g cluster) len
          (g.sectorsPerCluster - clusterOff / 512) (clusterOff / 512) (clusterOff % 512) acc
        match r with
        | (false, acc) => pure acc
        | (true, acc) =>
            if acc.length < len then do
              let next ← fat16NextCluster g cluster
              readLoop g len k next 0 acc
            else pure acc
      else pure acc

/-- The loop that looks for the cluster of byte `pos`; `none` at a premature end. -/
def readSeek (g : Geo) : Nat → Nat → Fs (Option Nat)
  | 0, cluster => pure (some cluster)
  | k + 1, cluster => do
      let next ← fat16NextCluster g cluster
      if 0xFFF8 ≤ next then pure none else readSeek g k next

/-- `fat16_read_at`: the bytes read, or `none` for -1. -/
def fat16ReadAt (g : Geo) (firstCluster pos len fileSize : Nat) : Fs (Option (List UInt8)) := do
  let s ← get
  if s.vol.ready ∧ len ≠ 0 then
    if fileSize ≤ pos then pure (some [])
    else do
      let len := if fileSize < (pos + len) % 0x100000000 then fileSize - pos else len
      let start ← readSeek g (pos / g.bytesPerCluster) firstCluster
      match start with
      | none => pure (some [])
      | some cluster => do
          let bytes ← readLoop g len len cluster (pos % g.bytesPerCluster) []
          pure (some bytes)
  else pure none

end NullOS.Fat16
