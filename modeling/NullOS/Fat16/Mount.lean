import NullOS.Fat16.Basic

/-!
# Mounting a volume

`fat16_init`: what it accepts as sector 0, what it computes from it in 32 bits, and the FAT that it
caches.
-/

namespace NullOS.Fat16

open Lib

/-- `g_total_clusters`, in 32 bits. -/
def clusterCount (totalSec dataStartLba sectorsPerCluster : Nat) : Nat :=
  ((totalSec + 0x100000000 - dataStartLba) % 0x100000000 / sectorsPerCluster + 2) % 0x100000000

structure Bpb where
  bytesPerSector : Nat
  sectorsPerCluster : Nat
  reservedSectors : Nat
  numFats : Nat
  rootEntryCount : Nat
  totalSectors16 : Nat
  fatSizeSectors : Nat
  totalSectors32 : Nat

def bpb (buf : Mem) : Bpb :=
  { bytesPerSector := buf.load16 11
    sectorsPerCluster := (buf 13).toNat
    reservedSectors := buf.load16 14
    numFats := (buf 16).toNat
    rootEntryCount := buf.load16 17
    totalSectors16 := buf.load16 19
    fatSizeSectors := buf.load16 22
    totalSectors32 := buf.load32 32 }

def Bpb.Accepted (b : Bpb) : Prop :=
  b.bytesPerSector = 512 ∧ b.fatSizeSectors ≠ 0 ∧ b.numFats ≠ 0 ∧ b.sectorsPerCluster ≠ 0

instance : DecidablePred Bpb.Accepted := fun _ => inferInstanceAs (Decidable (_ ∧ _))

def geoOf (buf : Mem) (h : (bpb buf).Accepted) : Geo :=
  let b := bpb buf
  let rootSectorCount := (b.rootEntryCount * 32 + 511) / 512
  let dataStartLba := b.reservedSectors + b.numFats * b.fatSizeSectors + rootSectorCount
  { fatStartLba := b.reservedSectors
    numFats := b.numFats
    fatSizeSectors := b.fatSizeSectors
    rootSectorCount
    sectorsPerCluster := b.sectorsPerCluster
    totalClusters := clusterCount
      (if b.totalSectors16 ≠ 0 then b.totalSectors16 else b.totalSectors32) dataStartLba
      b.sectorsPerCluster
    fatStartLba_lt := Mem.load16_lt
    numFats_lt := UInt8.toNat_lt _
    fatSizeSectors_lt := Mem.load16_lt
    rootSectorCount_le := by
      have : b.rootEntryCount < 0x10000 := Mem.load16_lt
      omega
    sectorsPerCluster_pos := Nat.pos_of_ne_zero h.2.2.2
    sectorsPerCluster_lt := UInt8.toNat_lt _ }

/-- The FAT in the heap: the sectors of the first copy on the disk, and behind them whatever the
memory holds there. -/
def loadFat (g : Geo) (behind : Nat → UInt16) (disk : Nat → Mem) (c : Nat) : Nat :=
  if c < g.fatEntries then (disk (g.fatStartLba + c / 256)).load16 (2 * (c % 256))
  else (behind c).toNat

/-- `fat16_init`.  The block reads that succeed are given by `io`, and `heap` is whether `kmalloc`
finds memory for the FAT, with what is behind it. -/
def fat16Init (io : Nat → Bool) (heap : Option (Nat → UInt16)) (disk : Nat → Mem) :
    Option (Geo × Vol) :=
  if io 0 then
    if h : (bpb (disk 0)).Accepted then
      let g := geoOf (disk 0) h
      match heap with
      | none => none
      | some behind =>
          if ∀ s < g.fatSizeSectors, io (s + 1) then
            some (g, { ready := true, fat := loadFat g behind disk, disk })
          else none
    else none
  else none

end NullOS.Fat16
