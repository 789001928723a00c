import Mathlib.Tactic.Lemma

/-!
# File descriptors

The descriptor record of `kernel/fs/vfs.h`.
-/

namespace NullOS.Vfs

inductive VfsBackend
  | none
  | ramfs
  | fat16
  | pipeRead
  | pipeWrite
deriving DecidableEq, Repr, Inhabited

/-- `vfs_fd_t`.  `first` is a byte offset (ramfs), a first cluster (FAT16) or an index into
the pipe table; `name` holds the bytes before the terminating NUL. -/
structure VfsFd where
  used : Bool
  backend : VfsBackend
  first : Nat
  size : Nat
  pos : Nat
  parentCluster : Nat
  name : List UInt8
deriving DecidableEq, Repr, Inhabited

def VfsFd.Holds (fd : VfsFd) (b : VfsBackend) (i : Nat) : Prop :=
  fd.used = true ∧ fd.backend = b ∧ fd.first = i

instance (fd : VfsFd) (b : VfsBackend) (i : Nat) : Decidable (fd.Holds b i) :=
  inferInstanceAs (Decidable (_ ∧ _ ∧ _))

end NullOS.Vfs
