import NullOS.Memory.Exclusive
import NullOS.Memory.PmmRun
import NullOS.Memory.UserBuffer
import NullOS.Vfs.Files
import NullOS.Fat16.ReadAt
import NullOS.Fat16.Calls
import NullOS.Kernel.State

/-!
# Starting a program

`exec` (`kernel/exec.c`): a program on the disk is read into a block of the kernel heap, a directory
is created and the program loaded into it, the block is given back, and a process is spawned with
two pages of stack.  The heap should be as before whichever way it ends.  It is not when
`vmm_create_directory` fails: that exit does not free the block.
-/

namespace NullOS.Memory

open Lib Fat16 Vfs

def execMaxFileSize : Nat := 0x30000

/-- The exits that return 0. -/
inductive ExecExit
  -- `MSG_EXEC_NOT_FOUND`.
  | notFound
  -- `MSG_EXEC_BAD_SIZE`.
  | badSize
  -- `MSG_EXEC_OUT_OF_MEMORY_FILE`.
  | outOfMemoryFile
  -- `MSG_EXEC_READ_FAILED`.
  | readFailed
  -- `MSG_EXEC_FAILED_TO_CREATE_PAGE`.
  | noDirectory
  -- `MSG_EXEC_ELF_LOAD_FAILED`.
  | elfLoadFailed
  -- `MSG_EXEC_OUT_OF_MEMORY_FOR` or `MSG_EXEC_FAILED_TO_MAP_USER`.
  | noStack
  -- `MSG_EXEC_SCHEDULER_SPAWN_USER_FAILED`.
  | spawnFailed
deriving DecidableEq, Repr

/-- What `exec` leaves: the slot of the process or the exit, the process table and the heap. -/
abbrev ExecOut := Except ExecExit Nat × Kernel × Heap

/-- The loop that reads the file to `diskCopy`, with `got` bytes in place; every turn reads at least
one byte, so that `size` turns are enough. -/
def readWhole (g : Geo) (ram : Option Ramfs) (diskCopy size : Nat) :
    Nat → VfsFd → Heap → Nat → Fs (Bool × Heap)
  | 0, _, h, _ => pure (true, h)
  | k + 1, file, h, got =>
      if got < size then do
        let (r, bytes, file') ← vfsRead g ram file (size - got)
        if r ≤ 0 then pure (false, h)
        else
          readWhole g ram diskCopy size k file'
            (h.withMem (h.phys.mem.blit (diskCopy + got) bytes.length fun i => bytes.getD i 0))
            (got + bytes.length)
      else pure (true, h)

/-- The second half of `exec`, from `vmm_create_directory` on.  `diskCopy` is 0 for a program of the
ramfs image, and `img` is what stands at `elf_data`. -/
def startProgram (k : Kernel) (h : Heap) (diskCopy : Nat) (img : List UInt8) (cwdCluster : Nat)
    (startBlocked : Bool) : ExecOut :=
  let (cr3, p) := vmmCreateDirectory h.phys
  if cr3 = 0 then (.error .noDirectory, k, { h with phys := p })
  else
    let (loaded, p) := elfLoad p cr3 img
    let h := { h with phys := p }
    let h := if diskCopy = 0 then h else h.kfree diskCopy
    match loaded with
    | .ok _ =>
        match mapStack cr3 h.phys (List.range userStackPages) with
        | (false, p) => (.error .noStack, k, { h with phys := p })
        | (true, p) =>
            match k.processSpawnUser cr3 cwdCluster startBlocked with
            | none => (.error .spawnFailed, k, { h with phys := p })
            | some (slot, k) => (.ok slot, k, { h with phys := p })
    | _ => (.error .elfLoadFailed, k, h)

/-- The first half of `exec`: the address of the block, 0 for a program of the ramfs image, and the
bytes at `elf_data`. -/
def readProgram (g : Geo) (n : Nat) (ram : Option Ramfs) (name : CStr) (cwdCluster : Nat)
    (h : Heap) : Fs (Except ExecExit (Nat × List UInt8) × Heap) := do
  let opened ← vfsOpen g n ram cwdCluster name
  match opened with
  | none => pure (.error .notFound, h)
  | some file =>
      if file.backend = .ramfs then
        let image := (ram.map Ramfs.image).getD []
        pure (.ok (0, (List.range file.size).map fun i => image.getD (file.first + i) 0), h)
      else if file.size = 0 ∨ execMaxFileSize < file.size then pure (.error .badSize, h)
      else
        match h.kmalloc file.size with
        | none => throw .outOfFuel
        | some (diskCopy, h) =>
            if diskCopy = 0 then pure (.error .outOfMemoryFile, h)
            else do
              let (whole, h) ← readWhole g ram diskCopy file.size file.size file h 0
              if whole then pure (.ok (diskCopy, bytesAt h.phys.mem diskCopy file.size), h)
              else pure (.error .readFailed, h.kfree diskCopy)

def exec (g : Geo) (n : Nat) (ram : Option Ramfs) (name : CStr) (cwdCluster : Nat)
    (startBlocked : Bool) (k : Kernel) (h : Heap) : Fs ExecOut := do
  let (program, h) ← readProgram g n ram name cwdCluster h
  match program with
  | .error e => pure (.error e, k, h)
  | .ok (diskCopy, img) => pure (startProgram k h diskCopy img cwdCluster startBlocked)

/-! ## The used blocks -/

variable {g : Geo} {n : Nat} {ram : Option Ramfs} {name : CStr} {cwdCluster : Nat}
  {startBlocked : Bool} {k : Kernel} {h h' : Heap} {own own' : Own} {xs ys : List Nat}
  {P Q : Nat → Prop} {x diskCopy size : Nat} {img : List UInt8} {d d' : St} {out : ExecOut}

/-- The heap is in order, the machine keeps to the books, and the blocks in use are those in `P`. -/
def Uses (h : Heap) (P : Nat → Prop) : Prop :=
  ∃ own xs, HeapOk h own xs ∧ ∀ z, InUse h.phys.mem xs z ↔ P z

lemma dlseg_unique {next prev : Nat → Nat} {p p' : Nat} (h : Dlseg next prev p xs 0)
    (h' : Dlseg next prev p' ys 0) (hx : ∀ x ∈ xs, x ≠ 0) (hy : ∀ y ∈ ys, y ≠ 0)
    (hhead : xs.headD 0 = ys.headD 0) : xs = ys := by
  induction xs generalizing ys p p' with
  | nil =>
    cases ys with
    | nil => rfl
    | cons y ys => exact absurd hhead.symm (hy y List.mem_cons_self)
  | cons x xs ih =>
    cases ys with
    | nil => exact absurd hhead (hx x List.mem_cons_self)
    | cons y ys =>
      obtain rfl : x = y := hhead
      have hnext := h.2.1.symm.trans h'.2.1
      rw [ih h.2.2 h'.2.2 (fun z hz => hx z (List.mem_cons_of_mem _ hz))
        (fun z hz => hy z (List.mem_cons_of_mem _ hz)) hnext]

lemma Uses.unique (h₁ : Uses h P) (h₂ : Uses h Q) (z : Nat) : P z ↔ Q z := by
  obtain ⟨own, xs, hok, hP⟩ := h₁
  obtain ⟨own', ys, hok', hQ⟩ := h₂
  have hpos : ∀ {own xs}, HeapOk h own xs → ∀ x ∈ xs, x ≠ 0 := fun hok x hx => by
    have := hok.blocks.bounds hx
    simp only [heapStart] at this
    omega
  obtain rfl : xs = ys := dlseg_unique hok.blocks.links hok'.blocks.links (hpos hok) (hpos hok')
    (hok.start.symm.trans hok'.start)
  rw [← hP, ← hQ]

lemma Uses.congr (hu : Uses h P) (hPQ : ∀ z, P z ↔ Q z) : Uses h Q := by
  obtain ⟨own, xs, hok, hP⟩ := hu
  exact ⟨own, xs, hok, fun z => (hP z).trans (hPQ z)⟩

lemma HeapOk.kfree_exact (hok : HeapOk h own xs) (hx : InUse h.phys.mem xs x) :
    ∃ own' xs', Grows Role.IsHeap h.phys (h.kfree (x + headerSize)).phys own own' ∧
      HeapOk (h.kfree (x + headerSize)) own' xs' ∧
      ∀ z, InUse (h.kfree (x + headerSize)).phys.mem xs' z ↔ InUse h.phys.mem xs z ∧ z ≠ x := by
  obtain ⟨xs', hback⟩ := hok.form.kfree hx
  obtain ⟨own', hg, hpaged⟩ := hok.paged.steps hback.steps
  refine ⟨own', xs', hg, hback.form.ok hpaged, fun z => ⟨fun hz => ?_, fun hz => ?_⟩⟩
  · exact ⟨(hback.only z hz).2, (hback.only z hz).1⟩
  · exact hback.keeps z hz.2 hz.1

/-! ## The second half -/

def HoldsBlock (h : Heap) (xs : List Nat) (diskCopy : Nat) : Prop :=
  diskCopy = 0 ∨ ∃ x, diskCopy = x + headerSize ∧ InUse h.phys.mem xs x

lemma HeapOk.drop_block (hok : HeapOk h own xs) (hd : HoldsBlock h xs diskCopy) :
    ∃ own' xs',
      Grows Role.IsHeap h.phys (if diskCopy = 0 then h else h.kfree diskCopy).phys own own' ∧
      HeapOk (if diskCopy = 0 then h else h.kfree diskCopy) own' xs' ∧
      ∀ z, InUse (if diskCopy = 0 then h else h.kfree diskCopy).phys.mem xs' z ↔
        InUse h.phys.mem xs z ∧ z + headerSize ≠ diskCopy := by
  rcases hd with rfl | ⟨x, rfl, hx⟩
  · rw [if_pos rfl]
    exact ⟨own, xs, .refl _ _ _, hok, fun z => by simp [headerSize]⟩
  · obtain ⟨own', xs', hg, hok', hexact⟩ := hok.kfree_exact hx
    rw [if_neg (by simp [headerSize])]
    refine ⟨own', xs', hg, hok', fun z => ?_⟩
    rw [hexact z]
    exact and_congr_right fun _ => not_congr Nat.add_right_cancel_iff.symm

/-- If there is a page for the directory, the file data that `elf_load` gets to copy starts on page
boundaries. -/
def LoadsAligned (h : Heap) (img : List UInt8) : Prop :=
  (vmmCreateDirectory h.phys).1 ≠ 0 →
    ∀ ph ∈ copied (vmmCreateDirectory h.phys).2 (vmmCreateDirectory h.phys).1 img, ph.Aligned

/-- **The second half of `exec`** gives the block back, unless there is no directory. -/
lemma startProgram_uses (hok : HeapOk h own xs) (hal : LoadsAligned h img)
    (hd : HoldsBlock h xs diskCopy) :
    Uses (startProgram k h diskCopy img cwdCluster startBlocked).2.2 fun z =>
      InUse h.phys.mem xs z ∧ ((vmmCreateDirectory h.phys).1 = 0 ∨ z + headerSize ≠ diskCopy) := by
  obtain heq | ⟨q, p, own₁, heq, hq0, -, hg₁, hmk₁, hsp₁, -, -⟩ :=
    vmmCreateDirectory_spec hok.paged.marked hok.paged.managed hok.paged.kernel
  · rw [startProgram, heq]
    exact ⟨own, xs, hok, fun z => by simp⟩
  · have hz : ¬ q * pageSize = 0 := by simp only [pageSize]; omega
    -- the directory and the pages of the program are apart from the heap
    obtain ⟨hok₁, huse₁⟩ := hok.of_grows hg₁ hmk₁ id
    rw [LoadsAligned, heq] at hal
    obtain ⟨own₂, hg₂, hmk₂, hsp₂⟩ := elfLoad_grows hsp₁ hmk₁ hok₁.paged.managed (hal hz)
    obtain ⟨hok₂, huse₂⟩ := hok₁.of_grows hg₂ hmk₂ (Role.not_of_heap _)
    rw [startProgram, heq]
    dsimp only at hg₂ hmk₂ hsp₂ hok₂ huse₂ ⊢
    rw [if_neg hz]
    rcases hload : elfLoad p (q * pageSize) img with ⟨loaded, p₂⟩
    rw [hload] at hg₂ hmk₂ hsp₂ hok₂ huse₂
    have hd₂ : HoldsBlock { h with phys := p₂ } xs diskCopy :=
      hd.imp_right (Exists.imp fun x hx => ⟨hx.1, (huse₂ x).mpr ((huse₁ x).mpr hx.2)⟩)
    obtain ⟨own₃, xs₃, hg₃, hok₃, huse₃⟩ := hok₂.drop_block hd₂
    have hexact : ∀ z, InUse (if diskCopy = 0 then ({ h with phys := p₂ } : Heap) else
          Heap.kfree { h with phys := p₂ } diskCopy).phys.mem xs₃ z ↔
        InUse h.phys.mem xs z ∧ (q * pageSize = 0 ∨ z + headerSize ≠ diskCopy) := by
      intro z
      rw [huse₃ z, huse₂ z, huse₁ z]
      simp [hz]
    dsimp only
    generalize (if diskCopy = 0 then ({ h with phys := p₂ } : Heap) else
      Heap.kfree { h with phys := p₂ } diskCopy) = h₃ at hg₃ hok₃ hexact ⊢
    cases loaded with
    | fail => exact ⟨own₃, xs₃, hok₃, hexact⟩
    | fault => exact ⟨own₃, xs₃, hok₃, hexact⟩
    | ok entry =>
      have hsp₃ : Space h₃.phys.mem own₃ (q * pageSize) := hsp₂.of_grows hmk₂ hg₃
        fun r hr hheap => by
        rw [show r = .heap from hheap] at hr
        rcases hr with h' | ⟨di, h'⟩ <;> cases h'
      have hpages : ∀ i ∈ List.range userStackPages, i < userStackPages := fun i =>
        List.mem_range.mp
      obtain ⟨own₄, hg₄, hmk₄, -⟩ := mapStack_grows hsp₃ hok₃.paged.marked hok₃.paged.managed hpages
      obtain ⟨hok₄, huse₄⟩ := hok₃.of_grows hg₄ hmk₄ fun hp => by
        rcases hp with h' | ⟨di, h'⟩ <;> cases h'
      have hfinal : Uses { h₃ with phys := (mapStack (q * pageSize) h₃.phys
          (List.range userStackPages)).2 } _ := ⟨own₄, xs₃, hok₄, fun z => (huse₄ z).trans
          (hexact z)⟩
      dsimp only
      rcases hstack : mapStack (q * pageSize) h₃.phys (List.range userStackPages) with ⟨_ | _, p₄⟩
      · rw [hstack] at hfinal
        exact hfinal
      · rw [hstack] at hfinal
        dsimp only
        split
        · exact hfinal
        · exact hfinal

/-! ## The first half -/

lemma vfsRead_length {file : VfsFd} {len : Nat} : Outcome (vfsRead g ram file len) d
    (fun r _ => r.2.1.length ≤ len) fun _ _ => True := by
  rw [vfsRead]
  split
  · exact .of_ok rfl (Nat.zero_le _)
  · split
    · unfold ramfsRead
      split
      · exact .of_ok rfl (Nat.zero_le _)
      · dsimp only
        split
        · exact .of_ok rfl (Nat.zero_le _)
        · split
          · refine .of_ok rfl ?_
            dsimp only
            rw [List.length_take]
            omega
          · exact .of_error rfl trivial
    · refine .bind (fat16ReadAt_length.mono (fun r t hr => ?_) fun _ _ h => h)
      cases r with
      | none => exact .of_ok rfl (Nat.zero_le _)
      | some bytes => exact .of_ok rfl (hr bytes rfl)
    · exact .of_ok rfl (Nat.zero_le _)

/-- **The loop that reads the file** writes inside its block, so that all headers stay. -/
lemma readWhole_keeps {turns got : Nat} {file : VfsFd} (hok : HeapOk h own xs) (hx : x ∈ xs)
    (hsize : size ≤ (header h.phys.mem x).size) :
    Outcome (readWhole g ram (x + headerSize) size turns file h got) d
      (fun r _ => HeapOk r.2 own xs ∧ ∀ z, InUse r.2.phys.mem xs z ↔ InUse h.phys.mem xs z)
      fun _ _ => True := by
  induction turns generalizing d file h got with
  | zero => exact .of_ok rfl ⟨hok, fun _ => Iff.rfl⟩
  | succ turns ih =>
    rw [readWhole]
    split
    case isFalse => exact .of_ok rfl ⟨hok, fun _ => Iff.rfl⟩
    case isTrue hgot =>
      refine .bind (vfsRead_length.mono (fun r t hr => ?_) fun _ _ h => h)
      obtain ⟨ret, bytes, file'⟩ := r
      dsimp only at hr ⊢
      split
      · exact .of_ok rfl ⟨hok, fun _ => Iff.rfl⟩
      · have hroom : got + bytes.length ≤ (header h.phys.mem x).size := by omega
        obtain ⟨hw, hsame⟩ := hok.blocks.fill hx hroom fun i => bytes.getD i 0
        obtain ⟨-, hpaged⟩ := hok.paged.write hw
        have hok' : HeapOk (h.withMem (h.phys.mem.blit (x + headerSize + got) bytes.length
            fun i => bytes.getD i 0)) own xs :=
          ⟨hpaged, hok.blocks.congr hsame, hok.start⟩
        refine (ih hok' (by
          show size ≤ (header (h.phys.mem.blit _ _ _) x).size
          rw [hsame x hx]
          exact hsize)).mono (fun r' t' hr' => ⟨hr'.1, fun z => (hr'.2 z).trans ?_⟩) fun _ _ h => h
        exact and_congr_right fun hz => by
          show (header (h.phys.mem.blit _ _ _) z).magic = _ ↔ _
          rw [hsame z hz]

def Prepared (P : Nat → Prop) (r : Except ExecExit (Nat × List UInt8) × Heap) : Prop :=
  match r.1 with
  | .error _ => Uses r.2 P
  | .ok (diskCopy, _) => ∃ own xs, HeapOk r.2 own xs ∧ HoldsBlock r.2 xs diskCopy ∧
      (∀ z, InUse r.2.phys.mem xs z ↔ P z ∨ z + headerSize = diskCopy) ∧
      ∀ z, P z → z + headerSize ≠ diskCopy

/-- **The first half of `exec`**, whatever the disk does. -/
lemma readProgram_prepared (hu : Uses h P) :
    Outcome (readProgram g n ram name cwdCluster h) d (fun r _ => Prepared P r)
      fun _ _ => True := by
  rw [readProgram]
  refine .after_any fun opened t => ?_
  cases opened with
  | none => exact .of_ok rfl hu
  | some file =>
    dsimp only
    split
    · obtain ⟨own, xs, hok, hP⟩ := hu
      exact .of_ok rfl ⟨own, xs, hok, .inl rfl, fun z => by simp [hP z, headerSize],
        fun z _ => by simp [headerSize]⟩
    · split
      · exact .of_ok rfl hu
      · obtain ⟨own, xs, hok, hP⟩ := hu
        obtain ⟨ptr, h₁, xs₁, heq, ⟨rfl, rfl, hno⟩ | ⟨x, rfl, hout⟩⟩ :=
          hok.form.kmalloc 1 file.size
        · obtain ⟨own₁, -, hpaged⟩ := hok.paged.steps hno.steps
          rw [show h.kmalloc file.size = some (0, h₁) from heq]
          exact .of_ok rfl ⟨own₁, _, hno.form.ok hpaged, fun z => by rw [hno.mem_eq, hP z]⟩
        · obtain ⟨own₁, -, hpaged⟩ := hok.paged.steps hout.steps
          have hok₁ := hout.form.ok hpaged
          have huse₁ : ∀ z, InUse h₁.phys.mem xs₁ z ↔ P z ∨ z = x := by
            intro z
            rw [← hP z]
            refine ⟨fun hz => (hout.only z hz).symm, ?_⟩
            rintro (hz | rfl)
            · exact (hout.keeps z hz).1
            · exact hout.inUse
          have hfresh : ∀ z, P z → z ≠ x := by
            rintro z hz rfl
            exact hout.fresh ((hP z).mpr hz)
          rw [show h.kmalloc file.size = some (x + headerSize, h₁) from heq]
          dsimp only
          rw [if_neg (by simp [headerSize])]
          refine .bind ((readWhole_keeps hok₁ hout.inUse.1 hout.size_le).mono
            (fun r u hr => ?_) fun _ _ h => h)
          obtain ⟨whole, h₂⟩ := r
          obtain ⟨hok₂, huse₂⟩ := hr
          have huse : ∀ z, InUse h₂.phys.mem xs₁ z ↔ P z ∨ z = x := fun z =>
            (huse₂ z).trans (huse₁ z)
          have hx₂ : InUse h₂.phys.mem xs₁ x := (huse x).mpr (.inr rfl)
          dsimp only at hok₂ huse hx₂ ⊢
          split
          · refine .of_ok rfl ⟨own₁, xs₁, hok₂, .inr ⟨x, rfl, hx₂⟩, fun z => ?_, fun z hz he => ?_⟩
            · rw [huse z, Nat.add_right_cancel_iff]
            · exact hfresh z hz (Nat.add_right_cancel he)
          · obtain ⟨own₃, xs₃, -, hok₃, hexact⟩ := hok₂.kfree_exact hx₂
            refine .of_ok rfl ⟨own₃, xs₃, hok₃, fun z => ?_⟩
            rw [hexact z, huse z]
            refine ⟨fun hz => hz.1.resolve_right hz.2, fun hz => ⟨.inl hz, hfresh z hz⟩⟩

/-- From what the first half leaves, the second half comes back to the blocks as they were, unless a
block is held and there is no directory. -/
lemma Prepared.uses_iff (hp : Prepared P (.ok (diskCopy, img), h)) (hal : LoadsAligned h img) :
    Uses (startProgram k h diskCopy img cwdCluster startBlocked).2.2 P ↔
      ¬ (diskCopy ≠ 0 ∧ (vmmCreateDirectory h.phys).1 = 0) := by
  obtain ⟨own, xs, hok, hd, huse, hfresh⟩ := hp
  have hend : Uses (startProgram k h diskCopy img cwdCluster startBlocked).2.2 _ :=
    startProgram_uses hok hal hd
  by_cases hleak : diskCopy ≠ 0 ∧ (vmmCreateDirectory h.phys).1 = 0
  · -- the block is still in use
    obtain ⟨x, rfl, hx⟩ := hd.resolve_left hleak.1
    refine iff_of_false (fun hsame => ?_) (not_not.mpr hleak)
    exact hfresh x ((hend.unique hsame x).mp ⟨hx, .inl hleak.2⟩) rfl
  · refine iff_of_true (hend.congr fun z => ?_) hleak
    rw [huse z]
    refine ⟨fun hz => hz.1.resolve_right fun he => ?_, fun hz => ⟨.inl hz, .inr (hfresh z hz)⟩⟩
    rcases hz.2 with hdir | hne
    · exact hleak ⟨by rw [← he]; simp [headerSize], hdir⟩
    · exact hne he

def afterRead (k : Kernel) (cwdCluster : Nat) (startBlocked : Bool) :
    Except ExecExit (Nat × List UInt8) × Heap → ExecOut
  | (.error e, h) => (.error e, k, h)
  | (.ok (diskCopy, img), h) => startProgram k h diskCopy img cwdCluster startBlocked

lemma exec_of_readProgram {r : Except ExecExit (Nat × List UInt8) × Heap}
    (hread : readProgram g n ram name cwdCluster h d = .ok r d') :
    exec g n ram name cwdCluster startBlocked k h d =
      .ok (afterRead k cwdCluster startBlocked r) d' := by
  show EStateM.bind (readProgram g n ram name cwdCluster h) _ d = _
  rw [EStateM.bind, hread]
  obtain ⟨_ | _, _⟩ := r <;> rfl

/-! ## The program on the disk -/

/-- Whether the reads of `exec` come to the end of the file, with `got` bytes read. -/
def readsWhole (g : Geo) (ram : Option Ramfs) (size : Nat) : Nat → VfsFd → Nat → Fs Bool
  | 0, _, _ => pure true
  | k + 1, file, got =>
      if got < size then do
        let (r, bytes, file') ← vfsRead g ram file (size - got)
        if r ≤ 0 then pure false
        else readsWhole g ram size k file' (got + bytes.length)
      else pure true

/-- The size of a program that has been opened, if it is on the disk and can be read. -/
def sizeOnDisk (g : Geo) (ram : Option Ramfs) : Option VfsFd → Fs (Option Nat)
  | none => pure none
  | some file =>
      if file.backend = .ramfs ∨ file.size = 0 ∨ execMaxFileSize < file.size then pure none
      else do
        let whole ← readsWhole g ram file.size file.size file 0
        pure (if whole then some file.size else none)

/-- The size of the program of that name, if it is on the disk and can be read. -/
def diskProgram (g : Geo) (n : Nat) (ram : Option Ramfs) (name : CStr) (cwdCluster : Nat) :
    Fs (Option Nat) := do
  let opened ← vfsOpen g n ram cwdCluster name
  sizeOnDisk g ram opened

/-- The program is on the disk and can be read, the heap has a block for it or can grow, and no
other page is free. -/
def LosesBlock (g : Geo) (n : Nat) (ram : Option Ramfs) (name : CStr) (cwdCluster : Nat) (h : Heap)
    (d : St) : Prop :=
  ∃ size d', diskProgram g n ram name cwdCluster d = .ok (some size) d' ∧
    h.CanGrow (h.growth size) ∧ ∀ q < h.phys.pmm.total, h.phys.pmm.bitmap q = true ∨
      h.heapEnd / pageSize ≤ q ∧ q < h.heapEnd / pageSize + h.growth size

lemma vmmCreateDirectory_zero {s : Phys} (hman : Managed s.pmm) :
    (vmmCreateDirectory s).1 = 0 ↔ ∀ q < s.pmm.total, s.pmm.bitmap q = true := by
  rcases s.pmm.pmmAllocPage_cases with hnone | ⟨page, hlt, hfree, hsome⟩
  · refine iff_of_true ?_ (Pmm.pmmAllocPage_zero hman hnone)
    rw [vmmCreateDirectory, hnone]
    rfl
  · refine iff_of_false ?_ fun hfull => by simp [hfull page hlt] at hfree
    have hlow : ¬ page < 1024 := fun hlow => by simp [hman.low page hlow] at hfree
    have hhigh := hman.total_le
    have hpage : page * pageSize ≠ 0 := by
      simp only [pageSize]
      omega
    rw [vmmCreateDirectory, hsome]
    dsimp only
    rw [if_neg hpage, if_neg (by simp only [pageSize, pmmLimitAddr, pmmMaxPages] at hhigh ⊢; omega)]
    exact hpage

/-- The reads are the same whatever the heap. -/
lemma readsWhole_of_readWhole {turns got : Nat} {file : VfsFd} {whole : Bool}
    (hrun : readWhole g ram diskCopy size turns file h got d = .ok (whole, h') d') :
    readsWhole g ram size turns file got d = .ok whole d' ∧ h'.phys.pmm = h.phys.pmm := by
  induction turns generalizing d file h got with
  | zero =>
    cases hrun
    exact ⟨rfl, rfl⟩
  | succ turns ih =>
    rw [readWhole] at hrun
    rw [readsWhole]
    split at hrun
    case isFalse hgot =>
      cases hrun
      rw [if_neg hgot]
      exact ⟨rfl, rfl⟩
    case isTrue hgot =>
      rw [if_pos hgot]
      have hbind : EStateM.bind (vfsRead g ram file (size - got)) _ d = .ok (whole, h') d' := hrun
      show EStateM.bind (vfsRead g ram file (size - got)) _ d = _ ∧ _
      rw [EStateM.bind] at hbind ⊢
      rcases hread : vfsRead g ram file (size - got) d with ⟨⟨r, bytes, file'⟩, t⟩ | ⟨e, t⟩
      · rw [hread] at hbind
        dsimp only at hbind ⊢
        split at hbind
        case isTrue hend =>
          cases hbind
          rw [if_pos hend]
          exact ⟨rfl, rfl⟩
        case isFalse hend =>
          obtain ⟨hreads, hpmm⟩ := ih hbind
          rw [if_neg hend]
          exact ⟨hreads, hpmm⟩
      · rw [hread] at hbind
        cases hbind

lemma sizeOnDisk_eq {file : VfsFd} (hrun : sizeOnDisk g ram (some file) d = .ok (some size) d') :
    size = file.size := by
  rw [sizeOnDisk] at hrun
  split at hrun
  · cases hrun
  · have hbind : EStateM.bind (readsWhole g ram file.size file.size file 0) _ d =
      .ok (some size) d' := hrun
    rw [EStateM.bind] at hbind
    rcases hreads : readsWhole g ram file.size file.size file 0 d with ⟨_ | _, t⟩ | ⟨e, t⟩
    all_goals
      rw [hreads] at hbind
      cases hbind
    rfl

lemma sizeOnDisk_none : sizeOnDisk g ram none d = .ok none d := rfl

lemma sizeOnDisk_refused {file : VfsFd}
    (hno : file.backend = .ramfs ∨ file.size = 0 ∨ execMaxFileSize < file.size) :
    sizeOnDisk g ram (some file) d = .ok none d := by
  rw [sizeOnDisk, if_pos hno]
  rfl

lemma sizeOnDisk_run {file : VfsFd} {whole : Bool} (hdisk : file.backend ≠ .ramfs)
    (hsize : ¬ (file.size = 0 ∨ execMaxFileSize < file.size))
    (hrun : readsWhole g ram file.size file.size file 0 d = .ok whole d') :
    sizeOnDisk g ram (some file) d = .ok (if whole then some file.size else none) d' := by
  rw [sizeOnDisk, if_neg (not_or.mpr ⟨hdisk, hsize⟩)]
  show EStateM.bind (readsWhole g ram file.size file.size file 0) _ d = _
  rw [EStateM.bind, hrun]
  rfl

/-- **Which state a block is lost in.** -/
lemma losesBlock_iff {program : Except ExecExit (Nat × List UInt8)} (hu : Uses h P)
    (hrun : readProgram g n ram name cwdCluster h d = .ok (program, h') d') :
    LosesBlock g n ram name cwdCluster h d ↔ ∃ diskCopy img, program = .ok (diskCopy, img) ∧
      diskCopy ≠ 0 ∧ (vmmCreateDirectory h'.phys).1 = 0 := by
  have hprep : Prepared P (program, h') := (readProgram_prepared hu).result hrun
  have hbind : EStateM.bind (vfsOpen g n ram cwdCluster name) _ d = .ok (program, h') d' := hrun
  rw [EStateM.bind] at hbind
  have hdisk : diskProgram g n ram name cwdCluster d =
      EStateM.bind (vfsOpen g n ram cwdCluster name) (sizeOnDisk g ram) d := rfl
  rw [LosesBlock, hdisk, EStateM.bind]
  rcases hopen : vfsOpen g n ram cwdCluster name d with ⟨_ | file, t⟩ | ⟨e, t⟩
  all_goals rw [hopen] at hbind
  · cases hbind
    simp [sizeOnDisk_none]
  · dsimp only at hbind ⊢
    by_cases hram : file.backend = .ramfs
    · rw [if_pos hram] at hbind
      cases hbind
      simp [sizeOnDisk_refused (.inl hram)]
    rw [if_neg hram] at hbind
    by_cases hbad : file.size = 0 ∨ execMaxFileSize < file.size
    · rw [if_pos hbad] at hbind
      cases hbind
      simp [sizeOnDisk_refused (.inr hbad)]
    rw [if_neg hbad] at hbind
    obtain ⟨own, xs, hok, -⟩ := hu
    obtain ⟨ptr, h₁, -, heq, -⟩ := hok.form.kmalloc 1 file.size
    change h.kmalloc file.size = some (ptr, h₁) at heq
    obtain ⟨hroom, hbits⟩ := hok.form.kmalloc_iff (by omega)
      (by simp only [execMaxFileSize, heapMax, heapStart] at hbad ⊢; omega) heq
    rw [heq] at hbind
    dsimp only at hbind
    by_cases hptr : ptr = 0
    · rw [if_pos hptr] at hbind
      cases hbind
      refine iff_of_false ?_ (by simp)
      rintro ⟨size, d₁, hsize, hgrow, -⟩
      rw [sizeOnDisk_eq hsize] at hgrow
      exact hroom.mpr hgrow hptr
    rw [if_neg hptr] at hbind
    have hbind' : EStateM.bind (readWhole g ram ptr file.size file.size file h₁ 0) _ t =
      .ok (program, h') d' := hbind
    rw [EStateM.bind] at hbind'
    rcases hwhole : readWhole g ram ptr file.size file.size file h₁ 0 t with ⟨⟨w, h₂⟩, u⟩ | ⟨e, u⟩
    all_goals rw [hwhole] at hbind'
    · obtain ⟨hw, hpmm⟩ := readsWhole_of_readWhole hwhole
      rw [sizeOnDisk_run hram hbad hw]
      cases w with
      | false =>
        cases hbind'
        simp
      | true =>
        cases hbind'
        obtain ⟨own', xs', hok', -⟩ := hprep
        obtain ⟨htotal, hbits⟩ := hbits hptr
        have hfull := vmmCreateDirectory_zero hok'.paged.managed
        rw [hpmm, htotal] at hfull
        simp only [hbits] at hfull
        constructor
        · rintro ⟨size, d₁, hsize, -, hrest⟩
          cases hsize
          exact ⟨ptr, _, rfl, hptr, hfull.mpr hrest⟩
        · rintro ⟨_, _, hprogram, -, hzero⟩
          exact ⟨file.size, _, rfl, hroom.mp hptr, hfull.mp hzero⟩
    · cases hbind'
  · cases hbind

/-- The file data that `exec` gets to copy starts on page boundaries. -/
def CopiesAligned (g : Geo) (n : Nat) (ram : Option Ramfs) (name : CStr) (cwdCluster : Nat)
    (h : Heap) (d : St) : Prop :=
  ∀ diskCopy img h' d', readProgram g n ram name cwdCluster h d = .ok (.ok (diskCopy, img), h') d' →
    LoadsAligned h' img

/-- **When `exec` leaves the heap as it found it.**  The blocks in use are those in use before,
exactly if it was not called for a program on the disk with no page free besides those for the
block. -/
theorem exec_uses_iff (hu : Uses h P) (hal : CopiesAligned g n ram name cwdCluster h d)
    (hret : exec g n ram name cwdCluster startBlocked k h d = .ok out d') :
    Uses out.2.2 P ↔ ¬ LosesBlock g n ram name cwdCluster h d := by
  have hprep : Outcome (readProgram g n ram name cwdCluster h) d (fun r _ => Prepared P r) _ :=
    readProgram_prepared hu
  rcases hread : readProgram g n ram name cwdCluster h d with ⟨⟨_ | ⟨diskCopy, img⟩, h₁⟩, d₁⟩ |
    ⟨e, d₁⟩
  · rw [losesBlock_iff hu hread]
    cases (exec_of_readProgram hread).symm.trans hret
    exact iff_of_true (hprep.result hread) (by rintro ⟨_, _, hok, -⟩; cases hok)
  · have hend : Uses (startProgram k h₁ diskCopy img cwdCluster startBlocked).2.2 P ↔ _ :=
      (hprep.result hread).uses_iff (hal diskCopy img h₁ d₁ hread)
    rw [losesBlock_iff hu hread]
    cases (exec_of_readProgram hread).symm.trans hret
    refine hend.trans (not_congr ⟨fun hleak => ⟨_, img, rfl, hleak⟩, ?_⟩)
    rintro ⟨_, _, hok, hleak⟩
    cases hok
    exact hleak
  · have hbind : EStateM.bind (readProgram g n ram name cwdCluster h) _ d = .ok out d' := hret
    rw [EStateM.bind, hread] at hbind
    cases hbind

/-! ## Two runs -/

def programVol (data : List UInt8) : Vol :=
  let v := oneCluster 4 (to83 (ascii "a")) data.length
  { v with disk := Function.update v.disk 5 (bytesOf data) }

def execProgram (pages : Nat) (data : List UInt8) : EStateM.Result Fault St ExecOut :=
  exec smallGeo 0x10002 none nameA 0 false Kernel.boot
    (boot (fun _ => 0) (fewPages pages)).heap (programVol data).start

def slotOf : EStateM.Result Fault St ExecOut → Option Nat
  | .ok out _ => out.1.toOption
  | _ => none

/-- The first half reads the file into this block, and there is this directory then. -/
def Reads (pages : Nat) (data : List UInt8) (diskCopy dir : Nat) : Prop :=
  Ends (readProgram smallGeo 0x10002 none nameA 0
      (boot (fun _ => 0) (fewPages pages)).heap) (programVol data).start fun r _ =>
    r.1 = .ok (diskCopy, data) ∧ (vmmCreateDirectory r.2.phys).1 = dir

instance (pages : Nat) (data : List UInt8) (diskCopy dir : Nat) :
    Decidable (Reads pages data diskCopy dir) :=
  inferInstanceAs (Decidable (Ends _ _ _))

lemma uses_boot (mem : Mem) (map : List Pmm.Region) : Uses (boot mem map).heap fun _ => False :=
  ⟨_, _, (inv_boot mem map).heap, fun _ => iff_of_false (fun hz => List.not_mem_nil hz.1) id⟩

/-- With twelve pages a program with two segments is started, and its block is given back. -/
theorem exec_uses_started : ∃ out d', execProgram 12 alignedFile = .ok out d' ∧
    out.1.toOption = some 0 ∧ Uses out.2.2 fun _ => False := by
  have hrun : Reads 12 alignedFile 0x400010 0x401000 := by decide +kernel
  have hslot : slotOf (execProgram 12 alignedFile) = some 0 := by decide +kernel
  obtain ⟨⟨_, h₁⟩, d₁, hread, rfl, hdir⟩ := hrun
  have hret : execProgram 12 alignedFile = _ := exec_of_readProgram hread
  have hal : ∀ ph ∈ segments alignedFile, ph.Aligned := by decide +kernel
  rw [hret] at hslot
  refine ⟨_, _, hret, hslot, (exec_uses_iff (uses_boot _ _) ?_ hret).mpr ?_⟩
  · intro diskCopy img h₂ d₂ heq
    cases hread.symm.trans heq
    exact fun _ ph hph => hal ph (copied_subset hph)
  · rw [losesBlock_iff (uses_boot _ _) hread]
    rintro ⟨_, _, -, -, hzero⟩
    rw [hdir] at hzero
    exact absurd hzero (by decide)

/-- With one page, which the heap takes, there is none for the directory, and the block stays in
use. -/
theorem exec_block_lost : ∃ out d', execProgram 1 [1, 2, 3] = .ok out d' ∧
    Uses (boot (fun _ => 0) (fewPages 1)).heap (fun _ => False) ∧
    ¬ Uses out.2.2 fun _ => False := by
  have hrun : Reads 1 [1, 2, 3] 0x400010 0 := by decide +kernel
  obtain ⟨⟨_, h₁⟩, d₁, hread, rfl, hdir⟩ := hrun
  have hp : Prepared (fun _ => False) (.ok (0x400010, [1, 2, 3]), h₁) :=
    (readProgram_prepared (uses_boot _ _)).result hread
  have hend : Uses (startProgram Kernel.boot h₁ 0x400010 [1, 2, 3] 0 false).2.2 _ ↔ _ :=
    hp.uses_iff fun hne => absurd hdir hne
  exact ⟨_, _, exec_of_readProgram hread, uses_boot _ _, fun hsame =>
    hend.mp hsame ⟨by decide, hdir⟩⟩

end NullOS.Memory
