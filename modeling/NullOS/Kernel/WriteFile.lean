import NullOS.Kernel.Transfer
import NullOS.Fat16.Overlay
import NullOS.Fat16.Save

/-!
# Writing a file through `sys_write`

`vfs_write` advances the position by what `fat16_write_at` has written but returns only whether it
was all, and `sys_write` counts the chunks for which it was.  When the disk fills up in the middle
of a chunk the bytes before the end are in the file, but they are not reported.
-/

namespace NullOS.Transfer

open Lib Memory Fat16 Vfs

variable {g : Geo} {lay : Layout} {n kchunk slot cr3 j buf len P pos total fuel want : Nat}
  {name C chunk : List UInt8} {x : Slot} {s : State} {d : St} {fd : VfsFd}

/-! ## One chunk -/

/-- How many bytes of `len` a write at `pos` takes, with clusters for `room` bytes. -/
def takes (room pos len : Nat) : Nat := if pos + len ≤ 0xFFFFFFFF then min len (room - pos) else 0

lemma takes_le (room pos len : Nat) : takes room pos len ≤ len := by
  rw [takes]
  split <;> omega

lemma takes_pos_iff {room : Nat} :
    0 < takes room pos len ↔ 0 < len ∧ pos < room ∧ pos + len ≤ 0xFFFFFFFF := by
  rw [takes]
  split <;> omega

lemma add_takes_lt (room len : Nat) (hpos : pos < 0x100000000) :
    pos + takes room pos len < 0x100000000 := by
  rw [takes]
  split <;> omega

/-- A write that is refused because it would pass the largest size writes nothing. -/
lemma fat16WriteAt_takes (hs : FileAt g lay P (to83 name) d.vol x C) (hio : d.io = working)
    (hn : Enough g n) (hpos : pos ≤ C.length) :
    Ends (fat16WriteAt g n P name pos chunk) d fun r t => t.io = working ∧
      written r = takes (room g lay x d.vol) pos chunk.length ∧
      (∃ lay', FileAt g lay' P (to83 name) t.vol x (overlay C pos (chunk.take (written r))) ∧
        room g lay' x t.vol = room g lay x d.vol ∧ lay'.isDir = lay.isDir) ∧
      (lay.isDir = IsDir g d.vol → SameElse g d.vol x t.vol) := by
  by_cases hfits : pos + chunk.length ≤ 0xFFFFFFFF
  · refine (fat16WriteAt_overlaid hs hio hn hpos hfits).mono ?_
    rintro r t ⟨hio', hover⟩
    exact ⟨hio', by rw [takes, if_pos hfits, hover.count], hover.file, hover.frame⟩
  · refine (fat16WriteAt_left hs.valid hs.dir hn).mono ?_
    rintro r t ⟨⟨hio', -⟩, hleft⟩
    rcases hleft with ⟨hvol, hzero, -⟩ | ⟨_, -, hacc, -⟩
    · have hw : written r = 0 := by
        cases r with
        | none => rfl
        | some out => exact hzero out rfl
      refine ⟨hio' hio, by rw [hw, takes, if_neg hfits], ⟨lay, ?_, by rw [room, room, hvol], rfl⟩,
        fun _ => by rw [hvol]; exact .refl _ _ _⟩
      rw [hw, hvol, List.take_zero, overlay_nil]
      exact hs
    · exact absurd hacc.fits hfits

structure OpenAt (fd : VfsFd) (P : Nat) (name : List UInt8) (pos : Nat) : Prop where
  used : fd.used = true
  backend : fd.backend = .fat16
  parent : fd.parentCluster = P
  name : fd.name = name
  pos : fd.pos = pos

/-- **`vfs_write` of a chunk** advances the position by what was written, and returns 0 if that was
all. -/
lemma vfsWrite_takes (hfd : OpenAt fd P name pos) (hs : FileAt g lay P (to83 name) d.vol x C)
    (hio : d.io = working) (hn : Enough g n) (hpos : pos ≤ C.length) (hchunk : chunk ≠ [])
    (hsmall : chunk.length ≤ sysWriteChunk) :
    Ends (vfsWrite g n fd chunk) d fun r t => t.io = working ∧
      (r.1 < 0 ↔ takes (room g lay x d.vol) pos chunk.length < chunk.length) ∧
      OpenAt r.2 P name (pos + takes (room g lay x d.vol) pos chunk.length) ∧
      (∃ lay', FileAt g lay' P (to83 name) t.vol x
          (overlay C pos (chunk.take (takes (room g lay x d.vol) pos chunk.length))) ∧
        room g lay' x t.vol = room g lay x d.vol ∧ lay'.isDir = lay.isDir) ∧
      (lay.isDir = IsDir g d.vol → SameElse g d.vol x t.vol) := by
  obtain ⟨hused, hback, rfl, rfl, rfl⟩ := hfd
  have hlength : 0 < chunk.length := List.length_pos_iff.mpr hchunk
  have hle := takes_le (room g lay x d.vol) fd.pos chunk.length
  have hsize : C.length < 0x100000000 := by
    rw [hs.length]
    exact (dirent_fits _ _).size
  rw [vfsWrite, if_neg (by simp [hused, hback]), if_neg (by omega)]
  refine (fat16WriteAt_takes hs hio hn hpos).seq ?_
  rintro r t ⟨hio', hw, hfile⟩
  rw [hw] at hfile
  cases r with
  | none =>
    have hzero : takes (room g lay x d.vol) fd.pos chunk.length = 0 := hw.symm
    refine .pure ⟨hio', iff_of_true (by omega) (by omega), ⟨hused, hback, rfl, rfl, ?_⟩, hfile⟩
    rw [hzero]
    rfl
  | some out =>
    have hout : out.written = takes (room g lay x d.vol) fd.pos chunk.length := hw
    have hint : int32 out.written = out.written :=
      int32_small (by simp only [sysWriteChunk] at hsmall; omega)
    dsimp only
    rw [hint, if_neg (by omega)]
    refine .pure ⟨hio', ?_, ⟨hused, hback, rfl, rfl, ?_⟩, hfile⟩
    · dsimp only
      split <;> omega
    · rw [hout]
      exact Nat.mod_eq_of_lt (add_takes_lt _ _ (by omega))

/-! ## One turn -/

lemma ends_onDisk {α : Type} {m : Fs α} {Q : α → St → Prop} (h : Ends m s.disk Q) :
    Ends (onDisk m) s fun a t => ∃ disk, t = { s with disk } ∧ Q a disk := by
  obtain ⟨a, disk, hm, hq⟩ := h
  refine .of_eq (t := { s with disk }) (a := a) ?_ ⟨disk, rfl, hq⟩
  rw [onDisk, hm]

/-- Entry `j` of the caller's row is open for the name at this position, the disk works and the
buffer can be read. -/
structure Writing (kchunk slot cr3 j buf len P : Nat) (name : List UInt8) (pos : Nat) (s : State) :
    Prop where
  fd : OpenAt (s.k.fdTable slot j) P name pos
  io : s.disk.io = working
  buffer : UserBuffer s.mem cr3 buf len
  array : KernelBuffer s.mem cr3 kchunk sysWriteChunk

lemma Writing.fetch (h : Writing kchunk slot cr3 j buf len P name pos s)
    (hroom : total + want ≤ len) (hwant : 0 < want) (hsmall : want ≤ sysWriteChunk) :
    Ends (copyIn cr3 kchunk ((buf + total) % 0x100000000) want) s fun ok t =>
      ok = true ∧ ∃ mem, t = { s with mem } ∧
        bytesAt mem kchunk want = ((userBytes s.mem cr3 buf len).drop total).take want ∧
        Writing kchunk slot cr3 j buf len P name pos { s with mem } ∧
        userBytes mem cr3 buf len = userBytes s.mem cr3 buf len := by
  have hsum := h.buffer.sum
  have hpd := h.buffer.aligned
  have harray := h.array.mono hsmall
  have hpiece := h.buffer.sub hroom
  obtain ⟨src, hsrc⟩ : ∃ src : Nat → UInt8,
    (fun i => s.mem (userKptr s.mem cr3 (buf + total + i))) = src := ⟨_, rfl⟩
  have hcopy := hpiece.copyFromUser_eq harray hwant
  rw [hsrc] at hcopy
  have hsame := harray.samePaging src
  refine .of_eq (a := true) (t := { s with mem := s.mem.blit kchunk want src }) ?_
    ⟨rfl, _, rfl, ?_, ⟨h.fd, h.io, hsame.userBuffer h.buffer, hsame.kernelBuffer hpd h.array⟩,
      h.buffer.userBytes_blit harray src⟩
  · rw [copyIn, Nat.mod_eq_of_lt (by omega), hcopy]
    rfl
  · refine List.ext_getElem ?_ fun k hk hk' => ?_
    · simp only [bytesAt, userBytes, List.length_map, List.length_range, List.length_take,
        List.length_drop]
      omega
    · have hkw : k < want := by simpa [bytesAt] using hk
      rw [List.getElem_take, List.getElem_drop]
      simp only [bytesAt, userBytes, List.getElem_map, List.getElem_range]
      rw [Mem.blit_of_mem (by omega) (by omega), Nat.add_sub_cancel_left, ← hsrc]
      dsimp only
      rw [Nat.add_assoc]

lemma vfsWriteFd_disk {Q : Int × VfsFd → St → Prop}
    (hback : (s.k.fdTable slot j).backend = .fat16)
    (h : Ends (vfsWrite g n (s.k.fdTable slot j) chunk) s.disk Q) :
    Ends (vfsWriteFd g n slot j chunk) s fun r t =>
      ∃ disk fd, t = { s with disk, k := s.k.setFd slot j fd } ∧ Q (r, fd) disk := by
  show Ends (if (s.k.fdTable slot j).used ∧ (s.k.fdTable slot j).backend = .pipeWrite then
    pipeWrite slot (s.k.fdTable slot j).first chunk else _) s _
  rw [if_neg (by simp [hback])]
  refine (ends_onDisk h).seq ?_
  rintro ⟨r, fd⟩ t ⟨disk, rfl, hq⟩
  exact .of_eq (a := r) rfl ⟨disk, fd, rfl, hq⟩

/-- The name leads to the file in slot `x` with the content `C`, on a volume that differs from `v`
in this file only. -/
structure OnFile (g : Geo) (lay : Layout) (v : Vol) (P : Nat) (name : List UInt8) (x : Slot)
    (C : List UInt8) (pos : Nat) (d : St) : Prop where
  file : FileAt g lay P (to83 name) d.vol x C
  pos_le : pos ≤ C.length
  dirs : lay.isDir = IsDir g d.vol
  same : SameElse g v x d.vol

lemma OnFile.store {v : Vol} (h : OnFile g lay v P name x C pos s.disk)
    (hw : Writing kchunk slot cr3 j buf len P name pos s) (hn : Enough g n) (hchunk : chunk ≠ [])
    (hsmall : chunk.length ≤ sysWriteChunk) :
    Ends (vfsWriteFd g n slot j chunk) s fun r t =>
      (r < 0 ↔ takes (room g lay x s.disk.vol) pos chunk.length < chunk.length) ∧
      t.mem = s.mem ∧ Writing kchunk slot cr3 j buf len P name
        (pos + takes (room g lay x s.disk.vol) pos chunk.length) t ∧
      ∃ lay', room g lay' x t.disk.vol = room g lay x s.disk.vol ∧
        OnFile g lay' v P name x
          (overlay C pos (chunk.take (takes (room g lay x s.disk.vol) pos chunk.length)))
          (pos + takes (room g lay x s.disk.vol) pos chunk.length) t.disk := by
  refine (vfsWriteFd_disk hw.fd.backend
    (vfsWrite_takes hw.fd h.file hw.io hn h.pos_le hchunk hsmall)).mono ?_
  rintro r _ ⟨disk, fd, rfl, hio, hr, hfd, ⟨lay', hfile, hroom, hdirs⟩, hsame⟩
  have hle := takes_le (room g lay x s.disk.vol) pos chunk.length
  have hsame := hsame h.dirs
  refine ⟨hr, rfl, ⟨by simpa using hfd, hio, hw.buffer, hw.array⟩, lay', hroom, hfile, ?_, ?_,
    h.same.trans hsame⟩
  · rw [length_overlay h.pos_le, List.length_take]
    omega
  · rw [hdirs, h.dirs]
    exact (funext fun d => propext (hsame.dirs d)).symm

/-! ## The whole call -/

/-- Chunk `k` of `len` bytes that are written from `pos` on. -/
def chunkSize (len k : Nat) : Nat := min (len - sysWriteChunk * k) sysWriteChunk

/-- The disk fills up inside a chunk: some of it is written and some is not. -/
def PartialChunk (room pos len : Nat) : Prop := ∃ k, sysWriteChunk * k < len ∧
  0 < takes room (pos + sysWriteChunk * k) (chunkSize len k) ∧
  takes room (pos + sysWriteChunk * k) (chunkSize len k) < chunkSize len k

/-- How many bytes are in the chunks that are written to their ends. -/
def wholeChunks (room pos len : Nat) : Nat :=
  if pos + len ≤ min room 0xFFFFFFFF then len
  else sysWriteChunk * ((min room 0xFFFFFFFF - pos) / sysWriteChunk)

section PartialChunk

variable {room : Nat}

lemma not_partialChunk_zero : ¬ PartialChunk room pos 0 := by
  rintro ⟨k, hk, -⟩
  omega

lemma partialChunk_stop (hshort : takes room pos (min len sysWriteChunk) < min len sysWriteChunk) :
    PartialChunk room pos len ↔ 0 < takes room pos (min len sysWriteChunk) := by
  constructor
  · rintro ⟨k, hk, hpos, -⟩
    rw [takes_pos_iff] at hpos ⊢
    simp only [chunkSize, sysWriteChunk] at *
    omega
  · intro hpos
    refine ⟨0, ?_, hpos, hshort⟩
    rw [takes_pos_iff] at hpos
    omega

lemma partialChunk_next (hfull : takes room pos (min len sysWriteChunk) = min len sysWriteChunk) :
    PartialChunk room pos len ↔
      PartialChunk room (pos + min len sysWriteChunk) (len - min len sysWriteChunk) := by
  have hshift : ∀ k, sysWriteChunk ≤ len → pos + min len sysWriteChunk + sysWriteChunk * k =
      pos + sysWriteChunk * (k + 1) ∧
      chunkSize (len - min len sysWriteChunk) k = chunkSize len (k + 1) := by
    intro k hlen
    simp only [chunkSize, sysWriteChunk] at *
    omega
  constructor
  · rintro ⟨k, hk, hpos, hlt⟩
    cases k with
    | zero =>
      rw [chunkSize, Nat.mul_zero, Nat.add_zero, Nat.sub_zero, hfull] at hlt
      exact absurd hlt (lt_irrefl _)
    | succ k =>
      obtain ⟨hp, hc⟩ := hshift k (by simp only [sysWriteChunk] at *; omega)
      rw [← hp, ← hc] at hpos hlt
      refine ⟨k, ?_, hpos, hlt⟩
      simp only [sysWriteChunk] at *
      omega
  · rintro ⟨k, hk, hpos, hlt⟩
    obtain ⟨hp, hc⟩ := hshift k (by simp only [sysWriteChunk] at *; omega)
    rw [hp, hc] at hpos hlt
    refine ⟨k + 1, ?_, hpos, hlt⟩
    simp only [sysWriteChunk] at *
    omega

lemma takes_eq_iff (hlen : 0 < len) :
    takes room pos len = len ↔ pos + len ≤ min room 0xFFFFFFFF := by
  rw [takes]
  split <;> omega

lemma wholeChunks_stop (hlen : 0 < len)
    (hshort : takes room pos (min len sysWriteChunk) < min len sysWriteChunk) :
    wholeChunks room pos len = 0 := by
  have hsize : 0 < min len sysWriteChunk := by
    simp only [sysWriteChunk]
    omega
  have hno := (takes_eq_iff hsize).not.mp hshort.ne
  rw [wholeChunks, if_neg (by omega)]
  simp only [sysWriteChunk] at *
  omega

lemma wholeChunks_next (hlen : 0 < len)
    (hfull : takes room pos (min len sysWriteChunk) = min len sysWriteChunk) :
    wholeChunks room pos len = min len sysWriteChunk +
      wholeChunks room (pos + min len sysWriteChunk) (len - min len sysWriteChunk) := by
  have hsize : 0 < min len sysWriteChunk := by
    simp only [sysWriteChunk]
    omega
  have hfits := (takes_eq_iff hsize).mp hfull
  rw [wholeChunks, wholeChunks]
  by_cases hall : pos + len ≤ min room 0xFFFFFFFF
  · rw [if_pos hall, if_pos (by omega)]
    omega
  · rw [if_neg hall, if_neg (by omega)]
    simp only [sysWriteChunk] at *
    omega

lemma not_partialChunk (hroom : pos + len ≤ room) (hmax : pos + len ≤ 0xFFFFFFFF) :
    ¬ PartialChunk room pos len := by
  rintro ⟨k, hk, -, hlt⟩
  rw [takes, if_pos (by simp only [chunkSize, sysWriteChunk] at *; omega)] at hlt
  simp only [chunkSize, sysWriteChunk] at *
  omega

end PartialChunk

/-- What the loop leaves, from `total` bytes on and with clusters for `room` bytes: the whole chunks
are reported and `w` bytes are in the file. -/
def Reported (g : Geo) (v : Vol) (slot j P : Nat) (name : List UInt8) (x : Slot) (C : List UInt8)
    (pos room total : Nat) (B : List UInt8) (r : Nat) (t : State) : Prop :=
  ∃ w lay', r = soFar (total + wholeChunks room pos (B.length - total)) ∧
    wholeChunks room pos (B.length - total) ≤ w ∧ w ≤ B.length - total ∧
    (wholeChunks room pos (B.length - total) = w ↔
      ¬ PartialChunk room pos (B.length - total)) ∧
    OpenAt (t.k.fdTable slot j) P name (pos + w) ∧
    OnFile g lay' v P name x (overlay C pos ((B.drop total).take w)) (pos + w) t.disk

lemma OnFile.reported_end {v : Vol} {B : List UInt8} (h : OnFile g lay v P name x C pos s.disk)
    (hw : Writing kchunk slot cr3 j buf len P name pos s) (hB : B.length = len) (hlen : 0 < len)
    (room : Nat) : Reported g v slot j P name x C pos room len B len s := by
  have hzero : wholeChunks room pos (B.length - len) = 0 := by
    rw [hB, Nat.sub_self, wholeChunks]
    simp only [sysWriteChunk]
    split <;> omega
  refine ⟨0, lay, ?_, hzero.le, Nat.zero_le _, ?_, hw.fd, ?_⟩
  · rw [hzero, soFar, if_pos (by omega), Nat.add_zero]
  · rw [hB, Nat.sub_self] at hzero ⊢
    exact iff_of_true hzero not_partialChunk_zero
  · rw [List.take_zero, overlay_nil]
    exact h

/-- **The loop of `sys_write` on a file.** -/
lemma writeChunks_file {v : Vol} {B : List UInt8} (h : OnFile g lay v P name x C pos s.disk)
    (hw : Writing kchunk slot cr3 j buf len P name pos s) (hn : Enough g n)
    (htotal : total ≤ len) (hfuel : len - total ≤ fuel) (hlen : 0 < len)
    (hB : userBytes s.mem cr3 buf len = B) :
    Ends (writeChunks g n kchunk slot cr3 j buf len fuel total) s
      (Reported g v slot j P name x C pos (room g lay x s.disk.vol) total B) := by
  have hlength : B.length = len := by
    rw [← hB, userBytes, List.length_map, List.length_range]
  induction fuel generalizing s total lay C pos with
  | zero =>
    obtain rfl : total = len := by omega
    exact .pure (h.reported_end hw hlength hlen _)
  | succ fuel ih =>
    rw [writeChunks]
    split
    case isFalse hend =>
      obtain rfl : total = len := by omega
      exact .pure (h.reported_end hw hlength hlen _)
    case isTrue hmore =>
      obtain ⟨want, hwant⟩ : ∃ want, min (len - total) sysWriteChunk = want := ⟨_, rfl⟩
      have hpos : 0 < want := by
        simp only [sysWriteChunk] at hwant
        omega
      dsimp only
      rw [hwant]
      refine (hw.fetch (by omega : total + want ≤ len) hpos (by omega)).seq ?_
      rintro _ t ⟨rfl, mem, rfl, hchunk, hw, hsame⟩
      rw [if_pos rfl]
      refine .bind (.of_eq rfl ?_)
      rw [hB] at hchunk hsame
      rw [hchunk]
      obtain ⟨chunk, hc⟩ : ∃ chunk, (B.drop total).take want = chunk := ⟨_, rfl⟩
      have hsize : chunk.length = want := by
        rw [← hc, List.length_take, List.length_drop]
        omega
      have hne : chunk ≠ [] := by
        rw [← List.length_pos_iff]
        omega
      rw [hc]
      refine (OnFile.store (s := { s with mem }) h hw hn hne (by omega)).seq ?_
      rintro r u ⟨hr, hmem, hw', lay', hroom, hon'⟩
      rw [hsize] at hr hw' hon'
      dsimp only at hr hroom hw' hon'
      split
      case isTrue hneg =>
        -- the chunk was not written to its end
        have hshort := hr.mp hneg
        have hzero : wholeChunks (room g lay x s.disk.vol) pos (B.length - total) = 0 := by
          rw [hlength]
          exact wholeChunks_stop (by omega) (hwant ▸ hshort)
        refine .pure ⟨takes (room g lay x s.disk.vol) pos want, lay', ?_, by omega, by omega, ?_,
          hw'.fd, ?_⟩
        · rw [hzero, Nat.add_zero]
        · rw [hzero, hlength]
          rw [← hwant] at hshort ⊢
          rw [partialChunk_stop hshort]
          omega
        · rw [← hc, List.take_take, Nat.min_eq_left hshort.le] at hon'
          exact hon'
      case isFalse hok =>
        have hfull : takes (room g lay x s.disk.vol) pos want = want :=
          Nat.le_antisymm (takes_le _ _ _) (Nat.not_lt.mp fun hlt => hok (hr.mpr hlt))
        rw [hfull] at hw' hon'
        rw [List.take_of_length_le hsize.le] at hon'
        have hnext : wholeChunks (room g lay x s.disk.vol) pos (B.length - total) =
            want + wholeChunks (room g lay x s.disk.vol) (pos + want)
              (B.length - (total + want)) := by
          rw [hlength, Nat.sub_add_eq, ← hwant]
          exact wholeChunks_next (by omega) (by rw [hwant, hfull])
        refine (ih hon' hw' (by omega) (by omega) (by rw [hmem]; exact hsame)).mono ?_
        rintro r t ⟨w, lay'', hr', haw, hw, hpartial, hfd, hon''⟩
        rw [hroom] at hr' haw hpartial
        refine ⟨want + w, lay'', ?_, by omega, by omega, ?_, ?_, ?_⟩
        · rw [hr', hnext, Nat.add_assoc]
        · rw [hnext, Nat.add_right_inj, hpartial, hlength, Nat.sub_add_eq, ← hwant]
          exact not_congr (partialChunk_next (by rw [hwant, hfull])).symm
        · rwa [← Nat.add_assoc]
        · have hbytes : (B.drop total).take (want + w) =
              chunk ++ (B.drop (total + want)).take w := by
            rw [List.take_add, hc, List.drop_drop]
          rw [← hsize, overlay_overlay h.pos_le, hsize, ← hbytes, Nat.add_assoc] at hon''
          exact hon''

lemma sysWrite_eq {fd : Nat} (hcur : s.k.current = some slot)
    (hfd : s.k.userFd slot (writeTarget (s.k.procs slot) fd) = some j)
    (hbuffer : UserBuffer s.mem (s.k.procs slot).cr3 buf len) (hbuf : buf ≠ 0) (hlen : 0 < len) :
    sysWrite g n kchunk fd buf len s =
      writeChunks g n kchunk slot (s.k.procs slot).cr3 j buf len len 0 s := by
  have hbase : fdBase ≤ writeTarget (s.k.procs slot) fd := by
    by_contra hlt
    rw [Kernel.userFd, if_pos (by omega)] at hfd
    cases hfd
  rw [sysWrite, if_neg hbuf, if_neg (by omega)]
  have hget : ∀ f : State → Sys Nat, (get >>= f) s = f s s := fun _ => rfl
  rw [hget, hcur]
  dsimp only
  rw [hbuffer.valid hlen]
  dsimp only
  rw [if_pos hbase, hfd]

/-- Entry `j` of the caller's row is a descriptor of a FAT16 file, at a position inside the file in
slot `x`; whether the name that it has stored leads to that file is left open. -/
structure OpenFile (g : Geo) (n slot j : Nat) (x : Slot) (C : List UInt8) (s : State) : Prop where
  sound : Sound g s.disk.vol
  covered : ∀ y, IsFile g s.disk.vol y → ∃ D, HasContent g s.disk.vol y D
  io : s.disk.io = working
  enough : Enough g n
  backend : (s.k.fdTable slot j).backend = .fat16
  dir : IsDir g s.disk.vol (s.k.fdTable slot j).parentCluster
  file : IsFile g s.disk.vol x
  content : HasContent g s.disk.vol x C
  pos_le : (s.k.fdTable slot j).pos ≤ C.length

/-- The result says what was written: the first `r` bytes of `B`, and the position is behind them;
nothing, and the position is where it was, for -1. -/
def Exact (g : Geo) (slot j : Nat) (x : Slot) (C : List UInt8) (pos : Nat) (B : List UInt8)
    (r : Nat) (t : State) : Prop :=
  (r ≠ minusOne → HasContent g t.disk.vol x (overlay C pos (B.take r)) ∧
    (t.k.fdTable slot j).pos = pos + r) ∧
  (r = minusOne → HasContent g t.disk.vol x C ∧ (t.k.fdTable slot j).pos = pos)

/-- The file in slot `y`, with the clusters `cs`, is the one that the name in the descriptor leads
to, and the position is inside it. -/
structure Target (g : Geo) (n : Nat) (v : Vol) (fd : VfsFd) (y : Slot) (cs : List Nat) : Prop where
  finds : Finds g n v fd.parentCluster fd.name y
  not_directory : ¬ (entryAt v.disk y).Directory
  chain : FileChain g v.fat (entryAt v.disk y).first cs
  pos_le : fd.pos ≤ (entryAt v.disk y).size

/-- The bytes in the file in slot `x` with the content `C` are those that are reported, if the name
leads to the file in slot `y` with room for `room` bytes. -/
def Faithful (x y : Slot) (C : List UInt8) (room pos : Nat) (B : List UInt8) : Prop :=
  ¬ PartialChunk room pos B.length ∧
    (y = x ∨ overlay C pos (B.take (wholeChunks room pos B.length)) = C)

lemma OnFile.content {v : Vol} {y : Slot} {E : List UInt8} {d : St}
    (h : OnFile g lay v P name y E pos d) (hx : IsFile g v x) (hC : HasContent g v x C) :
    if y = x then HasContent g d.vol x E else HasContent g d.vol x C := by
  split
  case isTrue heq => exact heq ▸ h.file.hasContent
  case isFalse hne => exact h.same.files x C hx (Ne.symm hne) hC

lemma Reported.exact_iff {v : Vol} {y : Slot} {D B : List UInt8} {room r : Nat} {t : State}
    (h : Reported g v slot j P name y D pos room 0 B r t) (hlen : B.length < minusOne)
    (hg : g.Fits) (hx : IsFile g v x) (hC : HasContent g v x C) (hD : HasContent g v y D) :
    Exact g slot j x C pos B r t ↔ Faithful x y C room pos B := by
  obtain ⟨w, lay', rfl, haw, hw, hpartial, hfd, hon⟩ := h
  have hpos := hfd.pos
  have hcontent := hon.content hx hC
  rw [Nat.sub_zero] at haw hw hpartial
  rw [Nat.sub_zero, Faithful, ← hpartial, Nat.zero_add, Exact, hpos]
  rw [List.drop_zero] at hcontent
  generalize wholeChunks room pos B.length = a at haw hpartial
  have hsame : y = x → D = C := fun heq => (heq ▸ hD).unique hC hg
  rcases Nat.eq_zero_or_pos a with rfl | ha
  · -- nothing is reported
    rw [show soFar 0 = minusOne from rfl, List.take_zero, overlay_nil]
    refine ⟨fun hex => ⟨?_, .inr rfl⟩, ?_⟩
    · have := (hex.2 rfl).2
      omega
    · rintro ⟨rfl, -⟩
      rw [List.take_zero, overlay_nil] at hcontent
      refine ⟨fun hne => absurd rfl hne, fun _ => ⟨?_, rfl⟩⟩
      split at hcontent
      case isTrue heq => exact hsame heq ▸ hcontent
      case isFalse => exact hcontent
  · rw [show soFar a = a from if_pos ha]
    have hne : a ≠ minusOne := by omega
    refine ⟨fun hex => ?_, ?_⟩
    · obtain ⟨hfile, hpos⟩ := hex.1 hne
      refine ⟨by omega, ?_⟩
      by_cases heq : y = x
      · exact .inl heq
      · rw [if_neg heq] at hcontent
        exact .inr (hfile.unique hcontent hg)
    · rintro ⟨rfl, hwhere⟩
      refine ⟨fun _ => ⟨?_, rfl⟩, fun heq => absurd heq hne⟩
      split at hcontent
      case isTrue heq => exact hsame heq ▸ hcontent
      case isFalse hxy =>
        rw [hwhere.resolve_left hxy]
        exact hcontent

lemma vfsWriteFd_refused (hw : Writing kchunk slot cr3 j buf len P name pos s)
    (hs : Sound g s.disk.vol) (hP : IsDir g s.disk.vol P) (hn : Enough g n) (hchunk : chunk ≠ [])
    (hpos : pos < 0x100000000)
    (hno : ∀ y, Found g hs.layout P (to83 name) s.disk.vol y →
      ¬ Accepted (entryAt s.disk.vol.disk y) pos chunk) :
    Ends (vfsWriteFd g n slot j chunk) s fun r t =>
      r < 0 ∧ t.disk.vol = s.disk.vol ∧ (t.k.fdTable slot j).pos = pos := by
  obtain ⟨hused, hback, rfl, rfl, rfl⟩ := hw.fd
  have hlength : 0 < chunk.length := List.length_pos_iff.mpr hchunk
  have hdisk : Ends (vfsWrite g n (s.k.fdTable slot j) chunk) s.disk fun r t =>
      r.1 < 0 ∧ t.vol = s.disk.vol ∧ r.2.pos = (s.k.fdTable slot j).pos := by
    rw [vfsWrite, if_neg (by simp [hused, hback]), if_neg (by omega)]
    refine (fat16WriteAt_left hs.valid hP hn).seq ?_
    rintro r t ⟨-, ⟨hvol, hzero, -⟩ | ⟨y, hy, hacc, -⟩⟩
    · cases r with
      | none => exact .pure ⟨by omega, hvol, rfl⟩
      | some out =>
        have hout := hzero out rfl
        dsimp only
        rw [hout, if_neg (by decide), if_neg (by omega)]
        exact .pure ⟨(by decide : (-1 : Int) < 0), hvol, Nat.mod_eq_of_lt hpos⟩
    · exact absurd hacc (hno y hy)
  refine (vfsWriteFd_disk hback hdisk).mono ?_
  rintro r _ ⟨disk, fd, rfl, hr, hvol, hpos⟩
  exact ⟨hr, hvol, by simpa using hpos⟩

lemma writeChunks_refused (hw : Writing kchunk slot cr3 j buf len P name pos s)
    (hs : Sound g s.disk.vol) (hP : IsDir g s.disk.vol P) (hn : Enough g n)
    (hpos : pos < 0x100000000) (hlen : 0 < len)
    (hno : ∀ y chunk, Found g hs.layout P (to83 name) s.disk.vol y →
      ¬ Accepted (entryAt s.disk.vol.disk y) pos chunk) :
    Ends (writeChunks g n kchunk slot cr3 j buf len len 0) s fun r t =>
      r = minusOne ∧ t.disk.vol = s.disk.vol ∧ (t.k.fdTable slot j).pos = pos := by
  obtain ⟨fuel, rfl⟩ := Nat.exists_eq_succ_of_ne_zero hlen.ne'
  rw [writeChunks, if_pos hlen]
  obtain ⟨want, hwant⟩ : ∃ want, min (fuel + 1 - 0) sysWriteChunk = want := ⟨_, rfl⟩
  have hpositive : 0 < want := by
    simp only [sysWriteChunk] at hwant
    omega
  dsimp only
  rw [hwant]
  refine (hw.fetch (by omega : 0 + want ≤ fuel + 1) hpositive (by omega)).seq ?_
  rintro _ t ⟨rfl, mem, rfl, -, hw, -⟩
  rw [if_pos rfl]
  refine .bind (.of_eq rfl ?_)
  have hne : bytesAt mem kchunk want ≠ [] := by
    rw [← List.length_pos_iff]
    simpa [bytesAt] using hpositive
  refine (vfsWriteFd_refused hw hs hP hn hne hpos fun y => hno y _).seq ?_
  rintro r u ⟨hneg, hvol, hpos⟩
  rw [if_pos hneg]
  exact .pure ⟨rfl, hvol, hpos⟩

/-- **When `sys_write` reports what it wrote.**  The call returns, and its result says what was
written exactly if the name in the descriptor leads nowhere, or the disk does not fill up inside one
of the chunks of 128 bytes and what was written went to this file or makes no difference to it. -/
theorem sysWrite_exact_iff {fd : Nat} (h : OpenFile g n slot j x C s)
    (hcur : s.k.current = some slot)
    (hfd : s.k.userFd slot (writeTarget (s.k.procs slot) fd) = some j)
    (hbuffer : UserBuffer s.mem (s.k.procs slot).cr3 buf len)
    (harray : KernelBuffer s.mem (s.k.procs slot).cr3 kchunk sysWriteChunk)
    (hbuf : buf ≠ 0) (hlen : 0 < len) :
    ∃ r t, sysWrite g n kchunk fd buf len s = .ok r t ∧
      (Exact g slot j x C (s.k.fdTable slot j).pos
          (userBytes s.mem (s.k.procs slot).cr3 buf len) r t ↔
        ∀ y cs, Target g n s.disk.vol (s.k.fdTable slot j) y cs →
          Faithful x y C ((cs.length + g.free s.disk.vol.fat) * g.bytesPerCluster)
            (s.k.fdTable slot j).pos (userBytes s.mem (s.k.procs slot).cr3 buf len)) := by
  rw [sysWrite_eq hcur hfd hbuffer hbuf hlen]
  have hv := h.sound.valid
  have hw : Writing kchunk slot (s.k.procs slot).cr3 j buf len (s.k.fdTable slot j).parentCluster
      (s.k.fdTable slot j).name (s.k.fdTable slot j).pos s :=
    ⟨⟨(Kernel.userFd_some hfd).2, h.backend, rfl, rfl, rfl⟩, h.io, hbuffer, harray⟩
  by_cases hsome : ∃ y cs, Target g n s.disk.vol (s.k.fdTable slot j) y cs
  · obtain ⟨y, cs, hy⟩ := hsome
    have hfound := hy.finds.found hv h.dir h.enough hy.not_directory
    have hfile := hfound.isFile h.sound h.dir
    obtain ⟨D, hD⟩ := h.covered y hfile
    have hat := h.sound.fileAt h.enough h.dir hy.finds hy.not_directory hD
    have hon : OnFile g h.sound.layout s.disk.vol _ _ y D _ s.disk :=
      ⟨hat, hat.length ▸ hy.pos_le, rfl, .refl _ _ _⟩
    have hloop : Ends (writeChunks g n kchunk slot (s.k.procs slot).cr3 j buf len len 0) s _ :=
      writeChunks_file hon hw h.enough (Nat.zero_le len) le_rfl hlen rfl
    obtain ⟨r, t, hrun, hrep⟩ := hloop
    have hroom : room g h.sound.layout y s.disk.vol =
        (cs.length + g.free s.disk.vol.fat) * g.bytesPerCluster := by
      rw [room, hat.chain.unique h.sound.fits hy.chain]
    rw [hroom] at hrep
    have hsum := hbuffer.sum
    have hB : (userBytes s.mem (s.k.procs slot).cr3 buf len).length < minusOne := by
      rw [userBytes, List.length_map, List.length_range]
      simp only [minusOne]
      omega
    refine ⟨r, t, hrun, ?_⟩
    rw [hrep.exact_iff hB h.sound.fits h.file h.content hD]
    refine ⟨fun hfaith y' cs' hy' => ?_, fun hall => hall y cs hy⟩
    obtain rfl := hy.finds.unique hy'.finds
    rwa [hy'.chain.unique h.sound.fits hy.chain]
  · have hpos : (s.k.fdTable slot j).pos < 0x100000000 := by
      obtain ⟨cs, -, -, hC⟩ := h.content
      have hle := h.pos_le
      rw [hC, length_contentOf] at hle
      exact Nat.lt_of_le_of_lt hle (dirent_fits _ _).size
    have hno : ∀ y chunk, Found g h.sound.layout (s.k.fdTable slot j).parentCluster
        (to83 (s.k.fdTable slot j).name) s.disk.vol y →
        ¬ Accepted (entryAt s.disk.vol.disk y) (s.k.fdTable slot j).pos chunk := by
      intro y chunk hy hacc
      obtain ⟨cs, hcs⟩ := h.sound.files y (hy.isFile h.sound h.dir)
      obtain ⟨hit, u, hrun, heq, -⟩ := finds_of_lookup hv h.dir h.enough hy.lookup
      exact hsome ⟨y, cs, ⟨hit, u, hrun, heq⟩, hy.not_directory, hcs, hacc.pos_le⟩
    obtain ⟨r, t, hrun, rfl, hvol, hpos⟩ := writeChunks_refused hw h.sound h.dir h.enough hpos hlen
      hno
    refine ⟨_, t, hrun, iff_of_true ?_ fun y cs hy => absurd ⟨y, cs, hy⟩ hsome⟩
    rw [Exact, hvol]
    exact ⟨fun hne => absurd rfl hne, fun _ => ⟨h.content, hpos⟩⟩

/-! ## Two calls -/

/-- A process with a page of buffer has the file `a` of the volume open, at `pos`. -/
def writerState (v : Vol) (pos : Nat) : State where
  k := { Kernel.boot with
    procs := fun _ => { Proc.init with pid := 1, state := .running, cr3 := 0x400000 }
    current := some 0
    fdTable := fun _ _ => { (default : VfsFd) with
      used := true, backend := .fat16, pos, parentCluster := 0, name := ascii "a" } }
  mem := twoPages
  disk := v.start
  console := []

lemma openFile_oneCluster {size : Nat} (hg : g.Fits) (hn : Enough g 0x10002) (hc : g.Cluster 2)
    (hslot : (4, 0) ∈ slotsOf (dirSectors g 0 [])) (hsize : size ≤ g.bytesPerCluster)
    (hlt : size < 0x100000000) (hpos : pos ≤ size) :
    OpenFile g 0x10002 0 0 (4, 0) (contentOf g (oneCluster 4 (to83 (ascii "a")) size).disk [2] size)
      (writerState (oneCluster 4 (to83 (ascii "a")) size) pos) := by
  have hname : (to83 (ascii "a")).length = 11 := by decide
  have hcontent : HasContent g (oneCluster 4 (to83 (ascii "a")) size) (4, 0) _ :=
    oneCluster_hasContent hg hc hname hlt hsize
  have hfile : IsFile g (oneCluster 4 (to83 (ascii "a")) size) (4, 0) := by
    refine ⟨⟨0, .root, [], .inl (by decide), hslot⟩, ?_⟩
    rw [oneCluster_entry hname hlt]
    exact ⟨(by decide : (newFile (to83 (ascii "a"))).Live),
      (newFile_not_directory : ¬ (newFile (to83 (ascii "a"))).Directory)⟩
  refine ⟨oneCluster_sound hg hc hname hlt, fun y hy => ?_, rfl, hn, rfl, .root, hfile, hcontent,
    ?_⟩
  · obtain rfl : y = (4, 0) := oneEntry_eq_of_live hy.2.1
    exact ⟨_, hcontent⟩
  · rw [length_contentOf]
    exact hpos

/-- 200 bytes go to a file of 500 bytes, from 450 on: with clusters for them they are reported. -/
theorem sysWrite_exact_grow : ∃ r t,
    sysWrite smallGeo 0x10002 0x10000 3 0x800000 200
      (writerState (oneCluster 4 (to83 (ascii "a")) 500) 450) = .ok r t ∧
    Exact smallGeo 0 0 (4, 0)
      (contentOf smallGeo (oneCluster 4 (to83 (ascii "a")) 500).disk [2] 500) 450
      (userBytes twoPages 0x400000 0x800000 200) r t := by
  have hopen : OpenFile smallGeo 0x10002 0 0 (4, 0) _
      (writerState (oneCluster 4 (to83 (ascii "a")) 500) 450) :=
    openFile_oneCluster smallGeo_fits smallGeo_enough ⟨by decide, by decide⟩ (by decide) (by decide)
      (by decide) (by decide)
  have hfd : (writerState (oneCluster 4 (to83 (ascii "a")) 500) 450).k.userFd 0
      (writeTarget ((writerState (oneCluster 4 (to83 (ascii "a")) 500) 450).k.procs 0) 3) =
        some 0 := rfl
  obtain ⟨r, t, hrun, hexact⟩ := sysWrite_exact_iff hopen rfl hfd twoPages_userBuffer
    twoPages_kernelBuffer (by decide) (by decide : 0 < 200)
  refine ⟨r, t, hrun, hexact.mpr fun y cs hy => ?_⟩
  have hfree : 2 ≤ smallGeo.free (oneCluster 4 (to83 (ascii "a")) 500).fat := someBytes_free
  have hlength : (userBytes twoPages 0x400000 0x800000 200).length = 200 := by
    rw [userBytes, List.length_map, List.length_range]
  have hroom : 450 + 200 ≤
      (cs.length + smallGeo.free (oneCluster 4 (to83 (ascii "a")) 500).fat) * 512 := by omega
  have hwhole := not_partialChunk hroom (by decide)
  rw [← hlength] at hwhole
  exact ⟨hwhole, .inl (hy.finds.unique someBytes_finds)⟩

/-- The only cluster of a full disk has room for two of three bytes: they are written, the position
is behind them, and the result is -1. -/
theorem sysWrite_unreported :
    OpenFile tinyGeo 0x10002 0 0 (4, 0)
      (contentOf tinyGeo (oneCluster 4 (to83 (ascii "a")) 510).disk [2] 510)
      (writerState (oneCluster 4 (to83 (ascii "a")) 510) 510) ∧
    ∃ t, sysWrite tinyGeo 0x10002 0x10000 3 0x800000 3
        (writerState (oneCluster 4 (to83 (ascii "a")) 510) 510) = .ok minusOne t ∧
      (t.k.fdTable 0 0).pos = 512 := by
  refine ⟨openFile_oneCluster ⟨by decide, by decide⟩ tinyGeo_enough ⟨by decide, by decide⟩
    (by decide) (by decide) (by decide) (by decide), ?_⟩
  have hrun : Ends (sysWrite tinyGeo 0x10002 0x10000 3 0x800000 3)
      (writerState (oneCluster 4 (to83 (ascii "a")) 510) 510)
      fun r t => r = minusOne ∧ (t.k.fdTable 0 0).pos = 512 := by
    decide +kernel
  obtain ⟨_, t, ht, rfl, hpos⟩ := hrun
  exact ⟨t, ht, hpos⟩

end NullOS.Transfer
