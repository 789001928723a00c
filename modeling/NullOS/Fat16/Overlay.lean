import NullOS.Fat16.OneFile

/-!
# A positional write is an overlay

On a device that works `fat16_write_at` lays what it is given over the content of the file, as far
as there are clusters for it.  It does not matter in how many pieces the bytes come.
-/

namespace NullOS.Fat16

open Lib

variable {g : Geo} {v v' : Vol} {lay : Layout} {s t : St} {n P i pos w size : Nat} {x : Slot}
  {name buf C a b : List UInt8} {cs : List Nat}

/-! ## Overlays -/

/-- The bytes laid over `C` from `pos` on. -/
def overlay (C : List UInt8) (pos : Nat) (bytes : List UInt8) : List UInt8 :=
  C.take pos ++ bytes ++ C.drop (pos + bytes.length)

@[simp] lemma overlay_nil : overlay C pos [] = C := by
  rw [overlay, List.append_nil, List.length_nil, Nat.add_zero, List.take_append_drop]

lemma length_overlay (h : pos ≤ C.length) :
    (overlay C pos a).length = max C.length (pos + a.length) := by
  simp only [overlay, List.length_append, List.length_take, List.length_drop]
  omega

lemma getElem?_overlay (h : pos ≤ C.length) : (overlay C pos a)[i]? =
    if i < pos then C[i]? else if i < pos + a.length then a[i - pos]? else C[i]? := by
  have hlen : (C.take pos).length = pos := by rw [List.length_take, Nat.min_eq_left h]
  rw [overlay, List.append_assoc]
  split
  case isTrue hi =>
    rw [List.getElem?_append_left (by omega), List.getElem?_take_of_lt hi]
  case isFalse hi =>
    rw [List.getElem?_append_right (by omega), hlen]
    split
    case isTrue hj => rw [List.getElem?_append_left (by omega)]
    case isFalse hj =>
      rw [List.getElem?_append_right (by omega), List.getElem?_drop]
      congr 1
      omega

lemma overlay_overlay (h : pos ≤ C.length) :
    overlay (overlay C pos a) (pos + a.length) b = overlay C pos (a ++ b) := by
  have hlen := length_overlay (a := a) h
  refine List.ext_getElem? fun i => ?_
  rw [getElem?_overlay (by omega), getElem?_overlay h, getElem?_overlay h, List.length_append]
  by_cases hlow : i < pos
  · rw [if_pos (by omega), if_pos hlow, if_pos hlow]
  · rw [if_neg hlow, if_neg hlow]
    by_cases hfirst : i < pos + a.length
    · rw [if_pos hfirst, if_pos hfirst, if_pos (by omega), List.getElem?_append_left (by omega)]
    · rw [if_neg hfirst, if_neg hfirst]
      by_cases hsecond : i < pos + a.length + b.length
      · rw [if_pos hsecond, if_pos (by omega), List.getElem?_append_right (by omega), Nat.sub_sub]
      · rw [if_neg hsecond, if_neg (by omega)]

lemma Payload.overlay (hp : Payload g lay x v pos buf cs w v'.disk)
    (hold : lay.chain (.file x) <+: cs) (hw : w ≤ buf.length) (hpos : pos ≤ size)
    (hsize : size ≤ (lay.chain (.file x)).length * g.bytesPerCluster) :
    contentOf g v'.disk cs (max size (pos + w)) =
      Fat16.overlay (contentOf g v.disk (lay.chain (.file x)) size) pos (buf.take w) := by
  have htake : (buf.take w).length = w := by rw [List.length_take, Nat.min_eq_left hw]
  have hkept : ∀ j < size, j < pos ∨ pos + w ≤ j →
      fileByte g v'.disk cs j = fileByte g v.disk (lay.chain (.file x)) j := fun j hj hout => by
    rw [fileByte_of_isPrefix hold (by omega), hp.kept j (by omega) hout]
  refine List.ext_getElem? fun i => ?_
  rw [getElem?_overlay (by rwa [length_contentOf]), htake]
  by_cases hi : i < max size (pos + w)
  · rw [getElem?_contentOf hi]
    split
    case isTrue hlow => rw [getElem?_contentOf (by omega), hkept i (by omega) (.inl hlow)]
    case isFalse hlow =>
      split
      case isTrue hmid =>
        obtain ⟨j, rfl⟩ := Nat.exists_eq_add_of_le (Nat.not_lt.mp hlow)
        rw [hp.new j (by omega), Nat.add_sub_cancel_left, List.getElem?_take_of_lt (by omega),
          List.getD_eq_getElem?_getD, List.getElem?_eq_getElem (by omega), Option.getD_some]
      case isFalse hmid => rw [getElem?_contentOf (by omega), hkept i (by omega) (.inr (by omega))]
  · rw [List.getElem?_eq_none (by rw [length_contentOf]; omega), if_neg (by omega),
      if_neg (by omega), List.getElem?_eq_none (by rw [length_contentOf]; omega)]

/-! ## One write -/

/-- The number of bytes that the file can have: in its clusters and in the free ones. -/
def room (g : Geo) (lay : Layout) (x : Slot) (v : Vol) : Nat :=
  ((lay.chain (.file x)).length + g.free v.fat) * g.bytesPerCluster

/-- The number of bytes written, where -1 counts as 0. -/
def written (r : Option WriteOut) : Nat := (r.map WriteOut.written).getD 0

@[simp] lemma written_writeOut (w first size : Nat) : written (writeOut w first size) = w := by
  rw [writeOut]
  split
  case isTrue => rfl
  case isFalse h => exact (Nat.eq_zero_of_not_pos h).symm

/-- What a write on a device that works has done: bytes of `buf` are laid over the file, as many
as there is room for. -/
structure Overlaid (g : Geo) (lay : Layout) (P : Nat) (name : List UInt8) (x : Slot)
    (C : List UInt8) (pos : Nat) (buf : List UInt8) (s : St) (r : Option WriteOut) (t : St) :
    Prop where
  count : written r = min buf.length (room g lay x s.vol - pos)
  file : ∃ lay', FileAt g lay' P name t.vol x (overlay C pos (buf.take (written r))) ∧
    room g lay' x t.vol = room g lay x s.vol ∧ lay'.isDir = lay.isDir
  short : buf ≠ [] → written r < buf.length → g.free t.vol.fat = 0
  failed : r = none → t.vol = s.vol
  report : ∀ out, r = some out → buf ≠ [] → 0 < out.written ∧
    out.size = max C.length (pos + out.written) ∧
    entryAt t.vol.disk x = { entryAt s.vol.disk x with first := out.first, size := out.size }
  frame : lay.isDir = IsDir g s.vol → SameElse g s.vol x t.vol

lemma FileAt.accepted (h : FileAt g lay P name v x C) (hpos : pos ≤ C.length)
    (hlen : pos + buf.length ≤ 0xFFFFFFFF) (hbuf : buf ≠ []) :
    Accepted (entryAt v.disk x) pos buf := by
  rw [h.length] at hpos
  refine ⟨hpos, hlen, fun h2 => ?_, hbuf⟩
  have hcovers := h.covers
  rcases h.chain.first_cases with ⟨-, hnil⟩ | ⟨h2', -⟩
  · rw [hnil, List.length_nil, Nat.zero_mul] at hcovers
    omega
  · omega

lemma fat16WriteAt_overlaid (hs : FileAt g lay P (to83 name) s.vol x C) (hio : s.io = working)
    (hn : Enough g n) (hpos : pos ≤ C.length) (hlen : pos + buf.length ≤ 0xFFFFFFFF) :
    Ends (fat16WriteAt g n P name pos buf) s fun r t => t.io = working ∧
      Overlaid g lay P (to83 name) x C pos buf s r t := by
  refine (fat16WriteAt_left hs.valid hs.dir hn).mono ?_
  rintro r t ⟨⟨hio', -⟩, hleft⟩
  refine ⟨hio' hio, ?_⟩
  have hsize := hs.length
  have hcovers := hs.covers
  rcases hleft with ⟨hvol, hzero, hrefused⟩ | ⟨x', hx', -, hwrote⟩
  · -- there was nothing to write
    have hbuf : buf = [] := by
      by_contra hbuf
      exact hrefused hio x hs.found (hs.accepted hpos hlen hbuf)
    have hw : written r = 0 := by
      cases r with
      | none => rfl
      | some out => exact hzero out rfl
    refine ⟨by rw [hw, hbuf, List.length_nil, Nat.zero_min], ⟨lay, ?_, by rw [room, room, hvol],
      rfl⟩, fun hne => absurd hbuf hne, fun _ => hvol, fun _ _ hne => absurd hbuf hne, fun _ => ?_⟩
    · rw [hw, hvol, List.take_zero, overlay_nil]
      exact hs
    · rw [hvol]
      exact .refl _ _ _
  obtain rfl : x = x' := Option.some.inj (hs.found.lookup.symm.trans hx'.lookup)
  have hbpc := bytesPerCluster_pos g
  cases hwrote with
  | full hr hfail hexact =>
    subst hr
    have hle : pos / g.bytesPerCluster ≤ (lay.chain (.file x)).length := by
      rw [← Nat.lt_add_one_iff, Nat.div_lt_iff_lt_mul hbpc, Nat.add_one_mul]
      omega
    obtain ⟨hvol, hlast⟩ := hexact hle
    have hfull := hfail.full
    have hroom : room g lay x s.vol ≤ pos := by
      rw [room, ← hvol, hfull, Nat.add_zero, hlast]
      exact Nat.div_mul_le_self _ _
    refine ⟨?_, ⟨lay, ?_, by rw [room, room, hvol], rfl⟩, fun _ _ => hfull, fun _ => hvol, nofun,
      fun _ => ?_⟩
    · show 0 = _
      omega
    · show FileAt _ _ _ _ _ _ (overlay C pos (buf.take 0))
      rw [hvol, List.take_zero, overlay_nil]
      exact hs
    · rw [hvol]
      exact .refl _ _ _
  | stopped hbroken => exact absurd hio hbroken
  | @done first w cs hr hw hpositive hshort hold hreach hbooks hpay hre hcop =>
    have hw' : written r = w := by rw [hr, written_writeOut]
    have hmul := Nat.mul_le_mul_right g.bytesPerCluster hold.length_le
    have hroom : room g lay x s.vol = (cs.length + g.free t.vol.fat) * g.bytesPerCluster := by
      rw [room, hbooks]
    have hroom' := Nat.add_mul cs.length (g.free t.vol.fat) g.bytesPerCluster
    refine ⟨?_, ⟨lay.setFile x cs, ⟨hre.valid hs.valid, hs.dir, hre.found hs.found, ?_, ?_⟩, ?_,
      rfl⟩, fun _ hlt => (hshort hio (hw' ▸ hlt)).1, fun h0 => ?_, fun out hout _ => ?_,
      fun hlay => hre.sameElse hs.valid hlay hs.found⟩
    · rw [hw']
      by_cases hlt : w < buf.length
      · obtain ⟨hfull, hend⟩ := hshort hio hlt
        rw [hroom, hfull, Nat.add_zero]
        omega
      · omega
    · rw [hre.entry, Layout.setFile_chain_self]
      dsimp only
      omega
    · rw [hre.entry, Layout.setFile_chain_self, hs.content, hw']
      exact (hpay.overlay hold hw (by omega) hcovers).symm
    · rw [hroom, room, Layout.setFile_chain_self]
    · rw [hr, writeOut, if_pos (hpositive hio)] at h0
      cases h0
    · rw [hr, writeOut, if_pos (hpositive hio)] at hout
      obtain rfl := Option.some.inj hout
      refine ⟨hpositive hio, by rw [hsize], hre.entry⟩

/-! ## A stream of writes -/

/-- Consecutive writes, each from where the one before has ended; the result is the last
position. -/
def writeStream (g : Geo) (n P : Nat) (name : List UInt8) : Nat → List (List UInt8) → Fs Nat
  | pos, [] => pure pos
  | pos, buf :: rest => do
      let r ← fat16WriteAt g n P name pos buf
      writeStream g n P name (pos + written r) rest

lemma writeStream_spec {chunks : List (List UInt8)} (hs : FileAt g lay P (to83 name) s.vol x C)
    (hio : s.io = working) (hn : Enough g n) (hpos : pos ≤ C.length)
    (hlen : pos + chunks.flatten.length ≤ 0xFFFFFFFF) :
    Ends (writeStream g n P name pos chunks) s fun _ t =>
      ∃ lay', FileAt g lay' P (to83 name) t.vol x
      (overlay C pos (chunks.flatten.take (room g lay x s.vol - pos))) := by
  induction chunks generalizing lay s C pos with
  | nil =>
    refine .pure ⟨lay, ?_⟩
    rw [List.flatten_nil, List.take_nil, overlay_nil]
    exact hs
  | cons buf chunks ih =>
    rw [List.flatten_cons, List.length_append] at hlen
    refine (fat16WriteAt_overlaid hs hio hn hpos (by omega)).seq ?_
    rintro r t ⟨hio', hover⟩
    obtain ⟨lay₁, hfile, hroom, -⟩ := hover.file
    have hcount := hover.count
    have htake : (buf.take (written r)).length = written r := by
      rw [List.length_take]
      omega
    have hlen₁ := length_overlay (a := buf.take (written r)) hpos
    rw [htake] at hlen₁
    refine (ih hfile hio' (by omega) (by omega)).mono ?_
    rintro _ u ⟨lay₂, hfile₂⟩
    refine ⟨lay₂, ?_⟩
    have hover₂ := overlay_overlay (a := buf.take (written r))
      (b := chunks.flatten.take (room g lay₁ x t.vol - (pos + written r))) hpos
    rw [htake] at hover₂
    rw [hover₂, hroom] at hfile₂
    have hall : (buf ++ chunks.flatten).take (room g lay x s.vol - pos) = buf.take (written r) ++
        chunks.flatten.take (room g lay x s.vol - (pos + written r)) := by
      rw [List.take_append]
      congr 1
      · rw [hcount, Nat.min_comm, ← List.take_eq_take_min]
      · congr 1
        omega
    rwa [List.flatten_cons, hall]

/-- **A positional write is an overlay, and it does not matter in how many pieces.** -/
theorem writeAt_overlay (h : Sound g v) (hn : Enough g n) (hP : IsDir g v P)
    (hx : Finds g n v P name x) (hdir : ¬ (entryAt v.disk x).Directory) (hC : HasContent g v x C)
    (hpos : pos ≤ C.length) (hbuf : buf ≠ []) (hlen : pos + buf.length < 0x80000000) :
    ∃ r t, fat16WriteAt g n P name pos buf v.start = .ok r t ∧
      (r = none → g.free v.fat = 0 ∧ t.vol = v) ∧
      (∀ out, r = some out → 0 < out.written ∧ out.written ≤ buf.length ∧
        (out.written < buf.length → g.free t.vol.fat = 0) ∧
        HasContent g t.vol x (overlay C pos (buf.take out.written)) ∧
        out.size = max C.length (pos + out.written) ∧
        entryAt t.vol.disk x = { entryAt v.disk x with first := out.first, size := out.size } ∧
        SameElse g v x t.vol) ∧
      ∀ chunks, chunks.flatten = buf → ∃ pos' u C',
        writeStream g n P name pos chunks v.start = .ok pos' u ∧
        HasContent g t.vol x C' ∧ HasContent g u.vol x C' := by
  have hs := h.fileAt hn hP hx hdir hC
  have hends : Ends (fat16WriteAt g n P name pos buf) v.start _ :=
    fat16WriteAt_overlaid hs rfl hn hpos (by omega)
  obtain ⟨r, t, hrun, -, hover⟩ := hends
  have hcount := hover.count
  obtain ⟨lay', hfile, -⟩ := hover.file
  refine ⟨r, t, hrun, fun hr => ?_, fun out hout => ?_, fun chunks hchunks => ?_⟩
  · have hvol := hover.failed hr
    have hshort := hover.short hbuf
    subst hr
    rw [hvol] at hshort
    exact ⟨hshort (List.length_pos_iff.mpr hbuf), hvol⟩
  · obtain ⟨hpositive, hsize, hentry⟩ := hover.report out hout hbuf
    subst hout
    exact ⟨hpositive, Nat.le_trans (Nat.le_of_eq hcount) (Nat.min_le_left _ _), hover.short hbuf,
      hfile.hasContent, hsize, hentry, hover.frame rfl⟩
  · have hstream : Ends (writeStream g n P name pos chunks) v.start _ :=
      writeStream_spec hs rfl hn hpos (by rw [hchunks]; omega)
    obtain ⟨pos', u, hrun', lay₂, hfile₂⟩ := hstream
    refine ⟨pos', u, _, hrun', hfile.hasContent, ?_⟩
    have hsame : buf.take (written r) = buf.take (room g h.layout x v - pos) := by
      rw [hcount, Nat.min_comm, ← List.take_eq_take_min]
      rfl
    rw [hsame, ← hchunks]
    exact hfile₂.hasContent

/-- 200 bytes go to the file of 500, from 450 on, in one piece or in two. -/
theorem writeAt_overlay_grown : ∃ out t pos u C,
    fat16WriteAt smallGeo 0x10002 0 (ascii "a") 450 (List.replicate 200 7) someBytes.start =
      .ok (some out) t ∧ out.written = 200 ∧ out.size = 650 ∧
    C = overlay (contentOf smallGeo someBytes.disk [2] 500) 450 (List.replicate 200 7) ∧
    HasContent smallGeo t.vol (4, 0) C ∧ SameElse smallGeo someBytes (4, 0) t.vol ∧
    writeStream smallGeo 0x10002 0 (ascii "a") 450 [List.replicate 80 7, List.replicate 120 7]
      someBytes.start = .ok pos u ∧ HasContent smallGeo u.vol (4, 0) C := by
  have hlength : (contentOf smallGeo someBytes.disk [2] 500).length = 500 :=
    length_contentOf _ _ _ _
  obtain ⟨r, t, hrun, hnone, hsome, hstream⟩ := writeAt_overlay someBytes_sound smallGeo_enough
    .root someBytes_finds someBytes_not_directory someBytes_hasContent (by omega : 450 ≤ _)
    (by decide : List.replicate 200 (7 : UInt8) ≠ []) (by rw [List.length_replicate]; decide)
  have hcount : Ends (fat16WriteAt smallGeo 0x10002 0 (ascii "a") 450 (List.replicate 200 7))
      someBytes.start fun r _ => written r = 200 := by
    decide +kernel
  have hwritten := hcount.result hrun
  cases r with
  | none => cases hwritten
  | some out =>
    obtain ⟨-, -, -, hover, hsize, -, hsame⟩ := hsome out rfl
    obtain ⟨pos, u, C', hrun', ht, hu⟩ :=
      hstream [List.replicate 80 7, List.replicate 120 7] (by decide +kernel)
    have hout : out.written = 200 := hwritten
    have htake : (List.replicate 200 (7 : UInt8)).take 200 = List.replicate 200 7 :=
      List.take_of_length_le (by rw [List.length_replicate])
    rw [hout, htake] at hover
    rw [hout, hlength] at hsize
    rw [ht.unique hover smallGeo_fits] at hu
    exact ⟨out, t, pos, u, _, hrun, hout, hsize, rfl, hover, hsame, hrun', hu⟩

end NullOS.Fat16
