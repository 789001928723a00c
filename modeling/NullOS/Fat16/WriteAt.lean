import NullOS.Fat16.FileWrite

/-!
# Writing at a position

`fat16_write_at` follows the chain of the file to the position, writes sector by sector, lets the
chain grow where it ends, and then writes the FAT and the entry.  Whatever block operations fail,
the other bytes stay what they were, and the entry is written only when the FAT is on the disk.
-/

namespace NullOS.Fat16

open Lib

variable {g : Geo} {v v' : Vol} {lay : Layout} {s t : St} {n P c i k lba first size : Nat}
  {x : Slot} {name buf : List UInt8} {cs cs' : List Nat} {cur : Cursor}

/-! ## The cursor of `fat16_write_at` -/

/-- The cursor is at cluster `i` of the chain `cs`, which is no longer than the file had or the
cursor needs. -/
structure At (g : Geo) (lay : Layout) (x : Slot) (first : Nat) (v : Vol) (cur : Cursor) (i : Nat)
    (cs : List Nat) (v' : Vol) : Prop where
  draft : Draft g lay x first cs v v'
  cluster : cs[i]? = some cur.cluster
  length : cs.length = max (lay.chain (.file x)).length (i + 1)
  clean : cur.fatDirty = false → v'.fat = v.fat
  fatArea : ∀ lba < g.rootStartLba, v'.disk lba = v.disk lba

namespace At

lemma mem (h : At g lay x first v cur i cs v') : cur.cluster ∈ cs := List.mem_of_getElem? h.cluster

lemma chain (h : At g lay x first v cur i cs v') : Chain g v'.fat first cs := by
  rcases h.draft.chain with ⟨rfl, -⟩ | hch
  · exact absurd h.mem (by simp)
  · exact hch

lemma is_cluster (h : At g lay x first v cur i cs v') : g.Cluster cur.cluster :=
  h.chain.cluster _ h.mem

/-- The chain is shorter than 2¹⁶, whatever the position. -/
lemma index_lt (hg : g.Fits) (h : At g lay x first v cur i cs v') : i < 0x10000 := by
  have hlen : cs.length ≤ 0x10000 :=
    length_le_of_nodup h.chain.walk.nodup fun c hc => hg.lt (h.chain.cluster c hc)
  have hi := (List.getElem?_eq_some_iff.mp h.cluster).1
  omega

lemma write (h : At g lay x first v cur i cs s.vol) (hk : k < g.sectorsPerCluster) (hg : g.Fits)
    (hw : Writes (· = clusterSector g cur.cluster k) s t) : At g lay x first v cur i cs t.vol := by
  have hmem : clusterSector g cur.cluster k ∈ clusterLbas g cur.cluster :=
    mem_clusterLbas.mpr ⟨k, hk, rfl⟩
  refine ⟨h.draft.write hw fun lba hlba => ⟨_, h.mem, hlba ▸ hmem⟩, h.cluster, h.length,
    fun hd => hw.fat.trans (h.clean hd), fun lba hlt => ?_⟩
  rw [hw.disk lba, h.fatArea lba hlt]
  rintro rfl
  have hle := dataStartLba_le hg h.is_cluster hmem
  have hroot := rootStartLba_le g
  omega

end At

/-- The cursor, when the chain of the file was at most led on, what this call has allocated lies
behind what the file had, and the clusters add up. -/
structure Placed (g : Geo) (lay : Layout) (x : Slot) (first : Nat) (v : Vol) (cur : Cursor)
    (i : Nat) (cs : List Nat) (v' : Vol) : Prop extends At g lay x first v cur i cs v' where
  old : lay.chain (.file x) <+: cs
  fresh : cur.fresh = true → (lay.chain (.file x)).length ≤ i
  books : cs.length + g.free v'.fat = (lay.chain (.file x)).length + g.free v.fat

lemma Placed.write (h : Placed g lay x first v cur i cs s.vol) (hk : k < g.sectorsPerCluster)
    (hg : g.Fits) (hw : Writes (· = clusterSector g cur.cluster k) s t) :
    Placed g lay x first v cur i cs t.vol := by
  refine ⟨h.toAt.write hk hg hw, h.old, h.fresh, ?_⟩
  rw [hw.fat]
  exact h.books

lemma concat_of_getElem? {l : List Nat} (hi : l[i]? = some c) (hlen : i + 1 = l.length) :
    ∃ pre, l = pre ++ [c] := by
  rcases List.eq_nil_or_concat l with rfl | ⟨pre, b, rfl⟩
  · simp at hi
  · rw [List.concat_eq_append] at hi hlen ⊢
    rw [List.length_append, List.length_singleton, Nat.add_right_cancel_iff] at hlen
    rw [hlen, List.getElem?_concat_length] at hi
    exact ⟨pre, by rw [Option.some.inj hi]⟩

lemma cursorNext_spec (hv : Valid g v lay) (h : Placed g lay x first v cur i cs s.vol) :
    Ends (cursorNext g cur) s fun r t => t.io = s.io ∧
      (r = none ∧ t = s ∧ cs.length = i + 1 ∧ g.free s.vol.fat = 0 ∨
        ∃ cur' cs', r = some cur' ∧ Placed g lay x first v cur' (i + 1) cs' t.vol ∧ cs <+: cs' ∧
          t.vol.disk = s.vol.disk ∧
          (i + 1 < cs.length → t = s ∧ cs' = cs ∧ cur'.fatDirty = cur.fatDirty)) := by
  have hcl := h.is_cluster
  have hlt : cur.cluster < g.fatEntries := Nat.lt_of_lt_of_le hcl.2 hv.fits.entries
  have hold := h.length
  rw [cursorNext]
  refine (getFat_spec hlt).seq ?_
  rintro _ s ⟨rfl, rfl⟩
  rcases (h.chain.walk_stop hv.fits).succ h.cluster with ⟨hlen, hstop⟩ | hnext
  · -- the end of the chain, which grows
    rw [if_pos hstop]
    refine (fat16AllocCluster_spec hv.fits).seq ?_
    rintro c _ (⟨rfl, rfl, hfull⟩ | ⟨hc, hfree, rfl⟩)
    · rw [if_pos rfl]
      exact .pure ⟨rfl, .inl ⟨rfl, rfl, hlen.symm, free_eq_zero hfull⟩⟩
    have hc2 := hc.1
    rw [if_neg (by omega)]
    refine (setFat_spec hlt).seq ?_
    rintro _ _ rfl
    obtain ⟨pre, rfl⟩ := concat_of_getElem? h.cluster hlen
    have hfat : ∀ b,
        Function.update (Function.update s.vol.fat c 0xFFFF) cur.cluster (c % 0x10000) b =
        if b = cur.cluster then c else if b = c then 0xFFFF else s.vol.fat b := by
      intro b
      rw [Function.update_apply, Function.update_apply, Nat.mod_eq_of_lt (hv.fits.lt hc)]
    have hdraft := h.draft.extend hv hc hfree hfat
    have hgrown : pre ++ [cur.cluster] <+: pre ++ [cur.cluster] ++ [c] := List.prefix_append _ _
    have hbooks : g.free (Function.update (Function.update s.vol.fat c 0xFFFF) cur.cluster
        (c % 0x10000)) + 1 = g.free s.vol.fat := by
      rw [← free_take (x := 0xFFFF) hc hfree (by decide), free_keep hcl]
      · rw [Function.update_apply]
        split
        · decide
        · exact h.chain.fat_ne_zero h.mem
      · rw [Nat.mod_eq_of_lt (hv.fits.lt hc)]
        omega
    have hall := h.books
    refine .pure ⟨rfl, .inr ⟨_, _, rfl, ⟨⟨hdraft, ?_, ?_, nofun, h.fatArea⟩, h.old.trans hgrown, ?_,
      ?_⟩, hgrown, rfl, ?_⟩⟩
    · rw [hlen]
      exact List.getElem?_concat_length
    · rw [List.length_append, List.length_singleton, ← hlen]
      omega
    · intro _
      omega
    · rw [List.length_append, List.length_singleton]
      show _ + 1 + g.free (Function.update (Function.update s.vol.fat c 0xFFFF) cur.cluster
        (c % 0x10000)) = _
      omega
    · intro hi
      omega
  · -- the next cluster of the chain
    have hi := (List.getElem?_eq_some_iff.mp hnext).1
    rw [if_neg (not_stop_of_cluster hv.fits (h.chain.cluster _ (List.mem_of_getElem? hnext)))]
    exact .pure ⟨rfl, .inr ⟨_, cs, rfl,
      ⟨⟨h.draft, hnext, by omega, h.clean, h.fatArea⟩, h.old, nofun, h.books⟩,
      List.prefix_rfl, rfl, fun _ => ⟨rfl, rfl, rfl⟩⟩⟩

structure SeekFailed (g : Geo) (lay : Layout) (x : Slot) (first : Nat) (v : Vol) (cs : List Nat)
    (s t : St) : Prop where
  draft : Draft g lay x first cs v t.vol
  old : lay.chain (.file x) <+: cs
  mixed : Mixed g v t.vol
  data : ∀ lba, g.rootStartLba ≤ lba → t.vol.disk lba = s.vol.disk lba
  copies : s.io = working → Copies g v → Copies g t.vol
  full : g.free t.vol.fat = 0

lemma SeekFailed.of_reads {u : St} (hr : Reads u s) (h : SeekFailed g lay x first v cs s t) :
    SeekFailed g lay x first v cs u t := by
  refine ⟨h.draft, h.old, h.mixed, fun lba hlba => ?_, fun hio => h.copies (hr.io hio), h.full⟩
  rw [h.data lba hlba, hr.vol]

lemma seekLoop_spec (hv : Valid g v lay) (h : Placed g lay x first v cur i cs s.vol) :
    Ends (seekLoop g k cur) s fun r t => (s.io = working → t.io = working) ∧
      ((∃ cur' cs', r = some cur' ∧ Placed g lay x first v cur' (i + k) cs' t.vol ∧
          t.vol.disk = s.vol.disk) ∨
        r = none ∧ 0 < k ∧ ∃ cs', SeekFailed g lay x first v cs' s t ∧ cs'.length ≤ i + k ∧
          (cur.fatDirty = false → i + k ≤ cs.length → t = s ∧ cs' = cs)) := by
  induction k generalizing cur i cs s with
  | zero => exact .pure ⟨id, .inl ⟨cur, cs, rfl, h, rfl⟩⟩
  | succ k ih =>
    rw [seekLoop]
    refine (cursorNext_spec hv h).seq ?_
    rintro r t ⟨hio, ⟨rfl, rfl, hlen, hfull⟩ | ⟨cur', cs', rfl, hat, -, hdisk, hsame⟩⟩
    · dsimp only
      split
      case isTrue hdirty =>
        refine ((fat16FlushFat_spec t).and (fat16FlushFat_mixed h.fatArea)).seq ?_
        rintro r u ⟨⟨hw, hfalse, hcopies⟩, hmixed⟩
        refine .pure ⟨hw.io, .inr ⟨rfl, by omega, cs, ⟨h.draft.flush hw, h.old, hmixed hw.fat,
          fun lba hlba => hw.disk lba (Nat.not_lt.mpr hlba), fun hio _ => hcopies ?_, ?_⟩, by omega,
          fun hd => ?_⟩⟩
        · by_contra hr
          exact hfalse (by simpa using hr) hio
        · rw [hw.fat]
          exact hfull
        · rw [hdirty] at hd
          simp at hd
      case isFalse hclean =>
        refine .pure ⟨id, .inr ⟨rfl, by omega, cs, ⟨h.draft, h.old,
          fun lba hlba => .inl (h.fatArea lba hlba), fun _ _ => rfl, fun _ hc => ?_,
          hfull⟩, by omega, fun _ _ => ⟨rfl, rfl⟩⟩⟩
        exact hc.congr (h.clean (by simpa using hclean)) h.fatArea
    · refine (ih hat).mono ?_
      rintro r u ⟨hio', hcase⟩
      refine ⟨fun hw => hio' (hio.trans hw), ?_⟩
      rcases hcase with ⟨cur'', cs'', rfl, hat', hdisk'⟩ | ⟨rfl, hk, cs'', hfail, hlen, hexact⟩
      · refine .inl ⟨cur'', cs'', rfl, ?_, hdisk'.trans hdisk⟩
        rwa [Nat.add_assoc, Nat.add_comm 1 k] at hat'
      · refine .inr ⟨rfl, by omega, cs'', ⟨hfail.draft, hfail.old, hfail.mixed, fun lba hlba => ?_,
          fun hw => hfail.copies (hio.trans hw), hfail.full⟩, by omega, fun hd hle => ?_⟩
        · rw [hfail.data lba hlba, hdisk]
        · -- this is not the last step, so it stays inside of the chain
          obtain ⟨rfl, rfl, hdirty⟩ := hsame (by omega)
          exact hexact (hdirty.trans hd) (by omega)

/-! ## The data -/

lemma oldSector_spec {fresh : Bool} {len : Nat} (s : St) (lba : Nat) :
    Ends (oldSector len fresh lba) s fun r t => Reads s t ∧ (r = none → s.io ≠ working) ∧
      ∀ m, r = some m → len < 512 → fresh = false → m = s.vol.disk lba := by
  rw [oldSector]
  split
  case isTrue =>
    split
    case isTrue hfresh =>
      refine .pure ⟨.refl s, nofun, fun _ _ _ hold => ?_⟩
      rw [hfresh] at hold
      exact absurd hold (by decide)
    case isFalse =>
      refine (blockReadSector_spec s lba).mono ?_
      rintro r t ⟨hreads, ⟨rfl, hio⟩ | rfl⟩
      · exact ⟨hreads, fun _ => hio, nofun⟩
      · refine ⟨hreads, nofun, ?_⟩
        rintro _ ⟨⟩ _ _
        rfl
  case isFalse hfull =>
    exact .pure ⟨.refl s, nofun, fun _ _ hlt => absurd hlt hfull⟩

/-- What is on the disk when `w` bytes were written from `pos` on: these bytes, and around them
what the file had. -/
structure Payload (g : Geo) (lay : Layout) (x : Slot) (v : Vol) (pos : Nat) (buf : List UInt8)
    (cs : List Nat) (w : Nat) (disk : Nat → Mem) : Prop where
  new : ∀ j < w, fileByte g disk cs (pos + j) = buf.getD j 0
  kept : ∀ j < (lay.chain (.file x)).length * g.bytesPerCluster, j < pos ∨ pos + w ≤ j →
    fileByte g disk (lay.chain (.file x)) j = fileByte g v.disk (lay.chain (.file x)) j

namespace Payload

variable {pos w : Nat} {disk disk' : Nat → Mem}

lemma start (h : ∀ c ∈ lay.chain (.file x), ∀ lba ∈ clusterLbas g c, disk lba = v.disk lba) :
    Payload g lay x v pos buf cs 0 disk :=
  ⟨fun _ hj => absurd hj (Nat.not_lt_zero _), fun _ hj _ => fileByte_congr hj h⟩

lemma congr (h : Payload g lay x v pos buf cs w disk) (hold : lay.chain (.file x) <+: cs)
    (hreach : pos + w ≤ cs.length * g.bytesPerCluster)
    (hdisk : ∀ c ∈ cs, ∀ lba ∈ clusterLbas g c, disk' lba = disk lba) :
    Payload g lay x v pos buf cs w disk' := by
  refine ⟨fun j hj => ?_, fun j hj hout => ?_⟩
  · rw [fileByte_congr (by omega) hdisk, h.new j hj]
  · rw [fileByte_congr hj fun c hc => hdisk c (hold.subset hc), h.kept j hj hout]

lemma grow (h : Payload g lay x v pos buf cs w disk) (hgrown : cs <+: cs')
    (hreach : pos + w ≤ cs.length * g.bytesPerCluster) :
    Payload g lay x v pos buf cs' w disk := by
  refine ⟨fun j hj => ?_, h.kept⟩
  rw [fileByte_of_isPrefix hgrown (by omega), h.new j hj]

/-- One more sector: `len` bytes from `off` in cluster `i` on.  Only the first sector may start
with bytes that are not written. -/
lemma write (hg : g.Fits) (hp : Placed g lay x first v cur i cs v')
    (h : Payload g lay x v pos buf cs w v'.disk) {off len : Nat} {sector : Mem}
    (hpos : pos + w = i * g.bytesPerCluster + off) (hoff : off < g.bytesPerCluster)
    (hlen : off % 512 + len ≤ 512) (halign : 0 < w → off % 512 = 0)
    (hsector : len < 512 → cur.fresh = false →
      sector = v'.disk (clusterSector g cur.cluster (off / 512))) :
    Payload g lay x v pos buf cs (w + len)
      (Function.update v'.disk (clusterSector g cur.cluster (off / 512))
        (sector.blit (off % 512) len fun j => buf.getD (w + j) 0)) := by
  have hbpc : g.bytesPerCluster = g.sectorsPerCluster * 512 := rfl
  have hi : i + 1 ≤ cs.length := (List.getElem?_eq_some_iff.mp hp.cluster).1
  have hroom : (i + 1) * g.bytesPerCluster ≤ cs.length * g.bytesPerCluster :=
    Nat.mul_le_mul_right _ hi
  rw [Nat.add_one_mul] at hroom
  have hassoc : i * g.bytesPerCluster = i * g.sectorsPerCluster * 512 := (Nat.mul_assoc _ _ _).symm
  -- the sector, counted from the start of the file
  have hq : (pos + w) / 512 = i * g.sectorsPerCluster + off / 512 := by omega
  have hr : (pos + w) % 512 = off % 512 := by omega
  have hlba := sectorAt_of_getElem? (g := g) hp.cluster
    (show off / 512 < g.sectorsPerCluster by omega)
  rw [← hq] at hlba
  have hqlt : (pos + w) / 512 < cs.length * g.sectorsPerCluster := sector_lt (by omega)
  rw [← hlba] at hsector ⊢
  generalize hnew : sector.blit (off % 512) len (fun j => buf.getD (w + j) 0) = new
  have hbyte : ∀ j < cs.length * g.bytesPerCluster,
      fileByte g (Function.update v'.disk (sectorAt g cs ((pos + w) / 512)) new) cs j =
        if j / 512 = (pos + w) / 512 then new (j % 512) else fileByte g v'.disk cs j :=
    fun j hj => fileByte_update hg hp.chain.walk.nodup hp.chain.cluster hqlt hj
  refine ⟨fun j hj => ?_, fun j hj hout => ?_⟩
  · rw [hbyte (pos + j) (by omega)]
    split
    case isTrue hsame =>
      rw [← hnew, Mem.blit_of_mem (by omega) (by omega)]
      congr 1
      omega
    case isFalse hother => exact h.new j (by omega)
  · have hjcs : j < cs.length * g.bytesPerCluster :=
      Nat.lt_of_lt_of_le hj (Nat.mul_le_mul_right _ hp.old.length_le)
    rw [← fileByte_of_isPrefix hp.old hj, hbyte j hjcs]
    split
    case isTrue hsame =>
      -- the cluster is one that the file had
      have hfresh : cur.fresh = false := by
        by_contra hfresh
        have hle := hp.fresh (by simpa using hfresh)
        have hmul := Nat.mul_le_mul_right g.bytesPerCluster hle
        omega
      have hkept := h.kept j hj (by omega)
      rw [← fileByte_of_isPrefix hp.old hj] at hkept
      rw [← hnew, Mem.blit_of_not_mem (by omega), hsector (by omega) hfresh, ← hsame]
      exact hkept
    case isFalse hother =>
      rw [fileByte_of_isPrefix hp.old hj]
      exact h.kept j hj (by omega)

end Payload

/-- What the second part of `fat16_write_at` has done: `r.1` bytes are written, on a device that
works fewer than all only if the disk is full. -/
structure Wrote (g : Geo) (lay : Layout) (x : Slot) (first : Nat) (v : Vol) (pos : Nat)
    (buf : List UInt8) (works : Prop) (r : Nat × Bool) (t : St) (off : Nat) : Prop where
  intro ::
  place : ∃ cur i cs, Placed g lay x first v cur i cs t.vol ∧
    Payload g lay x v pos buf cs r.1 t.vol.disk ∧ cur.fatDirty = r.2 ∧
    pos + r.1 = i * g.bytesPerCluster + off ∧
    (works → r.1 < buf.length → g.free t.vol.fat = 0 ∧ pos + r.1 = cs.length * g.bytesPerCluster)
  off_le : off ≤ g.bytesPerCluster

lemma Wrote.imp {pos off : Nat} {works works' : Prop} {r : Nat × Bool}
    (h : Wrote g lay x first v pos buf works r t off) (hw : works' → works) :
    Wrote g lay x first v pos buf works' r t off := by
  obtain ⟨⟨cur, i, cs, hplaced, hpay, hdirty, hpos, hshort⟩, hoff⟩ := h
  exact ⟨⟨cur, i, cs, hplaced, hpay, hdirty, hpos, fun h => hshort (hw h)⟩, hoff⟩

lemma writeAtLoop_spec (hv : Valid g v lay) {pos off : Nat} (written : Nat)
    (h : Placed g lay x first v cur i cs s.vol)
    (hpay : Payload g lay x v pos buf cs written s.vol.disk)
    (hpos : pos + written = i * g.bytesPerCluster + off)
    (hoff : off ≤ g.bytesPerCluster) (hlt : written < buf.length → off < g.bytesPerCluster)
    (halign : 0 < written → written < buf.length → off % 512 = 0)
    (hle : written ≤ buf.length) (hn : 0 < n)
    (hturns : written < buf.length → (0x10000 - i) * g.sectorsPerCluster < n + off / 512) :
    Ends (writeAtLoop g buf n cur off written) s fun r t => (s.io = working → t.io = working) ∧
      written ≤ r.1 ∧ r.1 ≤ buf.length ∧
        ∃ off', Wrote g lay x first v pos buf (s.io = working) r t off' ∧
          (s.io = working → (written < buf.length → written < r.1) ∧
            (0 < off ∨ written < buf.length → 0 < off')) := by
  induction n generalizing cur off written s cs i with
  | zero => exact absurd hn (by omega)
  | succ n ih =>
    rw [writeAtLoop]
    split
    case isFalse hend =>
      refine .pure ⟨id, Nat.le_refl _, hle, off,
        ⟨⟨cur, i, cs, h, hpay, rfl, hpos, fun _ hshort => absurd hshort hend⟩, hoff⟩,
        fun _ => ⟨?_, ?_⟩⟩
      · exact fun hlt => absurd hlt hend
      · exact fun hor => hor.resolve_right hend
    case isTrue hmore =>
      have hbpc : g.bytesPerCluster = g.sectorsPerCluster * 512 := rfl
      have hlt' := hlt hmore
      have hsec : off / 512 < g.sectorsPerCluster := by omega
      -- this cluster has sectors left, so that there is a turn left after this one
      have hi := h.index_lt hv.fits
      have hmul : (0x10000 - i) * g.sectorsPerCluster =
          (0x10000 - (i + 1)) * g.sectorsPerCluster + g.sectorsPerCluster := by
        rw [← Nat.add_one_mul]
        congr 1
        omega
      have hturns' := hturns hmore
      dsimp only
      generalize hlen : min (512 - off % 512) (buf.length - written) = len
      have hlen0 : 0 < len := by omega
      have hin : off + len ≤ g.bytesPerCluster := by omega
      refine (oldSector_spec s _).seq ?_
      rintro old s₁ ⟨hreads, hnone, hsome⟩
      cases old with
      | none =>
        have hio := hnone rfl
        rw [← hreads.vol] at h hpay
        exact .pure ⟨hreads.io, Nat.le_refl _, hle, off,
          ⟨⟨cur, i, cs, h, hpay, rfl, hpos, fun hworks => absurd hworks hio⟩, hoff⟩,
          fun hworks => absurd hworks hio⟩
      | some sector =>
      refine (blockWriteSector_spec s₁ _ _).seq ?_
      rintro ok s₂ ⟨hw, hcase⟩
      have hplaced₁ := h
      rw [← hreads.vol] at hplaced₁
      have hplaced := hplaced₁.write hsec hv.fits hw
      rcases hcase with ⟨rfl, hfail, hvol⟩ | ⟨rfl, hvol⟩
      · have hio : s.io ≠ working := fun hworks => hfail (hreads.io hworks)
        rw [← hreads.vol, ← hvol] at hpay
        exact .pure ⟨fun hworks => absurd hworks hio, Nat.le_refl _, hle, off,
          ⟨⟨cur, i, cs, hplaced, hpay, rfl, hpos, fun hworks => absurd hworks hio⟩, hoff⟩,
          fun hworks => absurd hworks hio⟩
      rw [if_pos rfl]
      have hio₂ : s.io = working → s₂.io = working := fun hio => hw.io (hreads.io hio)
      have hpay₂ : Payload g lay x v pos buf cs (written + len) s₂.vol.disk := by
        rw [hvol, hreads.vol]
        exact hpay.write hv.fits h hpos hlt' (by omega) (fun h0 => halign h0 hmore)
          (hsome sector rfl)
      split
      case isTrue hfull =>
        -- the cluster is used up, and there is more to write
        have hsucc := Nat.add_one_mul i g.bytesPerCluster
        have hpos' : pos + (written + len) = (i + 1) * g.bytesPerCluster + 0 := by omega
        refine (cursorNext_spec hv hplaced).seq ?_
        rintro r t ⟨hio, ⟨rfl, rfl, hlast, hnofree⟩ | ⟨cur', cs', rfl, hplaced', hgrown, hdisk, -⟩⟩
        · refine .pure ⟨hio₂, by omega, by omega, off + len,
            ⟨⟨cur, i, cs, hplaced, hpay₂, rfl, ?_, fun _ _ => ⟨hnofree, ?_⟩⟩, hin⟩,
            fun _ => ⟨fun _ => ?_, fun _ => ?_⟩⟩
          · show pos + (written + len) = _
            omega
          · rw [hlast]
            exact hpos'
          · show written < written + len
            omega
          · omega
        · have hreach : pos + (written + len) ≤ cs.length * g.bytesPerCluster := by
            rw [hpos']
            exact Nat.mul_le_mul_right _ (List.getElem?_eq_some_iff.mp hplaced.cluster).1
          have hpay' := hpay₂.grow hgrown hreach
          rw [← hdisk] at hpay'
          refine (ih _ hplaced' hpay' hpos' (by omega) (fun _ => bytesPerCluster_pos g)
            (fun _ _ => Nat.zero_mod _) (by omega) (by omega) (by omega)).mono ?_
          rintro r u ⟨hio', hge, hr, off', hwrote, hwork⟩
          refine ⟨fun hw => hio' (hio.trans (hio₂ hw)), by omega, hr, off',
            hwrote.imp fun hw => hio.trans (hio₂ hw), fun hw => ?_⟩
          exact ⟨fun _ => by omega, fun _ => (hwork (hio.trans (hio₂ hw))).2 (.inr hfull.2)⟩
      case isFalse hroom =>
        have hpos' : pos + (written + len) = i * g.bytesPerCluster + (off + len) := by omega
        refine (ih _ hplaced hpay₂ hpos' hin (by omega) (by omega) (by omega) (by omega)
          (by omega)).mono ?_
        rintro r u ⟨hio', hge, hr, off', hwrote, hwork⟩
        refine ⟨fun hw => hio' (hio₂ hw), by omega, hr, off', hwrote.imp hio₂, fun hw => ?_⟩
        exact ⟨fun _ => by omega, fun _ => (hwork (hio₂ hw)).2 (.inl (by omega))⟩

/-! ## The commit -/

lemma flushDirty_spec (dirty : Bool) (s : St)
    (harea : ∀ lba < g.rootStartLba, s.vol.disk lba = v.disk lba) :
    Ends (flushDirty g dirty) s fun r t =>
      Writes (· < g.rootStartLba) s t ∧ Mixed g v t.vol ∧ (r = false → s.io ≠ working) ∧
        (r = true → dirty = true ∧ Copies g t.vol ∨ dirty = false ∧ t = s) := by
  cases dirty with
  | true =>
    refine ((fat16FlushFat_spec s).and (fat16FlushFat_mixed harea)).mono ?_
    rintro r t ⟨⟨hw, hfalse, hcopies⟩, hmixed⟩
    exact ⟨hw, hmixed hw.fat, hfalse, fun hr => .inl ⟨rfl, hcopies hr⟩⟩
  | false =>
    exact .pure ⟨.refl s, fun lba hlba => .inl (harea lba hlba), nofun, fun _ => .inr ⟨rfl, rfl⟩⟩

def writeOut (w first size : Nat) : Option WriteOut :=
  if 0 < w then some { written := w, first, size } else none

lemma writeCommit_spec (hv : Valid g v lay) (hP : lay.isDir P) (hn : Enough g n)
    (hx : Found g lay P name v x) {w : Nat} {dirty : Bool} (h : Draft g lay x first cs v s.vol)
    (hclean : dirty = false → s.vol.fat = v.fat)
    (harea : ∀ lba < g.rootStartLba, s.vol.disk lba = v.disk lba)
    (hfirst : first < 0x10000) (hsize : size < 0x100000000) :
    Ends (writeCommit g n P name (entryAt v.disk x) first size w dirty) s fun r t =>
      (s.io = working → t.io = working) ∧ t.vol.fat = s.vol.fat ∧ SameData g cs s.vol t.vol ∧
        (Rewritten g lay x first size cs v t.vol ∧ (Copies g v → Copies g t.vol) ∧
            r = writeOut w first size ∨
          s.io ≠ working ∧ r = none ∧ Draft g lay x first cs v t.vol ∧ Mixed g v t.vol) := by
  rw [writeCommit]
  refine (flushDirty_spec dirty s harea).seq ?_
  rintro flushed s₁ ⟨hw, hmixed, hfalse, htrue⟩
  have hdraft := h.flush hw
  have hdata := h.sameData_flush hv.fits fun lba hlba => hw.disk lba (Nat.not_lt.mpr hlba)
  cases flushed with
  | false => exact .pure ⟨hw.io, hw.fat, hdata, .inr ⟨hfalse rfl, rfl, hdraft, hmixed⟩⟩
  | true =>
  have hcopies : Copies g v → Copies g s₁.vol := by
    intro hc
    rcases htrue rfl with ⟨-, hc'⟩ | ⟨hd, rfl⟩
    · exact hc'
    · exact hc.congr (hclean hd) harea
  rw [if_pos rfl]
  split
  case isFalse hsame =>
    obtain ⟨hsize', hfirst'⟩ := not_or.mp hsame
    have hkeep := hdraft.keep hv hx.mem hx.live hx.not_directory (not_not.mp hfirst')
      (not_not.mp hsize')
    split
    case isTrue hpos =>
      exact .pure ⟨hw.io, hw.fat, hdata, .inl ⟨hkeep, hcopies, (if_pos hpos).symm⟩⟩
    case isFalse hpos =>
      exact .pure ⟨hw.io, hw.fat, hdata, .inl ⟨hkeep, hcopies, (if_neg hpos).symm⟩⟩
  case isTrue =>
    refine (dirLookup_spec (hdraft.walkable hv) hP hn).seq ?_
    rintro r s₂ ⟨hreads, hlook⟩
    have hio₂ : s.io = working → s₂.io = working := fun hio => hreads.io (hw.io hio)
    have hfat := hw.fat
    rw [← hreads.vol] at hdraft hdata hmixed hfat
    have hlookup : lookupSlot s₁.vol.disk name (lay.slots g P) = some x := by
      rw [← hreads.vol]
      exact (lookupSlot_congr fun y hy => hdraft.slot_eq hv hy).trans hx.lookup
    cases r with
    | missing =>
      rw [hlook.missing rfl] at hlookup
      simp at hlookup
    | ioError =>
      exact .pure ⟨hio₂, hfat, hdata,
        .inr ⟨fun hio => hlook.ioError rfl (hw.io hio), rfl, hdraft, hmixed⟩⟩
    | found hit =>
      obtain ⟨hslot, -, hbuf⟩ := hlook.found hit rfl
      obtain rfl : x = (hit.lba, hit.index) := Option.some.inj (hlookup.symm.trans hslot)
      have hsector := (mem_slotsOf.mp hx.mem).1
      dsimp only
      rw [hbuf, ← hreads.vol, hdraft.sector_eq hv hsector]
      refine (blockWriteSector_spec s₂ _ _).seq ?_
      rintro ok t ⟨hwt, ⟨rfl, hio, hvol⟩ | ⟨rfl, hvol⟩⟩
      · rw [if_neg (by simp)]
        rw [← hvol] at hdraft hdata hmixed hfat
        exact .pure ⟨fun hio' => hwt.io (hio₂ hio'), hfat, hdata,
          .inr ⟨fun hio' => hio (hio₂ hio'), rfl, hdraft, hmixed⟩⟩
      · have hre := hdraft.commit hv hx.mem hx.live hx.not_directory hfirst hsize hvol
        have hdata' := hdata.trans (hdraft.sameData_commit hv hsector hwt)
        have hcop : Copies g v → Copies g t.vol := fun hc => by
          refine (hcopies hc).congr (hwt.fat.trans (by rw [hreads.vol])) fun lba hlt => ?_
          rw [hwt.disk lba, hreads.vol]
          rintro rfl
          have hle := hv.rootStartLba_le_of_used (used_of_mem_slots hx.mem)
          omega
        have hio' : s.io = working → t.io = working := fun hio => hwt.io (hio₂ hio)
        split
        case isTrue hpos =>
          exact .pure ⟨hio', hwt.fat.trans hfat, hdata', .inl ⟨hre, hcop, (if_pos hpos.2).symm⟩⟩
        case isFalse hpos =>
          exact .pure ⟨hio', hwt.fat.trans hfat, hdata', .inl ⟨hre, hcop,
            (if_neg fun hw => hpos ⟨rfl, hw⟩).symm⟩⟩

/-! ## `fat16_write_at` -/

structure WriteAtSpec (g : Geo) (lay : Layout) (P : Nat) (name : List UInt8) (s : St)
    (r : Option WriteOut) (t : St) : Prop where
  io : s.io = working → t.io = working
  outcome : (t.vol = s.vol ∧ ∀ out, r = some out → out.written = 0 ∧
    ∃ x, Found g lay P name s.vol x ∧
      out.first = (entryAt s.vol.disk x).first ∧ out.size = (entryAt s.vol.disk x).size) ∨
    ∃ x first cs, Found g lay P name s.vol x ∧
      (((entryAt s.vol.disk x).first ≠ 0 → first = (entryAt s.vol.disk x).first) ∧
        (∃ size, Rewritten g lay x first size cs s.vol t.vol ∧ (entryAt s.vol.disk x).size ≤ size ∧
          (∀ out, r = some out → out.first = first ∧ out.size = size) ∧
          (s.io = working → Copies g s.vol → Copies g t.vol) ∧
          (s.io = working → Exact g (entryAt s.vol.disk x).size (lay.chain (.file x)) →
            Exact g size cs)) ∨
        s.io ≠ working ∧ r = none ∧ Draft g lay x first cs s.vol t.vol)

/-- The request passes the checks of `fat16_write_at`, and there is something to write. -/
structure Accepted (e : Dirent) (pos : Nat) (buf : List UInt8) : Prop where
  pos_le : pos ≤ e.size
  fits : pos + buf.length ≤ 0xFFFFFFFF
  chain : e.first < 2 → pos = 0
  ne_nil : buf ≠ []

/-- The three ways in which an accepted request for the file in slot `x` ends. -/
inductive WroteAt (g : Geo) (lay : Layout) (x : Slot) (pos : Nat) (buf : List UInt8) (s : St)
    (r : Option WriteOut) (t : St) : Prop
  /-- There is no cluster for the position. -/
  | full {cs : List Nat} : r = none →
      SeekFailed g lay x (entryAt s.vol.disk x).first s.vol cs s t →
      (pos / g.bytesPerCluster ≤ (lay.chain (.file x)).length → t.vol = s.vol ∧
        (lay.chain (.file x)).length = pos / g.bytesPerCluster) →
      WroteAt g lay x pos buf s r t
  /-- Some bytes are written, but not the entry, and the FAT perhaps in part. -/
  | stopped {first w : Nat} {cs : List Nat} : s.io ≠ working → r = none → w ≤ buf.length →
      lay.chain (.file x) <+: cs → Payload g lay x s.vol pos buf cs w t.vol.disk →
      Draft g lay x first cs s.vol t.vol → Mixed g s.vol t.vol → WroteAt g lay x pos buf s r t
  /-- `w` bytes, the FAT and the entry are written. -/
  | done {first w : Nat} {cs : List Nat} :
      r = writeOut w first (max (entryAt s.vol.disk x).size (pos + w)) → w ≤ buf.length →
      (s.io = working → 0 < w) →
      (s.io = working → w < buf.length →
        g.free t.vol.fat = 0 ∧ pos + w = cs.length * g.bytesPerCluster) →
      lay.chain (.file x) <+: cs → pos + w ≤ cs.length * g.bytesPerCluster →
      cs.length + g.free t.vol.fat = (lay.chain (.file x)).length + g.free s.vol.fat →
      Payload g lay x s.vol pos buf cs w t.vol.disk →
      Rewritten g lay x first (max (entryAt s.vol.disk x).size (pos + w)) cs s.vol t.vol →
      (Copies g s.vol → Copies g t.vol) → WroteAt g lay x pos buf s r t

/-- What `fat16_write_at` leaves: nothing has changed, as always with a request that is not
accepted, or the accepted request has ended in one of the three ways. -/
def WriteAtLeft (g : Geo) (lay : Layout) (P : Nat) (name : List UInt8) (pos : Nat)
    (buf : List UInt8) (s : St) (r : Option WriteOut) (t : St) : Prop :=
  t.vol = s.vol ∧ (∀ out, r = some out → out.written = 0) ∧
      (s.io = working →
        ∀ x, Found g lay P name s.vol x → ¬ Accepted (entryAt s.vol.disk x) pos buf) ∨
    ∃ x, Found g lay P name s.vol x ∧ Accepted (entryAt s.vol.disk x) pos buf ∧
      WroteAt g lay x pos buf s r t

lemma seekStart_spec (hv : Valid g v lay) (hv' : s.vol = v) (hP : lay.isDir P)
    (hx : Found g lay P name v x) {pos : Nat} (hpos : (entryAt v.disk x).first < 2 → pos = 0) :
    Ends (seekStart g (entryAt v.disk x).first pos) s fun r t =>
      (s.io = working → t.io = working) ∧
        ((∃ first cur cs, r = some (first, cur) ∧
            ((entryAt v.disk x).first ≠ 0 → first = (entryAt v.disk x).first) ∧
            Placed g lay x first v cur (pos / g.bytesPerCluster) cs t.vol ∧
            t.vol.disk = v.disk) ∨
          r = none ∧ ∃ cs, SeekFailed g lay x (entryAt v.disk x).first v cs s t ∧
            (pos / g.bytesPerCluster ≤ (lay.chain (.file x)).length →
              t.vol = v ∧ cs = lay.chain (.file x) ∧
              (lay.chain (.file x)).length = pos / g.bytesPerCluster)) := by
  have hfile := hx.chain hv hP
  have hstart := Draft.start hv hfile
  subst hv'
  rw [seekStart]
  rcases hfile.first_cases with ⟨h0, hnil⟩ | ⟨h2, hch⟩
  · -- an empty file
    rw [if_pos (by omega), hpos (by omega), Nat.zero_div]
    refine (fat16AllocCluster_spec hv.fits).seq ?_
    rintro c _ (⟨rfl, rfl, hfull⟩ | ⟨hc, hfree, rfl⟩)
    · rw [if_pos rfl]
      exact .pure ⟨id, .inr ⟨rfl, _, ⟨hstart, List.prefix_rfl, fun _ _ => .inl rfl, fun _ _ => rfl,
        fun _ hcop => hcop, free_eq_zero hfull⟩, fun _ => ⟨rfl, rfl, by rw [hnil]; rfl⟩⟩⟩
    have hc2 := hc.1
    rw [if_neg (by omega)]
    rw [hnil] at hstart
    refine .pure ⟨id, .inl ⟨c, _, [c], rfl, fun hne => absurd h0 hne,
      ⟨⟨hstart.begin hv hc hfree rfl, rfl, ?_, nofun, fun _ _ => rfl⟩, ?_, fun _ => ?_, ?_⟩, rfl⟩⟩
    · rw [hnil]
      rfl
    · rw [hnil]
      exact List.nil_prefix
    · rw [hnil]
      exact Nat.le_refl _
    · rw [hnil, List.length_singleton, List.length_nil, Nat.zero_add, Nat.add_comm]
      exact free_take hc hfree (by decide)
  · rw [if_neg (by omega)]
    obtain ⟨rest, hcons⟩ := hch.head_eq
    have hplaced : Placed g lay x (entryAt s.vol.disk x).first s.vol
        { cluster := (entryAt s.vol.disk x).first, fresh := false, fatDirty := false } 0
        (lay.chain (.file x)) s.vol := by
      refine ⟨⟨hstart, ?_, ?_, fun _ => rfl, fun _ _ => rfl⟩, List.prefix_rfl, nofun, rfl⟩
      · rw [hcons]
        rfl
      · rw [hcons, List.length_cons]
        omega
    refine (seekLoop_spec (k := pos / g.bytesPerCluster) hv hplaced).seq ?_
    rintro r t ⟨hio, ⟨cur, cs, rfl, hplaced', hdisk⟩ | ⟨rfl, -, cs, hfail, hlen, hexact⟩⟩
    · rw [Nat.zero_add] at hplaced'
      exact .pure ⟨hio, .inl ⟨_, cur, cs, rfl, fun _ => rfl, hplaced', hdisk⟩⟩
    · refine .pure ⟨hio, .inr ⟨rfl, cs, hfail, fun hle => ?_⟩⟩
      obtain ⟨rfl, rfl⟩ := hexact rfl (by omega)
      exact ⟨rfl, rfl, by omega⟩

/-- **What `fat16_write_at` does**, whatever block operations fail. -/
lemma fat16WriteAt_left (hv : Valid g s.vol lay) (hP : lay.isDir P) (hn : Enough g n) {pos : Nat} :
    Ends (fat16WriteAt g n P name pos buf) s fun r t =>
      WriteAtSpec g lay P (to83 name) s r t ∧ WriteAtLeft g lay P (to83 name) pos buf s r t := by
  refine ready_rule hv.ready ?_
  refine (dirLookup_spec hv.walkable hP hn).seq ?_
  rintro r s₁ ⟨hreads, hlook⟩
  -- the request is refused before anything has changed
  have hrefused : (s.io = working → ∀ x, Found g lay P (to83 name) s.vol x →
      ¬ Accepted (entryAt s.vol.disk x) pos buf) → WriteAtSpec g lay P (to83 name) s none s₁ ∧
        WriteAtLeft g lay P (to83 name) pos buf s none s₁ := fun hno =>
    ⟨⟨hreads.io, .inl ⟨hreads.vol, nofun⟩⟩, .inl ⟨hreads.vol, nofun, hno⟩⟩
  cases r with
  | missing =>
    refine .pure (hrefused fun _ x hx _ => ?_)
    exact absurd ((hlook.missing rfl).symm.trans hx.lookup) nofun
  | ioError => exact .pure (hrefused fun hio => absurd hio (hlook.ioError rfl))
  | found hit =>
  obtain ⟨hslot, hentry, -⟩ := hlook.found hit rfl
  dsimp only
  generalize (hit.lba, hit.index) = x at hslot hentry
  rw [hentry]
  have hsame : ∀ y, Found g lay P (to83 name) s.vol y → y = x := fun y hy =>
    Option.some.inj (hy.lookup.symm.trans hslot)
  split
  case isTrue hdir =>
    refine .pure (hrefused fun _ y hy _ => ?_)
    rw [hsame y hy] at hy
    exact hy.not_directory hdir
  case isFalse hdir =>
  have hx : Found g lay P (to83 name) s.vol x := ⟨hslot, hdir⟩
  have hunless : ¬ Accepted (entryAt s.vol.disk x) pos buf → _ := fun hno =>
    hrefused fun _ y hy hacc => hno (hsame y hy ▸ hacc)
  split
  case isTrue hpos => exact .pure (hunless fun hacc => absurd hacc.pos_le (Nat.not_le.mpr hpos))
  case isFalse hpos =>
  split
  case isTrue hover =>
    refine .pure (hunless fun hacc => ?_)
    have hfits := hacc.fits
    omega
  case isFalse hover =>
  split
  case isTrue hfirst => exact .pure (hunless fun hacc => hfirst.2 (hacc.chain hfirst.1))
  case isFalse hfirst =>
  split
  case isTrue hlen =>
    refine .pure ⟨⟨hreads.io, .inl ⟨hreads.vol, ?_⟩⟩, .inl ⟨hreads.vol, ?_, fun _ y _ hacc => ?_⟩⟩
    · rintro _ ⟨⟩
      exact ⟨rfl, x, hx, rfl, rfl⟩
    · rintro _ ⟨⟩
      rfl
    · exact hacc.ne_nil (List.eq_nil_of_length_eq_zero hlen)
  case isFalse hlen =>
  have hchain : (entryAt s.vol.disk x).first < 2 → pos = 0 := by
    intro h2
    by_contra h0
    exact hfirst ⟨h2, h0⟩
  have hsize := (dirent_fits (s.vol.disk x.1) x.2).size
  have hsize' : (entryAt s.vol.disk x).size < 0x100000000 := hsize
  have hacc : Accepted (entryAt s.vol.disk x) pos buf :=
    ⟨by omega, by omega, hchain, fun hnil => hlen (by rw [hnil]; rfl)⟩
  refine (seekStart_spec hv hreads.vol hP hx hchain).seq ?_
  rintro r s₂ ⟨hio, ⟨first, cur, cs, rfl, hsame, hplaced, hdisk⟩ | ⟨rfl, cs, hfail, hexact⟩⟩
  · have hdiv : pos = pos / g.bytesPerCluster * g.bytesPerCluster + pos % g.bytesPerCluster := by
      rw [Nat.mul_comm]
      exact (Nat.div_add_mod _ _).symm
    have hmod := Nat.mod_lt pos (bytesPerCluster_pos g)
    have hturns : (0x10000 - pos / g.bytesPerCluster) * g.sectorsPerCluster ≤
        0x10000 * g.sectorsPerCluster := Nat.mul_le_mul_right _ (Nat.sub_le _ _)
    have hpay : Payload g lay x s.vol pos buf cs 0 s₂.vol.disk :=
      .start fun _ _ lba _ => congrFun hdisk lba
    unfold Enough at hn
    refine (writeAtLoop_spec hv 0 hplaced hpay hdiv (Nat.le_of_lt hmod) (fun _ => hmod)
      (fun h0 => absurd h0 (Nat.lt_irrefl 0)) (Nat.zero_le _) (by omega) (fun _ => by omega)).seq ?_
    rintro ⟨w, dirty⟩ s₃ ⟨hio₃, -, hw, off,
      ⟨⟨cur', i, cs', hat', hpay', rfl, hplace, hshort⟩, hoff⟩, hwork⟩
    dsimp only at hw hplace hwork hpay' hshort
    have hmax : max (entryAt s.vol.disk x).size (pos + w) < 0x100000000 := by omega
    have hreach : pos + w ≤ cs'.length * g.bytesPerCluster := by
      have hi : i + 1 ≤ cs'.length := (List.getElem?_eq_some_iff.mp hat'.cluster).1
      have hmul := Nat.mul_le_mul_right g.bytesPerCluster hi
      rw [Nat.add_one_mul] at hmul
      omega
    refine (writeCommit_spec hv hP hn hx hat'.draft hat'.clean hat'.fatArea
      (hv.fits.lt hat'.chain.start_cluster) hmax).mono ?_
    have hio₂ : s.io = working → s₂.io = working := fun h => hio (hreads.io h)
    have hio' : s.io = working → s₃.io = working := fun h => hio₃ (hio₂ h)
    rintro r t ⟨hio₄, hfat, hdata, hcase⟩
    have hleft := hpay'.congr hat'.old hreach hdata
    rw [← hfat] at hshort
    rcases hcase with ⟨hre, hcopies, rfl⟩ | ⟨hfail, rfl, hdraft, hmixed⟩
    · have hbooks := hat'.books
      rw [← hfat] at hbooks
      refine ⟨⟨fun h => hio₄ (hio' h), .inr ⟨x, first, cs', hx, .inl ⟨hsame, _, hre,
        Nat.le_max_left _ _, fun out hout => ?_, fun _ => hcopies, fun h hsz => ?_⟩⟩⟩,
        .inr ⟨x, hx, hacc, .done rfl hw (fun h => (hwork (hio₂ h)).1 (by omega))
          (fun h => hshort (hio₂ h)) hat'.old hreach hbooks hleft hre hcopies⟩⟩
      · rw [writeOut] at hout
        split at hout
        · cases hout
          exact ⟨rfl, rfl⟩
        · simp at hout
      · have hoff0 := (hwork (hio₂ h)).2 (.inr (by omega))
        have hnew : g.clustersFor (pos + w) = i + 1 := clustersFor_eq (by omega) (by omega)
        rw [Exact, clustersFor_max, hat'.length, hsz, hnew]
    · have hbroken : s.io ≠ working := fun h => hfail (hio' h)
      exact ⟨⟨fun h => absurd h hbroken, .inr ⟨x, first, cs', hx, .inr ⟨hbroken, rfl, hdraft⟩⟩⟩,
        .inr ⟨x, hx, hacc, .stopped hbroken rfl hw hat'.old hleft hdraft hmixed⟩⟩
  · have hio' : s.io = working → s₂.io = working := fun h => hio (hreads.io h)
    have hfail' := hfail.of_reads hreads
    refine .pure ⟨⟨hio', .inr ⟨x, _, cs, hx, .inl ⟨fun _ => rfl, _,
      hfail.draft.keep hv hx.mem hx.live hdir rfl rfl, Nat.le_refl _, nofun, hfail'.copies,
      fun _ hsz => ?_⟩⟩⟩, .inr ⟨x, hx, hacc, .full rfl hfail' fun hle => ?_⟩⟩
    · have hpos' := bytesPerCluster_pos g
      have hle : pos / g.bytesPerCluster ≤ g.clustersFor (entryAt s.vol.disk x).size :=
        Nat.div_le_div_right (by omega)
      obtain ⟨-, hcs, -⟩ := hexact (by rwa [hsz])
      rwa [hcs]
    · obtain ⟨hvol, -, hlast⟩ := hexact hle
      exact ⟨hvol, hlast⟩

lemma fat16WriteAt_spec (hv : Valid g s.vol lay) (hP : lay.isDir P) (hn : Enough g n) {pos : Nat} :
    Ends (fat16WriteAt g n P name pos buf) s fun r t =>
      WriteAtSpec g lay P (to83 name) s r t :=
  (fat16WriteAt_left hv hP hn).mono fun _ _ h => h.1

end NullOS.Fat16
