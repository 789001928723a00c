import NullOS.Kernel.Transfer
import NullOS.Fat16.Calls

/-!
# Reading a pipe through `sys_read`

`sys_read` calls `pipe_read` in a loop, for at most 128 bytes each time, and takes a result shorter
than it has asked for as the end.  When the bytes that the pipe has are used up by full chunks, and
the caller wants more, there is one call too many, on an empty pipe.
-/

namespace NullOS.Transfer

open Lib Memory Fat16 Vfs Ipc

variable {g : Geo} {ram : Option Ramfs} {kchunk slot cr3 j i buf len want total fuel : Nat}
  {content bytes : List UInt8} {s : State}

/-- Entry `j` of the caller's row is the read end of pipe `i`, and its buffer can be written. -/
structure OnPipe (kchunk slot cr3 j i buf len : Nat) (s : State) : Prop where
  fd : (s.k.fdTable slot j).Holds .pipeRead i
  pipe : i < pipeMax
  ring : (s.k.pipeTable i).Ring
  awake : (s.k.procs slot).state ≠ .blocked
  buffer : UserBuffer s.mem cr3 buf len
  array : KernelBuffer s.mem cr3 kchunk sysReadChunk
  unaliased : Unaliased s.mem cr3

namespace OnPipe

variable (h : OnPipe kchunk slot cr3 j i buf len s)

include h

/-! ## One call of `pipe_read` -/

lemma vfsReadFd_eq (hwant : 0 < want) : vfsReadFd g ram slot j want s = pipeRead slot i want s := by
  obtain ⟨hused, hback, hfirst⟩ := h.fd
  show (if (s.k.fdTable slot j).used ∧ want ≠ 0 ∧ (s.k.fdTable slot j).backend = .pipeRead then
    pipeRead slot (s.k.fdTable slot j).first want else _) s = _
  rw [if_pos ⟨hused, by omega, hback⟩, hfirst]

lemma pipeRead_data (want : Nat) (hdata : (s.k.pipeTable i).content ≠ []) :
    ∃ k, pipeRead slot i want s = .ok (((s.k.pipeTable i).content.take want).length,
        (s.k.pipeTable i).content.take want) { s with k } ∧
      OnPipe kchunk slot cr3 j i buf len { s with k } ∧
      (k.pipeTable i).content = (s.k.pipeTable i).content.drop want ∧
      (k.pipeTable i).writeRefs = (s.k.pipeTable i).writeRefs := by
  obtain ⟨q, hsection, hring, hcontent, hrefs⟩ := Pipe.readSection_data slot want h.ring hdata
  refine ⟨(s.k.setPipe i q).wakeSlot (s.k.pipeTable i).readSectionWakes, ?_,
    ⟨?_, h.pipe, ?_, ?_, h.buffer, h.array, h.unaliased⟩, ?_, ?_⟩
  · rw [pipeRead, if_neg (Nat.not_le.mpr h.pipe)]
    dsimp only
    rw [hsection]
  · simpa using h.fd
  · simpa using hring
  · exact fun hb => h.awake ((s.k.setPipe i q).of_wakeSlot_blocked _ _ hb)
  · simpa using hcontent
  · simpa using hrefs

lemma pipeRead_eof (want : Nat) (hempty : (s.k.pipeTable i).content = [])
    (hrefs : (s.k.pipeTable i).writeRefs = 0) :
    ∃ k, pipeRead slot i want s = .ok (0, []) { s with k } ∧ k.procs = s.k.procs := by
  refine ⟨s.k.setPipe i (s.k.pipeTable i), ?_, rfl⟩
  rw [pipeRead, if_neg (Nat.not_le.mpr h.pipe)]
  dsimp only
  rw [Pipe.readSection_empty _ _ hempty, if_pos hrefs]

lemma pipeRead_asleep (want : Nat) (hempty : (s.k.pipeTable i).content = [])
    (hrefs : (s.k.pipeTable i).writeRefs ≠ 0) :
    ∃ t, pipeRead slot i want s = .error .asleep t ∧ (t.k.procs slot).state = .blocked := by
  have hrun : pipeRead slot i want s =
      sleep slot (s.k.setPipe i { s.k.pipeTable i with readWaiter := some slot }) s := by
    rw [pipeRead, if_neg (Nat.not_le.mpr h.pipe)]
    dsimp only
    rw [Pipe.readSection_empty _ _ hempty, if_neg hrefs]
  exact ⟨_, hrun, by simp⟩

/-! ## One turn -/

lemma deliver (hroom : total + bytes.length ≤ len) (hbytes : bytes ≠ [])
    (hchunk : bytes.length ≤ sysReadChunk) :
    ∃ mem, copyOut cr3 ((buf + total) % 0x100000000) kchunk bytes.length
        { s with mem := s.mem.blit kchunk bytes.length fun i => bytes.getD i 0 } =
          .ok true { s with mem } ∧
      OnPipe kchunk slot cr3 j i buf len { s with mem } ∧
      userBytes mem cr3 buf (total + bytes.length) = userBytes s.mem cr3 buf total ++ bytes := by
  have hsum := h.buffer.sum
  have hpd := h.buffer.aligned
  have harray := h.array.mono hchunk
  have hsame := harray.samePaging fun i => bytes.getD i 0
  obtain ⟨m₁, hm₁⟩ : ∃ m₁, s.mem.blit kchunk bytes.length (fun i => bytes.getD i 0) = m₁ := ⟨_, rfl⟩
  have hfirst : userBytes m₁ cr3 buf total = userBytes s.mem cr3 buf total := by
    have hprefix : UserBuffer s.mem cr3 buf total := h.buffer.sub (a := 0) (by omega)
    rw [← hm₁, hprefix.userBytes_blit harray]
  have hchunk : (List.range bytes.length).map (fun i => m₁ (kchunk + i)) = bytes := by
    refine List.ext_getElem (by simp) fun k hk hk' => ?_
    rw [List.getElem_map, List.getElem_range, ← hm₁, Mem.blit_of_mem (by omega) (by omega),
      Nat.add_sub_cancel_left, List.getD_eq_getElem?_getD, List.getElem?_eq_getElem hk',
      Option.getD_some]
  rw [hm₁] at hsame ⊢
  have hbuffer := hsame.userBuffer h.buffer
  have hpiece := hbuffer.sub hroom
  have hall := hsame.trans hpd (hpiece.samePaging fun i => m₁ (kchunk + i))
  refine ⟨m₁.scatter (fun i => userKptr m₁ cr3 (buf + total + i)) bytes.length fun i =>
    m₁ (kchunk + i), ?_, ⟨h.fd, h.pipe, h.ring, h.awake, hall.userBuffer h.buffer,
    hall.kernelBuffer hpd h.array, hall.unaliased hpd h.unaliased⟩, ?_⟩
  · rw [copyOut, Nat.mod_eq_of_lt (by omega), hpiece.copyToUser_eq (hsame.kernelBuffer hpd harray)
      (List.length_pos_iff.mpr hbytes)]
    rfl
  · rw [hbuffer.userBytes_scatter (hsame.unaliased hpd h.unaliased) hroom, hfirst, hchunk]

end OnPipe

/-! ## The whole call -/

/-- The caller gets its bytes without sleeping: nobody can write any more, or there are as many as
it wants, or the last chunk is a short one. -/
def Prompt (len count writers : Nat) : Prop :=
  writers = 0 ∨ len ≤ count ∨ count % sysReadChunk ≠ 0

instance (len count writers : Nat) : Decidable (Prompt len count writers) :=
  inferInstanceAs (Decidable (_ ∨ _ ∨ _))

lemma prompt_drop (hwant : want = min len sysReadChunk) (hfull : want ≤ content.length)
    (writers : Nat) :
    Prompt (len - want) (content.drop want).length writers ↔ Prompt len content.length writers := by
  rw [List.length_drop]
  simp only [Prompt, sysReadChunk] at *
  omega

/-- **The loop of `sys_read` on a pipe.** -/
lemma readChunks_pipe (h : OnPipe kchunk slot cr3 j i buf len s) (htotal : total ≤ len)
    (hfuel : len - total ≤ fuel) (hcontent : (s.k.pipeTable i).content = content) :
    Outcome (readChunks g ram kchunk slot cr3 j buf len fuel total) s
      (fun r t => Prompt (len - total) content.length (s.k.pipeTable i).writeRefs ∧
        r = total + min (len - total) content.length ∧
        userBytes t.mem cr3 buf r = userBytes s.mem cr3 buf total ++ content.take (len - total) ∧
        (t.k.procs slot).state ≠ .blocked)
      fun e t => ¬ Prompt (len - total) content.length (s.k.pipeTable i).writeRefs ∧
        e = .asleep ∧ (t.k.procs slot).state = .blocked := by
  induction fuel generalizing s total content with
  | zero =>
    obtain rfl : total = len := by omega
    refine .of_ok rfl ⟨.inr (.inl (by omega)), by omega, ?_, h.awake⟩
    rw [Nat.sub_self, List.take_zero, List.append_nil]
  | succ fuel ih =>
    rw [readChunks]
    split
    case isFalse hdone =>
      obtain rfl : total = len := by omega
      refine .of_ok rfl ⟨.inr (.inl (by omega)), by omega, ?_, h.awake⟩
      rw [Nat.sub_self, List.take_zero, List.append_nil]
    case isTrue hmore =>
      obtain ⟨want, hwant⟩ : ∃ want, min (len - total) sysReadChunk = want := ⟨_, rfl⟩
      have hpos : 0 < want := by
        simp only [sysReadChunk] at hwant
        omega
      dsimp only
      rw [hwant]
      by_cases hempty : content = []
      · subst hempty
        by_cases hrefs : (s.k.pipeTable i).writeRefs = 0
        · obtain ⟨k, hrun, hprocs⟩ := h.pipeRead_eof want hcontent hrefs
          refine .bind (.of_ok ((h.vfsReadFd_eq hpos).trans hrun) ?_)
          refine .of_ok rfl ⟨.inl hrefs, by simp, by simp, ?_⟩
          rw [hprocs]
          exact h.awake
        · obtain ⟨t, hrun, hblocked⟩ := h.pipeRead_asleep want hcontent hrefs
          refine .bind (.of_error ((h.vfsReadFd_eq hpos).trans hrun) ⟨?_, rfl, hblocked⟩)
          simp only [Prompt, List.length_nil, sysReadChunk]
          omega
      · obtain ⟨k, hrun, hon, hrest, hrefs⟩ := h.pipeRead_data want (by rwa [hcontent])
        rw [hcontent] at hrun hrest
        have hlength : (content.take want).length = min want content.length := List.length_take
        have hcontent0 := List.length_pos_iff.mpr hempty
        have htake : content.take want ≠ [] := by
          rw [← List.length_pos_iff, hlength]
          omega
        have hchunk : (content.take want).length ≤ sysReadChunk := by omega
        have hroom : total + (content.take want).length ≤ len := by omega
        refine .bind (.of_ok ((h.vfsReadFd_eq hpos).trans hrun) ?_)
        dsimp only
        rw [if_neg (by omega), if_neg (by omega), Int.toNat_natCast]
        obtain ⟨mem, hcopy, hon', hbytes⟩ := hon.deliver hroom htake hchunk
        refine .bind (.of_ok rfl (.bind (.of_ok hcopy ?_)))
        rw [if_pos rfl]
        by_cases hshort : (content.take want).length < want
        · -- the pipe had less than was asked for: this was all
          rw [if_pos hshort]
          refine .of_ok rfl ⟨.inr (.inr ?_), by omega, ?_, hon'.awake⟩
          · simp only [sysReadChunk] at hwant ⊢
            omega
          · have hall : content.take want = content.take (len - total) := by
              rw [List.take_of_length_le (by omega), List.take_of_length_le (by omega)]
            rw [hbytes, hall]
        · have hfull : (content.take want).length = want := by omega
          rw [if_neg hshort, hfull]
          rw [hfull] at hbytes
          have hprompt := prompt_drop hwant.symm (by omega : want ≤ content.length)
            (s.k.pipeTable i).writeRefs
          rw [Nat.sub_sub] at hprompt
          refine (ih hon' (by omega) (by omega) hrest).mono ?_ ?_
          · rintro r t ⟨hp, rfl, hr, hawake⟩
            rw [hrefs] at hp
            refine ⟨hprompt.mp hp, by rw [List.length_drop]; omega, ?_, hawake⟩
            rw [hr, hbytes, List.append_assoc, ← List.take_add]
            congr 2
            omega
          · rintro e t ⟨hp, he⟩
            rw [hrefs] at hp
            exact ⟨fun hp' => hp (hprompt.mpr hp'), he⟩

lemma sysRead_eq {fd : Nat} (hcur : s.k.current = some slot)
    (hfd : s.k.userFd slot (readTarget (s.k.procs slot) fd) = some j)
    (hbuffer : UserBuffer s.mem (s.k.procs slot).cr3 buf len) (hbuf : buf ≠ 0) (hlen : 0 < len) :
    sysRead g ram kchunk fd buf len s =
      readChunks g ram kchunk slot (s.k.procs slot).cr3 j buf len len 0 s := by
  have hbase : fdBase ≤ readTarget (s.k.procs slot) fd := by
    by_contra hlt
    rw [Kernel.userFd, if_pos (by omega)] at hfd
    cases hfd
  rw [sysRead, if_neg (by omega)]
  have hget : ∀ f : State → Sys Nat, (get >>= f) s = f s s := fun _ => rfl
  rw [hget, hcur]
  dsimp only
  rw [hbuffer.valid hlen]
  dsimp only
  rw [if_pos hbase, hfd]

lemma sysRead_pipe {fd : Nat} (hcur : s.k.current = some slot)
    (hfd : s.k.userFd slot (readTarget (s.k.procs slot) fd) = some j)
    (h : OnPipe kchunk slot (s.k.procs slot).cr3 j i buf len s) (hbuf : buf ≠ 0) (hlen : 0 < len) :
    Outcome (sysRead g ram kchunk fd buf len) s
      (fun r t => Prompt len (s.k.pipeTable i).count (s.k.pipeTable i).writeRefs ∧
        r = min len (s.k.pipeTable i).count ∧
        userBytes t.mem (s.k.procs slot).cr3 buf r = (s.k.pipeTable i).content.take r ∧
        (t.k.procs slot).state ≠ .blocked)
      fun e t => ¬ Prompt len (s.k.pipeTable i).count (s.k.pipeTable i).writeRefs ∧
        e = .asleep ∧ (t.k.procs slot).state = .blocked := by
  have hloop : Outcome (readChunks g ram kchunk slot (s.k.procs slot).cr3 j buf len len 0) s _ _ :=
    readChunks_pipe h (Nat.zero_le len) le_rfl rfl
  rw [Outcome, sysRead_eq hcur hfd h.buffer hbuf hlen]
  refine hloop.mono ?_ ?_
  · rw [Pipe.length_content, Nat.sub_zero]
    rintro r t ⟨hprompt, rfl, hbytes, hawake⟩
    refine ⟨hprompt, Nat.zero_add _, ?_, hawake⟩
    rw [hbytes, Nat.zero_add, ← Pipe.length_content, ← List.take_eq_take_min]
    rfl
  · rw [Pipe.length_content, Nat.sub_zero]
    exact fun e t he => he

/-- **When `sys_read` of a pipe with data returns**, with the oldest bytes in their order and
without having slept: exactly if there is no writer, or there are as many bytes as it wants, or
their number is not a multiple of 128. -/
theorem sysRead_pipe_iff {fd : Nat} (hcur : s.k.current = some slot)
    (hfd : s.k.userFd slot (readTarget (s.k.procs slot) fd) = some j)
    (h : OnPipe kchunk slot (s.k.procs slot).cr3 j i buf len s) (hbuf : buf ≠ 0) (hlen : 0 < len)
    (hdata : 0 < (s.k.pipeTable i).count) :
    (∃ r t, sysRead g ram kchunk fd buf len s = .ok r t ∧ 0 < r ∧ r ≤ len ∧
        userBytes t.mem (s.k.procs slot).cr3 buf r = (s.k.pipeTable i).content.take r ∧
        (t.k.procs slot).state ≠ .blocked) ↔
      (s.k.pipeTable i).writeRefs = 0 ∨ len ≤ (s.k.pipeTable i).count ∨
        (s.k.pipeTable i).count % sysReadChunk ≠ 0 := by
  have hcall : Outcome (sysRead g ram kchunk fd buf len) s _ _ := sysRead_pipe hcur hfd h hbuf hlen
  constructor
  · rintro ⟨r, t, hrun, -⟩
    exact (hcall.result hrun).1
  · intro hprompt
    obtain ⟨r, t, hrun, -, rfl, hbytes, hawake⟩ := (hcall.mono (fun _ _ hr => hr)
      fun e t he => absurd hprompt he.1).ends fun _ _ => id
    exact ⟨_, t, hrun, by omega, by omega, hbytes, hawake⟩

/-! ## Two calls -/

/-- A process with a page of buffer reads from a pipe with `count` bytes and one writer. -/
def readerState (count : Nat) : State where
  k := { Kernel.boot with
    procs := fun _ => { Proc.init with pid := 1, state := .running, cr3 := 0x400000 }
    current := some 0
    fdTable := fun _ _ => { (default : VfsFd) with used := true, backend := .pipeRead, first := 0 }
    pipeTable := fun _ => { (default : Pipe) with
      buf := fun _ => 7, head := count % pipeBufSize, tail := 0, count, used := true, readRefs := 1
      writeRefs := 1 } }
  mem := twoPages
  disk := blankVol.start
  console := []

lemma readerState_onPipe {count : Nat} (hcount : count ≤ pipeBufSize) :
    OnPipe 0x10000 0 0x400000 0 0 0x800000 200 (readerState count) where
  fd := ⟨rfl, rfl, rfl⟩
  pipe := by decide
  ring := ⟨Nat.zero_lt_succ _, hcount,
    by show _ = (0 + count) % pipeBufSize; rw [Nat.zero_add]; rfl⟩
  awake := nofun
  buffer := twoPages_userBuffer
  array := twoPages_kernelBuffer
  unaliased := twoPages_unaliased

lemma sysRead_readerState {count : Nat} (hcount : count ≤ pipeBufSize)
    (hsleep : ¬ Prompt 200 count 1) :
    ∃ t, sysRead smallGeo none 0x10000 3 0x800000 200 (readerState count) = .error .asleep t ∧
      (t.k.procs 0).state = .blocked := by
  have hcall : Outcome (sysRead smallGeo none 0x10000 3 0x800000 200) (readerState count) _ _ :=
    sysRead_pipe rfl rfl (readerState_onPipe hcount) (by decide) (by decide)
  obtain ⟨e, t, hrun, -, rfl, hblocked⟩ := hcall.faults fun _ _ hr => hsleep hr.1
  exact ⟨t, hrun, hblocked⟩

/-- Three bytes are there: the call returns them. -/
theorem sysRead_pipe_three : ∃ r t,
    sysRead smallGeo none 0x10000 3 0x800000 200 (readerState 3) = .ok r t ∧ 0 < r ∧ r ≤ 200 ∧
      userBytes t.mem 0x400000 0x800000 r = ((readerState 3).k.pipeTable 0).content.take r ∧
      (t.k.procs 0).state ≠ .blocked :=
  (sysRead_pipe_iff rfl rfl (readerState_onPipe (by decide)) (by decide) (by decide)
    (by decide)).mpr (.inr (.inr (by decide)))

/-- A full chunk is there, and more is wanted: the call has the 128 bytes and goes to sleep. -/
theorem sysRead_pipe_sleeps : 0 < ((readerState 128).k.pipeTable 0).count ∧
    ∃ t, sysRead smallGeo none 0x10000 3 0x800000 200 (readerState 128) = .error .asleep t ∧
      (t.k.procs 0).state = .blocked :=
  ⟨by decide, sysRead_readerState (by decide) (by decide)⟩

end NullOS.Transfer
