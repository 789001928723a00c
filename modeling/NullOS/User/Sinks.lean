import NullOS.User.Format

/-!
# The sinks of the user library

`vsnprintf` stores what fits into a buffer and counts the rest.  `vprintf` writes a stage of 128
characters to file descriptor 1 whenever it is full.  The counters wrap; outputs of fewer than 2^31
characters do not get there.
-/

namespace NullOS.User

open Lib

/-! ## The functions -/

/-- The sink of `vsnprintf`, with the indices it has stored to. -/
structure MemSink where
  buf : Nat → UInt8
  cap : Nat
  len : Nat
  stored : List Nat

namespace MemSink

def store (s : MemSink) (i : Nat) (c : UInt8) : MemSink :=
  { s with buf := Function.update s.buf i c, stored := i :: s.stored }

def terminate (s : MemSink) (size : UInt32) : MemSink :=
  if size ≠ 0 then s.store (if s.len < size.toNat then s.len else size.toNat - 1) 0 else s

def shown (s : MemSink) (n : Nat) : List UInt8 := (List.range n).map s.buf

end MemSink

def putMem (s : MemSink) (c : UInt8) : MemSink :=
  let s' := if s.cap ≠ 0 ∧ (s.len + 1) % 2 ^ 32 < s.cap then s.store s.len c else s
  { s' with len := (s.len + 1) % 2 ^ 32 }

/-- `vsnprintf`: what it returns, and the sink with the NUL. -/
def vsnprintf (strings : UInt32 → CStr) (buf : Nat → UInt8) (size : UInt32) (fmt : CStr)
    (ap : VaList) : Int × MemSink :=
  let s := (format strings putMem ⟨buf, size.toNat, 0, []⟩ fmt.bytes ap).terminate size
  (int32 s.len, s)

/-- The sink of `vprintf`, with the chunks it has passed to `nos_write`. -/
structure OutSink where
  buf : Nat → UInt8
  cap : Nat
  len : Nat
  chunks : List (List UInt8)

namespace OutSink

def staged (s : OutSink) (n : Nat) : List UInt8 := (List.range n).map s.buf

def write (s : OutSink) (n : Nat) : OutSink := { s with chunks := s.chunks ++ [s.staged n] }

end OutSink

def putOut (s : OutSink) (c : UInt8) : OutSink :=
  let s := { s with buf := Function.update s.buf (s.len % s.cap) c, len := (s.len + 1) % 2 ^ 32 }
  if s.len % s.cap = 0 then s.write s.cap else s

def flushOut (s : OutSink) : OutSink :=
  let staged := s.len % s.cap
  if staged ≠ 0 then s.write staged else s

/-- `vprintf`: what it returns, and what it has written.  `stage` is what was on the stack. -/
def vprintf (strings : UInt32 → CStr) (stage : Nat → UInt8) (fmt : CStr) (ap : VaList) :
    Int × List (List UInt8) :=
  let s := flushOut (format strings putOut ⟨stage, 128, 0, []⟩ fmt.bytes ap)
  (int32 s.len, s.chunks)

/-! ## The buffer of `vsnprintf` -/

section Mem

variable {buf : Nat → UInt8} {cap : Nat} {out : List UInt8} {s : MemSink}

structure Holds (buf : Nat → UInt8) (cap : Nat) (out : List UInt8) (s : MemSink) : Prop where
  cap_eq : s.cap = cap
  len_eq : s.len = out.length
  /-- What fits is there, with a place left for the NUL. -/
  text : ∀ i < out.length, i + 1 < cap → out[i]? = some (s.buf i)
  stored : ∀ i ∈ s.stored, i + 1 < cap
  kept : ∀ i, i ∉ s.stored → s.buf i = buf i

lemma Holds.put (h : Holds buf cap out s) {c : UInt8} (hlen : out.length + 1 < 2 ^ 32) :
    Holds buf cap (out ++ [c]) (putMem s c) := by
  have hmod : (s.len + 1) % 2 ^ 32 = out.length + 1 := by
    rw [h.len_eq, Nat.mod_eq_of_lt hlen]
  have hlast : ∀ i < (out ++ [c]).length, i < out.length ∨ i = out.length := by
    intro i hi
    rw [List.length_append, List.length_singleton] at hi
    omega
  by_cases hroom : out.length + 1 < cap
  · have hput : putMem s c = { s.store out.length c with len := out.length + 1 } := by
      rw [putMem, if_pos ⟨by rw [h.cap_eq]; omega, by rw [hmod, h.cap_eq]; exact hroom⟩, hmod,
        h.len_eq]
    rw [hput]
    refine ⟨h.cap_eq, by simp, ?_, ?_, ?_⟩
    · intro i hi hcap
      rcases hlast i hi with hlt | rfl
      · rw [List.getElem?_append_left hlt, h.text i hlt hcap]
        simp [MemSink.store, Function.update_of_ne (Nat.ne_of_lt hlt)]
      · simp [MemSink.store]
    · intro i hi
      rcases List.mem_cons.mp hi with rfl | hi
      · exact hroom
      · exact h.stored i hi
    · intro i hi
      obtain ⟨hne, hnot⟩ := List.ne_and_not_mem_of_not_mem_cons hi
      exact (Function.update_of_ne hne c s.buf).trans (h.kept i hnot)
  · have hput : putMem s c = { s with len := out.length + 1 } := by
      rw [putMem, if_neg (by rw [hmod, h.cap_eq]; exact fun hand => hroom hand.2), hmod]
    rw [hput]
    refine ⟨h.cap_eq, by simp, ?_, h.stored, h.kept⟩
    intro i hi hcap
    rcases hlast i hi with hlt | rfl
    · rw [List.getElem?_append_left hlt]
      exact h.text i hlt hcap
    · exact absurd hcap hroom

lemma holds_foldl (hlen : out.length < 2 ^ 32) :
    Holds buf cap out (out.foldl putMem ⟨buf, cap, 0, []⟩) := by
  refine foldl_text (I := fun out s => out.length < 2 ^ 32 → Holds buf cap out s) ?_ ?_ out hlen
  · exact fun _ => ⟨rfl, rfl, nofun, nofun, fun _ _ => rfl⟩
  · intro l s c ih hlen
    rw [List.length_append, List.length_singleton] at hlen
    exact (ih (by omega)).put hlen

end Mem

lemma int32_of_lt {n : Nat} (h : n < 2 ^ 31) : int32 n = n := by
  rw [int32, Int.bmod_eq_of_le] <;> omega

structure Truncates (out : List UInt8) (buf : Nat → UInt8) (size : Nat) (ret : Int) (s : MemSink) :
    Prop where
  ret_eq : ret = out.length
  inside : ∀ i ∈ s.stored, i < size
  nothing : size = 0 → s.stored = []
  kept : ∀ i, i ∉ s.stored → s.buf i = buf i
  text : 0 < size → s.shown (min out.length (size - 1)) = out.take (size - 1)
  nul : 0 < size → s.buf (min out.length (size - 1)) = 0

lemma Holds.shown {buf : Nat → UInt8} {size : Nat} {out : List UInt8} {s : MemSink}
    (h : Holds buf size out s) : s.shown (min out.length (size - 1)) = out.take (size - 1) := by
  apply List.ext_getElem?
  intro i
  rw [MemSink.shown, List.getElem?_map]
  by_cases hi : i < min out.length (size - 1)
  · rw [List.getElem?_range hi, List.getElem?_take_of_lt (by omega),
      h.text i (by omega) (by omega)]
    rfl
  · rw [List.getElem?_eq_none (by rw [List.length_range]; omega),
      List.getElem?_eq_none (by rw [List.length_take]; omega)]
    rfl

lemma Holds.truncates {buf : Nat → UInt8} {size : UInt32} {out : List UInt8} {s : MemSink}
    (h : Holds buf size.toNat out s) (hlen : out.length < 2 ^ 31) :
    Truncates out buf size.toNat (int32 (s.terminate size).len) (s.terminate size) := by
  by_cases hsize : size = 0
  · have hz : size.toNat = 0 := by rw [hsize]; rfl
    have hnone : s.stored = [] := by
      refine List.eq_nil_iff_forall_not_mem.mpr fun i hi => ?_
      have hlt := h.stored i hi
      omega
    rw [MemSink.terminate, if_neg (not_not.mpr hsize)]
    refine ⟨by rw [h.len_eq, int32_of_lt hlen], ?_, fun _ => hnone, h.kept, ?_, ?_⟩
    · intro i hi
      exact Nat.lt_of_succ_lt (h.stored i hi)
    · intro hpos
      omega
    · intro hpos
      omega
  · have hpos : 0 < size.toNat := by
      have hne : size.toNat ≠ 0 := fun heq => hsize (UInt32.toNat_inj.mp heq)
      omega
    have hidx : (if s.len < size.toNat then s.len else size.toNat - 1) =
        min out.length (size.toNat - 1) := by
      rw [h.len_eq]
      split <;> omega
    rw [MemSink.terminate, if_pos hsize, hidx]
    refine ⟨?_, ?_, by omega, ?_, ?_, ?_⟩
    · show int32 s.len = _
      rw [h.len_eq, int32_of_lt hlen]
    · intro i hi
      rcases List.mem_cons.mp hi with rfl | hi
      · omega
      · exact Nat.lt_of_succ_lt (h.stored i hi)
    · intro i hi
      obtain ⟨hne, hnot⟩ := List.ne_and_not_mem_of_not_mem_cons hi
      exact (Function.update_of_ne hne _ _).trans (h.kept i hnot)
    · intro _
      rw [← h.shown]
      refine List.map_congr_left fun i hi => ?_
      exact Function.update_of_ne (Nat.ne_of_lt (List.mem_range.mp hi)) _ _
    · intro _
      exact Function.update_self _ _ _

section Printf

variable {strings : UInt32 → CStr} {fmt : CStr} {ap : VaList}

lemma vsnprintf_spec (buf : Nat → UInt8) (size : UInt32)
    (h : (output strings fmt.bytes ap).length < 2 ^ 31) :
    Truncates (output strings fmt.bytes ap) buf size.toNat (vsnprintf strings buf size fmt ap).1
      (vsnprintf strings buf size fmt ap).2 := by
  have hholds : Holds buf size.toNat (output strings fmt.bytes ap)
      (format strings putMem ⟨buf, size.toNat, 0, []⟩ fmt.bytes ap) := by
    rw [format_eq]
    exact holds_foldl (by omega)
  rw [vsnprintf]
  dsimp only
  exact hholds.truncates h

/-- **The truncation law of `vsnprintf`.**  It returns the length of the output, stores inside the
buffer only, and leaves there what fits of the output, followed by a NUL. -/
theorem vsnprintf_truncates (h : (output strings fmt.bytes ap).length < 2 ^ 31) :
    (∀ buf size, Truncates (output strings fmt.bytes ap) buf size.toNat
      (vsnprintf strings buf size fmt ap).1 (vsnprintf strings buf size fmt ap).2) ∧
    ∀ buf buf' size size', 0 < size → size ≤ size' →
      (vsnprintf strings buf size fmt ap).2.shown
          (min (output strings fmt.bytes ap).length (size.toNat - 1)) <+:
        (vsnprintf strings buf' size' fmt ap).2.shown
          (min (output strings fmt.bytes ap).length (size'.toNat - 1)) := by
  refine ⟨fun buf size => vsnprintf_spec buf size h, ?_⟩
  intro buf buf' size size' hpos hle
  have hpos : 0 < size.toNat := UInt32.lt_iff_toNat_lt.mp hpos
  have hle : size.toNat ≤ size'.toNat := UInt32.le_iff_toNat_le.mp hle
  rw [(vsnprintf_spec buf size h).text hpos, (vsnprintf_spec buf' size' h).text (by omega)]
  exact List.take_prefix_take_left (by omega)

/-- A width, and a string where the argument is a null pointer. -/
theorem vsnprintf_truncates_example :
    let strings : UInt32 → CStr := fun _ => ⟨ascii "text", by decide⟩
    let fmt : CStr := ⟨ascii "%5d %s", by decide⟩
    let ap : VaList := fun i => if i = 0 then 42 else 0
    output strings fmt.bytes ap = ascii "   42 (null)" ∧
    (∀ buf size, Truncates (output strings fmt.bytes ap) buf size.toNat
      (vsnprintf strings buf size fmt ap).1 (vsnprintf strings buf size fmt ap).2) ∧
    ∀ buf buf' size size', 0 < size → size ≤ size' →
      (vsnprintf strings buf size fmt ap).2.shown
          (min (output strings fmt.bytes ap).length (size.toNat - 1)) <+:
        (vsnprintf strings buf' size' fmt ap).2.shown
          (min (output strings fmt.bytes ap).length (size'.toNat - 1)) :=
  ⟨by decide +kernel, vsnprintf_truncates (by decide +kernel)⟩

end Printf

/-! ## The stage of `vprintf` -/

section Out

variable {out : List UInt8} {s : OutSink}

structure Staged (out : List UInt8) (s : OutSink) : Prop where
  cap_eq : s.cap = 128
  len_eq : s.len = out.length
  text : s.chunks.flatten ++ s.staged (out.length % 128) = out
  full : ∀ chunk ∈ s.chunks, chunk.length = 128

lemma staged_update (s : OutSink) (k n : Nat) (c : UInt8) :
    OutSink.staged { s with buf := Function.update s.buf k c, len := n } (k + 1) =
      s.staged k ++ [c] := by
  rw [OutSink.staged, List.range_succ, List.map_append, OutSink.staged]
  congr 1
  · refine List.map_congr_left fun i hi => ?_
    exact Function.update_of_ne (Nat.ne_of_lt (List.mem_range.mp hi)) _ _
  · exact congrArg (· :: []) (Function.update_self _ _ _)

lemma Staged.put (h : Staged out s) {c : UInt8} (hlen : out.length + 1 < 2 ^ 32) :
    Staged (out ++ [c]) (putOut s c) := by
  have hstage := staged_update s (out.length % 128) (out.length + 1) c
  have hput : putOut s c =
      let s' := { s with buf := Function.update s.buf (out.length % 128) c, len := out.length + 1 }
      if (out.length + 1) % 128 = 0 then s'.write 128 else s' := by
    rw [putOut, h.len_eq, h.cap_eq, Nat.mod_eq_of_lt hlen]
  rw [hput]
  dsimp only
  have hout : (out ++ [c]).length = out.length + 1 := by simp
  split
  · next hfull =>
    have hk : out.length % 128 + 1 = 128 := by omega
    rw [hk] at hstage
    refine ⟨h.cap_eq, hout.symm, ?_, ?_⟩
    · rw [hout, hfull]
      show (s.chunks ++ [OutSink.staged _ 128]).flatten ++ [] = _
      rw [hstage, List.append_nil, List.flatten_append, List.flatten_singleton,
        ← List.append_assoc, h.text]
    · intro chunk hchunk
      rcases List.mem_append.mp hchunk with hchunk | hchunk
      · exact h.full chunk hchunk
      · rw [List.mem_singleton.mp hchunk, OutSink.staged, List.length_map, List.length_range]
  · next hroom =>
    have hk : (out.length + 1) % 128 = out.length % 128 + 1 := by omega
    refine ⟨h.cap_eq, hout.symm, ?_, h.full⟩
    rw [hout, hk, hstage, ← List.append_assoc, h.text]

lemma staged_foldl {stage : Nat → UInt8} (hlen : out.length < 2 ^ 32) :
    Staged out (out.foldl putOut ⟨stage, 128, 0, []⟩) := by
  refine foldl_text (I := fun out s => out.length < 2 ^ 32 → Staged out s) ?_ ?_ out hlen
  · exact fun _ => ⟨rfl, rfl, rfl, nofun⟩
  · intro l s c ih hlen
    rw [List.length_append, List.length_singleton] at hlen
    exact (ih (by omega)).put hlen

lemma Staged.flush (h : Staged out s) :
    (flushOut s).len = out.length ∧ (flushOut s).chunks.flatten = out ∧
      ∀ chunk ∈ (flushOut s).chunks, chunk ≠ [] ∧ chunk.length ≤ 128 := by
  have hfull : ∀ chunk ∈ s.chunks, chunk ≠ [] ∧ chunk.length ≤ 128 := by
    intro chunk hchunk
    have hlen := h.full chunk hchunk
    refine ⟨?_, Nat.le_of_eq hlen⟩
    rintro rfl
    cases hlen
  have htext := h.text
  rw [flushOut, h.cap_eq, h.len_eq]
  split
  · next hne =>
    refine ⟨h.len_eq, ?_, ?_⟩
    · show (s.chunks ++ [s.staged _]).flatten = _
      rw [List.flatten_append, List.flatten_singleton, htext]
    · intro chunk hchunk
      rcases List.mem_append.mp hchunk with hchunk | hchunk
      · exact hfull chunk hchunk
      · have hlen : chunk.length = out.length % 128 := by
          rw [List.mem_singleton.mp hchunk, OutSink.staged, List.length_map, List.length_range]
        refine ⟨?_, by omega⟩
        rintro rfl
        exact hne hlen.symm
  · next hzero =>
    rw [not_not.mp hzero] at htext
    exact ⟨h.len_eq, by rw [← htext]; exact (List.append_nil _).symm, hfull⟩

end Out

section Printf

variable {strings : UInt32 → CStr} {fmt : CStr} {ap : VaList}

/-- **`vprintf` writes what `vsnprintf` stores.**  The chunks are the output, cut into pieces of at
most 128 bytes, and the output is what stands in a buffer that is large enough. -/
theorem vprintf_same (stage : Nat → UInt8) (h : (output strings fmt.bytes ap).length < 2 ^ 31) :
    (vprintf strings stage fmt ap).1 = (output strings fmt.bytes ap).length ∧
    (∀ chunk ∈ (vprintf strings stage fmt ap).2, chunk ≠ [] ∧ chunk.length ≤ 128) ∧
    ∀ buf size, (output strings fmt.bytes ap).length < size.toNat →
      (vprintf strings stage fmt ap).2.flatten =
        (vsnprintf strings buf size fmt ap).2.shown (output strings fmt.bytes ap).length := by
  have hstaged : Staged (output strings fmt.bytes ap)
      (format strings putOut ⟨stage, 128, 0, []⟩ fmt.bytes ap) := by
    rw [format_eq]
    exact staged_foldl (by omega)
  obtain ⟨hlen, htext, hchunks⟩ := hstaged.flush
  rw [vprintf]
  dsimp only
  refine ⟨?_, hchunks, ?_⟩
  · rw [hlen, int32_of_lt h]
  · intro buf size hsize
    have hshown := (vsnprintf_spec buf size h).text (by omega)
    rw [Nat.min_eq_left (by omega), List.take_of_length_le (by omega)] at hshown
    rw [hshown]
    exact htext

/-- A width of 256: two full chunks and nothing to flush. -/
theorem vprintf_same_example :
    let strings : UInt32 → CStr := fun _ => ⟨ascii "text", by decide⟩
    let fmt : CStr := ⟨ascii "%256s", by decide⟩
    let ap : VaList := fun _ => 1
    (output strings fmt.bytes ap).length = 256 ∧
    (vprintf strings (fun _ => 0) fmt ap).1 = (output strings fmt.bytes ap).length ∧
    (∀ chunk ∈ (vprintf strings (fun _ => 0) fmt ap).2, chunk ≠ [] ∧ chunk.length ≤ 128) ∧
    ∀ buf size, (output strings fmt.bytes ap).length < size.toNat →
      (vprintf strings (fun _ => 0) fmt ap).2.flatten =
        (vsnprintf strings buf size fmt ap).2.shown (output strings fmt.bytes ap).length :=
  ⟨by decide +kernel, vprintf_same _ (by decide +kernel)⟩

end Printf

end NullOS.User
