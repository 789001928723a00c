import NullOS.Fat16.OneFile
import NullOS.Fat16.ReadAt

/-!
# The `cat` of the safe shell

`cmd_cat` prints a file in chunks, until a key is pressed to stop it.
-/

namespace NullOS.SafeShell

open Lib Fat16

def shown (c : UInt8) : List UInt8 :=
  if c = 10 then [10] else if c = 13 then [] else if c = 9 then [32]
  else if 32 ≤ c ∧ c < 127 then [c] else [46]

/-- The loop of `cmd_cat`, with what it prints.  `stops pos` is whether Esc or Ctrl+C is found when
`pos` bytes are printed. -/
def catLoop (g : Geo) (stops : Nat → Bool) (first size : Nat) : Nat → Nat → Fs (List UInt8)
  | 0, _ => throw .outOfFuel
  | k + 1, pos =>
    if pos < size then
      if stops pos then pure (ascii "\n(stopped)\n") else do
        match ← fat16ReadAt g first pos (min (size - pos) 512) size with
        | some (c :: l) => do
          let out ← catLoop g stops first size k (pos + (c :: l).length)
          pure ((c :: l).flatMap shown ++ out)
        | _ => pure (ascii "\ncat: read error\n")
    else pure [10]

variable {g : Geo} {s : St} {first size k pos : Nat} {cs : List Nat} {stops : Nat → Bool}

/-- **`cat` prints the file**, in order and without a gap, to its end or to the first multiple of
512 bytes at which it is stopped. -/
theorem catLoop_prints (hg : g.Fits) (hio : s.io = working) (hready : s.vol.ready = true)
    (hch : FileChain g s.vol.fat first cs) (hcover : size ≤ cs.length * g.bytesPerCluster)
    (hsize : size < 0x100000000) (hpos : pos ≤ size) (hk : size < pos + k) :
    Ends (catLoop g stops first size k pos) s fun out t => Reads s t ∧
      ∃ m, pos + m ≤ size ∧ (pos + m < size → 512 ∣ m ∧ stops (pos + m)) ∧
        (∀ j < m, 512 ∣ j → ¬ stops (pos + j)) ∧
        out = (slice (fileByte g s.vol.disk cs) pos m).flatMap shown ++
          if pos + m < size then ascii "\n(stopped)\n" else [10] := by
  induction k generalizing pos s with
  | zero => omega
  | succ k ih =>
    rw [catLoop]
    split
    case isFalse hend =>
      exact .pure ⟨.refl s, 0, hpos, (absurd · hend), by simp, (if_neg hend).symm⟩
    case isTrue hlt =>
      split
      case isTrue hstop =>
        exact .pure ⟨.refl s, 0, hpos, fun _ => ⟨dvd_zero _, hstop⟩, by simp, (if_pos hlt).symm⟩
      case isFalse hgo =>
        refine (fat16ReadAt_spec hg hio hready hch hcover hlt (by omega) (by omega)).seq ?_
        rintro _ t ⟨hreads, rfl⟩
        generalize hn : min (min (size - pos) 512) (size - pos) = n
        cases hl : slice (fileByte g s.vol.disk cs) pos n with
        | nil =>
          have := congrArg List.length hl
          rw [length_slice, List.length_nil] at this
          omega
        | cons c l =>
          dsimp only
          rw [← hl, length_slice]
          refine (ih (hreads.io hio) (by rw [hreads.vol]; exact hready)
            (by rw [hreads.vol]; exact hch) (by omega) (by omega)).seq ?_
          rintro _ u ⟨hu, m, hm, hstop, hfirst, rfl⟩
          rw [Nat.add_assoc] at hm hstop
          -- a chunk that is not the last one has 512 bytes
          have hfull : 0 < m ∨ pos + (n + m) < size → n = 512 := by omega
          refine .pure ⟨hreads.trans hu, n + m, hm, fun hmore => ?_, fun j hj hdvd => ?_, ?_⟩
          · exact ⟨(Nat.dvd_add_right (hfull (.inr hmore) ▸ dvd_rfl)).mpr (hstop hmore).1,
              (hstop hmore).2⟩
          · rcases Nat.eq_zero_or_pos j with rfl | hj0
            · exact hgo
            · have hle := Nat.le_of_dvd hj0 hdvd
              obtain rfl := hfull (.inl (by omega))
              have := hfirst (j - 512) (by omega) (Nat.dvd_sub hdvd dvd_rfl)
              rwa [Nat.add_assoc, Nat.add_sub_cancel' hle] at this
          rw [slice_add, List.flatMap_append, List.append_assoc, hreads.vol, Nat.add_assoc]

def hiVol : Vol :=
  { blankVol with fat := fun _ => 0xFFFF, disk := fun _ i => (ascii "hi").getD i 0 }

theorem catLoop_prints_hi : Ends (catLoop smallGeo (fun _ => false) 2 2 3 0) hiVol.start
    fun out _ => out = ascii "hi\n" := by
  have hch : FileChain smallGeo hiVol.fat 2 [2] := by
    refine .inr ⟨nofun, ⟨rfl, show ¬ 0xFFF8 ≤ 2 by decide, show 0xFFF8 ≤ 0xFFFF by decide⟩, ?_⟩
    simp [Geo.Cluster, smallGeo]
  refine (catLoop_prints smallGeo_fits rfl rfl hch (by decide) (by decide) (by decide)
    (by decide)).mono ?_
  rintro out t ⟨-, m, hm, hstop, -, rfl⟩
  obtain rfl : m = 2 := by
    by_contra hne
    exact absurd (hstop (by omega)).2 (by simp)
  decide +kernel

end NullOS.SafeShell
