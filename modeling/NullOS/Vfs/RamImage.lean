import NullOS.Vfs.Files

/-!
# Images with arbitrary bytes

`ramfs_find` trusts the number of entries in the image, and the check for a corrupted entry adds
offset and size in 32 bits.  Here is when it stays inside an arbitrary image and what it returns
lies there.
-/

namespace NullOS.Vfs

open Lib Fat16

/-- What `ramfs_find` and the callers rely on. -/
structure Inside (r : Ramfs) (name : CStr) : Prop where
  /-- Only bytes of the image are read. -/
  reads : ramfsFind (some r) name ≠ none
  /-- What is found lies in the image. -/
  range : ∀ offset size, ramfsFind (some r) name = some (some (offset, size)) →
    offset + size ≤ r.image.length

def Ramfs.entryAt (r : Ramfs) (i : Nat) : List UInt8 := r.image.drop (4 + 40 * i)

/-- The first entry with the name is in the image, and its range too, unless the check finds that it
is not. -/
structure GoodEntry (r : Ramfs) (name : CStr) (i : Nat) : Prop where
  same : sameName name.bytes (r.entryAt i) = some true
  words : ∃ offset size, word32 ((r.entryAt i).drop 32) = some offset ∧
    word32 ((r.entryAt i).drop 36) = some size ∧
      (offset + size ≤ r.image.length ∨ r.image.length < (offset + size) % 0x100000000)

/-- Among the `k` entries from index `i` on, the first that has another outcome than a different
name is good.  There may be none. -/
def GoodFrom (r : Ramfs) (name : CStr) (k i : Nat) : Prop :=
  ∃ n ≤ k, (∀ j < n, sameName name.bytes (r.entryAt (i + j)) = some false) ∧
    (n = k ∨ n < k ∧ GoodEntry r name (i + n))

def GoodTable (r : Ramfs) (name : CStr) : Prop := GoodFrom r name r.nfiles 0

section Scan

variable {r : Ramfs} {name : CStr}

lemma entryAt_drop (i : Nat) : (r.entryAt i).drop 40 = r.entryAt (i + 1) := by
  rw [Ramfs.entryAt, List.drop_drop, Ramfs.entryAt]
  congr 1

def FoundInside (r : Ramfs) (res : Option (Option (Nat × Nat))) : Prop :=
  res ≠ none ∧ ∀ offset size, res = some (some (offset, size)) → offset + size ≤ r.image.length

lemma findEntry_same {e : List UInt8} {k size : Nat} (h : sameName name.bytes e = some true) :
    findEntry size name (k + 1) e =
      (word32 (e.drop 32)).bind fun offset => (word32 (e.drop 36)).bind fun sz =>
        some (if size < (offset + sz) % 0x100000000 then none else some (offset, sz)) := by
  rw [findEntry, h]
  simp only [Option.bind_eq_bind, Option.bind_some, if_true]
  refine congrArg _ (funext fun offset => congrArg _ (funext fun sz => ?_))
  split <;> rfl

lemma findEntry_differs {e : List UInt8} {k size : Nat} (h : sameName name.bytes e = some false) :
    findEntry size name (k + 1) e = findEntry size name k (e.drop 40) := by
  rw [findEntry, h]
  rfl

lemma findEntry_fault {e : List UInt8} {k size : Nat} (h : sameName name.bytes e = none) :
    findEntry size name (k + 1) e = none := by
  rw [findEntry, h]
  rfl

/-- An entry with the name is answered well if and only if it is good. -/
lemma goodEntry_iff {i k : Nat} (h : sameName name.bytes (r.entryAt i) = some true) :
    FoundInside r (findEntry r.image.length name (k + 1) (r.entryAt i)) ↔ GoodEntry r name i := by
  rw [findEntry_same h]
  constructor
  · rintro ⟨hsome, hrange⟩
    refine ⟨h, ?_⟩
    cases ho : word32 ((r.entryAt i).drop 32) with
    | none =>
      rw [ho] at hsome
      exact absurd rfl hsome
    | some offset =>
      cases hs : word32 ((r.entryAt i).drop 36) with
      | none =>
        rw [ho, hs] at hsome
        exact absurd rfl hsome
      | some size =>
        refine ⟨offset, size, rfl, rfl, ?_⟩
        rw [ho, hs] at hrange
        by_cases hcheck : r.image.length < (offset + size) % 0x100000000
        · exact .inr hcheck
        · refine .inl (hrange offset size ?_)
          simp only [Option.bind_some, hcheck, if_false]
  · rintro ⟨-, offset, size, ho, hs, hrange⟩
    rw [ho, hs]
    refine ⟨nofun, ?_⟩
    intro offset' size' heq
    simp only [Option.bind_some] at heq
    split at heq
    · cases heq
    · next hcheck =>
      cases heq
      exact hrange.resolve_right hcheck

lemma goodFrom_succ (k i : Nat) : GoodFrom r name (k + 1) i ↔
    (sameName name.bytes (r.entryAt i) = some false ∧ GoodFrom r name k (i + 1)) ∨
      GoodEntry r name i := by
  constructor
  · rintro ⟨n, hn, hbefore, hend⟩
    cases n with
    | zero =>
      obtain hend | ⟨-, hgood⟩ := hend
      · omega
      · exact .inr hgood
    | succ n =>
      refine .inl ⟨hbefore 0 (Nat.succ_pos n), n, by omega, ?_, ?_⟩
      · intro j hj
        rw [Nat.add_right_comm]
        exact hbefore (j + 1) (by omega)
      · rw [Nat.add_right_comm]
        exact hend.imp (by omega) fun h => ⟨by omega, h.2⟩
  · rintro (⟨hfirst, n, hn, hbefore, hend⟩ | hgood)
    · refine ⟨n + 1, by omega, ?_, ?_⟩
      · intro j hj
        cases j with
        | zero => exact hfirst
        | succ j =>
          rw [← Nat.add_assoc, Nat.add_right_comm]
          exact hbefore j (by omega)
      · rw [← Nat.add_assoc, Nat.add_right_comm]
        exact hend.imp (by omega) fun h => ⟨by omega, h.2⟩
    · exact ⟨0, Nat.zero_le _, nofun, .inr ⟨Nat.succ_pos k, hgood⟩⟩

lemma findEntry_inside_iff (k i : Nat) :
    FoundInside r (findEntry r.image.length name k (r.entryAt i)) ↔ GoodFrom r name k i := by
  induction k generalizing i with
  | zero => exact iff_of_true ⟨nofun, nofun⟩ ⟨0, Nat.le_refl 0, nofun, .inl rfl⟩
  | succ k ih =>
    rw [goodFrom_succ]
    cases hsame : sameName name.bytes (r.entryAt i) with
    | none =>
      -- The comparison has left the image.
      rw [findEntry_fault hsame]
      refine iff_of_false (fun h => h.1 rfl) ?_
      rintro (⟨hdiffers, -⟩ | hgood)
      · cases hdiffers
      · cases hsame.symm.trans hgood.same
    | some same =>
      cases same with
      | true =>
        rw [goodEntry_iff hsame]
        exact ⟨.inr, fun h => h.resolve_left fun hdiffers => nomatch hdiffers.1⟩
      | false =>
        rw [findEntry_differs hsame, entryAt_drop, ih]
        refine ⟨fun h => .inl ⟨rfl, h⟩, fun h => ?_⟩
        obtain ⟨-, h⟩ | hgood := h
        · exact h
        · cases hsame.symm.trans hgood.same

end Scan

/-! ## Reading what was found -/

structure RangeFd (fd : VfsFd) (offset size : Nat) : Prop where
  used : fd.used = true
  backend : fd.backend = .ramfs
  first_eq : fd.first = offset
  size_eq : fd.size = size
  pos_le : fd.pos ≤ size

lemma RangeFd.read {g : Geo} {r : Ramfs} {fd : VfsFd} {offset size len : Nat} {s : St}
    (h : RangeFd fd offset size) (hsize : size < 0x100000000)
    (hrange : offset + size ≤ r.image.length) :
    ∃ ret bytes fd', vfsRead g (some r) fd len s = .ok (ret, bytes, fd') s ∧
      RangeFd fd' offset size := by
  have hpos := h.pos_le
  rw [vfsRead]
  split
  · exact ⟨-1, [], fd, rfl, h⟩
  · rw [h.backend]
    dsimp only [ramfsRead]
    have havail : (fd.size + 0x100000000 - fd.pos) % 0x100000000 = size - fd.pos := by
      rw [h.size_eq]
      omega
    rw [havail]
    split
    · exact ⟨0, [], fd, rfl, h⟩
    · have hle : fd.first + fd.pos + min len (size - fd.pos) ≤ r.image.length := by
        rw [h.first_eq]
        omega
      rw [if_pos hle]
      refine ⟨_, _, _, rfl, h.used, h.backend, h.first_eq, h.size_eq, ?_⟩
      show (fd.pos + min len (size - fd.pos)) % 0x100000000 ≤ size
      rw [Nat.mod_eq_of_lt (by omega)]
      omega

lemma word32_lt {l : List UInt8} {n : Nat} (h : word32 l = some n) : n < 0x100000000 := by
  match l, h with
  | b0 :: b1 :: b2 :: b3 :: _, h =>
    rw [word32, Option.some.injEq] at h
    have h0 := b0.toNat_lt
    have h1 := b1.toNat_lt
    have h2 := b2.toNat_lt
    have h3 := b3.toNat_lt
    omega

lemma findEntry_lt {imageSize : Nat} {name : CStr} {k : Nat} {e : List UInt8} {offset size : Nat}
    (h : findEntry imageSize name k e = some (some (offset, size))) : size < 0x100000000 := by
  induction k generalizing e with
  | zero => cases h
  | succ k ih =>
    cases hsame : sameName name.bytes e with
    | none => cases (findEntry_fault hsame).symm.trans h
    | some same =>
      cases same with
      | false => exact ih ((findEntry_differs hsame).symm.trans h)
      | true =>
        rw [findEntry_same hsame] at h
        obtain ⟨offset', -, h⟩ := Option.bind_eq_some_iff.mp h
        obtain ⟨size', hsize, h⟩ := Option.bind_eq_some_iff.mp h
        split at h
        · cases h
        · cases h
          exact word32_lt hsize

/-- **When `ramfs_find` stays in the image.**  For an image with any bytes: a name is looked up
inside the image and what is found lies in the image if and only if the table is good for that name;
and then every read of the file stays in the image. -/
theorem ramfsFind_inside_iff {image : List UInt8} {r : Ramfs} (h : ramfsInit image = some r)
    (name : CStr) :
    r.image = image ∧ (Inside r name ↔ GoodTable r name) ∧
      (Inside r name → ∀ offset size, ramfsFind (some r) name = some (some (offset, size)) →
        ∀ (g : Geo) (fd : VfsFd) (len : Nat) (s : St), RangeFd fd offset size →
          ∃ ret bytes fd', vfsRead g (some r) fd len s = .ok (ret, bytes, fd') s ∧
            RangeFd fd' offset size) := by
  have himage : r.image = image := by
    obtain ⟨n, -, heq⟩ := Option.bind_eq_some_iff.mp h
    cases heq
    rfl
  refine ⟨himage, ?_, ?_⟩
  · have hscan : FoundInside r (ramfsFind (some r) name) ↔ GoodTable r name :=
      findEntry_inside_iff r.nfiles 0
    exact ⟨fun hin => hscan.mp ⟨hin.reads, hin.range⟩, fun hgood =>
      ⟨(hscan.mpr hgood).1, (hscan.mpr hgood).2⟩⟩
  · intro hin offset size hfind g fd len s hfd
    exact hfd.read (findEntry_lt hfind) (hin.range offset size hfind)

/-- An image with one file. -/
theorem ramfsFind_inside_one :
    let image : List UInt8 := [1, 0, 0, 0] ++ (ascii "a" ++ List.replicate 31 0) ++ [44, 0, 0, 0] ++
      [2, 0, 0, 0] ++ ascii "xy"
    let r : Ramfs := ⟨image, 1⟩
    let name : CStr := ⟨ascii "a", by decide⟩
    ramfsFind (some r) name = some (some (44, 2)) ∧
    r.image = image ∧ (Inside r name ↔ GoodTable r name) ∧
      (Inside r name → ∀ offset size, ramfsFind (some r) name = some (some (offset, size)) →
        ∀ (g : Geo) (fd : VfsFd) (len : Nat) (s : St), RangeFd fd offset size →
          ∃ ret bytes fd', vfsRead g (some r) fd len s = .ok (ret, bytes, fd') s ∧
            RangeFd fd' offset size) :=
  ⟨by decide +kernel, ramfsFind_inside_iff (by decide +kernel) _⟩

/-- Four bytes that promise one entry: the lookup reads behind them.  An entry whose offset and size
add up to 2^32: the check lets it pass, and the range is not in the image. -/
theorem ramfsFind_outside :
    let name : CStr := ⟨ascii "a", by decide⟩
    let short : List UInt8 := [1, 0, 0, 0]
    let wraps : List UInt8 := [1, 0, 0, 0] ++ (ascii "a" ++ List.replicate 31 0) ++
      [0xFF, 0xFF, 0xFF, 0xFF] ++ [1, 0, 0, 0]
    (ramfsInit short = some ⟨short, 1⟩ ∧ ramfsFind (some ⟨short, 1⟩) name = none) ∧
    ramfsInit wraps = some ⟨wraps, 1⟩ ∧
      ramfsFind (some ⟨wraps, 1⟩) name = some (some (0xFFFFFFFF, 1)) ∧ wraps.length = 44 := by
  decide +kernel

end NullOS.Vfs
