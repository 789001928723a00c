import NullOS.Fat16.AnyDisk
import NullOS.Fat16.Calls

/-!
# The calls on any disk

Every call of the driver stays in its place, whatever the disk holds and whatever block operations
fail.  It follows no number out of the FAT when the entries of the directories that it can come to
have none, and it returns when the walks that it starts end.
-/

namespace NullOS.Fat16

open Lib

/-! ## What a call can come to -/

/-- The directories that a call can come to from directory `d₀`: through entries that are
directories, and through `..`, which `fat16_get_path` follows without looking at its attributes. -/
inductive Leads (g : Geo) (v : Vol) (d₀ : Nat) : Nat → Prop
  | start : Leads g v d₀ d₀
  | root : Leads g v d₀ 0
  | entry {d lba i : Nat} : Leads g v d₀ d → DirSector g v d lba → i < 16 →
      (dirent (v.disk lba) i).Live →
      (dirent (v.disk lba) i).Directory ∨ (dirent (v.disk lba) i).name = dotdot83 →
      Leads g v d₀ (dirent (v.disk lba) i).first

/-- What must be known of the disk for a call that starts at directory `d₀`. -/
structure Setting.PathsOk (S : Setting) (v : Vol) (d₀ : Nat) : Prop where
  dir : ∀ d, Leads S.g v d₀ d → S.InTable d
  first : ∀ d, Leads S.g v d₀ d → ∀ lba i, DirSector S.g v d lba → i < 16 →
    (dirent (v.disk lba) i).Live → S.InTable (dirent (v.disk lba) i).first

structure HitOf (g : Geo) (v : Vol) (d : Nat) (h : Hit) : Prop where
  sector : DirSector g v d h.lba
  index : h.index < 16
  entry : h.entry = dirent (v.disk h.lba) h.index
  live : h.entry.Live

variable {S : Setting} {s t : St} {n c d d₀ lba : Nat} {path name name83 : List UInt8}
  {buf : List UInt8} {fat fat' : Nat → Nat}

lemma HitOf.leads {g : Geo} {v : Vol} {h : Hit} (hh : HitOf g v d h) (hd : Leads g v d₀ d)
    (hdir : h.entry.Directory ∨ h.entry.name = dotdot83) : Leads g v d₀ h.entry.first := by
  have hlive := hh.live
  rw [hh.entry] at hlive hdir ⊢
  exact .entry hd hh.sector hh.index hlive hdir

lemma Setting.PathsOk.hit {v : Vol} {h : Hit} (hp : S.PathsOk v d₀) (hd : Leads S.g v d₀ d)
    (hh : HitOf S.g v d h) : S.InTable h.entry.first := by
  have hlive := hh.live
  rw [hh.entry] at hlive ⊢
  exact hp.first d hd h.lba h.index hh.sector hh.index hlive

/-! ## The walks that a call starts -/

def byName (name83 : List UInt8) : Query := search fun buf => lookupIn name83 buf (List.range 16)

def byChild (child : Nat) : Query := search fun buf => childIn child buf (List.range 16)

/-- Walks, each given by the state in which it is started, the directory, and what is looked for. -/
abbrev Walks := St → Nat → Query → Prop

def Walks.End (W : Walks) (g : Geo) (n : Nat) : Prop := ∀ t d q, W t d q → WalkEnds g n t d q

/-- The walks for the components of a path, from directory `d` on. -/
inductive Asks (g : Geo) (n : Nat) : St → Nat → List UInt8 → Walks
  | here {s : St} {d : Nat} {path : List UInt8} :
      Asks g n s d path s d (byName (to83 (pathNextComponent path).1))
  | deeper {s t u : St} {d d' : Nat} {path : List UInt8} {h : Hit} {q : Query} :
      (pathNextComponent path).2 ≠ [] →
      dirLookup g n d (to83 (pathNextComponent path).1) s = .ok (.found h) t → h.entry.Directory →
      Asks g n t h.entry.first (pathNextComponent path).2 u d' q → Asks g n s d path u d' q

def PathAsks (g : Geo) (n : Nat) (s : St) (d₀ : Nat) (path : List UInt8) : Walks := fun u d q =>
  path.dropWhile (· = 0x2F) ≠ [] ∧
    Asks g n s (if path.head? = some 0x2F then 0 else d₀) (path.dropWhile (· = 0x2F)) u d q

/-- The walks of `fat16_get_path`, with `k` levels left. -/
inductive Ascends (g : Geo) (n : Nat) : Nat → St → Nat → List UInt8 → Walks
  | up {k : Nat} {s : St} {d : Nat} {tmp : List UInt8} :
      ¬ Stop d → Ascends g n (k + 1) s d tmp s d (byName dotdot83)
  | name {k : Nat} {s t : St} {d : Nat} {tmp : List UInt8} {h : Hit} :
      ¬ Stop d → dirLookup g n d dotdot83 s = .ok (.found h) t →
      Ascends g n (k + 1) s d tmp t h.entry.first (byChild d)
  | next {k : Nat} {s t u w : St} {d d' : Nat} {tmp name : List UInt8} {h : Hit} {q : Query} :
      ¬ Stop d → dirLookup g n d dotdot83 s = .ok (.found h) t →
      dirFindChildName g n h.entry.first d t = .ok (.found name) u →
      ¬ 127 - tmp.length < name.length + 1 →
      Ascends g n k u h.entry.first (0x2F :: name ++ tmp) w d' q →
      Ascends g n (k + 1) s d tmp w d' q

/-- The path leads to a name that is not there, so that `fat16_create` and `fat16_mkdir` go on. -/
def Lacks (g : Geo) (n : Nat) (s : St) (d₀ : Nat) (path : List UInt8) (p : Nat × List UInt8)
    (u : St) : Prop :=
  ∃ t, resolvePath g n d₀ path s = .ok (.found p) t ∧ dirLookup g n p.1 p.2 t = .ok .missing u

def Prepares (g : Geo) (s : St) (parent : Nat) (w : St) : Prop :=
  ∃ c t u, fat16AllocCluster g s = .ok c t ∧ c ≠ 0 ∧
    writeSectors (zeroCluster g c) t = .ok true u ∧
    blockWriteSector (fat16ClusterToLba g c) (dotSector c parent) u = .ok true w

/-- `fat16_write_at` has stored data and FAT, and the entry `e` needs another size or first
cluster. -/
def Outgrows (g : Geo) (n : Nat) (s : St) (e : Dirent) (pos : Nat) (buf : List UInt8) (w : St) :
    Prop :=
  ¬ e.Directory ∧ ¬ e.size < pos ∧ ¬ 0xFFFFFFFF - pos < buf.length ∧ ¬ (e.first < 2 ∧ pos ≠ 0) ∧
    buf.length ≠ 0 ∧ ∃ first cur t written dirty u,
      seekStart g e.first pos s = .ok (some (first, cur)) t ∧
      writeAtLoop g buf n cur (pos % g.bytesPerCluster) 0 t = .ok (written, dirty) u ∧
      flushDirty g dirty u = .ok true w ∧
      (max e.size (pos + written) ≠ e.size ∨ first ≠ e.first)

inductive Op
  | call (c : Call)
  | find (dir : Nat) (path : CStr)
  | resolveDir (cwd : Nat) (path : CStr)
  | readdir (dir idx : Nat)
  | getPath (dir outSize : Nat)
  | readAt (first pos len size : Nat)

namespace Op

def cluster : Op → Nat
  | call c => c.dir
  | find dir _ => dir
  | resolveDir cwd _ => cwd
  | readdir dir _ => dir
  | getPath dir _ => dir
  | readAt first _ _ _ => first

/-- The number of turns that is enough for the loops of the call other than walks. -/
def turns : Op → Nat
  | call (.mkdir _ _) => 0x10000
  | call (.writeFile _ _ buf) => 0x10000 + buf.length
  | call (.writeAt _ _ _ buf) => buf.length + 1
  | _ => 0

def exec (g : Geo) (n : Nat) : Op → Fs Unit
  | call c => do
      let _ ← c.exec g n
      pure ()
  | find dir path => do
      let _ ← fat16Find g n dir path.bytes
      pure ()
  | resolveDir cwd path => do
      let _ ← fat16ResolveDir g n cwd path.bytes
      pure ()
  | readdir dir idx => do
      let _ ← fat16Readdir g n dir idx
      pure ()
  | getPath dir outSize => do
      let _ ← fat16GetPath g n dir outSize
      pure ()
  | readAt first pos len size => do
      let _ ← fat16ReadAt g first pos len size
      pure ()

def Starts (g : Geo) (n : Nat) (s : St) : Op → Walks
  | find dir path, t, d, q => s.vol.ready = true ∧ PathAsks g n s dir path.bytes t d q
  | resolveDir cwd path, t, d, q => s.vol.ready = true ∧
      ¬ (path.bytes = [] ∨ path.bytes = [0x2F]) ∧ PathAsks g n s cwd path.bytes t d q
  | readdir dir idx, t, d, q => s.vol.ready = true ∧ t = s ∧ d = dir ∧ q = listing idx
  | getPath dir outSize, t, d, q => s.vol.ready = true ∧ 2 ≤ outSize ∧
      Ascends g n fat16PathMaxDepth s dir [] t d q
  | readAt _ _ _ _, _, _, _ => False
  | call (.create dir path), t, d, q => s.vol.ready = true ∧
      (PathAsks g n s dir path.bytes t d q ∨
        ∃ p, Lacks g n s dir path.bytes p t ∧ d = p.1 ∧ q = search freeEntry)
  | call (.mkdir dir path), t, d, q => s.vol.ready = true ∧
      (PathAsks g n s dir path.bytes t d q ∨
        ∃ p u, Lacks g n s dir path.bytes p u ∧ Prepares g u p.1 t ∧ d = p.1 ∧
          q = search freeEntry)
  | call (.writeFile dir name _), t, d, q => s.vol.ready = true ∧ t = s ∧ d = dir ∧
      q = byName (to83 name.bytes)
  | call (.writeAt dir name pos buf), t, d, q => s.vol.ready = true ∧ d = dir ∧
      q = byName (to83 name.bytes) ∧
      (t = s ∨ ∃ hit u, dirLookup g n dir (to83 name.bytes) s = .ok (.found hit) u ∧
        Outgrows g n u hit.entry pos buf t)

end Op

/-! ## Lookup and paths -/

lemma lookupIn_found {m : Mem} {is : List Nat} {i : Nat}
    (h : lookupIn name83 m is = some (some i)) :
    i ∈ is ∧ (dirent m i).Live ∧ (dirent m i).name = name83 := by
  induction is with
  | nil => exact absurd h nofun
  | cons j is ih =>
    have hrest : lookupIn name83 m is = some (some i) → _ := fun hr =>
      (ih hr).imp_left (List.mem_cons_of_mem j)
    rw [lookupIn] at h
    split at h
    · cases h
    case isFalse hempty =>
    split at h
    · exact hrest h
    case isFalse hdel =>
    split at h
    · exact hrest h
    case isFalse hvol =>
    split at h
    case isTrue hname =>
      obtain rfl : j = i := Option.some.inj (Option.some.inj h)
      exact ⟨List.mem_cons_self, ⟨hempty, hdel, hvol⟩, hname⟩
    · exact hrest h

lemma stays_scan (h : S.Safe s) (hd : S.InTable d) {α : Type} (pick : Mem → Option α)
    (hslow : ¬ WalkEnds S.g n s d (search pick) → S.may .outOfFuel) :
    Stays S (dirScan S.g pick n (dirIterInit d)) s fun r t => t.vol = s.vol ∧
      WalkEnds S.g n s d (search pick) ∧ (∀ it', r = .done it' → S.InTable it'.cluster) ∧
      ∀ a lba buf, r = .hit a lba buf → DirSector S.g s.vol d lba ∧ buf = s.vol.disk lba ∧
        pick buf = some a :=
  stays_dirScan h hd (passed_init S.g s.vol.fat d) 0 hslow

lemma stays_dirLookup (h : S.Safe s) (hd : S.InTable d)
    (hslow : ¬ WalkEnds S.g n s d (byName name83) → S.may .outOfFuel) :
    Stays S (dirLookup S.g n d name83) s fun r t => t.vol = s.vol ∧
      WalkEnds S.g n s d (byName name83) ∧
      ∀ hit, r = .found hit → HitOf S.g s.vol d hit ∧ hit.entry.name = name83 := by
  refine (stays_scan h hd _ hslow).seq ?_
  rintro r t ht ⟨hvol, hend, -, hhit⟩
  match r, hhit with
  | .done _, _ => exact .pure ht ⟨hvol, hend, nofun⟩
  | .error, _ => exact .pure ht ⟨hvol, hend, nofun⟩
  | .hit none _ _, _ => exact .pure ht ⟨hvol, hend, nofun⟩
  | .hit (some i) lba m, hhit =>
    obtain ⟨hsec, rfl, hpick⟩ := hhit _ _ _ rfl
    obtain ⟨hi, hlive, hname⟩ := lookupIn_found hpick
    refine .pure ht ⟨hvol, hend, ?_⟩
    rintro _ ⟨⟩
    exact ⟨⟨hsec, List.mem_range.mp hi, rfl, hlive⟩, hname⟩

lemma stays_resolveLoop (h : S.Safe s) (hp : S.PathsOk s.vol d₀) (hd : Leads S.g s.vol d₀ d)
    {k : Nat} (hk : path.length ≤ k) (hne : path ≠ []) (hs : path.head? ≠ some 0x2F)
    (hslow : ¬ (Asks S.g n s d path).End S.g n → S.may .outOfFuel) :
    Stays S (resolveLoop S.g n k d path) s fun r t => t.vol = s.vol ∧
      (∀ p, r = .found p → Leads S.g s.vol d₀ p.1 ∧ Asks S.g n s d path t p.1 (byName p.2)) ∧
      ((∀ p, r = .found p → WalkEnds S.g n t p.1 (byName p.2)) →
        (Asks S.g n s d path).End S.g n) := by
  induction k generalizing d path s with
  | zero => exact absurd (List.length_eq_zero_iff.mp (Nat.le_zero.mp hk)) hne
  | succ k ih =>
    rw [resolveLoop]
    split
    case isTrue hlast =>
      refine .pure h ⟨rfl, ?_, fun hend u d' q hask => ?_⟩
      · rintro _ ⟨⟩
        exact ⟨hd, .here⟩
      · cases hask with
        | here => exact hend (d, to83 (pathNextComponent path).1) rfl
        | deeper hmore _ _ _ => exact absurd hlast hmore
    case isFalse hmore =>
      refine (stays_dirLookup h (hp.dir d hd) fun hnot => hslow fun hall =>
        hnot (hall _ _ _ .here)).seqRun ?_
      rintro r t hrun ht ⟨hvol, hend, hfound⟩
      -- the path ends here unless a directory has been found
      have hstop : (∀ hit, r = .found hit → ¬ hit.entry.Directory) →
          (Asks S.g n s d path).End S.g n := by
        intro hfile u d' q hask
        cases hask with
        | here => exact hend
        | deeper _ hrun' hdir _ =>
          obtain ⟨rfl, rfl⟩ := EStateM.Result.ok.inj (hrun.symm.trans hrun')
          exact absurd hdir (hfile _ rfl)
      cases r with
      | ioError => exact .pure ht ⟨hvol, by simp, fun _ => hstop (by simp)⟩
      | missing => exact .pure ht ⟨hvol, by simp, fun _ => hstop (by simp)⟩
      | found hit =>
        dsimp only
        split
        case isFalse hfile =>
          refine .pure ht ⟨hvol, by simp, fun _ => hstop ?_⟩
          rintro _ ⟨⟩
          exact hfile
        case isTrue hdir =>
          have hlead := (hfound hit rfl).1.leads hd (.inl hdir)
          have hlen := length_next_lt hne hs
          rw [← hvol] at hp hlead ⊢
          refine (ih ht hp hlead (by omega) hmore head_next fun hnot => hslow fun hall =>
            hnot fun u d' q hask => hall u d' q (.deeper hmore hrun hdir hask)).mono ?_
          rintro r u - ⟨hvol', hlast, hrest⟩
          refine ⟨hvol', fun p hr => ⟨(hlast p hr).1, .deeper hmore hrun hdir (hlast p hr).2⟩, ?_⟩
          intro hall w d' q hask
          cases hask with
          | here => exact hend
          | deeper _ hrun' _ hask =>
            obtain ⟨heq, rfl⟩ := EStateM.Result.ok.inj (hrun.symm.trans hrun')
            cases heq
            exact hrest hall w d' q hask

lemma stays_path (h : S.Safe s) (hp : S.PathsOk s.vol d₀) {β : Type} {R Q : β → St → Prop}
    {f : Search (Nat × List UInt8) → Fs β} {k : Nat × List UInt8 → Search Hit → Fs β}
    (hslow : ¬ (PathAsks S.g n s d₀ path).End S.g n → S.may .outOfFuel)
    (hmissing : ∀ t, resolvePath S.g n d₀ path s = .ok .missing t → S.Safe t →
      Stays S (f .missing) t R)
    (hioError : ∀ t, resolvePath S.g n d₀ path s = .ok .ioError t → S.Safe t →
      Stays S (f .ioError) t R)
    (hfound : ∀ p, f (.found p) = dirLookup S.g n p.1 p.2 >>= k p)
    (hk : ∀ p t r u, resolvePath S.g n d₀ path s = .ok (.found p) t →
      dirLookup S.g n p.1 p.2 t = .ok r u → S.Safe u → S.InTable p.1 → Stays S (k p r) u R)
    (hq : ∀ b t, R b t → (PathAsks S.g n s d₀ path).End S.g n → Q b t) :
    Stays S (resolvePath S.g n d₀ path >>= f) s Q := by
  have hadd : ∀ {m : Fs β} {t : St}, Stays S m t R → (PathAsks S.g n s d₀ path).End S.g n →
      Stays S m t Q := fun hm hend => hm.mono fun b u _ hr => hq b u hr hend
  by_cases hne : path.dropWhile (· = 0x2F) = []
  · have hrun : resolvePath S.g n d₀ path s = .ok .missing s := by
      rw [resolvePath, if_pos hne]
      rfl
    exact Outcome.bind (Outcome.of_ok hrun (hadd (hmissing _ hrun h)
      fun _ _ _ hask => absurd hne hask.1))
  have hstart : Leads S.g s.vol d₀ (if path.head? = some 0x2F then 0 else d₀) := by
    split
    · exact .root
    · exact .start
  have hres := stays_resolveLoop h hp hstart (Nat.le_refl _) hne head_dropWhile
    fun hnot => hslow fun hall => hnot fun u d q hask => hall u d q ⟨hne, hask⟩
  rw [← show resolvePath S.g n d₀ path = _ from if_neg hne] at hres
  refine hres.seqRun ?_
  rintro r t hrun ht ⟨hvol, hlead, hend⟩
  cases r with
  | missing => exact hadd (hmissing t hrun ht) fun u d q hask => hend (by simp) u d q hask.2
  | ioError => exact hadd (hioError t hrun ht) fun u d q hask => hend (by simp) u d q hask.2
  | found p =>
    obtain ⟨hlead, hlast⟩ := hlead p rfl
    rw [hfound]
    refine (stays_dirLookup ht (hp.dir p.1 hlead) fun hnot => hslow fun hall =>
      hnot (hall _ _ _ ⟨hne, hlast⟩)).seqRun ?_
    rintro r u hlook hu ⟨-, hlookEnd, -⟩
    refine hadd (hk p t r u hrun hlook hu (hp.dir p.1 hlead)) fun w d q hask =>
      hend ?_ w d q hask.2
    rintro _ ⟨⟩
    exact hlookEnd

/-! ## Calls that only read -/

lemma stays_ready {α : Type} {m : Fs α} {a : α} {W : Walks} (h : S.Safe s)
    (hw : ∀ u d q, W u d q → s.vol.ready = true)
    (hm : s.vol.ready = true → Stays S m s fun _ _ => W.End S.g n) :
    Stays S (do let s ← get; if s.vol.ready then m else pure a) s fun _ _ => W.End S.g n := by
  refine .get ?_
  split
  case isTrue hready => exact hm hready
  case isFalse hready => exact .pure h fun u d q hwalk => absurd (hw u d q hwalk) hready

lemma stays_find {path : CStr} (h : S.Safe s) (hp : S.PathsOk s.vol d₀)
    (hslow : ¬ ((Op.find d₀ path).Starts S.g n s).End S.g n → S.may .outOfFuel) :
    Stays S (fat16Find S.g n d₀ path.bytes) s fun _ _ =>
      ((Op.find d₀ path).Starts S.g n s).End S.g n := by
  refine stays_ready h (fun _ _ _ hw => hw.1) fun hready => ?_
  refine stays_path (R := fun _ _ => True) h hp (fun hnot => hslow fun hall => hnot
    fun u d q hask => hall u d q ⟨hready, hask⟩) (fun t _ ht => .pure ht trivial)
    (fun t _ ht => .pure ht trivial) (fun _ => rfl) ?_
    fun _ _ _ hend u d q hw => hend u d q hw.2
  intro p t r u _ _ hu _
  cases r with
  | missing => exact .pure hu trivial
  | ioError => exact .pure hu trivial
  | found hit =>
    dsimp only
    split
    · exact .pure hu trivial
    · exact .pure hu trivial

lemma stays_resolveDir {path : CStr} (h : S.Safe s) (hp : S.PathsOk s.vol d₀)
    (hslow : ¬ ((Op.resolveDir d₀ path).Starts S.g n s).End S.g n → S.may .outOfFuel) :
    Stays S (fat16ResolveDir S.g n d₀ path.bytes) s fun _ _ =>
      ((Op.resolveDir d₀ path).Starts S.g n s).End S.g n := by
  refine stays_ready h (fun _ _ _ hw => hw.1) fun hready => ?_
  split
  case isTrue hroot => exact .pure h fun _ _ _ hw => absurd hroot hw.2.1
  case isFalse hroot =>
  refine stays_path (R := fun _ _ => True) h hp (fun hnot => hslow fun hall => hnot
    fun u d q hask => hall u d q ⟨hready, hroot, hask⟩) (fun t _ ht => .pure ht trivial)
    (fun t _ ht => .pure ht trivial) (fun _ => rfl) ?_
    fun _ _ _ hend u d q hw => hend u d q hw.2.2
  intro p t r u _ _ hu _
  cases r with
  | missing => exact .pure hu trivial
  | ioError => exact .pure hu trivial
  | found hit =>
    dsimp only
    split
    · exact .pure hu trivial
    · exact .pure hu trivial

lemma stays_readdir (h : S.Safe s) (hd : S.InTable d) {idx : Nat}
    (hslow : ¬ ((Op.readdir d idx).Starts S.g n s).End S.g n → S.may .outOfFuel) :
    Stays S (fat16Readdir S.g n d idx) s fun _ _ =>
      ((Op.readdir d idx).Starts S.g n s).End S.g n := by
  refine stays_ready h (fun _ _ _ hw => hw.1) fun hready => ?_
  refine (stays_readdirLoop h hd (passed_init S.g s.vol.fat d) fun hnot => hslow fun hall =>
    hnot (hall s d _ ⟨hready, rfl, rfl, rfl⟩)).seq ?_
  rintro r t ht hend
  refine .pure ht ?_
  rintro _ _ _ ⟨-, rfl, rfl, rfl⟩
  exact hend

lemma stays_findChildName (h : S.Safe s) (hd : S.InTable d) {child : Nat}
    (hslow : ¬ WalkEnds S.g n s d (byChild child) → S.may .outOfFuel) :
    Stays S (dirFindChildName S.g n d child) s fun _ t => t.vol = s.vol ∧
      WalkEnds S.g n s d (byChild child) := by
  refine (stays_scan h hd _ hslow).seq ?_
  rintro r t ht ⟨hvol, hend, -⟩
  match r with
  | .done _ => exact .pure ht ⟨hvol, hend⟩
  | .error => exact .pure ht ⟨hvol, hend⟩
  | .hit none _ _ => exact .pure ht ⟨hvol, hend⟩
  | .hit (some _) _ _ => exact .pure ht ⟨hvol, hend⟩

lemma Ascends.not_stop {g : Geo} {k : Nat} {tmp : List UInt8} {u : St} {d' : Nat} {q : Query}
    (h : Ascends g n k s d tmp u d' q) : ¬ Stop d := by
  cases h with
  | up hstop => exact hstop
  | name hstop _ => exact hstop
  | next hstop _ _ _ _ => exact hstop

lemma stays_getPathLoop (h : S.Safe s) (hp : S.PathsOk s.vol d₀) (hd : Leads S.g s.vol d₀ d)
    {k : Nat} {tmp : List UInt8}
    (hslow : ¬ (Ascends S.g n k s d tmp).End S.g n → S.may .outOfFuel) :
    Stays S (getPathLoop S.g n k d tmp) s fun _ _ => (Ascends S.g n k s d tmp).End S.g n := by
  induction k generalizing d s tmp with
  | zero => exact .pure h nofun
  | succ k ih =>
    rw [getPathLoop]
    split
    case isTrue h0 =>
      subst h0
      exact .pure h fun _ _ _ hasc => absurd (.inl (by decide)) hasc.not_stop
    split
    case isTrue hs => exact .pure h fun _ _ _ hasc => absurd hs hasc.not_stop
    case isFalse hs =>
    refine (stays_dirLookup h (hp.dir d hd) fun hnot => hslow fun hall =>
      hnot (hall _ _ _ (.up hs))).seqRun ?_
    rintro r t hrun ht ⟨hvol, hup, hfound⟩
    have hmissing : (∀ hit, r ≠ .found hit) → (Ascends S.g n (k + 1) s d tmp).End S.g n := by
      intro hr u d' q hasc
      cases hasc with
      | up _ => exact hup
      | name _ hrun' =>
        exact absurd (EStateM.Result.ok.inj (hrun.symm.trans hrun')).1 (hr _)
      | next _ hrun' _ _ _ =>
        exact absurd (EStateM.Result.ok.inj (hrun.symm.trans hrun')).1 (hr _)
    cases r with
    | missing => exact .pure ht (hmissing nofun)
    | ioError => exact .pure ht (hmissing nofun)
    | found hit =>
      obtain ⟨hhit, hname⟩ := hfound hit rfl
      have hlead := hhit.leads hd (.inr hname)
      rw [← hvol] at hp hlead
      refine (stays_findChildName ht (hp.dir _ hlead) fun hnot => hslow fun hall =>
        hnot (hall _ _ _ (.name hs hrun))).seqRun ?_
      rintro r u hrunName hu ⟨hvol', hchild⟩
      -- the walks of this level, and those of the levels above
      have hlevel : (∀ name, r = .found name → ¬ 127 - tmp.length < name.length + 1 →
          (Ascends S.g n k u hit.entry.first (0x2F :: name ++ tmp)).End S.g n) →
          (Ascends S.g n (k + 1) s d tmp).End S.g n := by
        intro hrest w d' q hasc
        cases hasc with
        | up _ => exact hup
        | name _ hrun' =>
          obtain ⟨heq, rfl⟩ := EStateM.Result.ok.inj (hrun.symm.trans hrun')
          cases heq
          exact hchild
        | next _ hrun' hname' hroom hasc =>
          obtain ⟨heq, rfl⟩ := EStateM.Result.ok.inj (hrun.symm.trans hrun')
          cases heq
          obtain ⟨rfl, rfl⟩ := EStateM.Result.ok.inj (hrunName.symm.trans hname')
          exact hrest _ rfl hroom w d' q hasc
      cases r with
      | missing => exact .pure hu (hlevel nofun)
      | ioError => exact .pure hu (hlevel nofun)
      | found name =>
        dsimp only
        split
        case isTrue hlong =>
          refine .pure hu (hlevel ?_)
          rintro _ ⟨⟩ hroom
          exact absurd hlong hroom
        case isFalse hroom =>
          rw [← hvol'] at hp hlead
          refine (ih hu hp hlead fun hnot => hslow fun hall => hnot fun w d' q hasc =>
            hall w d' q (.next hs hrun hrunName hroom hasc)).mono ?_
          intro _ _ _ hend
          refine hlevel ?_
          rintro _ ⟨⟩ _
          exact hend

lemma stays_getPath (h : S.Safe s) (hp : S.PathsOk s.vol d₀) {outSize : Nat}
    (hslow : ¬ ((Op.getPath d₀ outSize).Starts S.g n s).End S.g n → S.may .outOfFuel) :
    Stays S (fat16GetPath S.g n d₀ outSize) s fun _ _ =>
      ((Op.getPath d₀ outSize).Starts S.g n s).End S.g n := by
  rw [fat16GetPath]
  split
  case isTrue hsmall => exact .pure h fun _ _ _ hw => absurd hw.2.1 (Nat.not_le.mpr hsmall)
  case isFalse hsize =>
  split
  case isTrue h0 =>
    subst h0
    exact .pure h fun _ _ _ hw => absurd (.inl (by decide)) hw.2.2.not_stop
  refine stays_ready h (fun _ _ _ hw => hw.1) fun hready => ?_
  refine (stays_getPathLoop h hp .start fun hnot => hslow fun hall => hnot fun u d q hasc =>
    hall u d q ⟨hready, Nat.le_of_not_lt hsize, hasc⟩).seq ?_
  rintro (_ | out) t ht hend
  · exact .pure ht fun u d q hw => hend u d q hw.2.2
  · exact .pure ht fun u d q hw => hend u d q hw.2.2

lemma stays_readSeek (h : S.Safe s) {k : Nat} (hc : 2 ≤ c → S.InTable c) :
    Stays S (readSeek S.g k c) s fun r _ => ∀ c', r = some c' → 2 ≤ c' → S.InTable c' := by
  induction k generalizing c with
  | zero =>
    refine .pure h ?_
    rintro _ ⟨⟩
    exact hc
  | succ k ih =>
    refine (stays_nextCluster h hc).seq ?_
    rintro x _ _ ⟨rfl, hin, -⟩
    split
    · exact .pure h nofun
    case isFalse hlow => exact ih fun h2 => hin fun hstop => hstop.elim (by omega) hlow

lemma stays_readSectors (h : S.Safe s) {len k sec off : Nat} {acc : List UInt8} :
    Stays S (readSectors lba len k sec off acc) s fun _ _ => True := by
  induction k generalizing s sec off acc with
  | zero => exact .pure h trivial
  | succ k ih =>
    rw [readSectors]
    split
    case isFalse => exact .pure h trivial
    refine (stays_blockReadSector h _).seq ?_
    rintro (_ | m) t ht -
    · exact .pure ht trivial
    · exact ih ht

lemma stays_readLoop (h : S.Safe s) {len k off : Nat} {acc : List UInt8}
    (hc : ¬ Stop c → S.InTable c) :
    Stays S (readLoop S.g len k c off acc) s fun _ _ => True := by
  induction k generalizing s c off acc with
  | zero => exact .pure h trivial
  | succ k ih =>
    rw [readLoop]
    split
    case isFalse => exact .pure h trivial
    case isTrue hmore =>
      refine (stays_readSectors h).seq ?_
      rintro ⟨ok, acc'⟩ t ht -
      cases ok with
      | false => exact .pure ht trivial
      | true =>
        dsimp only
        split
        case isFalse => exact .pure ht trivial
        refine (stays_nextCluster ht fun h2 => hc fun hstop => hstop.elim (by omega)
          (by omega)).seq ?_
        rintro x _ _ ⟨rfl, hin, -⟩
        exact ih ht hin

lemma stays_readAt (h : S.Safe s) {pos len size : Nat} (hc : S.InTable c) :
    Stays S (fat16ReadAt S.g c pos len size) s fun _ _ => True := by
  refine .get ?_
  split
  case isFalse => exact .pure h trivial
  split
  · exact .pure h trivial
  refine (stays_readSeek h fun _ => hc).seq ?_
  rintro (_ | c') t ht hin
  · exact .pure ht trivial
  · refine (stays_readLoop ht fun hstop => hin c' rfl ?_).seq fun out u hu _ => .pure hu trivial
    unfold Stop at hstop
    omega

/-! ## Creation -/

lemma number_of_lt {g : Geo} (h2 : 2 ≤ c) (hc : c < g.totalClusters) : g.Number c :=
  ⟨h2, .inr hc⟩

lemma stays_dirGrow (h : S.Safe s) (hc : S.InTable c) {e : Dirent} :
    Stays S (dirGrow S.g c e) s fun _ _ => True := by
  refine (stays_allocCluster h).seq ?_
  rintro new t ht (⟨rfl, rfl⟩ | ⟨h2, hlt, hfree, rfl⟩)
  · exact .pure h trivial
  rw [if_neg (by omega)]
  have hnum := number_of_lt h2 hlt
  refine (stays_zeroCluster ht hnum).seq ?_
  intro zeroed u hu _
  split
  case isFalse => exact .pure hu trivial
  have htarget : S.g.Target (fat16ClusterToLba S.g new) := by
    rw [fat16ClusterToLba_eq_sector]
    exact target_clusterSector S.fits hnum S.g.sectorsPerCluster_pos
  refine (stays_blockWriteSector hu htarget _).seq ?_
  intro stored w hw _
  split
  case isFalse => exact .pure hw trivial
  refine (stays_setFat hw hc (S.link_of_lt hlt)).seq ?_
  rintro _ x hx -
  refine (stays_setFat hx (S.inTable_of_lt hlt) (.inr (.inl (by decide)))).seq ?_
  rintro _ y hy -
  exact (stays_flushFat hy).mono fun _ _ _ _ => trivial

lemma stays_dirInsert (h : S.Safe s) (hd : S.InTable d) {e : Dirent}
    (hslow : ¬ WalkEnds S.g n s d (search freeEntry) → S.may .outOfFuel) :
    Stays S (dirInsert S.g n d e) s fun _ _ => WalkEnds S.g n s d (search freeEntry) := by
  refine (stays_scan h hd _ hslow).seq ?_
  rintro r t ht ⟨hvol, hend, hdone, hhit⟩
  cases r with
  | error => exact .pure ht hend
  | hit i lba m =>
    obtain ⟨hsec, -, -⟩ := hhit _ _ _ rfl
    exact (stays_blockWriteSector ht (hsec.target S.fits) _).mono fun _ _ _ _ => hend
  | done it =>
    dsimp only
    split
    · exact .pure ht hend
    · exact (stays_dirGrow ht (hdone it rfl)).mono fun _ _ _ _ => hend

lemma Lacks.lookup {g : Geo} {p : Nat × List UInt8} {u : St} {r : Search (Nat × List UInt8)}
    (h : Lacks g n s d₀ path p u) (hrun : resolvePath g n d₀ path s = .ok r t) :
    r = .found p ∧ dirLookup g n p.1 p.2 t = .ok .missing u := by
  obtain ⟨t', hrun', hlook⟩ := h
  obtain ⟨rfl, rfl⟩ := EStateM.Result.ok.inj (hrun.symm.trans hrun')
  exact ⟨rfl, hlook⟩

lemma stays_pathInsert (h : S.Safe s) (hp : S.PathsOk s.vol d₀) {β : Type} {Q : β → St → Prop}
    {f : Search (Nat × List UInt8) → Fs β} {k : Nat × List UInt8 → Search Hit → Fs β}
    {W : Nat × List UInt8 → St → Prop}
    (hslow : ¬ (PathAsks S.g n s d₀ path).End S.g n → S.may .outOfFuel)
    (hmissing : ∀ t, ∃ b, f .missing t = .ok b t) (hioError : ∀ t, ∃ b, f .ioError t = .ok b t)
    (hfound : ∀ p, f (.found p) = dirLookup S.g n p.1 p.2 >>= k p)
    (hother : ∀ p r t, r ≠ .missing → ∃ b, k p r t = .ok b t)
    (hinsert : ∀ p u, Lacks S.g n s d₀ path p u → S.Safe u → S.InTable p.1 →
      Stays S (k p .missing) u fun _ _ => W p u)
    (hq : ∀ b t, (∀ p u, Lacks S.g n s d₀ path p u → W p u) →
      (PathAsks S.g n s d₀ path).End S.g n → Q b t) :
    Stays S (resolvePath S.g n d₀ path >>= f) s Q := by
  have hnone : ∀ {r t}, resolvePath S.g n d₀ path s = .ok r t → (∀ p, r ≠ .found p) →
      ∀ p u, Lacks S.g n s d₀ path p u → W p u := fun hrun hr p u hl =>
    absurd (hl.lookup hrun).1 (hr p)
  refine stays_path (R := fun _ _ => ∀ p u, Lacks S.g n s d₀ path p u → W p u) h hp hslow
    (fun t hrun ht => ?_) (fun t hrun ht => ?_) hfound (fun p t r u hrun hlook hu hdir => ?_)
    fun b t hw hend => hq b t hw hend
  · obtain ⟨b, hb⟩ := hmissing t
    exact Outcome.of_ok hb ⟨ht, hnone hrun (by simp)⟩
  · obtain ⟨b, hb⟩ := hioError t
    exact Outcome.of_ok hb ⟨ht, hnone hrun (by simp)⟩
  · by_cases hr : r = .missing
    · subst hr
      refine (hinsert p u ⟨t, hrun, hlook⟩ hu hdir).mono ?_
      intro _ _ _ hw p' u' hl
      obtain ⟨heq, hlook'⟩ := hl.lookup hrun
      cases heq
      obtain ⟨-, rfl⟩ := EStateM.Result.ok.inj (hlook.symm.trans hlook')
      exact hw
    · obtain ⟨b, hb⟩ := hother p r u hr
      refine Outcome.of_ok hb ⟨hu, fun p' u' hl => ?_⟩
      obtain ⟨heq, hlook'⟩ := hl.lookup hrun
      cases heq
      exact absurd (EStateM.Result.ok.inj (hlook.symm.trans hlook')).1 hr

lemma stays_create {path : CStr} (h : S.Safe s) (hp : S.PathsOk s.vol d₀)
    (hslow : ¬ ((Op.call (.create d₀ path)).Starts S.g n s).End S.g n → S.may .outOfFuel) :
    Stays S (fat16Create S.g n d₀ path.bytes) s fun _ _ =>
      ((Op.call (.create d₀ path)).Starts S.g n s).End S.g n := by
  refine stays_ready h (fun _ _ _ hw => hw.1) fun hready => ?_
  refine stays_pathInsert (W := fun p u => WalkEnds S.g n u p.1 (search freeEntry)) h hp
    (fun hnot => hslow fun hall => hnot fun u d q hask => hall u d q ⟨hready, .inl hask⟩)
    (fun t => ⟨_, rfl⟩) (fun t => ⟨_, rfl⟩) (fun _ => rfl) ?_ ?_ ?_
  · intro p r t hr
    cases r with
    | missing => exact absurd rfl hr
    | ioError => exact ⟨_, rfl⟩
    | found hit =>
      dsimp only
      split
      · exact ⟨_, rfl⟩
      · exact ⟨_, rfl⟩
  · intro p u hl hu hdir
    refine (stays_dirInsert hu hdir fun hnot => hslow fun hall =>
      hnot (hall u p.1 _ ⟨hready, .inr ⟨p, hl, rfl, rfl⟩⟩)).seq ?_
    intro ok w hw hend
    split
    · exact .pure hw hend
    · exact .pure hw hend
  · rintro _ _ hins hend u d q ⟨-, hask | ⟨p, hl, rfl, rfl⟩⟩
    · exact hend u d q hask
    · exact hins p u hl

/-- `fat16_free_chain` ends even in a cycle, because the second time a cluster is already free. -/
lemma stays_freeChain_of_count (h : S.Safe s) (hc : ¬ Stop c → S.InTable c)
    (hn : ¬ S.may .outOfFuel →
      Stop c ∧ 0 < n ∨ count (Finset.range 0xFFF8) s.vol.fat (· ≠ 0) + 1 < n) :
    Stays S (fat16FreeChain S.g n c) s fun _ _ => True := by
  induction n generalizing c s with
  | zero =>
    refine .fault h ?_
    by_contra hmay
    rcases hn hmay with ⟨-, hlt⟩ | hlt
    · omega
    · omega
  | succ n ih =>
    rw [fat16FreeChain]
    split
    · exact .pure h trivial
    case isFalse hstop =>
      have hin := hc hstop
      refine (stays_getFat h hin).seq ?_
      rintro x s _ ⟨rfl, rfl⟩
      refine (stays_setFat h hin (.inl (by decide))).seq ?_
      rintro _ _ ht rfl
      refine ih ht (fun hnext => h.next hin hnext) fun hmay => ?_
      have hmem : c ∈ Finset.range 0xFFF8 := by
        rw [Finset.mem_range]
        unfold Stop at hstop
        omega
      have hcount := count_update (p := (· ≠ 0)) (f := s.vol.fat) hmem 0
      have hlt := (hn hmay).resolve_left fun hand => hstop hand.1
      by_cases hfree : s.vol.fat c = 0
      · refine .inl ⟨.inl ?_, by omega⟩
        rw [hfree]
        decide
      · rw [if_pos hfree, if_neg (by decide)] at hcount
        refine .inr ?_
        show count _ (Function.update s.vol.fat c 0) _ + 1 < n
        omega

lemma stays_freeChain (h : S.Safe s) (hc : ¬ Stop c → S.InTable c)
    (hn : ¬ S.may .outOfFuel → 0x10000 ≤ n) :
    Stays S (fat16FreeChain S.g n c) s fun _ _ => True := by
  refine stays_freeChain_of_count h hc fun hmay => .inr ?_
  have hcount : count (Finset.range 0xFFF8) s.vol.fat (· ≠ 0) ≤ 0xFFF8 :=
    (Finset.card_filter_le _ _).trans_eq (Finset.card_range _)
  have := hn hmay
  omega

lemma stays_makeDirectory (h : S.Safe s) (hd : S.InTable d) (hn : ¬ S.may .outOfFuel → 0x10000 ≤ n)
    (hslow : ¬ (∀ w, Prepares S.g s d w → WalkEnds S.g n w d (search freeEntry)) →
      S.may .outOfFuel) :
    Stays S (makeDirectory S.g n d name83) s fun _ _ =>
      ∀ w, Prepares S.g s d w → WalkEnds S.g n w d (search freeEntry) := by
  refine (stays_allocCluster h).seqRun ?_
  rintro new t halloc ht hnew
  split
  case isTrue h0 =>
    refine .pure ht ?_
    rintro w ⟨c, t', u, halloc', hc, -⟩
    obtain ⟨rfl, rfl⟩ := EStateM.Result.ok.inj (halloc.symm.trans halloc')
    exact absurd h0 hc
  case isFalse h0 =>
  obtain ⟨h2, hlt, -⟩ := hnew.resolve_left fun hzero => h0 hzero.1
  have hnum := number_of_lt h2 hlt
  refine (stays_zeroCluster ht hnum).seqRun ?_
  intro zeroed u hzero hu _
  have hprep : ∀ w, Prepares S.g s d w → zeroed = true ∧
      blockWriteSector (fat16ClusterToLba S.g new) (dotSector new d) u = .ok true w := by
    rintro w ⟨c, t', u', halloc', -, hzero', hdots⟩
    obtain ⟨rfl, rfl⟩ := EStateM.Result.ok.inj (halloc.symm.trans halloc')
    obtain ⟨rfl, rfl⟩ := EStateM.Result.ok.inj (hzero.symm.trans hzero')
    exact ⟨rfl, hdots⟩
  split
  case isFalse hfail => exact .pure hu fun w hw => absurd (hprep w hw).1 hfail
  case isTrue hok =>
  have htarget : S.g.Target (fat16ClusterToLba S.g new) := by
    rw [fat16ClusterToLba_eq_sector]
    exact target_clusterSector S.fits hnum S.g.sectorsPerCluster_pos
  refine (stays_blockWriteSector hu htarget _).seqRun ?_
  intro stored w hdots hw _
  have honly : ∀ w', Prepares S.g s d w' → stored = true ∧ w' = w := fun w' hw' =>
    (EStateM.Result.ok.inj (hdots.symm.trans (hprep w' hw').2)).imp id Eq.symm
  split
  case isFalse hfail => exact .pure hw fun w' hw' => absurd (honly w' hw').1 hfail
  case isTrue hstored =>
  subst hok hstored
  refine (stays_dirInsert hw hd fun hnot => hslow fun hall =>
    hnot (hall w ⟨new, t, u, halloc, h0, hzero, hdots⟩)).seq ?_
  intro ok x hx hend
  have hall : ∀ w', Prepares S.g s d w' → WalkEnds S.g n w' d (search freeEntry) :=
    fun w' hw' => (honly w' hw').2 ▸ hend
  split
  · exact (stays_flushFat hx).mono fun _ _ _ _ => hall
  · refine (stays_freeChain hx (fun _ => S.inTable_of_lt hlt) hn).seq ?_
    exact fun _ y hy _ => .pure hy hall

lemma stays_mkdir {path : CStr} (h : S.Safe s) (hp : S.PathsOk s.vol d₀)
    (hn : ¬ S.may .outOfFuel → 0x10000 ≤ n)
    (hslow : ¬ ((Op.call (.mkdir d₀ path)).Starts S.g n s).End S.g n → S.may .outOfFuel) :
    Stays S (fat16Mkdir S.g n d₀ path.bytes) s fun _ _ =>
      ((Op.call (.mkdir d₀ path)).Starts S.g n s).End S.g n := by
  refine stays_ready h (fun _ _ _ hw => hw.1) fun hready => ?_
  refine stays_pathInsert (W := fun p u => ∀ w, Prepares S.g u p.1 w →
      WalkEnds S.g n w p.1 (search freeEntry)) h hp
    (fun hnot => hslow fun hall => hnot fun u d q hask => hall u d q ⟨hready, .inl hask⟩)
    (fun t => ⟨_, rfl⟩) (fun t => ⟨_, rfl⟩) (fun _ => rfl) ?_ ?_ ?_
  · intro p r t hr
    cases r with
    | missing => exact absurd rfl hr
    | ioError => exact ⟨_, rfl⟩
    | found hit =>
      dsimp only
      split
      · exact ⟨_, rfl⟩
      · exact ⟨_, rfl⟩
  · intro p u hl hu hdir
    exact stays_makeDirectory hu hdir hn fun hnot => hslow fun hall => hnot fun w hw =>
      hall w p.1 _ ⟨hready, .inr ⟨p, u, hl, hw, rfl, rfl⟩⟩
  · rintro _ _ hins hend w d q ⟨-, hask | ⟨p, u, hl, hw, rfl, rfl⟩⟩
    · exact hend w d q hask
    · exact hins p u hl w hw

/-! ## Replacing a file -/

lemma stays_linkCluster (h : S.Safe s) {prev : Nat} (hprev : prev = 0 ∨ prev < S.g.totalClusters)
    (hc : c < S.g.totalClusters) : Stays S (linkCluster S.g prev c) s fun _ _ => True := by
  have hlast : ∀ t, S.Safe t → Stays S (setFat S.g c 0xFFFF) t fun _ _ => True := fun t ht =>
    (stays_setFat ht (S.inTable_of_lt hc) (.inr (.inl (by decide)))).mono fun _ _ _ _ => trivial
  rw [linkCluster]
  split
  · exact hlast s h
  case isFalse hne =>
    refine (stays_setFat h (S.inTable_of_lt (hprev.resolve_left hne)) (S.link_of_lt hc)).seq ?_
    exact fun _ t ht _ => hlast t ht

lemma stays_writeFileLoop (h : S.Safe s) {firstNew prev written : Nat}
    (hprev : prev = 0 ∨ prev < S.g.totalClusters)
    (hn : ¬ S.may .outOfFuel → buf.length - written < n) :
    Stays S (writeFileLoop S.g buf n firstNew prev written) s fun _ _ => True := by
  induction n generalizing s firstNew prev written with
  | zero =>
    refine .fault h ?_
    by_contra hmay
    exact Nat.not_lt_zero _ (hn hmay)
  | succ n ih =>
    rw [writeFileLoop]
    split
    case isFalse => exact .pure h trivial
    case isTrue hmore =>
      refine (stays_allocCluster h).seq ?_
      rintro new t ht (⟨rfl, rfl⟩ | ⟨h2, hlt, hfree, rfl⟩)
      · exact .pure h trivial
      rw [if_neg (by omega)]
      refine (stays_linkCluster ht hprev hlt).seq ?_
      rintro _ u hu -
      have hws : ∀ w ∈ payload S.g buf new written, S.g.Target w.1 := by
        intro w hw
        obtain ⟨k, hk, rfl⟩ := List.mem_map.mp hw
        exact target_clusterSector S.fits (number_of_lt h2 hlt) (List.mem_range.mp hk)
      refine (stays_writeSectors hu hws).seq ?_
      intro ok w hw _
      split
      case isFalse => exact .pure hw trivial
      refine ih hw (.inr hlt) fun hmay => ?_
      have hturn := hn hmay
      have hbytes : 0 < min S.g.bytesPerCluster (buf.length - written) := by
        have hpos := S.g.sectorsPerCluster_pos
        unfold Geo.bytesPerCluster
        omega
      omega

lemma stays_writeFile {name : CStr} (h : S.Safe s) (hp : S.PathsOk s.vol d)
    (hn : ¬ S.may .outOfFuel → 0x10000 + buf.length ≤ n)
    (hslow : ¬ ((Op.call (.writeFile d name buf)).Starts S.g n s).End S.g n → S.may .outOfFuel) :
    Stays S (fat16WriteFile S.g n d name.bytes buf) s fun _ _ =>
      ((Op.call (.writeFile d name buf)).Starts S.g n s).End S.g n := by
  refine stays_ready h (fun _ _ _ hw => hw.1) fun hready => ?_
  have hdir := hp.dir d .start
  refine (stays_dirLookup h hdir fun hnot => hslow fun hall =>
    hnot (hall s d _ ⟨hready, rfl, rfl, rfl⟩)).seq ?_
  rintro r t ht ⟨-, hwalk, hfound⟩
  have hend : ((Op.call (.writeFile d name buf)).Starts S.g n s).End S.g n := by
    rintro _ _ _ ⟨-, rfl, rfl, rfl⟩
    exact hwalk
  cases r with
  | missing => exact .pure ht hend
  | ioError => exact .pure ht hend
  | found hit =>
    obtain ⟨hhit, -⟩ := hfound hit rfl
    dsimp only
    split
    · exact .pure ht hend
    refine (stays_freeChain ht (fun _ => hp.hit .start hhit)
      fun hmay => Nat.le_trans (Nat.le_add_right _ _) (hn hmay)).seq ?_
    rintro _ u hu -
    have hturns : ¬ S.may .outOfFuel → buf.length - 0 < n := fun hmay => by
      have := hn hmay
      omega
    refine (stays_writeFileLoop hu (.inl rfl) hturns).seq ?_
    rintro (_ | firstNew) w hw -
    · exact .pure hw hend
    refine (stays_blockWriteSector hw (hhit.sector.target S.fits) _).seq ?_
    intro ok x hx _
    split
    · exact (stays_flushFat hx).mono fun _ _ _ _ => hend
    · exact .pure hx hend

/-! ## Writing at a position -/

structure CursorOk (S : Setting) (cur : Cursor) : Prop where
  number : S.g.Number cur.cluster
  inTable : S.InTable cur.cluster

lemma cursorOk_new {new : Nat} {fresh dirty : Bool} (h2 : 2 ≤ new) (hlt : new < S.g.totalClusters) :
    CursorOk S { cluster := new, fresh, fatDirty := dirty } :=
  ⟨number_of_lt h2 hlt, S.inTable_of_lt hlt⟩

lemma stays_cursorNext (h : S.Safe s) {cur : Cursor} (hcur : CursorOk S cur) :
    Stays S (cursorNext S.g cur) s fun r _ => ∀ cur', r = some cur' → CursorOk S cur' := by
  refine (stays_getFat h hcur.inTable).seq ?_
  rintro x s _ ⟨rfl, rfl⟩
  split
  case isFalse hstop =>
    refine .pure h ?_
    rintro _ ⟨⟩
    exact ⟨number_of_not_stop hstop, h.next hcur.inTable hstop⟩
  case isTrue hstop =>
    refine (stays_allocCluster h).seq ?_
    rintro new t ht (⟨rfl, rfl⟩ | ⟨h2, hlt, hfree, rfl⟩)
    · exact .pure h nofun
    rw [if_neg (by omega)]
    refine (stays_setFat ht hcur.inTable (S.link_of_lt hlt)).seq ?_
    rintro _ _ hu rfl
    refine .pure hu ?_
    rintro _ ⟨⟩
    exact cursorOk_new h2 hlt

lemma stays_seekLoop (h : S.Safe s) {k : Nat} {cur : Cursor} (hcur : CursorOk S cur) :
    Stays S (seekLoop S.g k cur) s fun r _ => ∀ cur', r = some cur' → CursorOk S cur' := by
  induction k generalizing s cur with
  | zero =>
    refine .pure h ?_
    rintro _ ⟨⟩
    exact hcur
  | succ k ih =>
    refine (stays_cursorNext h hcur).seq ?_
    rintro (_ | cur') t ht hok
    · dsimp only
      split
      · exact (stays_flushFat ht).seq fun _ u hu _ => .pure hu nofun
      · exact .pure ht nofun
    · exact ih ht (hok cur' rfl)

lemma stays_seekStart (h : S.Safe s) {first pos : Nat} (hlt : first < 0x10000)
    (hfirst : S.InTable first) :
    Stays S (seekStart S.g first pos) s fun r _ =>
      ∀ first' cur, r = some (first', cur) → CursorOk S cur := by
  rw [seekStart]
  split
  case isTrue =>
    refine (stays_allocCluster h).seq ?_
    rintro new t ht (⟨rfl, rfl⟩ | ⟨h2, hlt, hfree, rfl⟩)
    · exact .pure h (by simp)
    rw [if_neg (by omega)]
    refine .pure ht ?_
    rintro _ _ ⟨⟩
    exact cursorOk_new h2 hlt
  case isFalse hge =>
    refine (stays_seekLoop h ⟨⟨by dsimp only; omega, .inl hlt⟩, hfirst⟩).seq ?_
    intro r t ht hok
    refine .pure ht ?_
    intro first' cur hr
    obtain ⟨cur', rfl, heq⟩ := Option.map_eq_some_iff.mp hr
    obtain ⟨-, rfl⟩ := Prod.mk.inj heq
    exact hok cur' rfl

lemma stays_oldSector (h : S.Safe s) {len : Nat} {fresh : Bool} :
    Stays S (oldSector len fresh lba) s fun _ t => t.vol = s.vol := by
  rw [oldSector]
  split
  · split
    · exact .pure h rfl
    · exact (stays_blockReadSector h lba).mono fun _ _ _ hr => hr.1
  · exact .pure h rfl

lemma stays_writeAtLoop (h : S.Safe s) {cur : Cursor} (hcur : CursorOk S cur) {off written : Nat}
    (hoff : written < buf.length → off < S.g.bytesPerCluster)
    (hn : ¬ S.may .outOfFuel → buf.length - written < n) :
    Stays S (writeAtLoop S.g buf n cur off written) s fun _ _ => True := by
  induction n generalizing s cur off written with
  | zero =>
    refine .fault h ?_
    by_contra hmay
    exact Nat.not_lt_zero _ (hn hmay)
  | succ n ih =>
    rw [writeAtLoop]
    split
    case isFalse => exact .pure h trivial
    case isTrue hmore =>
      have hlt := hoff hmore
      unfold Geo.bytesPerCluster at hlt
      have htarget := target_clusterSector S.fits hcur.number
        (show off / 512 < S.g.sectorsPerCluster by omega)
      have hlen : 0 < min (512 - off % 512) (buf.length - written) := by omega
      dsimp only
      generalize min (512 - off % 512) (buf.length - written) = len at hlen
      have hless : ¬ S.may .outOfFuel → buf.length - (written + len) < n := fun hmay => by
        have := hn hmay
        omega
      refine (stays_oldSector h).seq ?_
      rintro (_ | sector) t ht -
      · exact .pure ht trivial
      refine (stays_blockWriteSector ht htarget _).seq ?_
      intro ok u hu _
      split
      case isFalse => exact .pure hu trivial
      split
      case isTrue hfull =>
        refine (stays_cursorNext hu hcur).seq ?_
        rintro (_ | cur') w hw hok
        · exact .pure hw trivial
        · exact ih hw (hok cur' rfl) (fun _ => Nat.mul_pos S.g.sectorsPerCluster_pos (by decide))
            hless
      case isFalse hroom =>
        exact ih hu hcur (fun hmore => Nat.lt_of_not_le fun hge => hroom ⟨hge, hmore⟩) hless

lemma stays_flushDirty (h : S.Safe s) {dirty : Bool} :
    Stays S (flushDirty S.g dirty) s fun _ t => t.vol.fat = s.vol.fat := by
  rw [flushDirty]
  split
  · exact stays_flushFat h
  · exact .pure h rfl

lemma stays_writeCommit (h : S.Safe s) (hd : S.InTable d) {existing : Dirent}
    {first size written : Nat} {dirty : Bool}
    (hslow : ¬ (∀ w, flushDirty S.g dirty s = .ok true w → size ≠ existing.size ∨
      first ≠ existing.first → WalkEnds S.g n w d (byName name83)) → S.may .outOfFuel) :
    Stays S (writeCommit S.g n d name83 existing first size written dirty) s fun _ _ =>
      ∀ w, flushDirty S.g dirty s = .ok true w → size ≠ existing.size ∨ first ≠ existing.first →
        WalkEnds S.g n w d (byName name83) := by
  refine (stays_flushDirty h).seqRun ?_
  intro flushed t hflush ht _
  have honly : ∀ w, flushDirty S.g dirty s = .ok true w → flushed = true ∧ w = t := fun w hw =>
    (EStateM.Result.ok.inj (hflush.symm.trans hw)).imp id Eq.symm
  split
  case isFalse hfail => exact .pure ht fun w hw => absurd (honly w hw).1 hfail
  case isTrue hok =>
  subst hok
  split
  case isFalse hsame =>
    split
    · exact .pure ht fun _ _ hdiff => absurd hdiff hsame
    · exact .pure ht fun _ _ hdiff => absurd hdiff hsame
  case isTrue hdiff =>
  refine (stays_dirLookup ht hd fun hnot => hslow fun hall => hnot (hall t hflush hdiff)).seq ?_
  rintro r u hu ⟨-, hwalk, hfound⟩
  have hend : ∀ w, flushDirty S.g dirty s = .ok true w → size ≠ existing.size ∨
      first ≠ existing.first → WalkEnds S.g n w d (byName name83) :=
    fun w hw _ => (honly w hw).2 ▸ hwalk
  cases r with
  | missing => exact .pure hu hend
  | ioError => exact .pure hu hend
  | found hit =>
    refine (stays_blockWriteSector hu ((hfound hit rfl).1.sector.target S.fits) _).seq ?_
    intro ok w hw _
    split
    · exact .pure hw hend
    · exact .pure hw hend

lemma stays_writeAt {name : CStr} (h : S.Safe s) (hp : S.PathsOk s.vol d) {pos : Nat}
    (hn : ¬ S.may .outOfFuel → buf.length + 1 ≤ n)
    (hslow : ¬ ((Op.call (.writeAt d name pos buf)).Starts S.g n s).End S.g n → S.may .outOfFuel) :
    Stays S (fat16WriteAt S.g n d name.bytes pos buf) s fun _ _ =>
      ((Op.call (.writeAt d name pos buf)).Starts S.g n s).End S.g n := by
  refine stays_ready h (fun _ _ _ hw => hw.1) fun hready => ?_
  have hdir := hp.dir d .start
  refine (stays_dirLookup h hdir fun hnot => hslow fun hall =>
    hnot (hall s d _ ⟨hready, rfl, rfl, .inl rfl⟩)).seqRun ?_
  rintro r t hlook ht ⟨-, hwalk, hfound⟩
  -- what is left to show: the second walk ends, if it is started
  have hend : (∀ hit w, r = .found hit → Outgrows S.g n t hit.entry pos buf w →
      WalkEnds S.g n w d (byName (to83 name.bytes))) →
      ((Op.call (.writeAt d name pos buf)).Starts S.g n s).End S.g n := by
    rintro hagain w _ _ ⟨-, rfl, rfl, rfl | ⟨hit, u, hlook', hgrow⟩⟩
    · exact hwalk
    · obtain ⟨rfl, rfl⟩ := EStateM.Result.ok.inj (hlook.symm.trans hlook')
      exact hagain hit w rfl hgrow
  cases r with
  | missing => exact .pure ht (hend nofun)
  | ioError => exact .pure ht (hend nofun)
  | found hit =>
    obtain ⟨hhit, -⟩ := hfound hit rfl
    have hlt : hit.entry.first < 0x10000 := by
      rw [hhit.entry]
      exact (dirent_fits _ _).first
    replace hend : (∀ w, Outgrows S.g n t hit.entry pos buf w →
        WalkEnds S.g n w d (byName (to83 name.bytes))) →
        ((Op.call (.writeAt d name pos buf)).Starts S.g n s).End S.g n := fun hagain =>
      hend fun _ w heq hgrow => by
        cases heq
        exact hagain w hgrow
    dsimp only
    split
    case isTrue hc => exact .pure ht (hend fun _ hgrow => absurd hc hgrow.1)
    case isFalse hfile =>
    split
    case isTrue hc => exact .pure ht (hend fun _ hgrow => absurd hc hgrow.2.1)
    case isFalse hpos =>
    split
    case isTrue hc => exact .pure ht (hend fun _ hgrow => absurd hc hgrow.2.2.1)
    case isFalse hbig =>
    split
    case isTrue hc => exact .pure ht (hend fun _ hgrow => absurd hc hgrow.2.2.2.1)
    case isFalse hgap =>
    split
    case isTrue hc => exact .pure ht (hend fun _ hgrow => absurd hc hgrow.2.2.2.2.1)
    case isFalse hempty =>
    refine (stays_seekStart ht hlt (hp.hit .start hhit)).seqRun ?_
    rintro (_ | ⟨first, cur⟩) u hseek hu hok
    · refine .pure hu (hend ?_)
      rintro _ ⟨-, -, -, -, -, _, _, _, _, _, _, hseek', -⟩
      exact absurd (EStateM.Result.ok.inj (hseek.symm.trans hseek')).1 nofun
    have hoff := Nat.mod_lt pos (Nat.mul_pos S.g.sectorsPerCluster_pos (show 0 < 512 by decide))
    refine (stays_writeAtLoop hu (hok first cur rfl) (fun _ => hoff) hn).seqRun ?_
    rintro ⟨written, dirty⟩ w hdata hw -
    refine (stays_writeCommit hw hdir fun hnot => hslow fun hall => hnot fun x hflush hdiff =>
      hall x d _ ⟨hready, rfl, rfl, .inr ⟨hit, t, hlook, hfile, hpos, hbig, hgap, hempty, first,
        cur, u, written, dirty, w, hseek, hdata, hflush, hdiff⟩⟩).mono ?_
    intro _ _ _ hcommit
    refine hend ?_
    rintro x ⟨-, -, -, -, -, first', cur', u', written', dirty', w', hseek', hdata', hflush, hdiff⟩
    obtain ⟨heq, rfl⟩ := EStateM.Result.ok.inj (hseek.symm.trans hseek')
    cases heq
    obtain ⟨heq, rfl⟩ := EStateM.Result.ok.inj (hdata.symm.trans hdata')
    cases heq
    exact hcommit x hflush hdiff

end NullOS.Fat16
