import NullOS.Memory.Frames

/-!
# Pointers from ring 3

`user_kptr`, `user_ptr_valid`, `copy_from_user` and `copy_to_user` of `kernel/syscall.c`.  The
kernel reads and writes a user's bytes at their physical addresses.  The check looks at one address
in each page, the copies resolve every byte again; what makes the check count for the whole copy is
that no write reaches the directory or a table.
-/

namespace NullOS.Memory

open Lib

def userKptr (m : Mem) (cr3 uaddr : Nat) : Nat :=
  let phys := vmmGetUserPhysFromDir m cr3 uaddr
  if phys = 0 then 0 else frameAddr phys + uaddr % pageSize

/-- The loop of `user_ptr_valid`; `none` if it takes more rounds than there are pages. -/
def validPages (m : Mem) (cr3 lastPage : Nat) : Nat → Nat → Option Bool
  | 0, _ => none
  | fuel + 1, page =>
      if vmmGetUserPhysFromDir m cr3 page = 0 then some false
      else if page = lastPage then some true
      else validPages m cr3 lastPage fuel ((page + pageSize) % 0x100000000)

def userPtrValid (m : Mem) (cur : Option Nat) (uaddr len : Nat) : Option Bool :=
  match cur with
  | none => some false
  | some cr3 =>
      if len = 0 then some false
      else if (uaddr + len) % 0x100000000 < uaddr then some false
      else validPages m cr3 (frameAddr ((uaddr + len - 1) % 0x100000000)) 0x100000 (frameAddr uaddr)

/-- The loop of the two copies, with `k` bytes to go from byte `i` on: `put i kp` moves byte `i`,
which the user has at `kp`. -/
def copyLoop (put : Nat → Nat → Mem → Mem) (cr3 uaddr : Nat) : Nat → Nat → Mem → Int × Mem
  | 0, _, m => (0, m)
  | k + 1, i, m =>
      let kp := userKptr m cr3 ((uaddr + i) % 0x100000000)
      if kp = 0 then (-1, m) else copyLoop put cr3 uaddr k (i + 1) (put i kp m)

def copyUser (put : Nat → Nat → Mem → Mem) (m : Mem) (cur : Option Nat) (uaddr len : Nat) :
    Option (Int × Mem) :=
  (userPtrValid m cur uaddr len).map fun valid =>
    match valid, cur with
    | true, some cr3 => copyLoop put cr3 uaddr len 0 m
    | _, _ => (-1, m)

def copyFromUser (m : Mem) (cur : Option Nat) (kdst usrc len : Nat) : Option (Int × Mem) :=
  copyUser (fun i kp m => Function.update m (kdst + i) (m kp)) m cur usrc len

def copyToUser (m : Mem) (cur : Option Nat) (udst ksrc len : Nat) : Option (Int × Mem) :=
  copyUser (fun i kp m => Function.update m kp (m (ksrc + i))) m cur udst len

/-! ## What the copies may rely on -/

/-- A frame that some page of the process is mapped to, with the user bit. -/
def UserFrame (m : Mem) (pd f : Nat) : Prop := ∃ vp < 0x100000, UserMapped m pd vp f

/-- The frame of the directory or of one of its tables. -/
def PagingFrame (m : Mem) (pd f : Nat) : Prop :=
  f = pd / pageSize ∨ ∃ di < 1024, Present (pde m pd di) ∧ f = pde m pd di / pageSize

variable {m m' : Mem} {pd uaddr len kdst ksrc f i k page lastPage virt fuel : Nat}
  {put : Nat → Nat → Mem → Mem}

/-! ## The check -/

lemma validPages_spec (m : Mem) (pd page lastPage fuel : Nat) (hpage : page % pageSize = 0)
    (hlast : lastPage % pageSize = 0) (hle : page ≤ lastPage) (hlt : lastPage < 0x100000000)
    (hfuel : lastPage / pageSize - page / pageSize < fuel) :
    ∃ b, validPages m pd lastPage fuel page = some b ∧
      (b = true ↔ ∀ vp, page / pageSize ≤ vp → vp ≤ lastPage / pageSize →
        vmmGetUserPhysFromDir m pd (vp * pageSize) ≠ 0) := by
  induction fuel generalizing page with
  | zero => omega
  | succ fuel ih =>
    rw [validPages]
    have hself : page / pageSize * pageSize = page := Nat.div_mul_cancel
      (Nat.dvd_of_mod_eq_zero hpage)
    by_cases hz : vmmGetUserPhysFromDir m pd page = 0
    · refine ⟨false, if_pos hz, iff_of_false nofun fun hall => ?_⟩
      exact hall (page / pageSize) le_rfl (Nat.div_le_div_right hle) (hself.symm ▸ hz)
    · rw [if_neg hz]
      by_cases heq : page = lastPage
      · refine ⟨true, if_pos heq, iff_of_true rfl fun vp hlo hhi => ?_⟩
        obtain rfl : vp = page / pageSize := by
          rw [← heq] at hhi
          omega
        rwa [hself]
      · rw [if_neg heq]
        have hnext : page + pageSize ≤ lastPage := by
          simp only [pageSize] at *
          omega
        rw [Nat.mod_eq_of_lt (by omega)]
        have hdiv : (page + pageSize) / pageSize = page / pageSize + 1 :=
          Nat.add_div_right _ (by decide)
        obtain ⟨b, hb, hall⟩ := ih (page + pageSize)
          (by rw [Nat.add_mod_right]; exact hpage) hnext (by
            simp only [pageSize] at *
            omega)
        refine ⟨b, hb, hall.trans ⟨fun hrest vp hlo hhi => ?_, fun hrest vp hlo hhi =>
          hrest vp (by omega) hhi⟩⟩
        by_cases hvp : vp = page / pageSize
        · rw [hvp, hself]
          exact hz
        · exact hrest vp (by omega) hhi

/-- `user_ptr_valid` says yes exactly if the range is not empty, does not wrap, and ring 3 may touch
every byte of it, with no frame being the frame at 0. -/
lemma userPtrValid_spec (m : Mem) (pd : Nat) (hu : uaddr < 0x100000000) (hlen : len < 0x100000000) :
    ∃ b, userPtrValid m (some pd) uaddr len = some b ∧
      (b = true ↔ 0 < len ∧ uaddr + len < 0x100000000 ∧
        ∀ i < len, ∃ f, UserMapped m pd ((uaddr + i) / pageSize) f ∧ f ≠ 0) := by
  rw [userPtrValid]
  by_cases h0 : len = 0
  · exact ⟨false, if_pos h0, iff_of_false nofun fun h => by omega⟩
  · rw [if_neg h0]
    by_cases hwrap : (uaddr + len) % 0x100000000 < uaddr
    · exact ⟨false, if_pos hwrap, iff_of_false nofun fun h => by omega⟩
    · have hsum : uaddr + len < 0x100000000 := by omega
      rw [if_neg hwrap, Nat.mod_eq_of_lt (by omega)]
      obtain ⟨b, hb, hall⟩ := validPages_spec m pd (frameAddr uaddr)
        (frameAddr (uaddr + len - 1)) 0x100000 (Nat.mul_mod_left _ _) (Nat.mul_mod_left _ _)
        (Nat.mul_le_mul_right _ (Nat.div_le_div_right (by omega)))
        (lt_of_le_of_lt (Nat.div_mul_le_self _ _) (by omega)) (by
          simp only [frameAddr, pageSize]
          omega)
      have hself : ∀ vp, vp * pageSize / pageSize = vp := fun vp => Nat.mul_div_cancel _ (by decide)
      -- a page resolves iff it has a frame other than the frame at 0
      have hpage : ∀ vp, vmmGetUserPhysFromDir m pd (vp * pageSize) ≠ 0 ↔
          ∃ f, UserMapped m pd vp f ∧ f ≠ 0 := by
        intro vp
        constructor
        · intro hne
          obtain ⟨f, hf⟩ := userMapped_of_ne_zero hne
          rw [vmmGetUserPhysFromDir_of_mapped hf, Nat.mul_mod_left, Nat.add_zero] at hne
          rw [hself] at hf
          exact ⟨f, hf, fun h0 => hne (by rw [h0, Nat.zero_mul])⟩
        · rintro ⟨f, hf, hf0⟩
          rw [← hself vp] at hf
          rw [vmmGetUserPhysFromDir_of_mapped hf, Nat.mul_mod_left, Nat.add_zero]
          exact Nat.mul_ne_zero hf0 (by decide)
      refine ⟨b, hb, hall.trans ⟨fun hpages => ⟨by omega, hsum, fun i hi => ?_⟩,
        fun hrange vp hlo hhi => ?_⟩⟩
      · exact (hpage _).mp (hpages ((uaddr + i) / pageSize)
          (by simp only [frameAddr, pageSize]; omega) (by simp only [frameAddr, pageSize]; omega))
      · simp only [frameAddr, hself] at hlo hhi
        obtain ⟨i, hi, rfl⟩ : ∃ i < len, vp = (uaddr + i) / pageSize := by
          by_cases hvp : vp = uaddr / pageSize
          · exact ⟨0, by omega, hvp⟩
          · refine ⟨vp * pageSize - uaddr, ?_, ?_⟩ <;> simp only [pageSize] at * <;> omega
        exact (hpage _).mpr (hrange.2.2 i hi)

lemma userKptr_of_mapped (h : UserMapped m pd (virt / pageSize) f) (hf : f ≠ 0) :
    userKptr m pd virt = f * pageSize + virt % pageSize ∧ userKptr m pd virt ≠ 0 := by
  have hpos : 0 < f := Nat.pos_of_ne_zero hf
  have hphys := vmmGetUserPhysFromDir_of_mapped h
  have hne : ¬ f * pageSize + virt % pageSize = 0 := by
    simp only [pageSize]
    omega
  have heq : userKptr m pd virt = f * pageSize + virt % pageSize := by
    rw [userKptr, hphys, if_neg hne, frameAddr]
    simp only [pageSize]
    omega
  exact ⟨heq, heq ▸ hne⟩

/-! ## The copies -/

lemma userKptr_congr (hpd : pd % pageSize = 0) (hv : virt < 0x100000000)
    (h : ∀ a, PagingFrame m pd (a / pageSize) → m' a = m a) :
    userKptr m' pd virt = userKptr m pd virt := by
  have hdi : dirIndex virt < 1024 := by
    simp only [dirIndex]
    omega
  have hpde : pde m' pd (dirIndex virt) = pde m pd (dirIndex virt) :=
    pde_congr hpd hdi fun a ha => h a (.inl ha)
  have hphys : vmmGetUserPhysFromDir m' pd virt = vmmGetUserPhysFromDir m pd virt := by
    rw [vmmGetUserPhysFromDir, vmmGetUserPhysFromDir, hpde]
    by_cases hp : Present (pde m pd (dirIndex virt))
    · have hpte : pte m' pd (dirIndex virt) (tableIndex virt) =
          pte m pd (dirIndex virt) (tableIndex virt) :=
        pte_congr (Nat.mod_lt _ (by decide)) hpde fun a ha => h a (.inr ⟨_, hdi, hp, ha⟩)
      rw [hpte]
    · rw [if_pos (.inl hp), if_pos (.inl hp)]
  rw [userKptr, userKptr, hphys]

/-- The loop goes through the memories `mem 0`, `mem 1` and so on, if every byte resolves in
each of them. -/
lemma copyLoop_spec (put : Nat → Nat → Mem → Mem) (pd uaddr i k : Nat) (mem : Nat → Mem)
    (hsum : uaddr + (i + k) < 0x100000000)
    (hkp : ∀ j < i + k, userKptr (mem j) pd (uaddr + j) ≠ 0)
    (hput : ∀ j < i + k, put j (userKptr (mem j) pd (uaddr + j)) (mem j) = mem (j + 1)) :
    copyLoop put pd uaddr k i (mem i) = (0, mem (i + k)) := by
  induction k generalizing i with
  | zero => rfl
  | succ k ih =>
    rw [copyLoop, Nat.mod_eq_of_lt (by omega), if_neg (hkp i (by omega)), hput i (by omega)]
    have hik : i + 1 + k = i + (k + 1) := by omega
    rw [← hik] at hsum hkp hput ⊢
    exact ih _ hsum hkp hput

lemma copyUser_of_valid (h : userPtrValid m (some pd) uaddr len = some true) :
    copyUser put m (some pd) uaddr len = some (copyLoop put pd uaddr len 0 m) := by
  rw [copyUser, h]
  rfl

section Valid

variable (hpd : pd % pageSize = 0) (hsum : uaddr + len < 0x100000000)
  (hmapped : ∀ i < len, ∃ f, UserMapped m pd ((uaddr + i) / pageSize) f ∧ f ≠ 0)

include hsum hmapped

lemma userFrame_userKptr (hi : i < len) :
    UserFrame m pd (userKptr m pd (uaddr + i) / pageSize) := by
  obtain ⟨f, hf, hf0⟩ := hmapped i hi
  have hdiv : (f * pageSize + (uaddr + i) % pageSize) / pageSize = f := by
    simp only [pageSize]
    omega
  rw [(userKptr_of_mapped hf hf0).1, hdiv]
  refine ⟨_, ?_, hf⟩
  simp only [pageSize]
  omega

include hpd

lemma copyFromLoop_spec
    (hbuf : ∀ i < len, ¬ UserFrame m pd ((kdst + i) / pageSize) ∧
      ¬ PagingFrame m pd ((kdst + i) / pageSize)) :
    copyLoop (fun i kp m => Function.update m (kdst + i) (m kp)) pd uaddr len 0 m =
      (0, m.blit kdst len fun i => m (userKptr m pd (uaddr + i))) := by
  obtain ⟨src, hsrc⟩ : ∃ src : Nat → UInt8, (fun i => m (userKptr m pd (uaddr + i))) = src :=
    ⟨_, rfl⟩
  have hout : ∀ j ≤ len, ∀ a, (∀ i < len, a ≠ kdst + i) → m.blit kdst j src a = m a := by
    intro j hj a ha
    refine Mem.blit_of_not_mem ?_
    by_contra hin
    exact ha (a - kdst) (by omega) (by omega)
  have hkp : ∀ j ≤ len, ∀ i < len,
      userKptr (m.blit kdst j src) pd (uaddr + i) = userKptr m pd (uaddr + i) := by
    intro j hj i hi
    refine userKptr_congr hpd (by omega) fun a ha => hout j hj a ?_
    rintro i hi rfl
    exact (hbuf i hi).2 ha
  have hloop := copyLoop_spec (fun i kp m => Function.update m (kdst + i) (m kp)) pd uaddr 0 len
    (fun j => m.blit kdst j src) (by omega) (fun j hj => ?_) fun j hj => ?_
  · simpa only [Mem.blit_zero, Nat.zero_add, hsrc] using hloop
  · rw [hkp j (by omega) j (by omega)]
    obtain ⟨f, hf, hf0⟩ := hmapped j (by omega)
    exact (userKptr_of_mapped hf hf0).2
  · rw [hkp j (by omega) j (by omega), Mem.blit_succ, hout j (by omega), ← hsrc]
    rintro i hi heq
    exact (hbuf i hi).1 (heq ▸ userFrame_userKptr hsum hmapped (by omega))

lemma copyToLoop_spec (hsep : ∀ f, UserFrame m pd f → ¬ PagingFrame m pd f)
    (hbuf : ∀ i < len, ¬ UserFrame m pd ((ksrc + i) / pageSize)) :
    copyLoop (fun i kp m => Function.update m kp (m (ksrc + i))) pd uaddr len 0 m =
      (0, m.scatter (fun i => userKptr m pd (uaddr + i)) len fun i => m (ksrc + i)) := by
  obtain ⟨addr, haddr⟩ : ∃ addr : Nat → Nat, (fun i => userKptr m pd (uaddr + i)) = addr := ⟨_, rfl⟩
  obtain ⟨src, hsrc⟩ : ∃ src : Nat → UInt8, (fun i => m (ksrc + i)) = src := ⟨_, rfl⟩
  have haddr' : ∀ i, userKptr m pd (uaddr + i) = addr i := fun i => congrFun haddr i
  have huser : ∀ i < len, UserFrame m pd (addr i / pageSize) := by
    intro i hi
    rw [← haddr']
    exact userFrame_userKptr hsum hmapped hi
  have hout : ∀ j ≤ len, ∀ a, ¬ UserFrame m pd (a / pageSize) → m.scatter addr j src a = m a := by
    intro j hj a ha
    refine Mem.scatter_of_not_mem ?_
    rintro i hi rfl
    exact ha (huser i (by omega))
  have hkp : ∀ j < len, userKptr (m.scatter addr j src) pd (uaddr + j) = addr j := by
    intro j hj
    rw [← haddr']
    exact userKptr_congr hpd (by omega) fun a ha => hout j hj.le a fun hf => hsep _ hf ha
  have hloop := copyLoop_spec (fun i kp m => Function.update m kp (m (ksrc + i))) pd uaddr 0 len
    (fun j => m.scatter addr j src) (by omega) (fun j hj => ?_) fun j hj => ?_
  · simpa only [Mem.scatter, Nat.zero_add, haddr, hsrc] using hloop
  · rw [hkp j (by omega), ← haddr']
    obtain ⟨f, hf, hf0⟩ := hmapped j (by omega)
    exact (userKptr_of_mapped hf hf0).2
  · rw [hkp j (by omega), hout j (by omega) _ (hbuf j (by omega)), Mem.scatter, ← hsrc]

end Valid

/-- A directory at `0x400000` with one table: the pages at `0x800000` and `0x801000` have the
frames `0x403` and `0x402`. -/
def twoPages : Mem :=
  ((Mem.store32 (fun _ => 0) 0x400008 0x401007).store32 0x401000 0x403007).store32 0x401004 0x402007

lemma load32_twoPages {a : Nat} (ha : a % 4 = 0) :
    twoPages.load32 a = if a = 0x401004 then 0x402007 else if a = 0x401000 then 0x403007
      else if a = 0x400008 then 0x401007 else 0 := by
  rw [twoPages]
  split
  case isTrue h1 => rw [h1, Mem.load32_store32 (by decide)]
  case isFalse h1 =>
    rw [Mem.load32_store32_of_disjoint (by omega)]
    split
    case isTrue h2 => rw [h2, Mem.load32_store32 (by decide)]
    case isFalse h2 =>
      rw [Mem.load32_store32_of_disjoint (by omega)]
      split
      case isTrue h3 => rw [h3, Mem.load32_store32 (by decide)]
      case isFalse h3 =>
        rw [Mem.load32_store32_of_disjoint (by omega)]
        rfl

lemma pde_twoPages {di : Nat} (hdi : di < 1024) (hp : Present (pde twoPages 0x400000 di)) :
    pde twoPages 0x400000 di = 0x401007 := by
  rw [pde, load32_twoPages (by omega), if_neg (by omega), if_neg (by omega)] at hp ⊢
  split at hp
  case isTrue h => rw [if_pos h]
  case isFalse => exact absurd hp (by decide)

lemma userMapped_twoPages {vp f : Nat} (hvp : vp < 0x100000)
    (h : UserMapped twoPages 0x400000 vp f) : vp = 0x800 ∧ f = 0x403 ∨ vp = 0x801 ∧ f = 0x402 := by
  obtain ⟨hwalk, -⟩ := h
  obtain ⟨hd, ht, rfl⟩ := walk_some hwalk
  have hframe : frameAddr 0x401007 = 0x401000 := by decide
  have hdi : vp / 1024 = 2 := by
    rw [pde, load32_twoPages (by omega), if_neg (by omega), if_neg (by omega)] at hd
    split_ifs at hd
    · omega
    · exact absurd hd (by decide)
  rw [pte, pde_twoPages (by omega) hd, hframe, load32_twoPages (by omega)] at ht ⊢
  split_ifs at ht ⊢
  · exact .inr ⟨by omega, rfl⟩
  · exact .inl ⟨by omega, rfl⟩
  · exact absurd ht (by omega)
  · exact absurd ht (by decide)

lemma userFrame_twoPages {f : Nat} (h : UserFrame twoPages 0x400000 f) : f = 0x402 ∨ f = 0x403 := by
  obtain ⟨vp, hvp, hmapped⟩ := h
  have := userMapped_twoPages hvp hmapped
  omega

lemma pagingFrame_twoPages {f : Nat} (h : PagingFrame twoPages 0x400000 f) :
    f = 0x400 ∨ f = 0x401 := by
  obtain rfl | ⟨di, hdi, hp, rfl⟩ := h
  · exact .inl rfl
  · rw [pde_twoPages hdi hp]
    exact .inr rfl

end NullOS.Memory
