import NullOS.Memory.UserCopy

/-!
# The buffer of a system call

`sys_read` and `sys_write` move the caller's buffer in pieces, and every piece is checked and
resolved again.  What a piece changes are the array on the kernel's stack and the user's own frames,
so that every address stays as it was at the call.
-/

namespace NullOS.Memory

open Lib

/-- The directory and the tables are the same in both memories. -/
def SamePaging (m m' : Mem) (pd : Nat) : Prop := ∀ a, PagingFrame m pd (a / pageSize) → m' a = m a

/-- A range that `user_ptr_valid` accepts, of a process whose pages are apart from the directory and
the tables. -/
structure UserBuffer (m : Mem) (pd uaddr len : Nat) : Prop where
  aligned : pd % pageSize = 0
  sum : uaddr + len < 0x100000000
  mapped : ∀ i < len, ∃ f, UserMapped m pd ((uaddr + i) / pageSize) f ∧ f ≠ 0
  apart : ∀ f, UserFrame m pd f → ¬ PagingFrame m pd f

/-- An array of the kernel's: none of it is the user's, or part of the directory or the tables. -/
def KernelBuffer (m : Mem) (pd kbuf len : Nat) : Prop := ∀ i < len,
  ¬ UserFrame m pd ((kbuf + i) / pageSize) ∧ ¬ PagingFrame m pd ((kbuf + i) / pageSize)

def Unaliased (m : Mem) (pd : Nat) : Prop := ∀ vp < 0x100000, ∀ vp' < 0x100000, ∀ f,
  UserMapped m pd vp f → UserMapped m pd vp' f → vp = vp'

def bytesAt (m : Mem) (a len : Nat) : List UInt8 := (List.range len).map fun i => m (a + i)

def userBytes (m : Mem) (pd uaddr len : Nat) : List UInt8 :=
  (List.range len).map fun i => m (userKptr m pd (uaddr + i))

variable {m m' m'' : Mem} {pd uaddr len kbuf f i j a r vp n : Nat} {src : Nat → UInt8}

/-! ## The same directory and tables -/

namespace SamePaging

variable (h : SamePaging m m' pd) (hpd : pd % pageSize = 0)

include h hpd

lemma pde_eq {di : Nat} (hdi : di < 1024) : pde m' pd di = pde m pd di :=
  pde_congr hpd hdi fun a ha => h a (.inl ha)

lemma userMapped_iff (hvp : vp < 0x100000) : UserMapped m' pd vp f ↔ UserMapped m pd vp f := by
  have hpde := h.pde_eq hpd (by omega : vp / 1024 < 1024)
  have hpte : Present (pde m pd (vp / 1024)) →
      pte m' pd (vp / 1024) (vp % 1024) = pte m pd (vp / 1024) (vp % 1024) := fun hp =>
    pte_congr (Nat.mod_lt _ (by decide)) hpde fun a ha => h a (.inr ⟨_, by omega, hp, ha⟩)
  rw [UserMapped, UserMapped, walk_congr hpde hpte, hpde]
  refine and_congr_right fun hw => and_congr_right fun _ => ?_
  rw [hpte (walk_some hw).1]

lemma userFrame_iff : UserFrame m' pd f ↔ UserFrame m pd f :=
  exists_congr fun _ => and_congr_right fun hvp => h.userMapped_iff hpd hvp

lemma pagingFrame_iff : PagingFrame m' pd f ↔ PagingFrame m pd f := by
  refine or_congr_right (exists_congr fun di => and_congr_right fun hdi => ?_)
  rw [h.pde_eq hpd hdi]

lemma userKptr_eq (ha : a < 0x100000000) : userKptr m' pd a = userKptr m pd a :=
  userKptr_congr hpd ha h

lemma trans (h' : SamePaging m' m'' pd) : SamePaging m m'' pd := fun a ha =>
  (h' a ((h.pagingFrame_iff hpd).mpr ha)).trans (h a ha)

omit hpd in
lemma userBuffer (hb : UserBuffer m pd uaddr len) : UserBuffer m' pd uaddr len where
  aligned := hb.aligned
  sum := hb.sum
  mapped i hi := by
    have hsum := hb.sum
    obtain ⟨f, hf, hf0⟩ := hb.mapped i hi
    exact ⟨f, (h.userMapped_iff hb.aligned (by simp only [pageSize]; omega)).mpr hf, hf0⟩
  apart f hu hp := hb.apart f ((h.userFrame_iff hb.aligned).mp hu)
    ((h.pagingFrame_iff hb.aligned).mp hp)

lemma kernelBuffer (hk : KernelBuffer m pd kbuf len) : KernelBuffer m' pd kbuf len := fun i hi =>
  ⟨mt (h.userFrame_iff hpd).mp (hk i hi).1, mt (h.pagingFrame_iff hpd).mp (hk i hi).2⟩

lemma unaliased (hu : Unaliased m pd) : Unaliased m' pd := fun vp hvp vp' hvp' f hf hf' =>
  hu vp hvp vp' hvp' f ((h.userMapped_iff hpd hvp).mp hf) ((h.userMapped_iff hpd hvp').mp hf')

end SamePaging

lemma KernelBuffer.mono (h : KernelBuffer m pd kbuf len) (hn : n ≤ len) :
    KernelBuffer m pd kbuf n :=
  fun i hi => h i (by omega)

lemma KernelBuffer.samePaging (h : KernelBuffer m pd kbuf len) (src : Nat → UInt8) :
    SamePaging m (m.blit kbuf len src) pd := by
  intro a ha
  refine Mem.blit_of_not_mem ?_
  by_contra hin
  refine (h (a - kbuf) (by omega)).2 ?_
  rwa [Nat.add_sub_cancel' (by omega)]

/-! ## The pieces -/

namespace UserBuffer

variable (h : UserBuffer m pd uaddr len)

include h

lemma sub (ha : a + r ≤ len) : UserBuffer m pd (uaddr + a) r where
  aligned := h.aligned
  sum := by have := h.sum; omega
  mapped i hi := by
    have hm := h.mapped (a + i) (by omega)
    rwa [← Nat.add_assoc] at hm
  apart := h.apart

lemma valid (hlen : 0 < len) : userPtrValid m (some pd) uaddr len = some true := by
  have hsum := h.sum
  obtain ⟨b, hb, hspec⟩ := userPtrValid_spec m pd (by omega : uaddr < _) (by omega : len < _)
  rw [hb, hspec.mpr ⟨hlen, hsum, h.mapped⟩]

lemma copyToUser_eq (hk : KernelBuffer m pd kbuf len) (hlen : 0 < len) :
    copyToUser m (some pd) uaddr kbuf len =
      some (0, m.scatter (fun i => userKptr m pd (uaddr + i)) len fun i => m (kbuf + i)) := by
  rw [copyToUser, copyUser_of_valid (h.valid hlen),
    copyToLoop_spec h.aligned h.sum h.mapped h.apart fun i hi => (hk i hi).1]

lemma copyFromUser_eq (hk : KernelBuffer m pd kbuf len) (hlen : 0 < len) :
    copyFromUser m (some pd) kbuf uaddr len =
      some (0, m.blit kbuf len fun i => m (userKptr m pd (uaddr + i))) := by
  rw [copyFromUser, copyUser_of_valid (h.valid hlen), copyFromLoop_spec h.aligned h.sum h.mapped hk]

lemma samePaging (src : Nat → UInt8) :
    SamePaging m (m.scatter (fun i => userKptr m pd (uaddr + i)) len src) pd := by
  intro a ha
  refine Mem.scatter_of_not_mem ?_
  rintro i hi rfl
  exact h.apart _ (userFrame_userKptr h.sum h.mapped hi) ha

lemma userBytes_blit (hk : KernelBuffer m pd kbuf n) (src : Nat → UInt8) :
    userBytes (m.blit kbuf n src) pd uaddr len = userBytes m pd uaddr len := by
  have hsum := h.sum
  refine List.map_congr_left fun i hi => ?_
  have hi := List.mem_range.mp hi
  rw [(hk.samePaging src).userKptr_eq h.aligned (by omega)]
  refine Mem.blit_of_not_mem ?_
  by_contra hin
  refine (hk (userKptr m pd (uaddr + i) - kbuf) (by omega)).1 ?_
  rw [Nat.add_sub_cancel' (by omega)]
  exact userFrame_userKptr h.sum h.mapped hi

lemma userKptr_inj (hu : Unaliased m pd) (hi : i < len) (hj : j < len)
    (heq : userKptr m pd (uaddr + i) = userKptr m pd (uaddr + j)) : i = j := by
  have hsum := h.sum
  obtain ⟨f, hf, hf0⟩ := h.mapped i hi
  obtain ⟨f', hf', hf0'⟩ := h.mapped j hj
  rw [(userKptr_of_mapped hf hf0).1, (userKptr_of_mapped hf' hf0').1] at heq
  obtain rfl : f = f' := by
    simp only [pageSize] at heq
    omega
  have hpage := hu _ (by simp only [pageSize]; omega) _ (by simp only [pageSize]; omega) f hf hf'
  simp only [pageSize] at heq hpage
  omega

lemma userBytes_scatter (hu : Unaliased m pd) (ha : a + r ≤ len) (src : Nat → UInt8) :
    userBytes (m.scatter (fun i => userKptr m pd (uaddr + a + i)) r src) pd uaddr (a + r) =
      userBytes m pd uaddr a ++ (List.range r).map src := by
  have hsum := h.sum
  have hsame := (h.sub ha).samePaging src
  rw [userBytes, List.range_add, List.map_append, List.map_map]
  congr 1
  · refine List.map_congr_left fun i hi => ?_
    have hi := List.mem_range.mp hi
    rw [hsame.userKptr_eq h.aligned (by omega)]
    refine Mem.scatter_of_not_mem fun k hk heq => ?_
    rw [Nat.add_assoc] at heq
    have := h.userKptr_inj hu (by omega) (by omega) heq
    omega
  · refine List.map_congr_left fun i hi => ?_
    have hi := List.mem_range.mp hi
    rw [Function.comp_apply, hsame.userKptr_eq h.aligned (by omega), ← Nat.add_assoc]
    refine Mem.scatter_of_mem hi fun k hk heq => ?_
    exact (h.sub ha).userKptr_inj hu (by omega) hi heq

end UserBuffer

/-! ## A process with two pages -/

lemma twoPages_userBuffer : UserBuffer twoPages 0x400000 0x800000 200 where
  aligned := by decide
  sum := by decide
  mapped i hi := by
    refine ⟨0x403, ?_, by decide⟩
    rw [show (0x800000 + i) / pageSize = 0x800 by simp only [pageSize]; omega]
    exact ⟨by decide +kernel, by decide +kernel, by decide +kernel⟩
  apart f hu hp := by
    have := userFrame_twoPages hu
    have := pagingFrame_twoPages hp
    omega

lemma twoPages_kernelBuffer : KernelBuffer twoPages 0x400000 0x10000 128 := by
  intro i hi
  constructor
  · intro hu
    have := userFrame_twoPages hu
    simp only [pageSize] at this
    omega
  · intro hp
    have := pagingFrame_twoPages hp
    simp only [pageSize] at this
    omega

lemma twoPages_unaliased : Unaliased twoPages 0x400000 := by
  intro vp hvp vp' hvp' f hf hf'
  have := userMapped_twoPages hvp hf
  have := userMapped_twoPages hvp' hf'
  omega

end NullOS.Memory
