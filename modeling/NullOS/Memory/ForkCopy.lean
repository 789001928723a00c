import NullOS.Memory.Fork
import NullOS.Memory.ElfPlace
import NullOS.Kernel.State

/-!
# `process_fork` as a whole

The child of a fork has a copy of every page of its parent, in frames that nobody used before.  If
memory runs out on the way, the pages and the directory built so far are given back, each of them
once, and only the page tables stay marked.
-/

namespace NullOS.Memory

open Lib

variable {s t : Phys} {own : Own} {parent child q f : Nat}

/-- `process_fork`: the child's slot, the process table and the memory. -/
def processFork (k : Kernel) (s : Phys) (parent : Nat) : Option Nat × Kernel × Phys :=
  match k.freeSlot with
  | none => (none, k, s)
  | some _ =>
      let (dir, t) := forkAddressSpace s (k.procs parent).cr3
      let (slot, k') := k.processFork parent dir
      (slot, k', t)

/-- An address space all of whose frames are marked as used. -/
structure Occupied (s : Phys) (pd : Nat) : Prop where
  aligned : pd % pageSize = 0
  marked : ∀ x f, Holds s.mem pd x f → f < s.pmm.total ∧ s.pmm.bitmap f = true

/-- What was in use is in use and has not been written. -/
structure Kept (s t : Phys) : Prop where
  marked : ∀ q, s.pmm.bitmap q = true → t.pmm.bitmap q = true
  mem : ∀ a, s.pmm.bitmap (a / pageSize) = true → t.mem a = s.mem a

/-- `child` is a copy of what `parent` was in `s`. -/
structure ForkCopy (s t : Phys) (parent child : Nat) : Prop where
  kept : Kept s t
  pages : ∀ vp, 2048 ≤ vp → vp < 0x100000 →
    (walk t.mem child vp = none ↔ walk s.mem parent vp = none)
  bytes : ∀ vp f, Holds s.mem parent (.page vp) f → ∃ g, Holds t.mem child (.page vp) g ∧
    ∀ i < pageSize, t.mem (g * pageSize + i) = s.mem (f * pageSize + i)
  distinct : ∀ x y f, Holds t.mem child x f → Holds t.mem child y f → x = y
  fresh : ∀ x f, Holds t.mem child x f → s.pmm.bitmap f = false ∧ t.pmm.bitmap f = true
  kernel : pde t.mem child 0 = pde s.mem pageDirAddr 0 ∧ pde t.mem child 1 = pde s.mem pageDirAddr 1

/-- The attempt to build `child` has been undone: what is marked now and was not before are its
tables, and what was freed was new and was freed once. -/
structure ForkUndone (s t : Phys) (child : Nat) : Prop where
  kept : Kept s t
  marked : ∀ q, t.pmm.bitmap q = true ↔ s.pmm.bitmap q = true ∨ TableOf t.mem child q
  once : (freedPages t.mem child).Nodup
  fresh : ∀ a ∈ freedPages t.mem child, s.pmm.bitmap (a / pageSize) = false

/-! ## The books of a fork -/

def usedBooks (p : Pmm) : Own := fun q =>
  if q < p.total ∧ p.bitmap q = true then some .heap else none

lemma usedBooks_of_used {p : Pmm} (hlt : q < p.total) (hq : p.bitmap q = true) :
    usedBooks p q = some .heap := if_pos ⟨hlt, hq⟩

lemma usedBooks_some {p : Pmm} {r : Role} (h : usedBooks p q = some r) :
    r = .heap ∧ q < p.total ∧ p.bitmap q = true := by
  rw [usedBooks] at h
  split at h
  case isTrue hq => exact ⟨(Option.some.inj h).symm, hq⟩
  case isFalse => simp at h

lemma marked_usedBooks (p : Pmm) : Marked p (usedBooks p) := by
  intro q hq
  obtain ⟨r, hr⟩ := Option.ne_none_iff_exists'.mp hq
  exact (usedBooks_some hr).2

lemma not_paging_heap (pd : Nat) : ¬ Role.heap.Paging pd := by
  rintro (h | ⟨di, h⟩) <;> cases h

lemma Occupied.safeDir (h : Occupied s parent) (child : Nat) :
    SafeDir (usedBooks s.pmm) child s.mem parent :=
  ⟨h.aligned, fun x f hx => ⟨.heap, usedBooks_of_used (h.marked x f hx).1 (h.marked x f hx).2,
    not_paging_heap child⟩⟩

lemma Grows.kept (hg : Grows (Role.Paging child) s t (usedBooks s.pmm) own) : Kept s t := by
  refine ⟨hg.bits, fun a ha => ?_⟩
  by_contra hne
  obtain hfree | ⟨r, hr, hp, -⟩ := hg.writes a hne
  · exact absurd (hfree.symm.trans ha) (by simp)
  · rw [(usedBooks_some hr).1] at hp
    exact not_paging_heap child hp

lemma Grows.fresh_of_holds {x : Part} (hg : Grows (Role.Paging child) s t (usedBooks s.pmm) own)
    (hmk : Marked t.pmm own) (hsp : Space t.mem own child) (hx : Holds t.mem child x f) :
    s.pmm.bitmap f = false ∧ t.pmm.bitmap f = true := by
  have hrole := hsp.role_of_holds hx
  obtain ⟨hlt, hused⟩ := hmk f (by simp [hrole])
  refine ⟨?_, hused⟩
  by_contra hold
  rw [hg.total] at hlt
  have hheap := usedBooks_of_used hlt (by simpa using hold)
  rw [hg.keeps f (by simp [hheap]), hheap] at hrole
  cases x <;> simp [Part.role] at hrole

/-! ## Success and failure -/

lemma copied_pages {m₀ m : Mem} {src : Option Nat} {vp : Nat} (h : Copied m₀ m child src vp) :
    walk m child vp = none ↔ src = none := by
  cases src with
  | none => exact ⟨fun _ => rfl, fun _ => h⟩
  | some f =>
    obtain ⟨g, hg, -⟩ := h
    simp [hg]

lemma holds_of_freed {m : Mem} {a : Nat} (ha : a ∈ freedPages m child) :
    ∃ x, Holds m child x (a / pageSize) ∧ ∀ di, x ≠ .table di := by
  rcases mem_freedPages.mp ha with rfl | ⟨vp, f, hf, rfl⟩
  · exact ⟨.dir, rfl, nofun⟩
  · rw [Nat.mul_div_cancel _ (by decide)]
    exact ⟨.page vp, hf, nofun⟩

lemma freed_of_holds {m : Mem} {x : Part} (hx : Holds m child x q) :
    (∃ a ∈ freedPages m child, a / pageSize = q) ∨ TableOf m child q := by
  cases x with
  | dir => exact .inl ⟨child, mem_freedPages.mpr (.inl rfl), hx⟩
  | table di => exact .inr ⟨di, hx⟩
  | page vp =>
    exact .inl ⟨q * pageSize, mem_freedPages.mpr (.inr ⟨vp, q, hx, rfl⟩),
      Nat.mul_div_cancel _ (by decide)⟩

/-- **The unwinding** of a directory whose parts are all that was taken. -/
lemma forkFreeAddressSpace_undone (hg : Grows (Role.Paging child) s t (usedBooks s.pmm) own)
    (hmk : Marked t.pmm own) (hsp : Space t.mem own child)
    (hnew : ∀ q, t.pmm.bitmap q = true → s.pmm.bitmap q = true ∨ ∃ x, Holds t.mem child x q) :
    ForkUndone s (forkFreeAddressSpace t child) child := by
  have hbit : ∀ q, (forkFreeAddressSpace t child).pmm.bitmap q = true ↔ t.pmm.bitmap q = true ∧
      ∀ a ∈ freedPages t.mem child, a / pageSize = q → t.pmm.total ≤ q := by
    intro q
    rw [forkFreeAddressSpace_pmm]
    exact (freeAll_bitmap _ _ q).2
  have hfresh : ∀ a ∈ freedPages t.mem child, s.pmm.bitmap (a / pageSize) = false := by
    intro a ha
    obtain ⟨x, hx, -⟩ := holds_of_freed ha
    exact (hg.fresh_of_holds hmk hsp hx).1
  have hold : ∀ q, s.pmm.bitmap q = true → (forkFreeAddressSpace t child).pmm.bitmap q = true := by
    intro q hq
    refine (hbit q).mpr ⟨hg.bits q hq, fun a ha haq => ?_⟩
    have hfree := hfresh a ha
    rw [haq, hq] at hfree
    simp at hfree
  refine ⟨⟨hold, hg.kept.mem⟩, fun q => ⟨fun hq => ?_, ?_⟩, nodup_freedPages hsp, hfresh⟩
  · obtain ⟨hused, hkeep⟩ := (hbit q).mp hq
    obtain hq | ⟨x, hx⟩ := hnew q hused
    · exact .inl hq
    · obtain ⟨a, ha, haq⟩ | htable := freed_of_holds hx
      · have hrole := hsp.role_of_holds hx
        have hlt := (hmk q (by simp [hrole])).1
        have hle := hkeep a ha haq
        omega
      · exact .inr htable
  · rintro (hq | ⟨di, hdi⟩)
    · exact hold q hq
    · have hrole := hsp.role_of_holds (x := .table di) hdi
      refine (hbit q).mpr ⟨(hmk q (by simp [hrole])).2, fun a ha haq => ?_⟩
      obtain ⟨x, hx, hne⟩ := holds_of_freed ha
      rw [haq] at hx
      have heq := hrole.symm.trans (hsp.role_of_holds hx)
      exact absurd (Part.role_inj (Option.some.inj heq)).symm (hne di)

/-- **The address space of the child.**  Either it is a copy of the parent's, or there is no child
and what was built has been taken down again. -/
lemma forkAddressSpace_spec (hman : Managed s.pmm) (hpar : Occupied s parent) :
    (∃ child t, forkAddressSpace s parent = (some child, t) ∧ ForkCopy s t parent child) ∨
      ∃ t, forkAddressSpace s parent = (none, t) ∧
        (t = s ∨ ForkUndone s t (vmmCreateDirectory s).1) := by
  rw [forkAddressSpace]
  obtain hfail | ⟨q, m, hqlo, -, hqt, hfree, heq, hframe, hlow, hhigh, hempty⟩ :=
    vmmCreateDirectory_cases hman
  · rw [hfail]
    exact .inr ⟨s, rfl, .inl rfl⟩
  · have hz : ¬ q * pageSize = 0 := by simp only [pageSize]; omega
    have hdiv : q * pageSize / pageSize = q := Nat.mul_div_cancel _ (by decide)
    have hmk₀ := marked_usedBooks s.pmm
    have hg₀ : Grows (Role.Paging (q * pageSize)) s { s with pmm := s.pmm.take q, mem := m }
        (usedBooks s.pmm) (Function.update (usedBooks s.pmm) q (some (.dir (q * pageSize)))) :=
      .take hfree _ hmk₀ fun a ha => .inl (by
        by_contra hne
        exact ha (hframe a hne))
    have hsp₀ : Space m (Function.update (usedBooks s.pmm) q (some (.dir (q * pageSize))))
        (q * pageSize) :=
      .of_empty (Nat.mul_mod_left q pageSize) (by rw [hdiv, Function.update_self])
        fun di hlo hhi => by
          rw [hempty di hlo hhi]
          decide
    have hnone : ∀ k, 2048 ≤ k → k < 0x100000 → walk m (q * pageSize) k = none := fun k hlo hhi =>
      if_neg fun hp => by
        rw [hempty _ (by omega) (by omega)] at hp
        exact absurd hp.1 (by decide)
    obtain ⟨ok, u, own, heq', hg', hmk, hsp, hgains, -, hcopied⟩ :=
      forkDirectory_spec (s := { s with pmm := s.pmm.take q, mem := m }) parent hsp₀
        (hmk₀.take hqt _) (hman.take q) mem_userEntries nodup_userEntries
        fun k hlo hhi _ => hnone k hlo hhi
    have hg := hg₀.trans hg'
    rw [heq]
    dsimp only
    rw [if_neg hz, heq']
    cases ok with
    | true =>
      refine .inl ⟨_, u, rfl, ?_⟩
      have hsafe := hpar.safeDir (q * pageSize)
      have hcopy : ∀ k, 2048 ≤ k → k < 0x100000 →
          Copied s.mem u.mem (q * pageSize) (walk s.mem parent k) k := by
        intro k hlo hhi
        have hcop := hcopied rfl (hsafe.of_grows hmk₀ hg₀) k hlo hhi
          (between_mem_userEntries (by omega) (by omega))
        rw [(hsafe.eq hmk₀ hg₀).2 k hlo hhi] at hcop
        exact hcop.of_source (fun f hf => hsafe.safe (.page k) f ⟨hlo, hhi, hf⟩) hmk₀ hg₀
      have hpde : ∀ di < 2, pde u.mem (q * pageSize) di = pde m (q * pageSize) di := fun di hdi =>
        hsp₀.low_pde hg' (hmk₀.take hqt _) hdi
      refine ⟨hg.kept, fun vp hlo hhi => copied_pages (hcopy vp hlo hhi), fun vp f hf => ?_,
        fun x y f hx hy => ?_, fun x f hx => hg.fresh_of_holds hmk hsp hx,
        (hpde 0 (by omega)).trans hlow, (hpde 1 (by omega)).trans hhigh⟩
      · obtain ⟨hlo, hhi, hw⟩ := hf
        have hcop := hcopy vp hlo hhi
        rw [hw] at hcop
        obtain ⟨g, hgw, hbytes⟩ := hcop
        exact ⟨g, ⟨hlo, hhi, hgw⟩, hbytes⟩
      · have hrole := (hsp.role_of_holds hx).symm.trans (hsp.role_of_holds hy)
        exact Part.role_inj (Option.some.inj hrole)
    | false =>
      refine .inr ⟨_, rfl, .inr (forkFreeAddressSpace_undone hg hmk hsp fun x hx => ?_)⟩
      obtain hx | hx := hgains.marked x hx
      · by_cases hxq : x = q
        · exact .inr ⟨.dir, hdiv.trans hxq.symm⟩
        · left
          rwa [← Pmm.take_bitmap_of_ne hxq]
      · exact .inr hx

/-- **Fork copies the address space exactly.**  If there is a child, its slot was free, and its
directory has the parent's pages with the parent's bytes, in frames that were all free.  If there is
none, no slot is taken, and if memory ran out, the frames marked now are those marked before and the
page tables of the directory that was given up.  Nothing that was in use has been written. -/
theorem processFork_copies (k : Kernel) (s : Phys) (parent : Nat) (hman : Managed s.pmm)
    (hpar : Occupied s (k.procs parent).cr3) (hlive : (k.procs parent).state ≠ .unused) :
    match processFork k s parent with
    | (some child, k', t) => (k.procs child).state = .unused ∧ k'.procs parent = k.procs parent ∧
        ForkCopy s t (k.procs parent).cr3 (k'.procs child).cr3
    | (none, k', t) =>
        (∀ i, (k'.procs i).state = .unused ↔ (k.procs i).state = .unused) ∧
          k'.procs parent = k.procs parent ∧ (t = s ∨ ForkUndone s t (vmmCreateDirectory s).1) := by
  rw [processFork]
  cases hslot : k.freeSlot with
  | none => exact ⟨fun _ => Iff.rfl, rfl, .inl rfl⟩
  | some slot =>
    have hunused : (k.procs slot).state = .unused := by
      simpa using List.find?_some hslot
    have hne : parent ≠ slot := by
      rintro rfl
      exact hlive hunused
    obtain ⟨child, t, heq, hcopy⟩ | ⟨t, heq, hundone⟩ := forkAddressSpace_spec hman hpar
    · have hfork : (k.processFork parent (some child)).1 = some slot ∧
          ((k.processFork parent (some child)).2.procs slot).cr3 = child := by
        simp [Kernel.processFork, Kernel.forkClaim, hslot]
      obtain ⟨-, -, -, hother⟩ := Kernel.processFork_some parent (some child) hfork.1
      rw [heq]
      dsimp only
      rw [hfork.1]
      exact ⟨hunused, hother parent hne, hfork.2.symm ▸ hcopy⟩
    · have hfork : (k.processFork parent none).1 = none ∧
          (k.processFork parent none).2.procs parent = k.procs parent := by
        simp [Kernel.processFork, Kernel.forkClaim, hslot, Kernel.setProc, Kernel.allocPid, hne]
      rw [heq]
      dsimp only
      rw [hfork.1]
      exact ⟨Kernel.processFork_none parent none hfork.1, hfork.2, hundone⟩

/-! ## A fork -/

lemma occupied_of_space (hsp : Space s.mem own parent) (hmk : Marked s.pmm own) :
    Occupied s parent :=
  ⟨hsp.aligned, fun _ f hx => hmk f (by simp [hsp.role_of_holds hx])⟩

def loadedMachine : Phys := (elfLoad freshMachine 0x400000 alignedFile).2

def oneProcess : Kernel :=
  { Kernel.boot with
    procs := fun i => if i = 0 then { Proc.init with pid := 1, state := .running, cr3 := 0x400000 }
      else Proc.init }

lemma loadedMachine_occupied : Managed loadedMachine.pmm ∧ Occupied loadedMachine 0x400000 := by
  obtain ⟨hsp, hmk⟩ := freshMachine_newDir.space
  have hal : ∀ ph ∈ copied freshMachine 0x400000 alignedFile, ph.Aligned := by decide +kernel
  obtain ⟨own', hg, hmk', hsp'⟩ := elfLoad_grows hsp hmk freshMachine_managed hal
  rw [loadedMachine]
  exact ⟨hg.managed freshMachine_managed, occupied_of_space hsp' hmk'⟩

/-- The process has two pages, and its child in slot 1 has copies of them. -/
theorem processFork_copies_loaded :
    walk loadedMachine.mem 0x400000 0x800 ≠ none ∧ walk loadedMachine.mem 0x400000 0x801 ≠ none ∧
      ∃ k' t, processFork oneProcess loadedMachine 0 = (some 1, k', t) ∧
        ForkCopy loadedMachine t 0x400000 (k'.procs 1).cr3 := by
  have hpages : walk loadedMachine.mem 0x400000 0x800 ≠ none ∧
      walk loadedMachine.mem 0x400000 0x801 ≠ none := by decide +kernel
  have hchild : (processFork oneProcess loadedMachine 0).1 = some 1 := by decide +kernel
  obtain ⟨hman, hocc⟩ := loadedMachine_occupied
  refine ⟨hpages.1, hpages.2, ?_⟩
  -- nothing below looks into the memory
  generalize loadedMachine = s at hman hocc hchild ⊢
  have hcopy := processFork_copies oneProcess s 0 hman hocc (by decide)
  generalize processFork oneProcess s 0 = r at hcopy hchild ⊢
  obtain ⟨child, k', t⟩ := r
  obtain rfl : child = some 1 := hchild
  exact ⟨k', t, rfl, hcopy.2.2⟩

end NullOS.Memory
