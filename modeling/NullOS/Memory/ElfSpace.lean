import NullOS.Memory.Elf
import NullOS.Memory.NewPage

/-!
# The address space that `elf_load` builds

What a directory makes of the physical memory is a partial function from virtual addresses to bytes,
`peek`.  On it, loading a segment that starts on a page boundary is one update, `placeSegment`.
-/

namespace NullOS.Memory

open Lib

variable {s t : Phys} {m m' : Mem} {own own' : Own} {pd vp q f a n copied : Nat} {r : Role}
  {W : Role → Prop} {img : List UInt8} {ph : Phdr}

def peek (m : Mem) (pd a : Nat) : Option UInt8 :=
  (walk m pd (a / pageSize)).map fun f => m (f * pageSize + a % pageSize)

def UserAddr (a : Nat) : Prop := 2048 ≤ a / pageSize ∧ a / pageSize < 0x100000

lemma peek_congr (hwalk : walk m' pd (a / pageSize) = walk m pd (a / pageSize))
    (hm : ∀ f, walk m pd (a / pageSize) = some f →
      m' (f * pageSize + a % pageSize) = m (f * pageSize + a % pageSize)) :
    peek m' pd a = peek m pd a := by
  rw [peek, peek, hwalk]
  cases hw : walk m pd (a / pageSize) with
  | none => rfl
  | some f => simp [hm f hw]

lemma frame_div (f a : Nat) : (f * pageSize + a % pageSize) / pageSize = f := by
  simp only [pageSize]
  omega

/-! ## Mapping the pages -/

/-- Between the two states `pd` gets no user pages other than those in `P`. -/
def MapsOnly (P : Nat → Prop) (s t : Phys) (pd : Nat) : Prop :=
  ∀ k, 2048 ≤ k → k < 0x100000 → walk t.mem pd k ≠ none → walk s.mem pd k ≠ none ∨ P k

lemma MapsOnly.refl (P : Nat → Prop) (s : Phys) (pd : Nat) : MapsOnly P s s pd :=
  fun _ _ _ hk => .inl hk

lemma MapsOnly.trans {P : Nat → Prop} {u : Phys} (h : MapsOnly P s t pd) (h' : MapsOnly P t u pd) :
    MapsOnly P s u pd := fun k hlo hhi hk =>
  (h' k hlo hhi hk).elim (h k hlo hhi) .inr

lemma MapsOnly.mono {P P' : Nat → Prop} (h : MapsOnly P s t pd) (hP : ∀ k, P k → P' k) :
    MapsOnly P' s t pd := fun k hlo hhi hk => (h k hlo hhi hk).imp_right (hP k)

lemma Space.mapsOnly (h : Space s.mem own pd) (P : Nat → Prop)
    (hm : ∀ a r, own (a / pageSize) = some r → r.Paging pd → t.mem a = s.mem a) :
    MapsOnly P s t pd := by
  intro k hlo hhi hk
  rw [h.walk_eq hm hlo hhi] at hk
  exact .inl hk

lemma mapPages_succ (s : Phys) (pd va n : Nat) :
    mapPages s pd va (n + 1) =
      match mapNewPage (fun m phys => m.fill phys pageSize 0) s pd va with
      | (true, t) => mapPages t pd (va + pageSize) n
      | (false, t) => (false, t) := by
  rw [mapPages, mapNewPage]
  rcases s.pmm.pmmAllocPage with ⟨phys, pmm⟩
  by_cases hz : phys = 0
  · simp only [hz, if_true]
  · simp only [hz, if_false]
    rcases vmmMapUserPage { s with pmm, mem := s.mem.fill phys pageSize 0 } pd va phys with
      ⟨_ | _ | _, t⟩
    all_goals rfl

/-- **What the mapping loop does**: whether it ends or runs out of memory, the directory keeps
to the books; when it ends, its pages show zeros and the others what they showed. -/
lemma mapPages_spec (n : Nat) (h : Space s.mem own pd) (hmk : Marked s.pmm own)
    (hman : Managed s.pmm) (hlo : 2048 ≤ vp) (hhi : vp + n ≤ 0x100000) :
    ∃ ok t own', mapPages s pd (vp * pageSize) n = (ok, t) ∧
      Grows (Role.Paging pd) s t own own' ∧ Marked t.pmm own' ∧ Space t.mem own' pd ∧
      MapsOnly (fun k => vp ≤ k ∧ k < vp + n) s t pd ∧
      (ok = true → Tidy s t own' ∧ ∀ a, UserAddr a → peek t.mem pd a =
        if vp ≤ a / pageSize ∧ a / pageSize < vp + n then some 0 else peek s.mem pd a) := by
  induction n generalizing s own vp with
  | zero =>
    refine ⟨true, s, own, rfl, .refl _ s own, hmk, h, .refl _ s pd,
      fun _ => ⟨fun _ ha => absurd rfl ha, fun a _ => ?_⟩⟩
    rw [if_neg (by omega)]
  | succ n ih =>
    have hfill : ∀ q a, a / pageSize ≠ q → s.mem.fill (q * pageSize) pageSize 0 a = s.mem a := by
      intro q a ha
      refine Mem.fill_of_not_mem ?_
      simp only [pageSize] at ha ⊢
      omega
    rw [mapPages_succ]
    obtain ⟨t, heq, hg, hmk', hspace, -⟩ |
        ⟨q, t, own₁, heq, hg, htidy, hmk', hspace, -, hwalk, hq⟩ :=
      mapNewPage_spec (fun m phys => m.fill phys pageSize 0) h hmk hman hlo (by omega) hfill
    · rw [heq]
      refine ⟨false, t, own, rfl, hg.mono fun _ hf => hf.elim, hmk', hspace,
        h.mapsOnly _ fun a r hr _ => hg.content hmk hr id, by simp⟩
    · have hlo' : 2048 ≤ vp + 1 := by omega
      have hhi' : vp + 1 + n ≤ 0x100000 := by omega
      obtain ⟨ok, t', own₂, heq', hg', hmk₂, hspace₂, hmaps, hpeek⟩ :=
        ih hspace hmk' (hg.managed hman) hlo' hhi'
      rw [heq]
      refine ⟨ok, t', own₂, ?_, hg.trans hg', hmk₂, hspace₂,
        .trans (fun k hlo hhi hk => ?_) (hmaps.mono fun k hk => by omega),
        fun hok => ⟨htidy.trans (hpeek hok).1 hg'.keeps, fun a ha => ?_⟩⟩
      · rw [Nat.add_mul, Nat.one_mul] at heq'
        exact heq'
      · rw [hwalk k hlo hhi] at hk
        split at hk
        · right
          omega
        · exact .inl hk
      · rw [(hpeek hok).2 a ha]
        by_cases hin : vp + 1 ≤ a / pageSize ∧ a / pageSize < vp + 1 + n
        · rw [if_pos hin, if_pos (by omega)]
        · rw [if_neg hin]
          by_cases hav : a / pageSize = vp
          · -- the page that has just been mapped
            rw [if_pos (by omega), peek, hwalk _ ha.1 ha.2, if_pos hav, Option.map_some,
              hq _ (frame_div _ _)]
            refine congrArg some (Mem.fill_of_mem (by omega) ?_)
            have := Nat.mod_lt a (show 0 < pageSize by decide)
            omega
          · rw [if_neg (by omega)]
            refine peek_congr (by rw [hwalk _ ha.1 ha.2, if_neg hav]) fun f hf => ?_
            refine hg.content hmk ?_ (not_paging_user pd pd (a / pageSize))
            rw [frame_div]
            exact h.page _ f ha.1 ha.2 hf

/-! ## Copying the file data -/

lemma Space.blit (h : Space m own pd) (len : Nat) (src : Nat → UInt8) (hlo : 2048 ≤ vp)
    (hhi : vp < 0x100000) (hw : walk m pd vp = some f) (hlen : len ≤ pageSize) :
    let m' := m.blit (f * pageSize) len src
    Space m' own pd ∧
      (∀ k, 2048 ≤ k → k < 0x100000 → walk m' pd k = walk m pd k) ∧
      (∀ a, m' a ≠ m a → own (a / pageSize) = some (.user pd vp)) ∧
      ∀ a, UserAddr a → peek m' pd a =
        if vp * pageSize ≤ a ∧ a < vp * pageSize + len then some (src (a - vp * pageSize))
        else peek m pd a := by
  intro m'
  have hf := h.page vp f hlo hhi hw
  have hwrite : ∀ a, m' a ≠ m a → own (a / pageSize) = some (.user pd vp) := by
    intro a ha
    have haf : a / pageSize = f := by
      by_contra hne
      refine ha (Mem.blit_of_not_mem ?_)
      simp only [pageSize] at hne hlen ⊢
      omega
    rw [haf, hf]
  have hsame : ∀ a r, own (a / pageSize) = some r → r.Paging pd → m' a = m a := by
    intro a r hr hp
    by_contra hne
    rw [hwrite a hne] at hr
    cases hr
    exact not_paging_user _ _ _ hp
  have hwalk : ∀ k, 2048 ≤ k → k < 0x100000 → walk m' pd k = walk m pd k := fun k hklo hkhi =>
    h.walk_eq hsame hklo hkhi
  refine ⟨h.congr hsame fun _ _ => rfl, hwalk, hwrite, fun a ha => ?_⟩
  by_cases hav : a / pageSize = vp
  · rw [peek, peek, hwalk _ ha.1 ha.2, hav, hw, Option.map_some, Option.map_some]
    have hsplit : vp * pageSize + a % pageSize = a := by
      rw [← hav, Nat.mul_comm]
      exact Nat.div_add_mod a pageSize
    by_cases hin : vp * pageSize ≤ a ∧ a < vp * pageSize + len
    · rw [if_pos hin]
      refine congrArg some ((Mem.blit_of_mem (by omega) (by omega)).trans (congrArg src ?_))
      omega
    · rw [if_neg hin]
      exact congrArg some (Mem.blit_of_not_mem (by omega))
  · -- another page has another frame
    have hout : ¬ (vp * pageSize ≤ a ∧ a < vp * pageSize + len) := by
      simp only [pageSize] at hav hlen ⊢
      omega
    rw [if_neg hout]
    refine peek_congr (hwalk _ ha.1 ha.2) fun g hg => ?_
    by_contra hne
    have hrole := hwrite _ hne
    rw [frame_div, h.page _ g ha.1 ha.2 hg] at hrole
    exact hav (Role.user.inj (Option.some.inj hrole)).2

/-- **What the copy loop does** for a segment that starts on a page boundary and whose pages are
mapped. -/
lemma copySegment_spec (fuel : Nat) (h : Space m own pd) (hlo : 0x800000 ≤ ph.vaddr)
    (hhi : ph.vaddr + ph.filesz ≤ 0x100000000)
    (himg : ph.filesz ≠ 0 → ph.offset + ph.filesz ≤ img.length)
    (hmap : ∀ k, ph.vaddr / pageSize ≤ k → k * pageSize < ph.vaddr + ph.filesz →
      walk m pd k ≠ none)
    (hc : copied ≤ ph.filesz) (hfuel : ph.filesz ≤ copied + fuel)
    (hal : copied < ph.filesz → (ph.vaddr + copied) % pageSize = 0) {A : Nat → Prop}
    (hA : ∀ a vp, A a → own (a / pageSize) ≠ some (.user pd vp)) :
    ∃ m', copySegment img pd ph fuel m copied = some m' ∧ CopyAvoids A pd img ph fuel m copied ∧
      Space m' own pd ∧
      (∀ a, m' a ≠ m a → ∃ vp, own (a / pageSize) = some (.user pd vp)) ∧
      ∀ a, UserAddr a → peek m' pd a =
        if ph.vaddr + copied ≤ a ∧ a < ph.vaddr + ph.filesz then
          some (bytesOf img (ph.offset + (a - ph.vaddr)))
        else peek m pd a := by
  induction fuel generalizing m copied with
  | zero =>
    refine ⟨m, rfl, trivial, h, fun a ha => absurd rfl ha, fun a _ => ?_⟩
    rw [if_neg (by omega)]
  | succ fuel ih =>
    by_cases hlt : copied < ph.filesz
    · have hal' := hal hlt
      obtain ⟨f, hf⟩ := Option.ne_none_iff_exists'.mp
        (hmap ((ph.vaddr + copied) / pageSize) (by simp only [pageSize]; omega)
          (by simp only [pageSize] at hal' ⊢; omega))
      have hchunk : min (pageSize - (ph.vaddr + copied) % pageSize) (ph.filesz - copied) =
          min pageSize (ph.filesz - copied) := by rw [hal', Nat.sub_zero]
      have hphys : vmmGetPhysFromDir m pd (ph.vaddr + copied) = f * pageSize := by
        simp [vmmGetPhysFromDir_eq, hf, hal']
      have hin : inImage img (ph.offset + copied) (min pageSize (ph.filesz - copied)) := by
        have := himg (by omega)
        simp only [inImage, decide_eq_true_eq]
        omega
      have hva : (ph.vaddr + copied) / pageSize * pageSize = ph.vaddr + copied := by
        simp only [pageSize] at hal' ⊢
        omega
      obtain ⟨hspace, hwalk, hwrite, hpeek⟩ := h.blit
        (min pageSize (ph.filesz - copied)) (fun i => bytesOf img (ph.offset + copied + i))
        (by simp only [pageSize]; omega) (by simp only [pageSize]; omega) hf (Nat.min_le_left _ _)
      have hmap' : ∀ k, ph.vaddr / pageSize ≤ k → k * pageSize < ph.vaddr + ph.filesz →
          walk (m.blit (f * pageSize) (min pageSize (ph.filesz - copied))
            fun i => bytesOf img (ph.offset + copied + i)) pd k ≠ none := by
        intro k hk hk'
        rw [hwalk k (by simp only [pageSize] at hk; omega) (by simp only [pageSize] at hk'; omega)]
        exact hmap k hk hk'
      have hc' : copied + min pageSize (ph.filesz - copied) ≤ ph.filesz := by omega
      have hfuel' : ph.filesz ≤ copied + min pageSize (ph.filesz - copied) + fuel := by
        simp only [pageSize]
        omega
      have hal'' : copied + min pageSize (ph.filesz - copied) < ph.filesz →
          (ph.vaddr + (copied + min pageSize (ph.filesz - copied))) % pageSize = 0 := by
        simp only [pageSize] at hal' ⊢
        omega
      obtain ⟨m', heq, havoid, hspace', hwrite', hpeek'⟩ := ih hspace hmap' hc' hfuel' hal''
      refine ⟨m', ?_, fun _ => ?_, hspace', fun a ha => ?_, fun a ha => ?_⟩
      · rw [copySegment, if_pos hlt]
        dsimp only
        rw [hchunk, hphys, hal', if_pos hin, Nat.add_zero]
        exact heq
      · dsimp only
        rw [hchunk, hphys, hal', Nat.add_zero]
        refine ⟨fun i hi ha => hA _ ((ph.vaddr + copied) / pageSize) ha ?_, havoid⟩
        rw [show (f * pageSize + i) / pageSize = f by simp only [pageSize] at hi ⊢; omega]
        exact h.page _ f (by simp only [pageSize]; omega) (by simp only [pageSize]; omega) hf
      · by_cases hne : m' a = m.blit (f * pageSize) (min pageSize (ph.filesz - copied))
            (fun i => bytesOf img (ph.offset + copied + i)) a
        · rw [hne] at ha
          exact ⟨_, hwrite a ha⟩
        · exact hwrite' a hne
      · rw [hpeek' a ha, hpeek a ha, hva]
        by_cases h1 : ph.vaddr + (copied + min pageSize (ph.filesz - copied)) ≤ a ∧
            a < ph.vaddr + ph.filesz
        · rw [if_pos h1, if_pos (by omega)]
        · rw [if_neg h1]
          by_cases h2 : ph.vaddr + copied ≤ a ∧
              a < ph.vaddr + copied + min pageSize (ph.filesz - copied)
          · rw [if_pos h2, if_pos (by omega)]
            refine congrArg (fun i => some (bytesOf img i)) ?_
            omega
          · rw [if_neg h2, if_neg (by omega)]
    · refine ⟨m, ?_, fun hlt' => absurd hlt' hlt, h, fun a ha => absurd rfl ha, fun a _ => ?_⟩
      · rw [copySegment, if_neg hlt]
      · rw [if_neg (by omega)]

end NullOS.Memory
