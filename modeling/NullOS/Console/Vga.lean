import Mathlib.Logic.Function.Basic

/-!
# The VGA text console

`vga.c` draws into 25 rows of 80 cells: a window onto a page that never scrolls.
-/

namespace NullOS.Console

structure Cell where
  char : UInt8
  attr : UInt8

def vgaCols : Nat := 80

def vgaRows : Nat := 25

structure Screen where
  cell : Nat → Cell
  col : Nat
  row : Nat
  color : UInt8

namespace Screen

def cursor (s : Screen) : Nat := s.row * vgaCols + s.col

def setColor (s : Screen) (fg bg : UInt8) : Screen := { s with color := bg <<< 4 ||| fg &&& 0x0F }

def clear (s : Screen) : Screen :=
  { s with
    cell := fun i => if i < vgaRows * vgaCols then ⟨32, s.color⟩ else s.cell i
    col := 0
    row := 0 }

def scroll (s : Screen) : Screen :=
  { s with
    cell := fun i =>
      if i < (vgaRows - 1) * vgaCols then s.cell (i + vgaCols)
      else if i < vgaRows * vgaCols then ⟨32, s.color⟩
      else s.cell i
    row := vgaRows - 1 }

/-- The cursor moves inside its row, or to the next one if there is no such column. -/
def wrap (s : Screen) (col : Nat) : Screen :=
  if vgaCols ≤ col then { s with col := 0, row := s.row + 1 } else { s with col := col }

def put (s : Screen) (c : UInt8) : Screen :=
  { s with cell := Function.update s.cell s.cursor ⟨c, s.color⟩ }

def advance (s : Screen) (c : UInt8) : Screen :=
  if c = 10 then { s with col := 0, row := s.row + 1 }
  else if c = 13 then { s with col := 0 }
  else if c = 9 then s.wrap ((s.col + 4) / 4 * 4)
  else if c = 8 then
    if 0 < s.col then put { s with col := s.col - 1 } 32 else s
  else (s.put c).wrap (s.col + 1)

def putchar (s : Screen) (c : UInt8) : Screen :=
  if vgaRows ≤ (s.advance c).row then (s.advance c).scroll else s.advance c

end Screen

inductive Out
  | char (c : UInt8)
  | color (fg bg : UInt8)

def Screen.out (s : Screen) : Out → Screen
  | .char c => s.putchar c
  | .color fg bg => s.setColor fg bg

def Screen.pageOut (p : Screen) : Out → Screen
  | .char c => p.advance c
  | .color fg bg => p.setColor fg bg

def emptyPage (color : UInt8) : Screen := ⟨fun _ => ⟨32, color⟩, 0, 0, color⟩

/-- The cells are equal, or both empty: an empty one may have any colours. -/
def SameCell (a b : Cell) : Prop := a = b ∨ a.char = 32 ∧ b.char = 32

/-- The screen `s` shows the page `p` from row `top` on; no other memory has changed. -/
structure Window (mem : Nat → Cell) (top : Nat) (s p : Screen) : Prop where
  row : p.row = s.row + top
  col : p.col = s.col
  color : p.color = s.color
  col_lt : s.col < vgaCols
  /-- No more has been scrolled than was needed. -/
  bottom : top = 0 ∨ vgaRows - 1 ≤ s.row
  cells : ∀ i < vgaRows * vgaCols, SameCell (s.cell i) (p.cell (i + top * vgaCols))
  /-- Below the window the page is empty. -/
  fresh : ∀ i, (vgaRows + top) * vgaCols ≤ i → (p.cell i).char = 32
  frame : ∀ i, vgaRows * vgaCols ≤ i → s.cell i = mem i

namespace Window

variable {mem : Nat → Cell} {top col : Nat} {s p : Screen} {c : UInt8}

lemma move (h : Window mem top s p) (hcol : col < vgaCols) :
    Window mem top { s with col := col } { p with col := col } :=
  ⟨h.row, rfl, h.color, hcol, h.bottom, h.cells, h.fresh, h.frame⟩

lemma nextRow (h : Window mem top s p) :
    Window mem top { s with col := 0, row := s.row + 1 } { p with col := 0, row := p.row + 1 } := by
  refine ⟨?_, rfl, h.color, Nat.succ_pos _, h.bottom.imp_right Nat.le_succ_of_le, h.cells, h.fresh,
    h.frame⟩
  rw [h.row]
  exact Nat.add_right_comm ..

lemma wrap (h : Window mem top s p) : Window mem top (s.wrap col) (p.wrap col) := by
  unfold Screen.wrap
  split
  · exact h.nextRow
  · exact h.move (by omega)

lemma put (h : Window mem top s p) (hrow : s.row < vgaRows) :
    Window mem top (s.put c) (p.put c) := by
  have hcur : p.cursor = s.cursor + top * vgaCols := by
    rw [Screen.cursor, Screen.cursor, h.row, h.col, Nat.add_mul]
    omega
  have hlt : s.cursor < vgaRows * vgaCols := by
    have := h.col_lt
    unfold Screen.cursor vgaRows vgaCols at *
    omega
  refine ⟨h.row, h.col, h.color, h.col_lt, h.bottom, fun i hi => ?_, fun i hi => ?_, fun i hi => ?_⟩
  · dsimp only [Screen.put]
    rw [hcur, h.color]
    by_cases he : i = s.cursor
    · rw [he, Function.update_self, Function.update_self]
      exact .inl rfl
    · rw [Function.update_of_ne he, Function.update_of_ne (by omega)]
      exact h.cells i hi
  · rw [Nat.add_mul] at hi
    exact (congrArg Cell.char (Function.update_of_ne (by omega) ..)).trans
      (h.fresh i (by rw [Nat.add_mul]; exact hi))
  · exact (Function.update_of_ne (by omega) ..).trans (h.frame i hi)

lemma advance (h : Window mem top s p) (hrow : s.row < vgaRows) :
    Window mem top (s.advance c) (p.advance c) := by
  unfold Screen.advance
  rw [h.col]
  repeat' split
  case isTrue => exact h.nextRow
  case isTrue => exact h.move (by decide)
  case isTrue => exact h.wrap
  case isTrue => exact (h.move (by have := h.col_lt; omega)).put hrow
  case isFalse => exact h
  case isFalse => exact (h.put hrow).wrap

lemma scroll (h : Window mem top s p) (hrow : s.row = vgaRows) :
    Window mem (top + 1) s.scroll p := by
  refine ⟨?_, h.col, h.color, h.col_lt, .inr (Nat.le_refl _), ?_, ?_, ?_⟩
  · rw [h.row, hrow]
    dsimp only [Screen.scroll, vgaRows]
    omega
  · intro i hi
    dsimp only [Screen.scroll]
    split
    · have hcell := h.cells (i + vgaCols) (by unfold vgaRows vgaCols at *; omega)
      rwa [Nat.add_assoc, Nat.add_comm vgaCols, ← Nat.succ_mul] at hcell
    · refine .inr ⟨rfl, h.fresh _ ?_⟩
      unfold vgaRows vgaCols at *
      omega
  · intro i hi
    exact h.fresh i (by unfold vgaRows vgaCols at *; omega)
  · intro i hi
    dsimp only [Screen.scroll]
    rw [if_neg (by unfold vgaRows vgaCols at *; omega), if_neg (by omega)]
    exact h.frame i hi

lemma putchar (h : Window mem top s p) (hrow : s.row < vgaRows) :
    ∃ top, Window mem top (s.putchar c) (p.advance c) ∧ (s.putchar c).row < vgaRows := by
  have hadv := h.advance (c := c) hrow
  have hle : (s.advance c).row ≤ vgaRows := by
    unfold Screen.advance Screen.wrap
    repeat' split
    all_goals first | exact hrow | exact Nat.le_of_lt hrow
  unfold Screen.putchar
  split
  case isTrue hge => exact ⟨top + 1, hadv.scroll (Nat.le_antisymm hle hge), Nat.lt_succ_self _⟩
  case isFalse hlt => exact ⟨top, hadv, Nat.lt_of_not_le hlt⟩

end Window

/-- **Scrolling loses nothing but the rows at the top**: after any output to a cleared screen, the
screen shows the page from some row on, with the cursor in it.  No memory outside it is written. -/
theorem screen_shows_page (s : Screen) (l : List Out) :
    ∃ top, Window s.cell top (l.foldl Screen.out s.clear)
        (l.foldl Screen.pageOut (emptyPage s.color)) ∧
      (l.foldl Screen.out s.clear).row < vgaRows := by
  -- from any pair of states, by induction on the output
  suffices hrun : ∀ (top : Nat) (t p : Screen), Window s.cell top t p → t.row < vgaRows →
      ∃ top, Window s.cell top (l.foldl Screen.out t) (l.foldl Screen.pageOut p) ∧
        (l.foldl Screen.out t).row < vgaRows by
    refine hrun 0 _ _ ⟨rfl, rfl, rfl, Nat.succ_pos _, .inl rfl, fun i hi => .inl (if_pos hi),
      fun _ _ => rfl, fun i hi => if_neg (Nat.not_lt.mpr hi)⟩ (Nat.succ_pos _)
  induction l with
  | nil => exact fun top t p h hrow => ⟨top, h, hrow⟩
  | cons o l ih =>
    intro top t p h hrow
    cases o with
    | char c =>
      obtain ⟨top', h', hrow'⟩ := h.putchar (c := c) hrow
      exact ih top' _ _ h' hrow'
    | color fg bg =>
      exact ih top (t.setColor fg bg) (p.setColor fg bg)
        ⟨h.row, h.col, rfl, h.col_lt, h.bottom, h.cells, h.fresh, h.frame⟩ hrow

end NullOS.Console
