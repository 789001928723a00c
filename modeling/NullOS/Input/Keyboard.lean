import NullOS.Lib.Run
import NullOS.Lib.Spsc
import NullOS.Lib.Text

/-!
# The keyboard driver

The interrupt handler of `keyboard.c` stores every key press twice: the scancode with Ctrl and Shift
in one ring, and the character it stands for, if any, in another.  The readers run with interrupts
on; `keyboard_flush` empties the two rings one after the other.
-/

namespace NullOS.Keyboard

open Lib

def kbBufferSize : Nat := 256

/-- `scancode_map`, up to its last entry that is not 0. -/
def scancodeMap : List UInt8 :=
  [0, 27] ++ ascii "1234567890-=" ++ [8, 9] ++ ascii "qwertyuiop[]" ++ [10, 0] ++
    ascii "asdfghjkl;" ++ [39, 96, 0, 92] ++ ascii "zxcvbnm,./" ++ [0, 42, 0, 32]

def scancodeMapShift : List UInt8 :=
  [0, 27] ++ ascii "!@#$%^&*()_+" ++ [8, 9] ++ ascii "QWERTYUIOP" ++ [123, 125, 10, 0] ++
    ascii "ASDFGHJKL:" ++ [34, 126, 0, 124] ++ ascii "ZXCVBNM<>?" ++ [0, 42, 0, 32]

def charOf (ctrl shift : Bool) (scancode : Nat) : UInt8 :=
  if ctrl ∧ scancode = 0x2E then 3
  else ((if shift then scancodeMapShift else scancodeMap)[scancode &&& 0x7F]?).getD 0

def rawOf (ctrl shift : Bool) (scancode : Nat) : Nat :=
  scancode ||| (if ctrl then 0x100 else 0) ||| (if shift then 0x200 else 0)

structure Kbd where
  chars : Spsc UInt8
  raws : Spsc Nat
  ctrl : Bool
  shift : Bool

def keyboardCallback (k : Kbd) (scancode : Nat) : Kbd :=
  if scancode = 0x1D then { k with ctrl := true }
  else if scancode = 0x9D then { k with ctrl := false }
  else if scancode = 0x2A ∨ scancode = 0x36 then { k with shift := true }
  else if scancode = 0xAA ∨ scancode = 0xB6 then { k with shift := false }
  else if scancode &&& 0x80 ≠ 0 then k
  else
    let c := charOf k.ctrl k.shift scancode
    { k with
      raws := k.raws.push kbBufferSize (rawOf k.ctrl k.shift scancode)
      chars := if c = 0 then k.chars else k.chars.push kbBufferSize c }

inductive Act
  | irq (scancode : UInt8)
  | chars (a : ReaderAct)
  | raws (a : ReaderAct)

def step (k : Kbd) : Act → Option Kbd
  | .irq scancode => some (keyboardCallback k scancode.toNat)
  | .chars a => (k.chars.reader kbBufferSize a).map fun r => { k with chars := r }
  | .raws a => (k.raws.reader kbBufferSize a).map fun r => { k with raws := r }

def boot : Kbd :=
  { chars := ⟨fun _ => 0, 0, 0, .idle, [], []⟩
    raws := ⟨fun _ => 0, 0, 0, .idle, [], []⟩
    ctrl := false
    shift := false }

variable {k k' : Kbd}

lemma inv_step {a : Act} (hc : k.chars.Inv kbBufferSize) (hr : k.raws.Inv kbBufferSize)
    (hs : step k a = some k') : k'.chars.Inv kbBufferSize ∧ k'.raws.Inv kbBufferSize := by
  cases a with
  | irq scancode =>
    cases hs
    unfold keyboardCallback
    repeat' split
    all_goals try exact ⟨hc, hr⟩
    constructor
    · dsimp only
      split
      · exact hc
      · exact hc.push
    · exact hr.push
  | chars a =>
    obtain ⟨r, hr', rfl⟩ := Option.map_eq_some_iff.mp hs
    exact ⟨hc.reader hr', hr⟩
  | raws a =>
    obtain ⟨r, hr', rfl⟩ := Option.map_eq_some_iff.mp hs
    exact ⟨hc, hr.reader hr'⟩

/-- **Keys are read in the order in which they were pressed**, each once, whenever interrupts
arrive; a key is refused only when 255 are waiting. -/
theorem keys_in_order (h : Reach step (· = boot) k) :
    k.chars.InOrder kbBufferSize ∧ k.raws.InOrder kbBufferSize := by
  obtain ⟨hc, hr⟩ := h.invariant
    (I := fun k => k.chars.Inv kbBufferSize ∧ k.raws.Inv kbBufferSize)
    (fun k hk => by subst hk; constructor <;> exact ⟨by decide, by decide, rfl, nofun,
    nofun, nofun⟩) fun k a k' hi _ hs => inv_step hi.1 hi.2 hs
  exact ⟨hc.inOrder, hr.inOrder⟩

def typeHi : List Act :=
  [.irq 0x23, .chars .take, .chars .step, .irq 0x17, .chars .step]

theorem keys_in_order_hi : ∃ k, run step boot typeHi = some k ∧ k.chars.gone = [(104, true)] ∧
    k.chars.InOrder kbBufferSize ∧ k.raws.InOrder kbBufferSize := by
  have hrun : (run step boot typeHi).map (fun k => k.chars.gone) = some [(104, true)] := by
    decide +kernel
  obtain ⟨k, hk, hgone⟩ := Option.map_eq_some_iff.mp hrun
  exact ⟨k, hk, hgone, keys_in_order (Reach.of_run rfl hk)⟩

def charOfRaw (raw : Nat) : Option UInt8 :=
  let c := charOf (raw &&& 0x100 ≠ 0) (raw &&& 0x200 ≠ 0) (raw &&& 0xFF)
  if c = 0 then none else some c

lemma charOfRaw_rawOf : ∀ ctrl shift, ∀ scancode < 0x100, scancode &&& 0x80 = 0 →
    charOfRaw (rawOf ctrl shift scancode) =
      if charOf ctrl shift scancode = 0 then none else some (charOf ctrl shift scancode) := by
  decide +kernel

/-- Neither ring is full when a key is pressed. -/
def RoomLeft (k : Kbd) : Act → Prop
  | .irq _ => (k.chars.head + 1) % kbBufferSize ≠ k.chars.tail ∧
      (k.raws.head + 1) % kbBufferSize ≠ k.raws.tail
  | _ => True

instance (k : Kbd) : DecidablePred (RoomLeft k)
  | .irq _ => inferInstanceAs (Decidable (_ ∧ _))
  | .chars _ | .raws _ => .isTrue trivial

/-- **The two rings tell the same story**: as long as neither is full when a key is pressed, the
characters stored are those that the raw entries stand for. -/
theorem chars_of_raws (h : ReachIf step (· = boot) RoomLeft k) :
    k.chars.accepted = k.raws.accepted.filterMap charOfRaw := by
  refine h.invariant (I := fun k => k.chars.accepted = k.raws.accepted.filterMap charOfRaw)
    (fun k hk => by subst hk; rfl) fun k a k' hi hok hs => ?_
  cases a with
  | irq scancode =>
    cases hs
    unfold keyboardCallback
    repeat' split
    all_goals try exact hi
    case isFalse hlow =>
      dsimp only
      rw [Spsc.push, Spsc.push, if_neg hok.1, if_neg hok.2]
      simp only [Spsc.add, List.filterMap_append, List.filterMap_cons, List.filterMap_nil,
        charOfRaw_rawOf _ _ _ scancode.toNat_lt (not_not.mp hlow)]
      split
      case isTrue => rw [hi, List.append_nil]
      case isFalse => rw [hi]
  | chars a =>
    obtain ⟨r, hr, rfl⟩ := Option.map_eq_some_iff.mp hs
    exact (Spsc.reader_accepted hr).trans hi
  | raws a =>
    obtain ⟨r, hr, rfl⟩ := Option.map_eq_some_iff.mp hs
    dsimp only
    rw [Spsc.reader_accepted hr, hi]

theorem chars_of_raws_hi : ∃ k, runIf step RoomLeft boot typeHi = some k ∧
    k.raws.accepted = [0x23, 0x17] ∧
    k.chars.accepted = k.raws.accepted.filterMap charOfRaw := by
  have hrun : (runIf step RoomLeft boot typeHi).map (fun k => k.raws.accepted) =
      some [0x23, 0x17] := by
    decide +kernel
  obtain ⟨k, hk, hraws⟩ := Option.map_eq_some_iff.mp hrun
  exact ⟨k, hk, hraws, chars_of_raws (ReachIf.of_runIf (.start rfl) hk)⟩

end NullOS.Keyboard
