import Mathlib.Logic.Function.Basic

/-!
# C strings

A C string is given by its bytes before the terminating NUL.
-/

namespace NullOS.Lib

def ascii (s : String) : List UInt8 := s.toList.map fun c => .ofNat c.toNat

@[ext] structure CStr where
  bytes : List UInt8
  noNul : 0 ∉ bytes
deriving DecidableEq

namespace CStr

def length (s : CStr) : Nat := s.bytes.length

end CStr

end NullOS.Lib
