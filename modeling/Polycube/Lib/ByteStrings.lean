import Mathlib

/-!
# Byte strings

Strings as sequences of bytes, the way a Go `string` or a C++ `std::string` holds them: nothing
says the bytes are valid text.  `ascii` writes the literals of a source and `upperHex` the two
digits of a byte; `forall_byte` proves by looking at every byte.
-/

namespace Polycube.Lib

abbrev Str := List UInt8

instance : LawfulBEq Str := inferInstance

def ascii (s : String) : Str := s.toList.map Char.toUInt8

/-- The digit of `n < 16`, with capital letters. -/
def upperHex (n : Nat) : UInt8 := UInt8.ofNat (if n < 10 then 48 + n else 55 + n)

theorem forall_byte {p : UInt8 → Prop} (all : ∀ n < 256, p (UInt8.ofNat n)) (c : UInt8) : p c := by
  have here := all c.toNat c.toNat_lt
  rwa [UInt8.ofNat_toNat] at here

end Polycube.Lib
