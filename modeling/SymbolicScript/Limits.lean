/-!
# Limits of the machine

The fixed bounds that executing scripts must respect, and the greatest number that can count or
index anything in memory.
-/

namespace SymbolicScript

namespace Limits

/-- The greatest number of bytes of an integer. -/
def integerBytes : Nat := 32

/-- The greatest number of elements of a compound, which also bounds stack indices. -/
def stackSize : Nat := 2048

/-- The greatest number of nested try blocks of a frame. -/
def tryNesting : Nat := 16

/-- The greatest exponent and the greatest shift. -/
def shift : Nat := 256

/-- The greatest number that can count or index anything, 2^64 - 1. -/
def word : Nat := 18446744073709551615

end Limits

end SymbolicScript
