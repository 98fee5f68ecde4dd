import SymbolicScript.Number.LittleEndian

/-!
# Integers as two's complement bytes

Integers travel as little-endian two's complement. `TwosComplement.toInt` reads a byte string of
any length, `TwosComplement.encode` writes the shortest one that has room for the sign, and
`TwosComplement.minimal` is the form in which integers count as byte strings, where zero has no
bytes at all. The bitwise operations treat an integer as its infinite two's complement expansion.
-/

namespace SymbolicScript

namespace TwosComplement

/-- The signed integer that the bytes denote; no bytes denote zero. -/
def toInt (bytes : Bytes) : Int :=
  let n := LittleEndian.toNat bytes
  let span := Nat.pow 256 bytes.length
  if 2 * n < span then n else (n : Int) - span

/-- The number of binary digits of `n`, which is none for zero. -/
def bitLength (n : Nat) : Nat :=
  if n = 0 then 0 else n.log2 + 1

/-- The number of binary digits that `value` needs beside its sign. -/
def magnitudeBits : Int → Nat
  | .ofNat n => bitLength n
  | .negSucc n => bitLength n

/-- The least number of bytes, at least one, that hold `value` with its sign. -/
def width (value : Int) : Nat :=
  magnitudeBits value / 8 + 1

/-- The `count` low bytes of `value`. -/
def encodeIn (count : Nat) (value : Int) : Bytes :=
  LittleEndian.ofNat count (value % Nat.pow 256 count).toNat

/-- The shortest nonempty form of `value`. -/
def encode (value : Int) : Bytes :=
  encodeIn (width value) value

/-- The shortest form of `value`, where zero has no bytes. -/
def minimal (value : Int) : Bytes :=
  if value = 0 then [] else encode value

/-- The bits of `m` that are not bits of `n`. -/
def without (m n : Nat) : Nat :=
  Nat.bitwise (fun a b => a && !b) m n

/-- Bitwise conjunction. -/
def land : Int → Int → Int
  | .ofNat m, .ofNat n => .ofNat (m &&& n)
  | .ofNat m, .negSucc n => .ofNat (without m n)
  | .negSucc m, .ofNat n => .ofNat (without n m)
  | .negSucc m, .negSucc n => .negSucc (m ||| n)

/-- Bitwise disjunction. -/
def lor : Int → Int → Int
  | .ofNat m, .ofNat n => .ofNat (m ||| n)
  | .ofNat m, .negSucc n => .negSucc (without n m)
  | .negSucc m, .ofNat n => .negSucc (without m n)
  | .negSucc m, .negSucc n => .negSucc (m &&& n)

/-- Bitwise exclusive disjunction. -/
def lxor : Int → Int → Int
  | .ofNat m, .ofNat n => .ofNat (m ^^^ n)
  | .ofNat m, .negSucc n => .negSucc (m ^^^ n)
  | .negSucc m, .ofNat n => .negSucc (m ^^^ n)
  | .negSucc m, .negSucc n => .ofNat (m ^^^ n)

end TwosComplement

end SymbolicScript
