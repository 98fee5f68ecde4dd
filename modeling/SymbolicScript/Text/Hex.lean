import SymbolicScript.Number.LittleEndian

/-!
# Hexadecimal text

Byte strings are written as two lower-case digits a byte. Reading accepts both cases and names the
first fault: an odd number of digits is noticed before any bad digit, and a bad digit is reported
with its byte and its position.
-/

namespace SymbolicScript

namespace Hex

/-- The lower-case digit of a value below sixteen. -/
def digit (value : Nat) : Char :=
  Nat.digitChar value

/-- The two digits of a byte, high half first. -/
def pair (byte : UInt8) : List Char :=
  [digit (byte.toNat / 16), digit (byte.toNat % 16)]

/-- The digits of a byte string. -/
def encode (bytes : Bytes) : String :=
  String.ofList (bytes.flatMap pair)

/-- A number behind the marker `0x`, filled with zeros to at least `digits` digits. -/
def padded (digits n : Nat) : String :=
  let text := Nat.toDigits 16 n
  String.ofList ('0' :: 'x' :: (List.replicate (digits - text.length) '0' ++ text))

/-- The value of a digit given by its ASCII code. -/
def value? (code : UInt8) : Option Nat :=
  let n := code.toNat
  if 48 ≤ n ∧ n ≤ 57 then some (n - 48)
  else if 97 ≤ n ∧ n ≤ 102 then some (n - 87)
  else if 65 ≤ n ∧ n ≤ 70 then some (n - 55)
  else none

/-- Why a text is not hexadecimal. -/
inductive DecodeError where
  /-- The number of digits is odd. -/
  | oddLength
  /-- The byte at `index` is no digit. -/
  | badDigit (code : UInt8) (index : Nat)
  deriving DecidableEq, Repr

/-- The value of the digit at `index`. -/
def decodeDigit (code : UInt8) (index : Nat) : Except DecodeError Nat :=
  match value? code with
  | some value => .ok value
  | none => .error (.badDigit code index)

/-- The bytes that pairs of digits denote, the first of them standing at `index`. -/
def decodePairs (index : Nat) : Bytes → Except DecodeError Bytes
  | high :: low :: rest => do
    let h ← decodeDigit high index
    let l ← decodeDigit low (index + 1)
    let tail ← decodePairs (index + 2) rest
    return UInt8.ofNat (16 * h + l) :: tail
  | [_] => .error .oddLength
  | [] => .ok []

/-- The bytes that a text of digits denotes, given by the bytes of the text. -/
def decode (text : Bytes) : Except DecodeError Bytes :=
  if text.length % 2 = 1 then .error .oddLength else decodePairs 0 text

end Hex

end SymbolicScript
