import SymbolicScript.Number.LittleEndian

/-!
# Reading UTF-8 with replacement

`Utf8.lossy` reads any byte string as text. Well-formed sequences become their characters, and
each maximal part of an ill-formed sequence, that is the longest run of bytes that could still
have begun a well-formed one, becomes a single replacement character U+FFFD.
-/

namespace SymbolicScript

namespace Utf8

/-- What a leading byte announces: the bits it contributes, how many bytes follow, and the range
that the first of these must lie in. -/
structure Lead where
  /-- The high bits of the code point. -/
  bits : Nat
  /-- The number of continuation bytes. -/
  following : Nat
  /-- The least first continuation byte. -/
  low : Nat
  /-- The greatest first continuation byte. -/
  high : Nat

/-- The announcement of a leading byte, if it can lead. The ranges exclude overlong forms,
surrogates and code points above U+10FFFF. -/
def lead? (byte : UInt8) : Option Lead :=
  let n := byte.toNat
  if n < 0x80 then some ⟨n, 0, 0, 0⟩
  else if n < 0xC2 then none
  else if n < 0xE0 then some ⟨n - 0xC0, 1, 0x80, 0xBF⟩
  else if n = 0xE0 then some ⟨n - 0xE0, 2, 0xA0, 0xBF⟩
  else if n = 0xED then some ⟨n - 0xE0, 2, 0x80, 0x9F⟩
  else if n < 0xF0 then some ⟨n - 0xE0, 2, 0x80, 0xBF⟩
  else if n = 0xF0 then some ⟨n - 0xF0, 3, 0x90, 0xBF⟩
  else if n < 0xF4 then some ⟨n - 0xF0, 3, 0x80, 0xBF⟩
  else if n = 0xF4 then some ⟨n - 0xF0, 3, 0x80, 0x8F⟩
  else none

/-- Reads `following` continuation bytes behind `bits`, the first of them between `low` and
`high`. Gives the code point, or nothing at the first byte that does not fit, and the bytes left. -/
def follow (bits following low high : Nat) (bytes : Bytes) : Option Nat × Bytes :=
  match following, bytes with
  | 0, rest => (some bits, rest)
  | _ + 1, [] => (none, [])
  | following + 1, byte :: rest =>
    let n := byte.toNat
    if low ≤ n ∧ n ≤ high then
      follow (bits * 64 + (n - 0x80)) following 0x80 0xBF rest
    else
      (none, byte :: rest)

theorem length_follow_le (bits following low high : Nat) (bytes : Bytes) :
    (follow bits following low high bytes).2.length ≤ bytes.length := by
  induction bytes generalizing bits following low high with
  | nil => cases following <;> simp [follow]
  | cons byte rest ih =>
    cases following with
    | zero => simp [follow]
    | succ following =>
      simp only [follow]
      split
      · exact Nat.le_succ_of_le (ih _ _ _ _)
      · simp

/-- The replacement character U+FFFD. -/
def replacement : Char := Char.ofNat 0xFFFD

/-- The characters of a byte string, with a replacement character for every maximal ill-formed
part. -/
def lossy : Bytes → List Char
  | [] => []
  | byte :: rest =>
    match lead? byte with
    | none => replacement :: lossy rest
    | some lead =>
      let step := follow lead.bits lead.following lead.low lead.high rest
      (step.1.map Char.ofNat).getD replacement :: lossy step.2
termination_by bytes => bytes.length
decreasing_by
  · simp
  · exact Nat.lt_succ_of_le (length_follow_le ..)

/-- The text of a byte string, with replacement. -/
def lossyText (bytes : Bytes) : String :=
  String.ofList (lossy bytes)

end Utf8

end SymbolicScript
