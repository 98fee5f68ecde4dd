import SymbolicScript.Instruction

/-!
# Scripts

A script is a byte string. Its linear decode starts at offset zero and continues at the offset
behind each instruction, up to the end or to the first offset where no instruction can be decoded.
A script is valid if the linear decode reaches its end.
-/

namespace SymbolicScript

/-- A script of instructions. -/
structure Script where
  /-- The encoded instructions. -/
  bytes : Bytes
  deriving DecidableEq, Repr

namespace Script

/-- The number of bytes of a script. -/
def length (s : Script) : Nat := s.bytes.length

/-- The instruction that begins at `offset`; none at or past the end. -/
def instructionAt (s : Script) (offset : Nat) :
    Except (Located DisassemblyError) (Option Instruction) :=
  Instruction.decode s.bytes offset

/-- The instructions that follow each other from the front of `bytes`, which stand at `offset`,
and the fault that ends them before the end of the bytes, if any. -/
def walkFrom (offset : Nat) (bytes : Bytes) :
    List Instruction × Option (Located DisassemblyError) :=
  match bytes with
  | [] => ([], none)
  | byte :: rest =>
    match Instruction.decodeFront offset (byte :: rest) with
    | .ok none => ([], none)
    | .ok (some i) =>
      let tail := walkFrom (offset + i.size) (rest.drop (i.size - 1))
      (i :: tail.1, tail.2)
    | .error e => ([], some e)
termination_by bytes.length
decreasing_by
  simp only [List.length_drop, List.length_cons]
  omega

/-- The linear decode: the instructions before the first fault, and that fault if there is one. -/
def walk (s : Script) : List Instruction × Option (Located DisassemblyError) :=
  walkFrom 0 s.bytes

/-- The instructions of the linear decode, or the fault that ends it. -/
def instructions (s : Script) : Except (Located DisassemblyError) (List Instruction) :=
  match s.walk with
  | (instructions, none) => .ok instructions
  | (_, some e) => .error e

/-- Checks that offsets can address the script and that it decodes to its end. -/
def validate (s : Script) : Except (Located DisassemblyError) Unit :=
  if s.length > maxOffset then .error ⟨maxOffset, .scriptTooLarge⟩
  else s.instructions.map fun _ => ()

/-- The valid script of the given bytes. -/
def ofBytes? (bytes : Bytes) : Except (Located DisassemblyError) Script := do
  let s : Script := ⟨bytes⟩
  s.validate
  return s

/-- The bytes of a text without the marker `0x` in front of it, if there is one. -/
def unmark : Bytes → Bytes
  | 48 :: 120 :: rest => rest
  | text => text

/-- The valid script that a text of hexadecimal digits denotes. A bad character is named as the
Latin-1 character of its byte, since only then does its position count bytes. -/
def ofHex? (text : String) : Except (Located DisassemblyError) Script :=
  match Hex.decode (unmark text.toUTF8.toList) with
  | .ok bytes => ofBytes? bytes
  | .error .oddLength => .error ⟨0, .invalidHexLength⟩
  | .error (.badDigit code index) =>
    if index ≤ maxOffset then
      .error ⟨index, .invalidHexCharacter (Char.ofNat code.toNat) index⟩
    else
      .error ⟨maxOffset, .scriptTooLarge⟩

end Script

end SymbolicScript
