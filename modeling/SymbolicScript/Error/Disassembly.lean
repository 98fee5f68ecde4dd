import SymbolicScript.Error.Located
import SymbolicScript.Opcode.Basic
import SymbolicScript.Text.Quoted

/-!
# Faults of encoded scripts

The ways in which bytes fail to be a script: an unassigned opcode byte, an operand that is cut
short or of the wrong size, text that is not hexadecimal, and a script that offsets cannot address.
-/

namespace SymbolicScript

/-- The greatest script offset, 2^32 - 1. -/
def maxOffset : Nat := 4294967295

/-- Why bytes are not a script. -/
inductive DisassemblyError where
  /-- The byte encodes no opcode. -/
  | unknownOpcode (byte : UInt8)
  /-- The operand needs more bytes than are left. -/
  | truncatedOperand (opcode : Opcode) (needed available : Nat)
  /-- The operand of a fixed layout has another size. -/
  | operandSizeMismatch (opcode : Opcode) (expected actual : Nat)
  /-- The length of the operand does not fit in front of it. -/
  | operandTooLarge (opcode : Opcode) (size : Nat)
  /-- The hexadecimal text has an odd number of digits. -/
  | invalidHexLength
  /-- The hexadecimal text holds another character at `index`. -/
  | invalidHexCharacter (character : Char) (index : Nat)
  /-- The script is longer than the greatest offset. -/
  | scriptTooLarge
  deriving DecidableEq, Repr

/-- The name of the kind of a fault. -/
def DisassemblyError.kind : DisassemblyError → String
  | .unknownOpcode _ => "UnknownOpcode"
  | .truncatedOperand _ _ _ => "TruncatedOperand"
  | .operandSizeMismatch _ _ _ => "OperandSizeMismatch"
  | .operandTooLarge _ _ => "OperandTooLarge"
  | .invalidHexLength => "InvalidHexLength"
  | .invalidHexCharacter _ _ => "InvalidHexCharacter"
  | .scriptTooLarge => "ScriptTooLarge"

/-- The wording of a fault. -/
def DisassemblyError.message : DisassemblyError → String
  | .unknownOpcode byte =>
    "The byte " ++ Hex.padded 2 byte.toNat ++ " is not an assigned opcode"
  | .truncatedOperand opcode needed available =>
    "The operand of " ++ opcode.mnemonic ++ " needs " ++ toString needed ++ " bytes but only "
      ++ toString available ++ " remain"
  | .operandSizeMismatch opcode expected actual =>
    opcode.mnemonic ++ " takes an operand of " ++ toString expected ++ " bytes but "
      ++ toString actual ++ " were provided"
  | .operandTooLarge opcode size =>
    "An operand of " ++ toString size ++ " bytes cannot be encoded by " ++ opcode.mnemonic
  | .invalidHexLength => "The provided hexadecimal input had an odd length"
  | .invalidHexCharacter character index =>
    "Encountered invalid hex char " ++ Quoted.character character ++ " at index "
      ++ toString index
  | .scriptTooLarge => "The length of the script exceeded " ++ toString maxOffset

end SymbolicScript
