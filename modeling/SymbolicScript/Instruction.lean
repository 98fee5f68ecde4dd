import SymbolicScript.Error.Execution
import SymbolicScript.Number.TwosComplement
import SymbolicScript.Opcode.Class

/-!
# Instructions

An instruction is an opcode with its operand, standing at an offset of a script. `encode` writes
it as bytes and `decode` reads the one that begins at an offset; the length in front of a counted
operand is part of the encoding and of `size`, but not of the operand.

The tokens of an instruction are the numbers inside its operand, and its branch targets are the
absolute offsets that they make it refer to.
-/

namespace SymbolicScript

/-- A decoded instruction. -/
structure Instruction where
  /-- The offset of the opcode byte in the script. -/
  offset : Nat
  /-- The opcode. -/
  opcode : Opcode
  /-- The operand, without the length that may stand in front of it. -/
  operand : Bytes
  deriving DecidableEq, Repr

namespace Instruction

/-- The number of bytes that the instruction occupies. -/
def size (i : Instruction) : Nat :=
  1 + i.opcode.layout.lengthWidth + i.operand.length

/-- The offset of the following instruction, held at the greatest offset. -/
def nextOffset (i : Instruction) : Nat :=
  min (i.offset + i.size) maxOffset

/-- The bytes of the instruction. -/
def encode (i : Instruction) : Bytes :=
  i.opcode.byte ::
    (LittleEndian.ofNat i.opcode.layout.lengthWidth i.operand.length ++ i.operand)

/-- The same instruction at another offset. -/
def moveTo (i : Instruction) (offset : Nat) : Instruction :=
  { i with offset }

/-- The greatest operand length that a length of `width` bytes can announce. -/
def capacity (width : Nat) : Nat :=
  if width ≥ 4 then maxOffset else Nat.pow 256 width - 1

/-- The instruction at offset zero, unless the operand does not fit the layout of the opcode. -/
def assemble (opcode : Opcode) (operand : Bytes) :
    Except (Located DisassemblyError) Instruction :=
  let finish : Except (Located DisassemblyError) Instruction :=
    let i : Instruction := ⟨0, opcode, operand⟩
    if i.size ≤ maxOffset then .ok i else .error ⟨0, .scriptTooLarge⟩
  match opcode.layout with
  | .fixed expected =>
    if operand.length = expected then finish
    else .error ⟨0, .operandSizeMismatch opcode expected operand.length⟩
  | .counted width =>
    if operand.length ≤ capacity width then finish
    else .error ⟨0, .operandTooLarge opcode operand.length⟩

/-- The first `needed` of the bytes, which are all that is left of the operand of `opcode`. -/
def takeOperand (opcode : Opcode) (needed : Nat) (bytes : Bytes) :
    Except DisassemblyError Bytes :=
  if needed ≤ bytes.length then .ok (bytes.take needed)
  else .error (.truncatedOperand opcode needed bytes.length)

/-- The operand of `opcode` at the front of the bytes that follow the opcode byte. -/
def readOperand (opcode : Opcode) (bytes : Bytes) : Except DisassemblyError Bytes :=
  match opcode.layout with
  | .fixed width => takeOperand opcode width bytes
  | .counted width => do
    let length ← takeOperand opcode width bytes
    takeOperand opcode (LittleEndian.toNat length) (bytes.drop width)

/-- The instruction at the front of `bytes`, which stand at `offset`; none if there are none. -/
def decodeFront (offset : Nat) : Bytes → Except (Located DisassemblyError) (Option Instruction)
  | [] => .ok none
  | byte :: rest => locate offset do
    let opcode ← (Opcode.ofByte? byte).elim (.error (.unknownOpcode byte)) .ok
    let operand ← readOperand opcode rest
    let i : Instruction := ⟨offset, opcode, operand⟩
    if i.size ≤ maxOffset then return some i else throw .scriptTooLarge

/-- The instruction that begins at `offset`; none at or past the end. -/
def decode (bytes : Bytes) (offset : Nat) :
    Except (Located DisassemblyError) (Option Instruction) :=
  decodeFront offset (bytes.drop offset)

/-! ## Tokens -/

/-- The `width` operand bytes from position `start` on. -/
def token (i : Instruction) (start width : Nat) : Except ExecutionError Bytes :=
  if start + width ≤ i.operand.length then .ok ((i.operand.drop start).take width)
  else .error (.invalidOperand i.opcode)

/-- The signed number in the `width` operand bytes from position `start` on. -/
def signedToken (i : Instruction) (start width : Nat) : Except ExecutionError Int :=
  (i.token start width).map TwosComplement.toInt

/-- The unsigned number in the `width` operand bytes from position `start` on. -/
def unsignedToken (i : Instruction) (start width : Nat) : Except ExecutionError Nat :=
  (i.token start width).map LittleEndian.toNat

/-! ## Branch targets -/

/-- How the operand of an opcode refers to other offsets. -/
inductive TargetForm where
  /-- The opcode refers to no offset. -/
  | none
  /-- One relative offset of `width` bytes. -/
  | single (width : Nat)
  /-- Two relative offsets of `width` bytes each, of which zeros do not count. -/
  | handlers (width : Nat)

/-- How the operand of an opcode refers to other offsets. -/
def targetForm : Opcode → TargetForm
  | .jmp | .jmpIf | .jmpIfNot | .jmpEq | .jmpNe | .jmpGt | .jmpGe | .jmpLt | .jmpLe
  | .call | .endTry => .single 1
  | .jmpL | .jmpIfL | .jmpIfNotL | .jmpEqL | .jmpNeL | .jmpGtL | .jmpGeL | .jmpLtL | .jmpLeL
  | .callL | .endTryL | .pushA => .single 4
  | .beginTry => .handlers 1
  | .beginTryL => .handlers 4
  | _ => .none

/-- The absolute offsets, other than the next one, that the instruction refers to. The handlers
of a try block that are absent are left out. -/
def branchTargets (i : Instruction) : Except ExecutionError (List Int) :=
  match targetForm i.opcode with
  | .none => .ok []
  | .single width => do
    let relative ← i.signedToken 0 width
    return [i.offset + relative]
  | .handlers width => do
    let first ← i.signedToken 0 width
    let second ← i.signedToken width width
    return ([first, second].filter (· ≠ 0)).map fun relative => i.offset + relative

/-- The first branch target, which an instruction without any lacks. -/
def target (i : Instruction) : Except ExecutionError Int := do
  match ← i.branchTargets with
  | target :: _ => return target
  | [] => throw (.invalidOperand i.opcode)

end Instruction

end SymbolicScript
