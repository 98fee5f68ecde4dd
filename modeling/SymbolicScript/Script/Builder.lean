import SymbolicScript.Script.Basic
import SymbolicScript.Service

/-!
# Building scripts

A builder collects the bytes of a script. Values are pushed by the shortest instruction that
pushes them: integers from -1 to 16 have opcodes of their own, other integers and byte strings
take the narrowest operand that holds them.
-/

namespace SymbolicScript

/-- A script under construction. -/
structure ScriptBuilder where
  /-- The bytes emitted so far. -/
  bytes : Bytes
  deriving DecidableEq, Repr

namespace ScriptBuilder

/-- The builder that has emitted nothing. -/
def empty : ScriptBuilder := ⟨[]⟩

/-- The number of bytes emitted so far. -/
def offset (b : ScriptBuilder) : Nat := b.bytes.length

/-- Emits bytes as they are. -/
def append (b : ScriptBuilder) (bytes : Bytes) : ScriptBuilder :=
  ⟨b.bytes ++ bytes⟩

/-- Emits an opcode byte alone. -/
def emit (b : ScriptBuilder) (opcode : Opcode) : ScriptBuilder :=
  b.append [opcode.byte]

/-- Emits an opcode byte and operand bytes, unchecked. -/
def emitWith (b : ScriptBuilder) (opcode : Opcode) (operand : Bytes) : ScriptBuilder :=
  b.append (opcode.byte :: operand)

/-- Emits an instruction. -/
def emitInstruction (b : ScriptBuilder) (i : Instruction) : ScriptBuilder :=
  b.append i.encode

/-- The opcode that pushes an integer from -1 to 16. -/
def smallOpcode? (value : Int) : Option Opcode :=
  if -1 ≤ value ∧ value ≤ 16 then
    Opcode.ofByte? (UInt8.ofNat (value + Opcode.push0.byte.toNat).toNat)
  else
    none

/-- The narrowest integer push that has room for `width` bytes, with its room. -/
def integerForm? (width : Nat) : Option (Opcode × Nat) :=
  if width ≤ 1 then some (.pushInt8, 1)
  else if width ≤ 2 then some (.pushInt16, 2)
  else if width ≤ 4 then some (.pushInt32, 4)
  else if width ≤ 8 then some (.pushInt64, 8)
  else if width ≤ 16 then some (.pushInt128, 16)
  else if width ≤ 32 then some (.pushInt256, 32)
  else none

/-- Emits the shortest instruction that pushes an integer. -/
def pushInteger (b : ScriptBuilder) (value : Int) :
    Except (Located DisassemblyError) ScriptBuilder :=
  match smallOpcode? value with
  | some opcode => .ok (b.emit opcode)
  | none =>
    match integerForm? (TwosComplement.width value) with
    | some (opcode, room) => .ok (b.emitWith opcode (TwosComplement.encodeIn room value))
    | none => .error ⟨0, .operandTooLarge .pushInt256 (TwosComplement.width value)⟩

/-- Emits the push of a boolean. -/
def pushBoolean (b : ScriptBuilder) (value : Bool) : ScriptBuilder :=
  b.emit (if value then .pushT else .pushF)

/-- The narrowest data push for `size` bytes. -/
def dataOpcode (size : Nat) : Opcode :=
  if size ≤ 0xFF then .pushData1 else if size ≤ 0xFFFF then .pushData2 else .pushData4

/-- Emits the push of a byte string. -/
def pushData (b : ScriptBuilder) (data : Bytes) :
    Except (Located DisassemblyError) ScriptBuilder := do
  let i ← Instruction.assemble (dataOpcode data.length) data
  return b.emitInstruction i

/-- Emits the call of an interop service, given by its name. -/
def syscall (b : ScriptBuilder) (name : String) : ScriptBuilder :=
  b.emitWith .syscall (LittleEndian.ofNat 4 (Service.hash name))

/-- The script of the emitted bytes. -/
def build (b : ScriptBuilder) : Script := ⟨b.bytes⟩

end ScriptBuilder

end SymbolicScript
