import SymbolicScript.Machine.State

/-!
# Pushing constants

Each of these instructions pushes a value that its operand or its opcode determines.
-/

namespace SymbolicScript

namespace Semantics

/-- Pushes the signed integer in the operand. -/
def pushInteger (i : Instruction) : Exec Unit :=
  Exec.push (.integer (TwosComplement.toInt i.operand))

/-- Pushes true for `PUSHT` and false for any other opcode. -/
def pushBoolean (i : Instruction) : Exec Unit :=
  Exec.push (.boolean (i.opcode = .pushT))

/-- Pushes the position that the operand refers to, which may be the end of the script. -/
def pushPointer (i : Instruction) : Exec Unit := do
  let target ← i.target
  let available := (← Exec.world).script.length
  if 0 ≤ target ∧ target ≤ available ∧ target ≤ maxOffset then
    Exec.push (.pointer target.toNat)
  else
    throw (.invalidPointer target)

/-- Pushes null. -/
def pushNull : Exec Unit :=
  Exec.push .null

/-- Pushes the operand as a byte string. -/
def pushData (config : Config) (i : Instruction) : Exec Unit := do
  if i.operand.length > config.maxItemSize then
    throw (.itemTooLarge i.operand.length config.maxItemSize)
  Exec.push (.byteString i.operand)

/-- Pushes the distance of the opcode from `PUSH0`. -/
def pushSmall (i : Instruction) : Exec Unit :=
  Exec.push (.integer ((i.opcode.byte.toNat : Int) - Opcode.push0.byte.toNat))

end Semantics

end SymbolicScript
