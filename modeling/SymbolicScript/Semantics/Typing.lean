import SymbolicScript.Heap.Conversion
import SymbolicScript.Heap.Equality
import SymbolicScript.Machine.State

/-!
# Types and equality

Questions whose answer depends on a symbolic item are answered by a fresh unknown boolean.
-/

namespace SymbolicScript

namespace Semantics

/-- The type in the operand, which must not be `any`. -/
def typeOperand (i : Instruction) : Except ExecutionError ItemType := do
  match ItemType.ofByte? (UInt8.ofNat (← i.unsignedToken 0 1)) with
  | none | some .any => throw (.invalidOperand i.opcode)
  | some type => return type

/-- Pushes a truth value, or an unknown one. -/
def pushAnswer (answer : Option Bool) : Exec Unit := do
  match answer with
  | some value => Exec.push (.boolean value)
  | none => Exec.push (← Exec.fresh .boolean)

/-- Whether two items are equal, for `EQUAL`, or not, for any other opcode. -/
def equal (i : Instruction) : Exec Unit := do
  let y ← Exec.pop
  let x ← Exec.pop
  let answer ← (← Exec.heap).equals x y
  pushAnswer (answer.map fun same => same = decide (i.opcode = .equal))

/-- Whether an item is null. -/
def isNull : Exec Unit := do
  let x ← Exec.pop
  pushAnswer (if x.isSymbolic then none else some x.isNull)

/-- Whether an item other than null has the type in the operand. -/
def isType (i : Instruction) : Exec Unit := do
  let type ← typeOperand i
  let x ← Exec.pop
  pushAnswer (x.known?.map fun value => !value.isNull && value.type = type)

/-- Converts an item to the type in the operand. -/
def convert (i : Instruction) : Exec Unit := do
  let type ← typeOperand i
  let x ← Exec.pop
  let id ← Exec.freshId
  let (y, heap) ← (← Exec.heap).convert id x type
  Exec.setHeap heap
  Exec.push y

end Semantics

end SymbolicScript
