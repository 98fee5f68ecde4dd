import SymbolicScript.Machine.State

/-!
# Variables

Loading, storing and initializing variables. Accesses to static fields are recorded in every
frame, accesses to locals and arguments only in the entry frame, since those of a called routine
are its own business.
-/

namespace SymbolicScript

namespace Semantics

/-- The number of opcodes of a family that have their index built in. -/
def shortForms : Nat := 7

/-- The index of a variable: the place of the opcode in the family that begins with `first`, or
the operand for the last opcode of the family. -/
def variableIndex (first : Opcode) (i : Instruction) : Except ExecutionError Nat :=
  let short := i.opcode.byte.toNat - first.byte.toNat
  if short < shortForms then .ok short else i.unsignedToken 0 1

/-- The variables of a kind that the current frame can access. -/
def variablesOf (kind : SlotKind) : Exec Variables := do
  match kind with
  | .static => return (← Exec.world).statics
  | .local => return (← Exec.frame).locals
  | .argument => return (← Exec.frame).arguments

/-- Puts variables in the place of those of a kind. -/
def setVariables (kind : SlotKind) (v : Variables) : Exec Unit := do
  match kind with
  | .static => Exec.modifyWorld fun w => { w with statics := v }
  | .local => Exec.setFrame { ← Exec.frame with locals := v }
  | .argument => Exec.setFrame { ← Exec.frame with arguments := v }

/-- Whether accesses to variables of a kind are recorded now. -/
def isTracked (kind : SlotKind) : Exec Bool :=
  return kind = .static || (← get).depth ≤ 1

/-- Pushes the value of a variable. -/
def load (kind : SlotKind) (first : Opcode) (i : Instruction) : Exec Unit := do
  let index ← variableIndex first i
  let x ← (← variablesOf kind).load index
  if ← isTracked kind then
    Exec.recordRead (.slot kind index) i.offset
  Exec.push x

/-- Pops the value of a variable. -/
def store (kind : SlotKind) (first : Opcode) (i : Instruction) : Exec Unit := do
  let index ← variableIndex first i
  let x ← Exec.pop
  setVariables kind (← (← variablesOf kind).store index x)
  if ← isTracked kind then
    Exec.recordWrite (.slot kind index) i.offset

/-- Initializes as many static fields as the operand says. -/
def allocateStatics (i : Instruction) : Exec Unit := do
  let count ← i.unsignedToken 0 1
  if count = 0 then throw (.invalidOperand i.opcode)
  setVariables .static (← (← variablesOf .static).allocate count)

/-- Initializes the locals of the frame to null and its arguments to popped items, in the numbers
that the operand gives. -/
def allocateFrame (i : Instruction) : Exec Unit := do
  let locals ← i.unsignedToken 0 1
  let arguments ← i.unsignedToken 1 1
  if locals = 0 ∧ arguments = 0 then throw (.invalidOperand i.opcode)
  let f ← Exec.frame
  if f.locals.isInitialized then throw (.slotAlreadyInitialized .local)
  if f.arguments.isInitialized then throw (.slotAlreadyInitialized .argument)
  let values ← Exec.popMany arguments
  setVariables .local (← f.locals.allocate locals)
  setVariables .argument (← f.arguments.allocateWith values)

end Semantics

end SymbolicScript
