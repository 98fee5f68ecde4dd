import SymbolicScript.Machine.State

/-!
# Rearranging the stack

Instructions that move, copy or drop items without looking at them. The counted ones take the
number of items, or the depth of an item, from the top of the stack.
-/

namespace SymbolicScript

namespace Semantics

/-- Pops a depth below the greatest stack size. -/
def popDepth (opcode : Opcode) : Exec Nat := do
  let n ← Exec.popCount opcode
  if n < Limits.stackSize then return n else throw (.outOfRange opcode n)

/-- Pushes the number of items on the stack, which is never known. -/
def depth : Exec Unit :=
  Exec.push .stackDepth

/-- Drops the top item. -/
def drop : Exec Unit :=
  discard Exec.pop

/-- Drops the item below the top. -/
def nip : Exec Unit :=
  Exec.modifyStack fun s => (s.removeAt 1).2

/-- Drops the item at the popped depth. -/
def xdrop (i : Instruction) : Exec Unit := do
  let n ← popDepth i.opcode
  Exec.modifyStack fun s => (s.removeAt n).2

/-- Drops all items. -/
def clear : Exec Unit :=
  Exec.modifyStack (·.clear)

/-- Pushes the item at a fixed depth. -/
def copyFrom (index : Nat) : Exec Unit := do
  Exec.push (← Exec.peek index)

/-- Pushes the item at the popped depth. -/
def pick (i : Instruction) : Exec Unit := do
  copyFrom (← popDepth i.opcode)

/-- Puts a copy of the top item in below the item under it. -/
def tuck : Exec Unit :=
  Exec.modifyStack fun s =>
    let (top, s) := s.peek 0
    s.insertAt 2 top

/-- Moves the item at a depth to the top. -/
def moveUp (index : Nat) : Exec Unit :=
  Exec.modifyStack fun s =>
    let (x, s) := s.removeAt index
    s.push x

/-- Moves the item at the popped depth to the top. -/
def roll (i : Instruction) : Exec Unit := do
  let n ← popDepth i.opcode
  unless n = 0 do moveUp n

/-- Reverses the top three items for `REVERSE3`, and the top four for any other opcode. -/
def reverseFixed (i : Instruction) : Exec Unit :=
  Exec.modifyStack (·.reverse (if i.opcode = .reverse3 then 3 else 4))

/-- Reverses as many items as popped. -/
def reverseCounted (i : Instruction) : Exec Unit := do
  let n ← popDepth i.opcode
  Exec.modifyStack (·.reverse n)

end Semantics

end SymbolicScript
