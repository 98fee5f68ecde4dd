import SymbolicScript.Machine.State

/-!
# Splicing bytes

Instructions that build buffers and copy between them. Their counts and positions must be known,
and a source whose bytes are symbolic makes the result a derived variable.
-/

namespace SymbolicScript

namespace Semantics

/-- Fails for an item that would be too large. -/
def checkSize (config : Config) (size : Nat) : Except ExecutionError Unit :=
  if size > config.maxItemSize then .error (.itemTooLarge size config.maxItemSize) else .ok ()

/-- The error for a count or position, which no machine can represent beyond the greatest word. -/
def positionError (opcode : Opcode) (value : Nat) : ExecutionError :=
  .outOfRange opcode (min value Limits.word : Nat)

/-- The `count` bytes from `index` on. -/
def slice (opcode : Opcode) (bytes : Bytes) (index count : Nat) : Except ExecutionError Bytes :=
  if index + count ≤ bytes.length then .ok ((bytes.drop index).take count)
  else .error (positionError opcode (index + count))

/-- The bytes with those from `index` on overwritten by `source`. -/
def overwrite (opcode : Opcode) (index : Nat) (source bytes : Bytes) :
    Except ExecutionError Bytes :=
  if index + source.length ≤ bytes.length then
    .ok (bytes.take index ++ source ++ bytes.drop (index + source.length))
  else
    .error (positionError opcode (index + source.length))

/-- The bytes of an item, if they are known. -/
def bytesOf (x : Item) : Exec (Option Bytes) := do
  (← Exec.heap).bytesOf x

/-- Pushes a buffer of zeros of the popped size. -/
def newBuffer (config : Config) (i : Instruction) : Exec Unit := do
  let length ← Exec.pop
  match ← length.toInteger? with
  | none => Exec.push (.derived i.opcode [length])
  | some value =>
    if value < 0 ∨ value > Limits.word then throw (.outOfRange i.opcode value)
    checkSize config value.toNat
    Exec.pushBuffer (List.replicate value.toNat 0)

/-- Copies bytes of an item into a buffer. -/
def memcpy (i : Instruction) : Exec Unit := do
  let count ← Exec.popCount i.opcode
  let sourceIndex ← Exec.popCount i.opcode
  let source ← Exec.pop
  let bytes ← Exec.demand i.opcode (← bytesOf source)
  let part ← slice i.opcode bytes sourceIndex count
  let index ← Exec.popCount i.opcode
  let target ← Exec.pop
  match target.known? with
  | some (.buffer handle) =>
    Exec.setHeap (← (← Exec.heap).modifyBytes handle (overwrite i.opcode index part))
  | some other => throw (.invalidCast other.type .buffer)
  | none => throw (.nonConstantOperand i.opcode)

/-- Pushes a buffer of the bytes of two items. -/
def concat (config : Config) (i : Instruction) : Exec Unit := do
  let y ← Exec.pop
  let x ← Exec.pop
  let first ← bytesOf x
  let second ← bytesOf y
  match first, second with
  | some first, some second =>
    checkSize config (first.length + second.length)
    Exec.pushBuffer (first ++ second)
  | _, _ => Exec.push (.derived i.opcode [x, y])

/-- A count as an operand of a derived variable. -/
def countItem (n : Nat) : Item := .constant (.integer n)

/-- Pushes a buffer of bytes from the middle of an item. -/
def substring (i : Instruction) : Exec Unit := do
  let count ← Exec.popCount i.opcode
  let index ← Exec.popCount i.opcode
  let x ← Exec.pop
  match ← bytesOf x with
  | none => Exec.push (.derived i.opcode [x, countItem index, countItem count])
  | some bytes => Exec.pushBuffer (← slice i.opcode bytes index count)

/-- Pushes a buffer of bytes from an end of an item, which `part` takes if there are enough. -/
def takeEnd (part : Nat → Bytes → Bytes) (i : Instruction) : Exec Unit := do
  let count ← Exec.popCount i.opcode
  let x ← Exec.pop
  match ← bytesOf x with
  | none => Exec.push (.derived i.opcode [x, countItem count])
  | some bytes =>
    if count ≤ bytes.length then Exec.pushBuffer (part count bytes)
    else throw (positionError i.opcode count)

/-- Pushes a buffer of the first bytes of an item. -/
def leftPart (i : Instruction) : Exec Unit :=
  takeEnd (fun count bytes => bytes.take count) i

/-- Pushes a buffer of the last bytes of an item. -/
def rightPart (i : Instruction) : Exec Unit :=
  takeEnd (fun count bytes => bytes.drop (bytes.length - count)) i

end Semantics

end SymbolicScript
