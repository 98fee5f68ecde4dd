import SymbolicScript.Heap.Basic

/-!
# Converting items

An item converts to its own type without change. Primitive values convert to each other through
their byte strings, arrays and structs convert to each other with the same elements, and a
symbolic item converts to a fresh unknown of the target type.
-/

namespace SymbolicScript

namespace Heap

/-- The integer that the bytes of a buffer denote, unless there are too many of them. -/
def bufferInteger (bytes : Bytes) : Except ExecutionError Int :=
  if bytes.length ≤ Limits.integerBytes then .ok (TwosComplement.toInt bytes)
  else .error (.invalidCast .buffer .integer)

/-- Converts a plain value of another type than `target`. -/
def convertKnown (heap : Heap) (value : Item) (target : ItemType) :
    Except ExecutionError (Item × Heap) :=
  match value, target with
  | .null, _ => .error (.invalidCast .any target)
  | value, .boolean => do
    let truth ← value.toBoolean?
    return (.constant (.boolean (truth.getD false)), heap)
  | .boolean _, .integer | .integer _, .integer | .byteString _, .integer => do
    let number ← value.toInteger?
    return (.constant (.integer (number.getD 0)), heap)
  | .buffer handle, .integer => do
    let number ← bufferInteger (← heap.bytes handle)
    return (.constant (.integer number), heap)
  | .boolean _, .byteString | .integer _, .byteString | .byteString _, .byteString
  | .buffer _, .byteString => do
    let bytes ← heap.bytesOf value
    return (.constant (.byteString (bytes.getD [])), heap)
  | .boolean _, .buffer | .integer _, .buffer | .byteString _, .buffer => do
    let bytes ← heap.bytesOf value
    return heap.newBuffer (bytes.getD [])
  | .array handle, .struct => do
    return heap.newCompound .struct (← heap.items handle)
  | .struct handle, .array => do
    return heap.newCompound .array (← heap.items handle)
  | value, target => .error (.invalidCast value.type target)

/-- Converts an item to `target`. The identity `id` is used if the outcome is a fresh unknown. -/
def convert (heap : Heap) (id : Nat) (x : Item) (target : ItemType) :
    Except ExecutionError (Item × Heap) :=
  match x.known? with
  | none => .ok (.unknown target (.fresh id), heap)
  | some value =>
    if value.type = target then .ok (x, heap) else heap.convertKnown value target

end Heap

end SymbolicScript
