import SymbolicScript.Machine.State

/-!
# Arrays, structs and buffers

Instructions that create compounds, look into them and change them. The compound and the position
in it must be known; a size or an element of a symbolic item is a derived variable.
-/

namespace SymbolicScript

namespace Semantics

/-- An object that instructions on compounds work on. -/
inductive Target where
  /-- An array or a struct. -/
  | items (handle : Nat)
  /-- A buffer. -/
  | bytes (handle : Nat)

/-- The object that an operand refers to. -/
def target (opcode : Opcode) (x : Item) : Except ExecutionError Target :=
  match x.known? with
  | some (.array handle) | some (.struct handle) => .ok (.items handle)
  | some (.buffer handle) => .ok (.bytes handle)
  | some other => .error (.invalidCast other.type .array)
  | none => .error (.nonConstantOperand opcode)

/-- The array or struct that an operand refers to. -/
def itemsTarget (opcode : Opcode) (x : Item) : Except ExecutionError Nat := do
  match ← target opcode x with
  | .items handle => return handle
  | .bytes _ => throw (.invalidCast .buffer .array)

/-- The position that a key denotes in a sequence of a length. -/
def position (opcode : Opcode) (key : Item) (length : Nat) : Except ExecutionError Nat := do
  match ← key.toInteger? with
  | none => throw (.nonConstantOperand opcode)
  | some value =>
    if 0 ≤ value ∧ value < length then return value.toNat else throw (.outOfRange opcode value)

/-- Pops a number of elements that a compound can have. -/
def popSize (opcode : Opcode) : Exec Nat := do
  let size ← Exec.popCount opcode
  if size ≤ Limits.stackSize then return size else throw (.outOfRange opcode size)

/-- A struct if asked for, else an array. -/
def kindOf (isStruct : Bool) : CompoundKind :=
  if isStruct then .struct else .array

/-- Packs popped items, topmost first, into a struct for `PACKSTRUCT` and else into an array. -/
def pack (i : Instruction) : Exec Unit := do
  let size ← popSize i.opcode
  let items ← Exec.popMany size
  Exec.pushCompound (kindOf (i.opcode = .packStruct)) items

/-- Pushes the elements of a compound, the first one last, and then their number. -/
def unpack (i : Instruction) : Exec Unit := do
  let compound ← Exec.pop
  let handle ← itemsTarget i.opcode compound
  let items ← (← Exec.heap).items handle
  Exec.modifyStack (·.pushAll (items.map Item.constant))
  Exec.push (.integer items.length)

/-- Pushes an empty struct for `NEWSTRUCT0` and else an empty array. -/
def newEmpty (i : Instruction) : Exec Unit :=
  Exec.pushCompound (kindOf (i.opcode = .newStruct0)) []

/-- Pushes a struct for `NEWSTRUCT`, and else an array, of as many nulls as popped. -/
def newSized (i : Instruction) : Exec Unit := do
  let size ← popSize i.opcode
  Exec.pushCompound (kindOf (i.opcode = .newStruct)) (List.replicate size .null)

/-- The initial value of an array element of a type. -/
def defaultItem : ItemType → Item
  | .boolean => .constant (.boolean false)
  | .integer => .constant (.integer 0)
  | .byteString => .constant (.byteString [])
  | _ => .constant .null

/-- Pushes an array of as many initial values of the type in the operand as popped. -/
def newTyped (i : Instruction) : Exec Unit := do
  match ItemType.ofByte? (UInt8.ofNat (← i.unsignedToken 0 1)) with
  | none => throw (.invalidOperand i.opcode)
  | some type =>
    let size ← popSize i.opcode
    Exec.pushCompound .array (List.replicate size (defaultItem type))

/-- The number of elements or bytes of a plain value. -/
def sizeOf (heap : Heap) (value : Item) : Except ExecutionError Nat :=
  match value with
  | .array handle | .struct handle | .buffer handle => (heap.object handle).map HeapObject.length
  | value => (heap.bytesOf value).map fun bytes => (bytes.getD []).length

/-- Replaces an item by its number of elements or bytes. -/
def size (i : Instruction) : Exec Unit := do
  let x ← Exec.pop
  match x.known? with
  | none => Exec.push (.derived i.opcode [x])
  | some value => Exec.push (.integer (← sizeOf (← Exec.heap) value))

/-- The element of a known compound, or the byte of any other known item, that a key denotes. -/
def element (opcode : Opcode) (heap : Heap) (x key : Item) : Except ExecutionError Item :=
  match target opcode x with
  | .ok (.items handle) => do
    let items ← heap.items handle
    return items.getD (← position opcode key items.length) .null
  | _ => do
    let bytes := (← heap.bytesOf x).getD []
    return .integer (bytes.getD (← position opcode key bytes.length) 0).toNat

/-- Replaces an item and a key by the element of the item. -/
def pickItem (i : Instruction) : Exec Unit := do
  let key ← Exec.pop
  let x ← Exec.pop
  if x.isSymbolic || key.isSymbolic then
    Exec.push (.derived i.opcode [x, key])
  else
    Exec.push (← element i.opcode (← Exec.heap) x key)

/-- Changes the elements of an array or a struct. -/
def modifyItems (handle : Nat) (change : List Item → Except ExecutionError (List Item)) :
    Exec Unit := do
  Exec.setHeap (← (← Exec.heap).modifyItems handle change)

/-- Changes the bytes of a buffer. -/
def modifyBytes (handle : Nat) (change : Bytes → Except ExecutionError Bytes) : Exec Unit := do
  Exec.setHeap (← (← Exec.heap).modifyBytes handle change)

/-- Adds an item at the end of a compound. -/
def append (i : Instruction) : Exec Unit := do
  let x ← Exec.pop
  let compound ← Exec.pop
  let handle ← itemsTarget i.opcode compound
  let copy ← Exec.cloneStruct x
  modifyItems handle fun items =>
    if items.length < Limits.stackSize then .ok (items ++ [copy])
    else .error (.outOfRange i.opcode (items.length + 1))

/-- The byte that an item denotes as a value between -128 and 255. -/
def byteValue (opcode : Opcode) (x : Item) : Except ExecutionError UInt8 := do
  match ← x.toInteger? with
  | none => throw (.nonConstantOperand opcode)
  | some value =>
    if -128 ≤ value ∧ value ≤ 255 then return UInt8.ofNat (value % 256).toNat
    else throw (.outOfRange opcode value)

/-- Replaces an element of a compound or a byte of a buffer. -/
def setItem (i : Instruction) : Exec Unit := do
  let value ← Exec.pop
  let key ← Exec.pop
  let compound ← Exec.pop
  match ← target i.opcode compound with
  | .items handle =>
    let copy ← Exec.cloneStruct value
    modifyItems handle fun items => do
      return items.set (← position i.opcode key items.length) copy
  | .bytes handle =>
    let byte ← byteValue i.opcode value
    modifyBytes handle fun bytes => do
      return bytes.set (← position i.opcode key bytes.length) byte

/-- Reverses the elements of a compound or the bytes of a buffer. -/
def reverseItems (i : Instruction) : Exec Unit := do
  let compound ← Exec.pop
  match ← target i.opcode compound with
  | .items handle => modifyItems handle fun items => .ok items.reverse
  | .bytes handle => modifyBytes handle fun bytes => .ok bytes.reverse

/-- Removes an element of a compound. -/
def remove (i : Instruction) : Exec Unit := do
  let key ← Exec.pop
  let compound ← Exec.pop
  let handle ← itemsTarget i.opcode compound
  modifyItems handle fun items => do
    return items.eraseIdx (← position i.opcode key items.length)

/-- Removes all elements of a compound. -/
def clearItems (i : Instruction) : Exec Unit := do
  let compound ← Exec.pop
  let handle ← itemsTarget i.opcode compound
  modifyItems handle fun _ => .ok []

/-- Removes the last element of a compound and pushes it. -/
def popItem (i : Instruction) : Exec Unit := do
  let compound ← Exec.pop
  let handle ← itemsTarget i.opcode compound
  let heap ← Exec.heap
  modifyItems handle fun items =>
    if items.isEmpty then .error (.outOfRange i.opcode (-1)) else .ok items.dropLast
  Exec.push ((← heap.items handle).getLastD .null)

end Semantics

end SymbolicScript
