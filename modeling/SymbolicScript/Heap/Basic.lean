import SymbolicScript.Item.Order

/-!
# The heap

Buffers, arrays and structs live on a heap and are referred to by handle. Objects are never
removed, so a handle that refers to an object keeps doing so. Arrays and structs can be frozen,
after which their elements do not change any more.
-/

namespace SymbolicScript

/-- Whether a compound is an array or a struct. -/
inductive CompoundKind where
  | array | struct
  deriving DecidableEq, Repr

/-- The item type of a kind of compound. -/
def CompoundKind.type : CompoundKind → ItemType
  | .array => .array
  | .struct => .struct

/-- The item that refers to a compound by its handle. -/
def CompoundKind.item : CompoundKind → Nat → Item
  | .array, handle => .array handle
  | .struct, handle => .struct handle

/-- An object of the heap. -/
inductive HeapObject where
  /-- A mutable byte array. -/
  | buffer (bytes : Bytes)
  /-- An array or a struct with its elements. -/
  | compound (kind : CompoundKind) (items : List Item) (readOnly : Bool)
  deriving DecidableEq, Repr

namespace HeapObject

/-- The type of the items that refer to the object. -/
def type : HeapObject → ItemType
  | buffer _ => .buffer
  | compound kind _ _ => kind.type

/-- Whether the object is frozen. Buffers never are. -/
def isReadOnly : HeapObject → Bool
  | buffer _ => false
  | compound _ _ readOnly => readOnly

/-- The number of bytes or elements. -/
def length : HeapObject → Nat
  | buffer bytes => bytes.length
  | compound _ items _ => items.length

/-- The item that refers to the object if its handle is `handle`. -/
def item (handle : Nat) : HeapObject → Item
  | buffer _ => .buffer handle
  | compound kind _ _ => kind.item handle

/-- The object with its elements frozen. -/
def frozen : HeapObject → HeapObject
  | buffer bytes => buffer bytes
  | compound kind items _ => compound kind items true

end HeapObject

/-- The objects in the order of their allocation; a handle is an index into them. -/
structure Heap where
  /-- The objects. -/
  objects : Array HeapObject
  deriving DecidableEq, Repr

namespace Heap

/-- The heap without objects. -/
def empty : Heap := ⟨#[]⟩

/-- The number of objects. -/
def size (heap : Heap) : Nat := heap.objects.size

/-- Adds an object, whose handle is the former size. -/
def add (heap : Heap) (object : HeapObject) : Heap :=
  ⟨heap.objects.push object⟩

/-- Adds a buffer. -/
def newBuffer (heap : Heap) (bytes : Bytes) : Item × Heap :=
  (.buffer heap.size, heap.add (.buffer bytes))

/-- Adds an array or a struct. -/
def newCompound (heap : Heap) (kind : CompoundKind) (items : List Item) : Item × Heap :=
  (kind.item heap.size, heap.add (.compound kind items false))

/-- The object behind a handle. -/
def object (heap : Heap) (handle : Nat) : Except ExecutionError HeapObject :=
  match heap.objects[handle]? with
  | some object => .ok object
  | none => .error (.invalidHeapHandle handle)

/-- Puts an object in the place of the one behind a handle. -/
def put (heap : Heap) (handle : Nat) (object : HeapObject) : Heap :=
  ⟨heap.objects.setIfInBounds handle object⟩

/-- The elements of an array or a struct. -/
def items (heap : Heap) (handle : Nat) : Except ExecutionError (List Item) := do
  match ← heap.object handle with
  | .compound _ items _ => return items
  | .buffer _ => throw (.invalidCast .buffer .array)

/-- The bytes of a buffer. -/
def bytes (heap : Heap) (handle : Nat) : Except ExecutionError Bytes := do
  match ← heap.object handle with
  | .buffer bytes => return bytes
  | .compound kind _ _ => throw (.invalidCast kind.type .buffer)

/-- Changes the elements of an array or a struct that is not frozen. -/
def modifyItems (heap : Heap) (handle : Nat)
    (change : List Item → Except ExecutionError (List Item)) : Except ExecutionError Heap := do
  match ← heap.object handle with
  | .compound _ _ true => throw .immutable
  | .compound kind items false => return heap.put handle (.compound kind (← change items) false)
  | .buffer _ => throw (.invalidCast .buffer .array)

/-- Changes the bytes of a buffer. -/
def modifyBytes (heap : Heap) (handle : Nat)
    (change : Bytes → Except ExecutionError Bytes) : Except ExecutionError Heap := do
  let bytes ← heap.bytes handle
  return heap.put handle (.buffer (← change bytes))

/-- Freezes an array or a struct; a buffer stays as it is. -/
def freeze (heap : Heap) (handle : Nat) : Except ExecutionError Heap := do
  let object ← heap.object handle
  return heap.put handle object.frozen

/-- The item that refers to the object behind a handle. -/
def itemFor (heap : Heap) (handle : Nat) : Except ExecutionError Item := do
  let object ← heap.object handle
  return object.item handle

/-- The item as a byte string, if it is known. Integers give their shortest form. -/
def bytesOf (heap : Heap) (x : Item) : Except ExecutionError (Option Bytes) :=
  match x.known? with
  | none => .ok none
  | some (.byteString bytes) => .ok (some bytes)
  | some (.buffer handle) => (heap.bytes handle).map some
  | some (.integer value) => .ok (some (TwosComplement.minimal value))
  | some (.boolean value) => .ok (some [if value then 1 else 0])
  | some other => .error (.invalidCast other.type .byteString)

end Heap

end SymbolicScript
