import SymbolicScript.Error.Execution
import SymbolicScript.Limits
import SymbolicScript.Number.TwosComplement

/-!
# Stack items

An item is either known, when it is certain which value it has at run time, or symbolic, when it
stands for whatever that value will be. Known values are plain, or wrapped by `const` where an
instruction produced them; the wrapper carries no meaning of its own and `Item.known?` looks
through it. A symbolic item is an unknown, about which nothing is known but its type, or a
variable, which tells where the value comes from.

Buffers, arrays and structs live on a heap, and their items refer to them by handle.
-/

namespace SymbolicScript

/-- How an unknown came about. -/
inductive UnknownOrigin where
  /-- It stands for the stack entry that lies `index` places below everything pushed so far. -/
  | extension (index : Nat)
  /-- It was introduced where an outcome could not be determined; `id` sets it apart. -/
  | fresh (id : Nat)
  deriving DecidableEq, Repr

/-- A value on the evaluation stack, in a slot, or in a compound. -/
inductive Item where
  | null
  | boolean (value : Bool)
  | integer (value : Int)
  | byteString (bytes : Bytes)
  /-- A position in the script. -/
  | pointer (target : Nat)
  /-- A byte array on the heap. -/
  | buffer (handle : Nat)
  /-- An array on the heap, shared by reference. -/
  | array (handle : Nat)
  /-- A struct on the heap, copied where it is stored into a compound. -/
  | struct (handle : Nat)
  /-- A value of which at most the type is known. -/
  | unknown (type : ItemType) (origin : UnknownOrigin)
  /-- A value that a constant push or the folding of constants produced. -/
  | const (value : Item)
  /-- The value that a variable had before the script touched it. -/
  | slot (kind : SlotKind) (index : Nat)
  /-- The value that storage held under a key before the script touched it. -/
  | storage (key : Item)
  /-- The result of an instruction on operands that are not all known. -/
  | derived (opcode : Opcode) (operands : List Item)
  /-- The number of items on the stack. -/
  | stackDepth
  deriving Repr

namespace Item

/-- Wraps a plain value; a wrapped or symbolic item stays as it is. -/
def constant (x : Item) : Item :=
  match x with
  | const _ | unknown _ _ | slot _ _ | storage _ | derived _ _ | stackDepth => x
  | plain => .const plain

/-- The plain value of an item, seen through wrappers; none if the item is symbolic. -/
def known? : Item → Option Item
  | const inner => inner.known?
  | unknown _ _ | slot _ _ | storage _ | derived _ _ | stackDepth => none
  | plain => some plain

/-- Whether the value of the item is not known. -/
def isSymbolic (x : Item) : Bool :=
  x.known?.isNone

/-- The type of an item. Variables report `any`. -/
def type : Item → ItemType
  | null => .any
  | boolean _ => .boolean
  | integer _ => .integer
  | byteString _ => .byteString
  | pointer _ => .pointer
  | buffer _ => .buffer
  | array _ => .array
  | struct _ => .struct
  | unknown type _ => type
  | const inner => inner.type
  | slot _ _ | storage _ | derived _ _ | stackDepth => .any

/-- Whether the item is known to be null. -/
def isNull (x : Item) : Bool :=
  match x.known? with
  | some null => true
  | _ => false

/-- The handle of a known buffer, array or struct. -/
def handle? (x : Item) : Option Nat :=
  match x.known? with
  | some (buffer handle) | some (array handle) | some (struct handle) => some handle
  | _ => none

/-- The handle of a known struct. -/
def structHandle? (x : Item) : Option Nat :=
  match x.known? with
  | some (struct handle) => some handle
  | _ => none

/-- The truth value of an item, if it is known. Integers and byte strings are true unless they
are zero, null is false, and everything else is true. -/
def toBoolean? (x : Item) : Except ExecutionError (Option Bool) :=
  match x.known? with
  | none => .ok none
  | some null => .ok (some false)
  | some (boolean value) => .ok (some value)
  | some (integer value) => .ok (some (value ≠ 0))
  | some (byteString bytes) =>
    if bytes.length ≤ Limits.integerBytes then .ok (some (bytes.any (· ≠ 0)))
    else .error (.invalidCast .byteString .boolean)
  | some _ => .ok (some true)

/-- The integer value of an item, if it is known. -/
def toInteger? (x : Item) : Except ExecutionError (Option Int) :=
  match x.known? with
  | none => .ok none
  | some (integer value) => .ok (some value)
  | some (boolean value) => .ok (some (if value then 1 else 0))
  | some (byteString bytes) =>
    if bytes.length ≤ Limits.integerBytes then .ok (some (TwosComplement.toInt bytes))
    else .error (.invalidCast .byteString .integer)
  | some other => .error (.invalidCast other.type .integer)

end Item

end SymbolicScript
