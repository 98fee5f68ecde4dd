import SymbolicScript.Number.LittleEndian

/-!
# Types of items and kinds of slots

Every stack item has a type, and the types that instructions can name have an encoding as one
byte. Variables live in three kinds of slots.
-/

namespace SymbolicScript

/-- The type of a stack item. -/
inductive ItemType where
  | any | pointer | boolean | integer | byteString | buffer | array | struct | map
  | interopInterface
  deriving DecidableEq, Repr

namespace ItemType

/-- The byte that encodes a type as an operand. -/
def byte : ItemType → UInt8
  | any => 0x00
  | pointer => 0x10
  | boolean => 0x20
  | integer => 0x21
  | byteString => 0x28
  | buffer => 0x30
  | array => 0x40
  | struct => 0x41
  | map => 0x48
  | interopInterface => 0x60

/-- The name of a type. -/
def name : ItemType → String
  | any => "Any"
  | pointer => "Pointer"
  | boolean => "Boolean"
  | integer => "Integer"
  | byteString => "ByteString"
  | buffer => "Buffer"
  | array => "Array"
  | struct => "Struct"
  | map => "Map"
  | interopInterface => "InteropInterface"

/-- Every type, in the order of their bytes. -/
def all : List ItemType :=
  [any, pointer, boolean, integer, byteString, buffer, array, struct, map, interopInterface]

/-- The type that a byte encodes, if any. -/
def ofByte? (byte : UInt8) : Option ItemType :=
  all.find? fun type => type.byte == byte

/-- Whether items of the type are compounds of other items. -/
def isCompound : ItemType → Bool
  | array | struct | map => true
  | _ => false

theorem ofByte?_byte (type : ItemType) : ofByte? type.byte = some type := by
  cases type <;> decide

end ItemType

/-- The kind of a variable slot. -/
inductive SlotKind where
  /-- Static fields, shared by all frames of a script. -/
  | static
  /-- Local variables of a frame. -/
  | local
  /-- Arguments of a frame. -/
  | argument
  deriving DecidableEq, Repr

/-- The name of a kind of slot. -/
def SlotKind.name : SlotKind → String
  | .static => "static"
  | .local => "local"
  | .argument => "argument"

end SymbolicScript
