import SymbolicScript.Number.LittleEndian

/-!
# Opcodes

The instruction set as one table: every opcode has the byte that encodes it, its mnemonic, its
name, and the layout of the operand behind it. `Opcode.ofByte?` inverts the table, which is
possible since the bytes ascend and none occurs twice; a byte outside the table is unassigned.
-/

namespace SymbolicScript

/-- The layout of the operand that follows an opcode byte. -/
inductive OperandLayout where
  /-- The operand has exactly `width` bytes. -/
  | fixed (width : Nat)
  /-- The operand follows its own length, a little-endian number of `width` bytes. -/
  | counted (width : Nat)
  deriving DecidableEq, Repr

/-- The number of bytes between the opcode byte and the operand. -/
def OperandLayout.lengthWidth : OperandLayout → Nat
  | .fixed _ => 0
  | .counted width => width

/-- An operation code. -/
inductive Opcode where
  | pushInt8 | pushInt16 | pushInt32 | pushInt64 | pushInt128 | pushInt256 | pushT | pushF
  | pushA | pushNull | pushData1 | pushData2 | pushData4 | pushM1 | push0 | push1 | push2 | push3
  | push4 | push5 | push6 | push7 | push8 | push9 | push10 | push11 | push12 | push13 | push14
  | push15 | push16 | nop | jmp | jmpL | jmpIf | jmpIfL | jmpIfNot | jmpIfNotL | jmpEq | jmpEqL
  | jmpNe | jmpNeL | jmpGt | jmpGtL | jmpGe | jmpGeL | jmpLt | jmpLtL | jmpLe | jmpLeL | call
  | callL | callA | callT | abort | assert | throw | beginTry | beginTryL | endTry | endTryL
  | endFinally | ret | syscall | depth | drop | nip | xDrop | clear | dup | over | pick | tuck
  | swap | rot | roll | reverse3 | reverse4 | reverseN | initSSlot | initSlot | ldSFld0 | ldSFld1
  | ldSFld2 | ldSFld3 | ldSFld4 | ldSFld5 | ldSFld6 | ldSFld | stSFld0 | stSFld1 | stSFld2
  | stSFld3 | stSFld4 | stSFld5 | stSFld6 | stSFld | ldLoc0 | ldLoc1 | ldLoc2 | ldLoc3 | ldLoc4
  | ldLoc5 | ldLoc6 | ldLoc | stLoc0 | stLoc1 | stLoc2 | stLoc3 | stLoc4 | stLoc5 | stLoc6
  | stLoc | ldArg0 | ldArg1 | ldArg2 | ldArg3 | ldArg4 | ldArg5 | ldArg6 | ldArg | stArg0
  | stArg1 | stArg2 | stArg3 | stArg4 | stArg5 | stArg6 | stArg | newBuffer | memcpy | cat
  | substr | left | right | invert | and | or | xor | equal | notEqual | sign | abs | negate
  | inc | dec | add | sub | mul | div | mod | pow | sqrt | modMul | modPow | shl | shr | not
  | boolAnd | boolOr | nz | numEqual | numNotEqual | lt | le | gt | ge | min | max | within
  | packMap | packStruct | pack | unpack | newArray0 | newArray | newArrayT | newStruct0
  | newStruct | newMap | size | hasKey | keys | values | pickItem | append | setItem
  | reverseItems | remove | clearItems | popItem | isNull | isType | convert | abortMsg
  | assertMsg
  deriving DecidableEq, Repr

namespace Opcode

/-- A row of the instruction set. -/
structure Info where
  /-- The byte that encodes the opcode. -/
  byte : UInt8
  /-- The assembly mnemonic. -/
  mnemonic : String
  /-- The name in mixed case. -/
  name : String
  /-- The layout of the operand. -/
  layout : OperandLayout
  deriving DecidableEq, Repr

/-- The row of an opcode. -/
def info : Opcode → Info
  | .pushInt8 => ⟨0x00, "PUSHINT8", "PushInt8", .fixed 1⟩
  | .pushInt16 => ⟨0x01, "PUSHINT16", "PushInt16", .fixed 2⟩
  | .pushInt32 => ⟨0x02, "PUSHINT32", "PushInt32", .fixed 4⟩
  | .pushInt64 => ⟨0x03, "PUSHINT64", "PushInt64", .fixed 8⟩
  | .pushInt128 => ⟨0x04, "PUSHINT128", "PushInt128", .fixed 16⟩
  | .pushInt256 => ⟨0x05, "PUSHINT256", "PushInt256", .fixed 32⟩
  | .pushT => ⟨0x08, "PUSHT", "PushT", .fixed 0⟩
  | .pushF => ⟨0x09, "PUSHF", "PushF", .fixed 0⟩
  | .pushA => ⟨0x0A, "PUSHA", "PushA", .fixed 4⟩
  | .pushNull => ⟨0x0B, "PUSHNULL", "PushNull", .fixed 0⟩
  | .pushData1 => ⟨0x0C, "PUSHDATA1", "PushData1", .counted 1⟩
  | .pushData2 => ⟨0x0D, "PUSHDATA2", "PushData2", .counted 2⟩
  | .pushData4 => ⟨0x0E, "PUSHDATA4", "PushData4", .counted 4⟩
  | .pushM1 => ⟨0x0F, "PUSHM1", "PushM1", .fixed 0⟩
  | .push0 => ⟨0x10, "PUSH0", "Push0", .fixed 0⟩
  | .push1 => ⟨0x11, "PUSH1", "Push1", .fixed 0⟩
  | .push2 => ⟨0x12, "PUSH2", "Push2", .fixed 0⟩
  | .push3 => ⟨0x13, "PUSH3", "Push3", .fixed 0⟩
  | .push4 => ⟨0x14, "PUSH4", "Push4", .fixed 0⟩
  | .push5 => ⟨0x15, "PUSH5", "Push5", .fixed 0⟩
  | .push6 => ⟨0x16, "PUSH6", "Push6", .fixed 0⟩
  | .push7 => ⟨0x17, "PUSH7", "Push7", .fixed 0⟩
  | .push8 => ⟨0x18, "PUSH8", "Push8", .fixed 0⟩
  | .push9 => ⟨0x19, "PUSH9", "Push9", .fixed 0⟩
  | .push10 => ⟨0x1A, "PUSH10", "Push10", .fixed 0⟩
  | .push11 => ⟨0x1B, "PUSH11", "Push11", .fixed 0⟩
  | .push12 => ⟨0x1C, "PUSH12", "Push12", .fixed 0⟩
  | .push13 => ⟨0x1D, "PUSH13", "Push13", .fixed 0⟩
  | .push14 => ⟨0x1E, "PUSH14", "Push14", .fixed 0⟩
  | .push15 => ⟨0x1F, "PUSH15", "Push15", .fixed 0⟩
  | .push16 => ⟨0x20, "PUSH16", "Push16", .fixed 0⟩
  | .nop => ⟨0x21, "NOP", "Nop", .fixed 0⟩
  | .jmp => ⟨0x22, "JMP", "Jmp", .fixed 1⟩
  | .jmpL => ⟨0x23, "JMP_L", "JmpL", .fixed 4⟩
  | .jmpIf => ⟨0x24, "JMPIF", "JmpIf", .fixed 1⟩
  | .jmpIfL => ⟨0x25, "JMPIF_L", "JmpIfL", .fixed 4⟩
  | .jmpIfNot => ⟨0x26, "JMPIFNOT", "JmpIfNot", .fixed 1⟩
  | .jmpIfNotL => ⟨0x27, "JMPIFNOT_L", "JmpIfNotL", .fixed 4⟩
  | .jmpEq => ⟨0x28, "JMPEQ", "JmpEq", .fixed 1⟩
  | .jmpEqL => ⟨0x29, "JMPEQ_L", "JmpEqL", .fixed 4⟩
  | .jmpNe => ⟨0x2A, "JMPNE", "JmpNe", .fixed 1⟩
  | .jmpNeL => ⟨0x2B, "JMPNE_L", "JmpNeL", .fixed 4⟩
  | .jmpGt => ⟨0x2C, "JMPGT", "JmpGt", .fixed 1⟩
  | .jmpGtL => ⟨0x2D, "JMPGT_L", "JmpGtL", .fixed 4⟩
  | .jmpGe => ⟨0x2E, "JMPGE", "JmpGe", .fixed 1⟩
  | .jmpGeL => ⟨0x2F, "JMPGE_L", "JmpGeL", .fixed 4⟩
  | .jmpLt => ⟨0x30, "JMPLT", "JmpLt", .fixed 1⟩
  | .jmpLtL => ⟨0x31, "JMPLT_L", "JmpLtL", .fixed 4⟩
  | .jmpLe => ⟨0x32, "JMPLE", "JmpLe", .fixed 1⟩
  | .jmpLeL => ⟨0x33, "JMPLE_L", "JmpLeL", .fixed 4⟩
  | .call => ⟨0x34, "CALL", "Call", .fixed 1⟩
  | .callL => ⟨0x35, "CALL_L", "CallL", .fixed 4⟩
  | .callA => ⟨0x36, "CALLA", "CallA", .fixed 0⟩
  | .callT => ⟨0x37, "CALLT", "CallT", .fixed 2⟩
  | .abort => ⟨0x38, "ABORT", "Abort", .fixed 0⟩
  | .assert => ⟨0x39, "ASSERT", "Assert", .fixed 0⟩
  | .throw => ⟨0x3A, "THROW", "Throw", .fixed 0⟩
  | .beginTry => ⟨0x3B, "TRY", "Try", .fixed 2⟩
  | .beginTryL => ⟨0x3C, "TRY_L", "TryL", .fixed 8⟩
  | .endTry => ⟨0x3D, "ENDTRY", "EndTry", .fixed 1⟩
  | .endTryL => ⟨0x3E, "ENDTRY_L", "EndTryL", .fixed 4⟩
  | .endFinally => ⟨0x3F, "ENDFINALLY", "EndFinally", .fixed 0⟩
  | .ret => ⟨0x40, "RET", "Ret", .fixed 0⟩
  | .syscall => ⟨0x41, "SYSCALL", "Syscall", .fixed 4⟩
  | .depth => ⟨0x43, "DEPTH", "Depth", .fixed 0⟩
  | .drop => ⟨0x45, "DROP", "Drop", .fixed 0⟩
  | .nip => ⟨0x46, "NIP", "Nip", .fixed 0⟩
  | .xDrop => ⟨0x48, "XDROP", "XDrop", .fixed 0⟩
  | .clear => ⟨0x49, "CLEAR", "Clear", .fixed 0⟩
  | .dup => ⟨0x4A, "DUP", "Dup", .fixed 0⟩
  | .over => ⟨0x4B, "OVER", "Over", .fixed 0⟩
  | .pick => ⟨0x4D, "PICK", "Pick", .fixed 0⟩
  | .tuck => ⟨0x4E, "TUCK", "Tuck", .fixed 0⟩
  | .swap => ⟨0x50, "SWAP", "Swap", .fixed 0⟩
  | .rot => ⟨0x51, "ROT", "Rot", .fixed 0⟩
  | .roll => ⟨0x52, "ROLL", "Roll", .fixed 0⟩
  | .reverse3 => ⟨0x53, "REVERSE3", "Reverse3", .fixed 0⟩
  | .reverse4 => ⟨0x54, "REVERSE4", "Reverse4", .fixed 0⟩
  | .reverseN => ⟨0x55, "REVERSEN", "ReverseN", .fixed 0⟩
  | .initSSlot => ⟨0x56, "INITSSLOT", "InitSSlot", .fixed 1⟩
  | .initSlot => ⟨0x57, "INITSLOT", "InitSlot", .fixed 2⟩
  | .ldSFld0 => ⟨0x58, "LDSFLD0", "LdSFld0", .fixed 0⟩
  | .ldSFld1 => ⟨0x59, "LDSFLD1", "LdSFld1", .fixed 0⟩
  | .ldSFld2 => ⟨0x5A, "LDSFLD2", "LdSFld2", .fixed 0⟩
  | .ldSFld3 => ⟨0x5B, "LDSFLD3", "LdSFld3", .fixed 0⟩
  | .ldSFld4 => ⟨0x5C, "LDSFLD4", "LdSFld4", .fixed 0⟩
  | .ldSFld5 => ⟨0x5D, "LDSFLD5", "LdSFld5", .fixed 0⟩
  | .ldSFld6 => ⟨0x5E, "LDSFLD6", "LdSFld6", .fixed 0⟩
  | .ldSFld => ⟨0x5F, "LDSFLD", "LdSFld", .fixed 1⟩
  | .stSFld0 => ⟨0x60, "STSFLD0", "StSFld0", .fixed 0⟩
  | .stSFld1 => ⟨0x61, "STSFLD1", "StSFld1", .fixed 0⟩
  | .stSFld2 => ⟨0x62, "STSFLD2", "StSFld2", .fixed 0⟩
  | .stSFld3 => ⟨0x63, "STSFLD3", "StSFld3", .fixed 0⟩
  | .stSFld4 => ⟨0x64, "STSFLD4", "StSFld4", .fixed 0⟩
  | .stSFld5 => ⟨0x65, "STSFLD5", "StSFld5", .fixed 0⟩
  | .stSFld6 => ⟨0x66, "STSFLD6", "StSFld6", .fixed 0⟩
  | .stSFld => ⟨0x67, "STSFLD", "StSFld", .fixed 1⟩
  | .ldLoc0 => ⟨0x68, "LDLOC0", "LdLoc0", .fixed 0⟩
  | .ldLoc1 => ⟨0x69, "LDLOC1", "LdLoc1", .fixed 0⟩
  | .ldLoc2 => ⟨0x6A, "LDLOC2", "LdLoc2", .fixed 0⟩
  | .ldLoc3 => ⟨0x6B, "LDLOC3", "LdLoc3", .fixed 0⟩
  | .ldLoc4 => ⟨0x6C, "LDLOC4", "LdLoc4", .fixed 0⟩
  | .ldLoc5 => ⟨0x6D, "LDLOC5", "LdLoc5", .fixed 0⟩
  | .ldLoc6 => ⟨0x6E, "LDLOC6", "LdLoc6", .fixed 0⟩
  | .ldLoc => ⟨0x6F, "LDLOC", "LdLoc", .fixed 1⟩
  | .stLoc0 => ⟨0x70, "STLOC0", "StLoc0", .fixed 0⟩
  | .stLoc1 => ⟨0x71, "STLOC1", "StLoc1", .fixed 0⟩
  | .stLoc2 => ⟨0x72, "STLOC2", "StLoc2", .fixed 0⟩
  | .stLoc3 => ⟨0x73, "STLOC3", "StLoc3", .fixed 0⟩
  | .stLoc4 => ⟨0x74, "STLOC4", "StLoc4", .fixed 0⟩
  | .stLoc5 => ⟨0x75, "STLOC5", "StLoc5", .fixed 0⟩
  | .stLoc6 => ⟨0x76, "STLOC6", "StLoc6", .fixed 0⟩
  | .stLoc => ⟨0x77, "STLOC", "StLoc", .fixed 1⟩
  | .ldArg0 => ⟨0x78, "LDARG0", "LdArg0", .fixed 0⟩
  | .ldArg1 => ⟨0x79, "LDARG1", "LdArg1", .fixed 0⟩
  | .ldArg2 => ⟨0x7A, "LDARG2", "LdArg2", .fixed 0⟩
  | .ldArg3 => ⟨0x7B, "LDARG3", "LdArg3", .fixed 0⟩
  | .ldArg4 => ⟨0x7C, "LDARG4", "LdArg4", .fixed 0⟩
  | .ldArg5 => ⟨0x7D, "LDARG5", "LdArg5", .fixed 0⟩
  | .ldArg6 => ⟨0x7E, "LDARG6", "LdArg6", .fixed 0⟩
  | .ldArg => ⟨0x7F, "LDARG", "LdArg", .fixed 1⟩
  | .stArg0 => ⟨0x80, "STARG0", "StArg0", .fixed 0⟩
  | .stArg1 => ⟨0x81, "STARG1", "StArg1", .fixed 0⟩
  | .stArg2 => ⟨0x82, "STARG2", "StArg2", .fixed 0⟩
  | .stArg3 => ⟨0x83, "STARG3", "StArg3", .fixed 0⟩
  | .stArg4 => ⟨0x84, "STARG4", "StArg4", .fixed 0⟩
  | .stArg5 => ⟨0x85, "STARG5", "StArg5", .fixed 0⟩
  | .stArg6 => ⟨0x86, "STARG6", "StArg6", .fixed 0⟩
  | .stArg => ⟨0x87, "STARG", "StArg", .fixed 1⟩
  | .newBuffer => ⟨0x88, "NEWBUFFER", "NewBuffer", .fixed 0⟩
  | .memcpy => ⟨0x89, "MEMCPY", "Memcpy", .fixed 0⟩
  | .cat => ⟨0x8B, "CAT", "Cat", .fixed 0⟩
  | .substr => ⟨0x8C, "SUBSTR", "Substr", .fixed 0⟩
  | .left => ⟨0x8D, "LEFT", "Left", .fixed 0⟩
  | .right => ⟨0x8E, "RIGHT", "Right", .fixed 0⟩
  | .invert => ⟨0x90, "INVERT", "Invert", .fixed 0⟩
  | .and => ⟨0x91, "AND", "And", .fixed 0⟩
  | .or => ⟨0x92, "OR", "Or", .fixed 0⟩
  | .xor => ⟨0x93, "XOR", "Xor", .fixed 0⟩
  | .equal => ⟨0x97, "EQUAL", "Equal", .fixed 0⟩
  | .notEqual => ⟨0x98, "NOTEQUAL", "NotEqual", .fixed 0⟩
  | .sign => ⟨0x99, "SIGN", "Sign", .fixed 0⟩
  | .abs => ⟨0x9A, "ABS", "Abs", .fixed 0⟩
  | .negate => ⟨0x9B, "NEGATE", "Negate", .fixed 0⟩
  | .inc => ⟨0x9C, "INC", "Inc", .fixed 0⟩
  | .dec => ⟨0x9D, "DEC", "Dec", .fixed 0⟩
  | .add => ⟨0x9E, "ADD", "Add", .fixed 0⟩
  | .sub => ⟨0x9F, "SUB", "Sub", .fixed 0⟩
  | .mul => ⟨0xA0, "MUL", "Mul", .fixed 0⟩
  | .div => ⟨0xA1, "DIV", "Div", .fixed 0⟩
  | .mod => ⟨0xA2, "MOD", "Mod", .fixed 0⟩
  | .pow => ⟨0xA3, "POW", "Pow", .fixed 0⟩
  | .sqrt => ⟨0xA4, "SQRT", "Sqrt", .fixed 0⟩
  | .modMul => ⟨0xA5, "MODMUL", "ModMul", .fixed 0⟩
  | .modPow => ⟨0xA6, "MODPOW", "ModPow", .fixed 0⟩
  | .shl => ⟨0xA8, "SHL", "Shl", .fixed 0⟩
  | .shr => ⟨0xA9, "SHR", "Shr", .fixed 0⟩
  | .not => ⟨0xAA, "NOT", "Not", .fixed 0⟩
  | .boolAnd => ⟨0xAB, "BOOLAND", "BoolAnd", .fixed 0⟩
  | .boolOr => ⟨0xAC, "BOOLOR", "BoolOr", .fixed 0⟩
  | .nz => ⟨0xB1, "NZ", "Nz", .fixed 0⟩
  | .numEqual => ⟨0xB3, "NUMEQUAL", "NumEqual", .fixed 0⟩
  | .numNotEqual => ⟨0xB4, "NUMNOTEQUAL", "NumNotEqual", .fixed 0⟩
  | .lt => ⟨0xB5, "LT", "Lt", .fixed 0⟩
  | .le => ⟨0xB6, "LE", "Le", .fixed 0⟩
  | .gt => ⟨0xB7, "GT", "Gt", .fixed 0⟩
  | .ge => ⟨0xB8, "GE", "Ge", .fixed 0⟩
  | .min => ⟨0xB9, "MIN", "Min", .fixed 0⟩
  | .max => ⟨0xBA, "MAX", "Max", .fixed 0⟩
  | .within => ⟨0xBB, "WITHIN", "Within", .fixed 0⟩
  | .packMap => ⟨0xBE, "PACKMAP", "PackMap", .fixed 0⟩
  | .packStruct => ⟨0xBF, "PACKSTRUCT", "PackStruct", .fixed 0⟩
  | .pack => ⟨0xC0, "PACK", "Pack", .fixed 0⟩
  | .unpack => ⟨0xC1, "UNPACK", "Unpack", .fixed 0⟩
  | .newArray0 => ⟨0xC2, "NEWARRAY0", "NewArray0", .fixed 0⟩
  | .newArray => ⟨0xC3, "NEWARRAY", "NewArray", .fixed 0⟩
  | .newArrayT => ⟨0xC4, "NEWARRAY_T", "NewArrayT", .fixed 1⟩
  | .newStruct0 => ⟨0xC5, "NEWSTRUCT0", "NewStruct0", .fixed 0⟩
  | .newStruct => ⟨0xC6, "NEWSTRUCT", "NewStruct", .fixed 0⟩
  | .newMap => ⟨0xC8, "NEWMAP", "NewMap", .fixed 0⟩
  | .size => ⟨0xCA, "SIZE", "Size", .fixed 0⟩
  | .hasKey => ⟨0xCB, "HASKEY", "HasKey", .fixed 0⟩
  | .keys => ⟨0xCC, "KEYS", "Keys", .fixed 0⟩
  | .values => ⟨0xCD, "VALUES", "Values", .fixed 0⟩
  | .pickItem => ⟨0xCE, "PICKITEM", "PickItem", .fixed 0⟩
  | .append => ⟨0xCF, "APPEND", "Append", .fixed 0⟩
  | .setItem => ⟨0xD0, "SETITEM", "SetItem", .fixed 0⟩
  | .reverseItems => ⟨0xD1, "REVERSEITEMS", "ReverseItems", .fixed 0⟩
  | .remove => ⟨0xD2, "REMOVE", "Remove", .fixed 0⟩
  | .clearItems => ⟨0xD3, "CLEARITEMS", "ClearItems", .fixed 0⟩
  | .popItem => ⟨0xD4, "POPITEM", "PopItem", .fixed 0⟩
  | .isNull => ⟨0xD8, "ISNULL", "IsNull", .fixed 0⟩
  | .isType => ⟨0xD9, "ISTYPE", "IsType", .fixed 1⟩
  | .convert => ⟨0xDB, "CONVERT", "Convert", .fixed 1⟩
  | .abortMsg => ⟨0xE0, "ABORTMSG", "AbortMsg", .fixed 0⟩
  | .assertMsg => ⟨0xE1, "ASSERTMSG", "AssertMsg", .fixed 0⟩

/-- The byte that encodes an opcode. -/
def byte (op : Opcode) : UInt8 := op.info.byte

/-- The assembly mnemonic of an opcode. -/
def mnemonic (op : Opcode) : String := op.info.mnemonic

/-- The layout of the operand of an opcode. -/
def layout (op : Opcode) : OperandLayout := op.info.layout

/-- Every opcode, in the order of their bytes. -/
def all : List Opcode := [
  .pushInt8, .pushInt16, .pushInt32, .pushInt64, .pushInt128, .pushInt256, .pushT, .pushF,
  .pushA, .pushNull, .pushData1, .pushData2, .pushData4, .pushM1, .push0, .push1, .push2, .push3,
  .push4, .push5, .push6, .push7, .push8, .push9, .push10, .push11, .push12, .push13, .push14,
  .push15, .push16, .nop, .jmp, .jmpL, .jmpIf, .jmpIfL, .jmpIfNot, .jmpIfNotL, .jmpEq, .jmpEqL,
  .jmpNe, .jmpNeL, .jmpGt, .jmpGtL, .jmpGe, .jmpGeL, .jmpLt, .jmpLtL, .jmpLe, .jmpLeL, .call,
  .callL, .callA, .callT, .abort, .assert, .throw, .beginTry, .beginTryL, .endTry, .endTryL,
  .endFinally, .ret, .syscall, .depth, .drop, .nip, .xDrop, .clear, .dup, .over, .pick, .tuck,
  .swap, .rot, .roll, .reverse3, .reverse4, .reverseN, .initSSlot, .initSlot, .ldSFld0, .ldSFld1,
  .ldSFld2, .ldSFld3, .ldSFld4, .ldSFld5, .ldSFld6, .ldSFld, .stSFld0, .stSFld1, .stSFld2,
  .stSFld3, .stSFld4, .stSFld5, .stSFld6, .stSFld, .ldLoc0, .ldLoc1, .ldLoc2, .ldLoc3, .ldLoc4,
  .ldLoc5, .ldLoc6, .ldLoc, .stLoc0, .stLoc1, .stLoc2, .stLoc3, .stLoc4, .stLoc5, .stLoc6,
  .stLoc, .ldArg0, .ldArg1, .ldArg2, .ldArg3, .ldArg4, .ldArg5, .ldArg6, .ldArg, .stArg0,
  .stArg1, .stArg2, .stArg3, .stArg4, .stArg5, .stArg6, .stArg, .newBuffer, .memcpy, .cat,
  .substr, .left, .right, .invert, .and, .or, .xor, .equal, .notEqual, .sign, .abs, .negate,
  .inc, .dec, .add, .sub, .mul, .div, .mod, .pow, .sqrt, .modMul, .modPow, .shl, .shr, .not,
  .boolAnd, .boolOr, .nz, .numEqual, .numNotEqual, .lt, .le, .gt, .ge, .min, .max, .within,
  .packMap, .packStruct, .pack, .unpack, .newArray0, .newArray, .newArrayT, .newStruct0,
  .newStruct, .newMap, .size, .hasKey, .keys, .values, .pickItem, .append, .setItem,
  .reverseItems, .remove, .clearItems, .popItem, .isNull, .isType, .convert, .abortMsg,
  .assertMsg]

/-- The opcode that a byte encodes, if it is assigned. -/
def ofByte? (byte : UInt8) : Option Opcode :=
  all.find? fun op => op.byte == byte

/-- Opcodes compare by their bytes. -/
instance : Ord Opcode := ⟨fun a b => compare a.byte b.byte⟩

/-- Every opcode stands in the list at the place where it is declared. -/
theorem getElem?_all (op : Opcode) : all[op.ctorIdx]? = some op := by
  cases op <;> rfl

theorem mem_all (op : Opcode) : op ∈ all :=
  List.mem_of_getElem? (getElem?_all op)

/-- A list ascends when every number of it is below the next one. -/
private theorem pairwise_of_adjacent :
    ∀ l : List Nat, (l.zip l.tail).all (fun p => p.1 < p.2) = true → l.Pairwise (· < ·)
  | [], _ => .nil
  | [_], _ => List.pairwise_singleton ..
  | a :: b :: l, h => by
    simp only [List.tail_cons, List.zip_cons_cons, List.all_cons, Bool.and_eq_true,
      decide_eq_true_eq] at h
    have rest := pairwise_of_adjacent (b :: l) h.2
    refine List.pairwise_cons.mpr ⟨fun c hc => ?_, rest⟩
    rcases List.mem_cons.mp hc with rfl | hc
    · exact h.1
    · exact Nat.lt_trans h.1 (List.rel_of_pairwise_cons rest hc)

/-- The bytes of the list ascend. -/
theorem pairwise_byte_all : (all.map fun op => op.byte.toNat).Pairwise (· < ·) :=
  pairwise_of_adjacent _ (by decide +kernel)

/-- No byte encodes two opcodes. -/
theorem byte_injective {a b : Opcode} (h : a.byte = b.byte) : a = b := by
  obtain ⟨i, hi, rfl⟩ := List.mem_iff_getElem.mp (mem_all a)
  obtain ⟨j, hj, rfl⟩ := List.mem_iff_getElem.mp (mem_all b)
  have ascending := List.pairwise_iff_getElem.mp (List.pairwise_map.mp pairwise_byte_all)
  rcases Nat.lt_trichotomy i j with lt | rfl | lt
  · exact absurd (ascending i j hi hj lt) (by simp [h])
  · rfl
  · exact absurd (ascending j i hj hi lt) (by simp [h])

/-- An opcode decodes from its own byte only. -/
theorem byte_of_ofByte? {byte : UInt8} {op : Opcode} (h : ofByte? byte = some op) :
    op.byte = byte := by
  simpa using List.find?_some h

/-- Every opcode decodes from its own byte. -/
theorem ofByte?_byte (op : Opcode) : ofByte? op.byte = some op := by
  have found : (ofByte? op.byte).isSome := by
    simpa [ofByte?] using ⟨op, mem_all op, rfl⟩
  obtain ⟨other, h⟩ := Option.isSome_iff_exists.mp found
  rw [h, byte_injective (byte_of_ofByte? h)]

end Opcode

end SymbolicScript
