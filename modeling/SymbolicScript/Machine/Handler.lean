import SymbolicScript.Semantics.Arithmetic
import SymbolicScript.Semantics.ByteString
import SymbolicScript.Semantics.Compound
import SymbolicScript.Semantics.Constant
import SymbolicScript.Semantics.Control
import SymbolicScript.Semantics.Stack
import SymbolicScript.Semantics.Storage
import SymbolicScript.Semantics.Typing
import SymbolicScript.Semantics.Variable

/-!
# Handlers

A handler is a piece of semantics that opcodes can be bound to. There is one for every family of
opcodes, and two that only fail. `Handler.run` says what each does, and `Handler.standard?` says
which one an opcode is bound to by default; opcodes that work on maps or call other contracts
have none.
-/

namespace SymbolicScript

/-- A piece of semantics that opcodes can be bound to. -/
inductive Handler where
  | pushInteger | pushBoolean | pushPointer | pushNull | pushData | pushSmall
  | nop | jump | jumpIf | jumpIfNot | jumpCompare | call | callPointer | abort
  | abortWithMessage | assert | assertWithMessage | raise | beginTry | endTry | endFinally | ret
  | syscall
  | depth | drop | nip | xdrop | clear | dup | dupSecond | pick | tuck | swap | rot | roll
  | reverseFixed | reverseCounted
  | allocateStatics | allocateFrame | load (kind : SlotKind) | store (kind : SlotKind)
  | newBuffer | memcpy | concat | substring | leftPart | rightPart
  | unary | binary | ternary | logicalNot | logical
  | equal | isNull | isType | convert
  | pack | unpack | newEmpty | newSized | newTyped | size | pickItem | append | setItem
  | reverseItems | remove | clearItems | popItem
  | unimplemented | undefined
  deriving DecidableEq, Repr

namespace Handler

/-- The opcode that loads the first variable of a kind. -/
def firstLoad : SlotKind → Opcode
  | .static => .ldSFld0
  | .local => .ldLoc0
  | .argument => .ldArg0

/-- The opcode that stores the first variable of a kind. -/
def firstStore : SlotKind → Opcode
  | .static => .stSFld0
  | .local => .stLoc0
  | .argument => .stArg0

/-- What a handler does with an instruction. -/
def run (config : Config) (handler : Handler) (i : Instruction) : Exec Unit :=
  match handler with
  | pushInteger => Semantics.pushInteger i
  | pushBoolean => Semantics.pushBoolean i
  | pushPointer => Semantics.pushPointer i
  | pushNull => Semantics.pushNull
  | pushData => Semantics.pushData config i
  | pushSmall => Semantics.pushSmall i
  | nop => return
  | jump => Semantics.jump i
  | jumpIf => Semantics.jumpWhen true i
  | jumpIfNot => Semantics.jumpWhen false i
  | jumpCompare => Semantics.jumpCompare i
  | call => Semantics.call config i
  | callPointer => Semantics.callPointer config i
  | abort => Semantics.abort
  | abortWithMessage => Semantics.abortWithMessage
  | assert => Semantics.assert i
  | assertWithMessage => Semantics.assertWithMessage i
  | raise => Semantics.raise
  | beginTry => Semantics.beginTry i
  | endTry => Semantics.endTry i
  | endFinally => Semantics.endFinally i
  | ret => Exec.ret
  | syscall => Semantics.syscall i
  | depth => Semantics.depth
  | drop => Semantics.drop
  | nip => Semantics.nip
  | xdrop => Semantics.xdrop i
  | clear => Semantics.clear
  | dup => Semantics.copyFrom 0
  | dupSecond => Semantics.copyFrom 1
  | pick => Semantics.pick i
  | tuck => Semantics.tuck
  | swap => Semantics.moveUp 1
  | rot => Semantics.moveUp 2
  | roll => Semantics.roll i
  | reverseFixed => Semantics.reverseFixed i
  | reverseCounted => Semantics.reverseCounted i
  | allocateStatics => Semantics.allocateStatics i
  | allocateFrame => Semantics.allocateFrame i
  | load kind => Semantics.load kind (firstLoad kind) i
  | store kind => Semantics.store kind (firstStore kind) i
  | newBuffer => Semantics.newBuffer config i
  | memcpy => Semantics.memcpy i
  | concat => Semantics.concat config i
  | substring => Semantics.substring i
  | leftPart => Semantics.leftPart i
  | rightPart => Semantics.rightPart i
  | unary => Semantics.unary i
  | binary => Semantics.binary i
  | ternary => Semantics.ternary i
  | logicalNot => Semantics.logicalNot i
  | logical => Semantics.logical i
  | equal => Semantics.equal i
  | isNull => Semantics.isNull
  | isType => Semantics.isType i
  | convert => Semantics.convert i
  | pack => Semantics.pack i
  | unpack => Semantics.unpack i
  | newEmpty => Semantics.newEmpty i
  | newSized => Semantics.newSized i
  | newTyped => Semantics.newTyped i
  | size => Semantics.size i
  | pickItem => Semantics.pickItem i
  | append => Semantics.append i
  | setItem => Semantics.setItem i
  | reverseItems => Semantics.reverseItems i
  | remove => Semantics.remove i
  | clearItems => Semantics.clearItems i
  | popItem => Semantics.popItem i
  | unimplemented => throw (.unimplementedOpcode i.opcode)
  | undefined => throw (.undefinedOpcode i.opcode.byte)

/-- The handler that an opcode is bound to by default, if it has symbolic semantics. -/
def standard? : Opcode → Option Handler
  | .pushInt8 | .pushInt16 | .pushInt32 | .pushInt64 | .pushInt128 | .pushInt256 =>
    some pushInteger
  | .pushT | .pushF => some pushBoolean
  | .pushA => some pushPointer
  | .pushNull => some pushNull
  | .pushData1 | .pushData2 | .pushData4 => some pushData
  | .pushM1 | .push0 | .push1 | .push2 | .push3 | .push4 | .push5 | .push6 | .push7 | .push8
  | .push9 | .push10 | .push11 | .push12 | .push13 | .push14 | .push15 | .push16 =>
    some pushSmall
  | .nop => some nop
  | .jmp | .jmpL => some jump
  | .jmpIf | .jmpIfL => some jumpIf
  | .jmpIfNot | .jmpIfNotL => some jumpIfNot
  | .jmpEq | .jmpEqL | .jmpNe | .jmpNeL | .jmpGt | .jmpGtL | .jmpGe | .jmpGeL | .jmpLt
  | .jmpLtL | .jmpLe | .jmpLeL => some jumpCompare
  | .call | .callL => some call
  | .callA => some callPointer
  | .callT => none
  | .abort => some abort
  | .abortMsg => some abortWithMessage
  | .assert => some assert
  | .assertMsg => some assertWithMessage
  | .throw => some raise
  | .beginTry | .beginTryL => some beginTry
  | .endTry | .endTryL => some endTry
  | .endFinally => some endFinally
  | .ret => some ret
  | .syscall => some syscall
  | .depth => some depth
  | .drop => some drop
  | .nip => some nip
  | .xDrop => some xdrop
  | .clear => some clear
  | .dup => some dup
  | .over => some dupSecond
  | .pick => some pick
  | .tuck => some tuck
  | .swap => some swap
  | .rot => some rot
  | .roll => some roll
  | .reverse3 | .reverse4 => some reverseFixed
  | .reverseN => some reverseCounted
  | .initSSlot => some allocateStatics
  | .initSlot => some allocateFrame
  | .ldSFld0 | .ldSFld1 | .ldSFld2 | .ldSFld3 | .ldSFld4 | .ldSFld5 | .ldSFld6 | .ldSFld =>
    some (load .static)
  | .stSFld0 | .stSFld1 | .stSFld2 | .stSFld3 | .stSFld4 | .stSFld5 | .stSFld6 | .stSFld =>
    some (store .static)
  | .ldLoc0 | .ldLoc1 | .ldLoc2 | .ldLoc3 | .ldLoc4 | .ldLoc5 | .ldLoc6 | .ldLoc =>
    some (load .local)
  | .stLoc0 | .stLoc1 | .stLoc2 | .stLoc3 | .stLoc4 | .stLoc5 | .stLoc6 | .stLoc =>
    some (store .local)
  | .ldArg0 | .ldArg1 | .ldArg2 | .ldArg3 | .ldArg4 | .ldArg5 | .ldArg6 | .ldArg =>
    some (load .argument)
  | .stArg0 | .stArg1 | .stArg2 | .stArg3 | .stArg4 | .stArg5 | .stArg6 | .stArg =>
    some (store .argument)
  | .newBuffer => some newBuffer
  | .memcpy => some memcpy
  | .cat => some concat
  | .substr => some substring
  | .left => some leftPart
  | .right => some rightPart
  | .invert | .sign | .abs | .negate | .inc | .dec | .sqrt | .nz => some unary
  | .and | .or | .xor | .add | .sub | .mul | .div | .mod | .pow | .shl | .shr | .numEqual
  | .numNotEqual | .lt | .le | .gt | .ge | .min | .max => some binary
  | .modMul | .modPow | .within => some ternary
  | .not => some logicalNot
  | .boolAnd | .boolOr => some logical
  | .equal | .notEqual => some equal
  | .isNull => some isNull
  | .isType => some isType
  | .convert => some convert
  | .packStruct | .pack => some pack
  | .unpack => some unpack
  | .newArray0 | .newStruct0 => some newEmpty
  | .newArray | .newStruct => some newSized
  | .newArrayT => some newTyped
  | .size => some size
  | .pickItem => some pickItem
  | .append => some append
  | .setItem => some setItem
  | .reverseItems => some reverseItems
  | .remove => some remove
  | .clearItems => some clearItems
  | .popItem => some popItem
  | .packMap | .newMap | .hasKey | .keys | .values => none

end Handler

end SymbolicScript
