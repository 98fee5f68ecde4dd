import SymbolicScript.Opcode.Basic

/-!
# Classes of opcodes

Several families occupy contiguous bytes, so membership in them is a range of bytes. Block
terminators are the opcodes that may send control anywhere other than to the next instruction, or
that end the current frame.
-/

namespace SymbolicScript

namespace Opcode

/-- Whether the byte of an opcode lies between those of two others, both included. -/
def between (first last op : Opcode) : Bool :=
  first.byte ≤ op.byte && op.byte ≤ last.byte

/-- Whether the opcode is a jump, conditional or not. -/
def isJump (op : Opcode) : Bool :=
  between .jmp .jmpLeL op

/-- Whether the opcode is a jump that is taken only when a condition holds. -/
def isConditionalJump (op : Opcode) : Bool :=
  op.isJump && op != .jmp && op != .jmpL

/-- Whether the opcode invokes another routine. -/
def isCall : Opcode → Bool
  | .call | .callL | .callA | .callT => true
  | _ => false

/-- Whether the opcode ends a frame or belongs to the exception machinery. -/
def isEscape : Opcode → Bool
  | .abort | .abortMsg | .throw | .beginTry | .beginTryL | .endTry | .endTryL | .endFinally
  | .ret => true
  | _ => false

/-- Whether the opcode ends a basic block. -/
def isTerminator (op : Opcode) : Bool :=
  op.isJump || op.isCall || op.isEscape

/-- Whether the opcode loads a static field. -/
def isStaticLoad (op : Opcode) : Bool :=
  between .ldSFld0 .ldSFld op

/-- Whether the opcode stores a static field. -/
def isStaticStore (op : Opcode) : Bool :=
  between .stSFld0 .stSFld op

/-- Whether the opcode pushes a constant that the instruction alone determines. -/
def isConstantPush (op : Opcode) : Bool :=
  op.byte ≤ Opcode.push16.byte && op != .pushA

end Opcode

end SymbolicScript
