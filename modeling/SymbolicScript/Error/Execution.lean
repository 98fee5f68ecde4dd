import SymbolicScript.Error.Disassembly
import SymbolicScript.Item.Type

/-!
# Faults of execution

The causes for which an instruction fails. Each belongs to one class, and the two classes
`nonConstantOperand` and `unimplemented` are set apart as unresolved: they say that the outcome
cannot be known statically, not that the script is at fault.
-/

namespace SymbolicScript

/-- Why execution cannot go on. -/
inductive ExecutionError where
  /-- The instruction pointer would leave the script of length `available`. -/
  | instructionPointerOutOfBounds (requested : Int) (available : Nat)
  /-- No frame is loaded. -/
  | noCurrentContext
  /-- The next instruction cannot be decoded. -/
  | disassembly (cause : DisassemblyError)
  /-- A block terminator stands before the last instruction of a block. -/
  | terminatorInsideBlock (opcode : Opcode)
  /-- The operand of the instruction is not acceptable. -/
  | invalidOperand (opcode : Opcode)
  /-- The instruction needs to know an operand that is symbolic. -/
  | nonConstantOperand (opcode : Opcode)
  /-- A value is outside the range that the instruction accepts or can produce. -/
  | outOfRange (opcode : Opcode) (value : Int)
  /-- A pointer does not point into the script. -/
  | invalidPointer (target : Int)
  /-- A byte item would exceed the configured size. -/
  | itemTooLarge (size limit : Nat)
  /-- A variable is accessed beyond the size of its slot. -/
  | slotIndexOutOfRange (kind : SlotKind) (index size : Nat)
  /-- A slot is initialized a second time. -/
  | slotAlreadyInitialized (kind : SlotKind)
  /-- The opcode has no symbolic semantics. -/
  | unimplementedOpcode (opcode : Opcode)
  /-- The byte is no opcode. -/
  | undefinedOpcode (byte : UInt8)
  /-- The interop service is not known. -/
  | unsupportedSyscall (hash : Nat)
  /-- A read-only compound would be changed. -/
  | immutable
  /-- An item cannot be used as another type. -/
  | invalidCast (source target : ItemType)
  /-- A handle refers to no object. -/
  | invalidHeapHandle (handle : Nat)
  /-- A frame returns another number of values than announced. -/
  | returnCountMismatch (expected : Int) (actual : Nat)
  /-- The script aborted. -/
  | aborted (text : Option String)
  /-- The script asserted a falsehood. -/
  | assertionFailed (text : Option String)
  /-- No frame handles the pending exception. -/
  | unhandledException
  /-- The exception handlers of the frame do not permit the instruction. -/
  | invalidTryState (opcode : Opcode)
  /-- The invocation stack is full. -/
  | invocationDepthExceeded (limit : Nat)
  /-- The instruction budget is spent. -/
  | instructionLimitExceeded (limit : Nat)
  /-- The watchdog asked to stop. -/
  | stoppedByWatchdog
  /-- A handler is registered twice for the same opcode. -/
  | duplicateHandler (opcode : Opcode)
  /-- A side table of that name holds values of another type. -/
  | analysisStateMismatch (name : String)
  deriving DecidableEq, Repr

/-- The classes of execution errors. -/
inductive ErrorClass where
  | malformedInput | nonConstantOperand | rangeViolation | unimplemented | immutability | fault
  | limit
  deriving DecidableEq, Repr

/-- The name of a class. -/
def ErrorClass.name : ErrorClass → String
  | .malformedInput => "MalformedInput"
  | .nonConstantOperand => "NonConstantOperand"
  | .rangeViolation => "RangeViolation"
  | .unimplemented => "Unimplemented"
  | .immutability => "Immutability"
  | .fault => "Fault"
  | .limit => "Limit"

namespace ExecutionError

/-- The name of the kind of an error; a disassembly fault adds its own kind. -/
def kind : ExecutionError → String
  | instructionPointerOutOfBounds _ _ => "InstructionPointerOutOfBounds"
  | noCurrentContext => "NoCurrentContext"
  | disassembly cause => "Disassembly/" ++ cause.kind
  | terminatorInsideBlock _ => "TerminatorInsideBlock"
  | invalidOperand _ => "InvalidOperand"
  | nonConstantOperand _ => "NonConstantOperand"
  | outOfRange _ _ => "OutOfRange"
  | invalidPointer _ => "InvalidPointer"
  | itemTooLarge _ _ => "ItemTooLarge"
  | slotIndexOutOfRange _ _ _ => "SlotIndexOutOfRange"
  | slotAlreadyInitialized _ => "SlotAlreadyInitialized"
  | unimplementedOpcode _ => "UnimplementedOpcode"
  | undefinedOpcode _ => "UndefinedOpcode"
  | unsupportedSyscall _ => "UnsupportedSyscall"
  | immutable => "Immutable"
  | invalidCast _ _ => "InvalidCast"
  | invalidHeapHandle _ => "InvalidHeapHandle"
  | returnCountMismatch _ _ => "ReturnCountMismatch"
  | aborted _ => "Aborted"
  | assertionFailed _ => "AssertionFailed"
  | unhandledException => "UnhandledException"
  | invalidTryState _ => "InvalidTryState"
  | invocationDepthExceeded _ => "InvocationDepthExceeded"
  | instructionLimitExceeded _ => "InstructionLimitExceeded"
  | stoppedByWatchdog => "StoppedByWatchdog"
  | duplicateHandler _ => "DuplicateHandler"
  | analysisStateMismatch _ => "AnalysisStateMismatch"

/-- The class that a cause belongs to. -/
def errorClass : ExecutionError → ErrorClass
  | disassembly _ | terminatorInsideBlock _ | invalidOperand _ | undefinedOpcode _ =>
    .malformedInput
  | nonConstantOperand _ => .nonConstantOperand
  | instructionPointerOutOfBounds _ _ | outOfRange _ _ | invalidPointer _ | itemTooLarge _ _
  | slotIndexOutOfRange _ _ _ => .rangeViolation
  | unimplementedOpcode _ | unsupportedSyscall _ => .unimplemented
  | immutable => .immutability
  | noCurrentContext | slotAlreadyInitialized _ | invalidCast _ _ | invalidHeapHandle _
  | returnCountMismatch _ _ | aborted _ | assertionFailed _ | unhandledException
  | invalidTryState _ | duplicateHandler _ | analysisStateMismatch _ => .fault
  | invocationDepthExceeded _ | instructionLimitExceeded _ | stoppedByWatchdog => .limit

/-- Whether the error only says that the outcome is not known statically. -/
def isUnresolved (e : ExecutionError) : Bool :=
  e.errorClass = .nonConstantOperand || e.errorClass = .unimplemented

/-- The wording of an execution error. -/
def message : ExecutionError → String
  | instructionPointerOutOfBounds requested available =>
    "Instruction pointer " ++ toString requested ++ " is out of bounds in a script of length "
      ++ toString available
  | noCurrentContext => "There is no execution context to run"
  | disassembly cause => cause.message
  | terminatorInsideBlock opcode =>
    "The block terminator " ++ opcode.mnemonic ++ " appears before the end of the basic block"
  | invalidOperand opcode => "The " ++ opcode.mnemonic ++ " instruction has an invalid operand"
  | nonConstantOperand opcode =>
    "The " ++ opcode.mnemonic ++ " instruction requires a constant operand"
  | outOfRange opcode value =>
    "The value " ++ toString value ++ " is out of range for " ++ opcode.mnemonic
  | invalidPointer target =>
    "The pointer target " ++ toString target ++ " lies outside the script"
  | itemTooLarge size limit =>
    "An item of " ++ toString size ++ " bytes exceeds the maximum item size of "
      ++ toString limit
  | slotIndexOutOfRange kind index size =>
    "Index " ++ toString index ++ " is out of range for the " ++ kind.name ++ " slot of size "
      ++ toString size
  | slotAlreadyInitialized kind =>
    "The " ++ kind.name ++ " slot has already been initialized"
  | unimplementedOpcode opcode =>
    "The opcode " ++ opcode.mnemonic ++ " is not implemented for symbolic execution"
  | undefinedOpcode byte => "The byte " ++ Hex.padded 2 byte.toNat ++ " is not a defined opcode"
  | unsupportedSyscall hash =>
    "The interop service " ++ Hex.padded 8 hash ++ " is not supported for symbolic execution"
  | immutable => "Attempted to mutate a read-only compound item"
  | invalidCast source target =>
    "Cannot convert an item of type " ++ source.name ++ " to " ++ target.name
  | invalidHeapHandle handle =>
    "The heap handle " ++ toString handle ++ " does not refer to a live compound item"
  | returnCountMismatch expected actual =>
    "Expected " ++ toString expected ++ " return values but the stack holds " ++ toString actual
  | aborted text => "Execution was aborted: " ++ Quoted.optional text
  | assertionFailed text => "An assertion failed: " ++ Quoted.optional text
  | unhandledException => "An exception was thrown and not handled"
  | invalidTryState opcode =>
    "The exception handling state does not permit " ++ opcode.mnemonic
  | invocationDepthExceeded limit =>
    "The invocation stack exceeded its limit of " ++ toString limit ++ " frames"
  | instructionLimitExceeded limit =>
    "Execution exceeded the limit of " ++ toString limit ++ " instructions"
  | stoppedByWatchdog => "Execution was stopped by the watchdog"
  | duplicateHandler opcode =>
    "More than one handler was registered for " ++ opcode.mnemonic
  | analysisStateMismatch name =>
    "The analysis state registered for " ++ name ++ " has a different type"

end ExecutionError

/-- An execution error at a script offset. -/
abbrev LocatedError := Located ExecutionError

/-- The text of a located execution error. -/
def LocatedError.text (e : LocatedError) : String :=
  e.describe ExecutionError.message

/-- A disassembly fault met during execution. -/
def Located.toExecution (e : Located DisassemblyError) : LocatedError :=
  e.map .disassembly

end SymbolicScript
