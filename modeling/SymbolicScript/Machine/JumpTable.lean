import SymbolicScript.Machine.Handler
import SymbolicScript.SortedMap

/-!
# Jump tables

A jump table binds opcodes to handlers. A byte that is no opcode is undefined, an opcode that is
not bound is unimplemented, and any other is handled. Tables are built from registrations, with or
without the standard bindings for the opcodes that are not registered.
-/

namespace SymbolicScript

/-- How a byte is handled. -/
inductive HandlerKind where
  /-- The byte is no opcode. -/
  | undefined
  /-- The opcode is not bound. -/
  | unimplemented
  /-- The opcode is bound to a handler. -/
  | handled
  deriving DecidableEq, Repr

/-- The name of a way of handling. -/
def HandlerKind.name : HandlerKind → String
  | .undefined => "Undefined"
  | .unimplemented => "Unimplemented"
  | .handled => "Handled"

/-- A binding of opcodes to handlers. -/
structure JumpTable where
  /-- The handler that an opcode is bound to, if any. -/
  handler? : Opcode → Option Handler

namespace JumpTable

/-- The table of the standard bindings. -/
def standard : JumpTable := ⟨Handler.standard?⟩

/-- The handler of an opcode, which only fails for one that is not bound. -/
def handler (table : JumpTable) (opcode : Opcode) : Handler :=
  (table.handler? opcode).getD .unimplemented

/-- How a byte is handled. -/
def kind (table : JumpTable) (byte : UInt8) : HandlerKind :=
  match Opcode.ofByte? byte with
  | none => .undefined
  | some opcode => if (table.handler? opcode).isSome then .handled else .unimplemented

/-- The number of bytes that are handled. -/
def handledCount (table : JumpTable) : Nat :=
  Opcode.all.countP fun opcode => (table.handler? opcode).isSome

/-- Executes an instruction by the handler of its opcode. -/
def dispatch (table : JumpTable) (config : Config) (i : Instruction) : Exec Unit :=
  (table.handler i.opcode).run config i

/-- The text of a table. -/
def text (table : JumpTable) : String :=
  "JumpTable \x7b handled: " ++ toString table.handledCount ++ " \x7d"

end JumpTable

/-- Registrations for a jump table. -/
structure JumpTableBuilder where
  /-- The handler registered for every opcode. -/
  registered : SortedMap Opcode Handler
  deriving DecidableEq, Repr

namespace JumpTableBuilder

/-- The builder without registrations. -/
def empty : JumpTableBuilder := ⟨.empty⟩

/-- Registers a handler for an opcode that has none yet. -/
def register (b : JumpTableBuilder) (opcode : Opcode) (handler : Handler) :
    Except ExecutionError JumpTableBuilder :=
  if b.registered.contains opcode then .error (.duplicateHandler opcode)
  else .ok ⟨b.registered.insert opcode handler⟩

/-- The table of the registrations alone. -/
def build (b : JumpTableBuilder) : JumpTable :=
  ⟨b.registered.find?⟩

/-- The table of the registrations, with the standard bindings for all other opcodes. -/
def buildWithDefaults (b : JumpTableBuilder) : JumpTable :=
  ⟨fun opcode => (b.registered.find? opcode).or (Handler.standard? opcode)⟩

/-- The text of a builder, which names the registered opcodes in order. -/
def text (b : JumpTableBuilder) : String :=
  let names := b.registered.keys.map fun opcode => opcode.info.name
  "JumpTableBuilder \x7b registered: [" ++ String.intercalate ", " names ++ "] \x7d"

end JumpTableBuilder

end SymbolicScript
