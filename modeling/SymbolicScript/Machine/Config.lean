import SymbolicScript.Limits

/-!
# Configuration

What a user of the machine can choose: how many instructions a machine may execute, how large the
byte items may be that it creates, how many frames it may stack, and whether an analysis executes
calls or stops in front of them.
-/

namespace SymbolicScript

/-- The configuration of a machine. -/
structure Config where
  /-- The greatest number of instructions that a machine executes. -/
  instructionLimit : Nat := 65536
  /-- The greatest number of bytes of a created buffer or byte string. -/
  maxItemSize : Nat := 131070
  /-- The greatest number of frames on the invocation stack. -/
  maxInvocationDepth : Nat := 1024
  /-- Whether an analysis executes calls rather than stopping in front of them. -/
  followCalls : Bool := false
  deriving DecidableEq, Repr

end SymbolicScript
