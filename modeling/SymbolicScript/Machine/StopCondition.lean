import SymbolicScript.Machine.Run

/-!
# Stop conditions

The common reasons to stop in front of an instruction, as one condition that holds as soon as one
of them does.
-/

namespace SymbolicScript

/-- Reasons to stop in front of an instruction. -/
structure StopCondition where
  /-- Stop where the entry frame is about to return at or behind this offset. -/
  finish : Option Nat
  /-- Stop at these offsets. -/
  offsets : List Nat
  /-- Stop in front of the opcodes with these bytes. -/
  opcodes : List UInt8
  /-- Stop at that many frames. -/
  depth : Option Nat
  /-- Stop after that many instructions. -/
  executed : Option Nat
  deriving DecidableEq, Repr

namespace StopCondition

/-- Whether one of the reasons applies. -/
def holds (c : StopCondition) (m : Machine) (i : Instruction) : Bool :=
  c.finish.any (fun n => n ≤ i.offset && m.state.depth ≤ 1)
    || c.offsets.contains i.offset
    || c.opcodes.contains i.opcode.byte
    || c.depth.any (· ≤ m.state.depth)
    || c.executed.any (· ≤ m.executed)

end StopCondition

end SymbolicScript
