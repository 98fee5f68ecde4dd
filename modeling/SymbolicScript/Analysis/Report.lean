import SymbolicScript.Access
import SymbolicScript.Error.Execution

/-!
# Reports on methods

The analysis of a method reports where its entry can be moved to, why it cannot be moved further,
and which variables the skipped instructions access.
-/

namespace SymbolicScript

/-- Why the entry of a method is not moved further. -/
inductive StopReason where
  /-- The next instruction has an effect that outlives the frame. -/
  | effectful
  /-- The next instruction transfers control. -/
  | blockBoundary
  /-- The next instruction cannot be resolved. -/
  | unresolved
  /-- The method returns. -/
  | halted
  /-- The method fails. -/
  | aborted
  deriving DecidableEq, Repr

/-- The text of a reason. -/
def StopReason.text : StopReason → String
  | effectful => "effectful instruction"
  | blockBoundary => "block boundary"
  | unresolved => "unresolved instruction"
  | halted => "halted"
  | aborted => "aborted"

/-- What the analysis of a method found. -/
structure MethodReport where
  /-- The name of the method. -/
  name : String
  /-- The offset at which the manifest lets the method begin. -/
  declaredOffset : Nat
  /-- The offset to which its entry can be moved. -/
  newOffset : Nat
  /-- Why the entry is not moved further. -/
  reason : StopReason
  /-- The locations read before they were written. -/
  reads : List Access
  /-- The locations written. -/
  writes : List Access
  /-- The error that ended the analysis, if there was one. -/
  error : Option LocatedError
  deriving DecidableEq, Repr

namespace MethodReport

/-- Whether the entry moves. -/
def isChanged (r : MethodReport) : Bool := r.newOffset ≠ r.declaredOffset

/-- The number of bytes that a moved entry skips. -/
def skipped (r : MethodReport) : Nat := r.newOffset - r.declaredOffset

end MethodReport

end SymbolicScript
