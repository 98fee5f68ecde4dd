import SymbolicScript.Error.Execution

/-!
# Failures of an analysis

Whatever can go wrong between the files of a contract and the report about it.
-/

namespace SymbolicScript

/-- Why a contract cannot be read or analyzed. -/
inductive Failure where
  /-- The script cannot be disassembled. -/
  | disassembly (cause : DisassemblyError)
  /-- The script cannot be executed. -/
  | execution (cause : ExecutionError)
  /-- The manifest cannot be read. -/
  | manifest
  /-- Anything else, described by a text. -/
  | other (text : String)
  deriving DecidableEq, Repr

/-- The name of the kind of a failure. -/
def Failure.kind : Failure → String
  | disassembly _ => "Disassembly"
  | execution _ => "Execution"
  | manifest => "Manifest"
  | other _ => "Other"

/-- The wording of a failure. -/
def Failure.message : Failure → String
  | disassembly cause => cause.message
  | execution cause => cause.message
  | manifest => "Invalid manifest"
  | other text => "Unknown Error: " ++ Quoted.text text

end SymbolicScript
