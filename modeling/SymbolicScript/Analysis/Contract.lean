import SymbolicScript.Error.Failure
import SymbolicScript.Manifest
import SymbolicScript.Script.Basic

/-!
# Contracts

A contract is a script with the manifest that says where its methods begin. Information for
debuggers, of whatever form, is carried along without being looked at.
-/

namespace SymbolicScript

/-- A script with its manifest, and perhaps information for debuggers. -/
structure Contract (δ : Type) where
  /-- The script. -/
  script : Script
  /-- The manifest. -/
  manifest : Manifest
  /-- The information for debuggers. -/
  debugInfo : Option δ

namespace Contract

variable {δ : Type}

/-- The contract of a valid script and a manifest in JSON. A fault of the script is reported
first. -/
def ofParts (script : Bytes) (manifest : String) : Except (Located Failure) (Contract δ) := do
  let script ← (Script.ofBytes? script).mapError (·.map .disassembly)
  match Manifest.parse? manifest with
  | some manifest => return { script, manifest, debugInfo := none }
  | none => throw ⟨0, .manifest⟩

/-- The contract with information for debuggers. -/
def withDebugInfo (c : Contract δ) (info : δ) : Contract δ :=
  { c with debugInfo := some info }

end Contract

end SymbolicScript
