import SymbolicScript.Error.Located
import SymbolicScript.Search.Bisect

/-!
# Collections of errors

An error log keeps errors in a definite order. Errors can be appended, or, if they are located,
inserted behind all earlier ones that do not lie further on in the script. A log that is built by
insertion alone is sorted by offset, and errors at the same offset keep the order of insertion.
-/

namespace SymbolicScript

/-- Errors in the order in which they are reported. -/
structure ErrorLog (ε : Type) where
  /-- The errors, first reported first. -/
  entries : List ε
  deriving DecidableEq, Repr

namespace ErrorLog

variable {ε : Type}

/-- A log without errors. -/
def empty : ErrorLog ε := ⟨[]⟩

/-- Reports an error last. -/
def add (log : ErrorLog ε) (e : ε) : ErrorLog ε :=
  ⟨log.entries ++ [e]⟩

/-- Reports a located error behind the initial part of the log that lies no further on. -/
def insert (log : ErrorLog (Located ε)) (e : Located ε) : ErrorLog (Located ε) :=
  let place := Bisect.partitionPoint (fun entry => entry.offset ≤ e.offset) log.entries
  ⟨log.entries.insertIdx place e⟩

/-- The errors reported at an offset. -/
def atOffset (log : ErrorLog (Located ε)) (offset : Nat) : List ε :=
  (log.entries.filter fun entry => entry.offset = offset).map (·.payload)

/-- The text of a log: a line that counts the errors, and a line for each. -/
def render (text : ε → String) (log : ErrorLog ε) : String :=
  if log.entries.isEmpty then
    "Encountered no errors"
  else
    log.entries.foldl (fun out e => out ++ text e ++ "\n")
      ("Encountered " ++ toString log.entries.length ++ " errors:\n")

end ErrorLog

end SymbolicScript
