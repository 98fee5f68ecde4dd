import SymbolicScript.Analysis.Contract
import SymbolicScript.Analysis.Scan
import SymbolicScript.Error.Log

/-!
# Moving method entries

The pass over a contract analyzes each of its methods and lets every method begin where its
analysis says. Its result is the changed contract together with the reports.
-/

namespace SymbolicScript

/-- Analyzes methods in order under one watchdog. -/
def analyzeMethods (script : Script) (config : Config) :
    Watchdog → List Method → List MethodReport × Watchdog
  | watchdog, [] => ([], watchdog)
  | watchdog, method :: rest =>
    let (report, watchdog) := analyzeMethod script config watchdog method
    let (reports, watchdog) := analyzeMethods script config watchdog rest
    (report :: reports, watchdog)

/-- The result of the pass over a contract. -/
structure Analysis (δ : Type) where
  /-- The contract with its methods beginning where their reports say. -/
  contract : Contract δ
  /-- The reports, in the order of the methods. -/
  reports : List MethodReport

namespace Analysis

variable {δ : Type}

/-- Lets methods begin where the reports on them say. -/
def moveEntries (methods : List Method) (reports : List MethodReport) : List Method :=
  methods.zipWith (fun method report => { method with offset := report.newOffset }) reports

/-- The pass over a contract. -/
def ofContract (contract : Contract δ) (config : Config) (watchdog : Watchdog) : Analysis δ :=
  let methods := contract.manifest.methods
  let reports := (analyzeMethods contract.script config watchdog methods).1
  let manifest := contract.manifest.withMethods (moveEntries methods reports)
  { contract := { contract with manifest }, reports }

/-- The first report on a method of a name. -/
def report? (a : Analysis δ) (name : String) : Option MethodReport :=
  a.reports.find? fun report => report.name = name

/-- The errors of the reports, by script offset and then in the order of the methods. -/
def errors (a : Analysis δ) : ErrorLog LocatedError :=
  (a.reports.filterMap (·.error)).foldl ErrorLog.insert .empty

end Analysis

end SymbolicScript
