import SymbolicScript.Error.Disassembly
import SymbolicScript.Json.Document

/-!
# Manifests

A manifest describes a contract: its name, and the methods that can be called, each with the
script offset at which it begins. Manifests are read from JSON and written back with everything
that was read, known fields first and all others sorted by key; only the parameters of methods
lose fields that are not known.
-/

namespace SymbolicScript

/-- A parameter of a method. -/
structure Parameter where
  /-- The name. -/
  name : String
  /-- The name of the type. -/
  type : String
  deriving DecidableEq, Repr

/-- A method that can be called. -/
structure Method where
  /-- The name. -/
  name : String
  /-- The parameters. -/
  parameters : List Parameter
  /-- The name of the type of the result. -/
  returnType : String
  /-- The script offset at which the method begins. -/
  offset : Nat
  /-- Whether the method is declared to have no effects. -/
  safe : Bool
  /-- The other fields, sorted by key. -/
  extra : List (String × Json)
  deriving Repr

/-- The interface of a contract. -/
structure Abi where
  /-- The methods. -/
  methods : List Method
  /-- The other fields, sorted by key. -/
  extra : List (String × Json)
  deriving Repr

/-- The description of a contract. -/
structure Manifest where
  /-- The name of the contract. -/
  name : String
  /-- The interface. -/
  abi : Abi
  /-- The other fields, sorted by key. -/
  extra : List (String × Json)
  deriving Repr

/-- A method that is known by its name and offset only. -/
def Method.ofName (name : String) (offset : Nat) : Method :=
  { name, parameters := [], returnType := "Void", offset, safe := false, extra := [] }

namespace Manifest

/-- A manifest without further fields. -/
def ofMethods (name : String) (methods : List Method) : Manifest :=
  { name, abi := { methods, extra := [] }, extra := [] }

/-- The methods. -/
def methods (m : Manifest) : List Method := m.abi.methods

/-- The first method of a name. -/
def method? (m : Manifest) (name : String) : Option Method :=
  m.methods.find? fun method => method.name = name

/-- The manifest with other methods. -/
def withMethods (m : Manifest) (methods : List Method) : Manifest :=
  { m with abi := { m.abi with methods } }

/-- Lets the method at a place of the list begin at another offset. -/
def setOffset (m : Manifest) (index offset : Nat) : Manifest :=
  m.withMethods (m.methods.modify index fun method => { method with offset })

end Manifest

/-! ## Reading -/

/-- The members of an object by key. -/
abbrev Fields := List (String × Document)

namespace Fields

/-- The members of an object document, if the keys are texts. -/
def ofDocument? : Document → Option Fields
  | .object members => members.mapM fun (key, x) => (Document.text? key).map fun key => (key, x)
  | _ => none

/-- The member of a key that must not occur twice. -/
def optional? (fields : Fields) (key : String) : Option (Option Document) :=
  match fields.filter fun field => field.1 = key with
  | [] => some none
  | [(_, x)] => some (some x)
  | _ => none

/-- The member of a key that must occur exactly once. -/
def required? (fields : Fields) (key : String) : Option Document := do
  (← fields.optional? key)

/-- Binds the values of fields, inside `depth` arrays and objects; of fields with the same key the
last one counts. -/
def bind? (depth : Nat) (fields : Fields) : Option (SortedMap String Json) :=
  fields.foldlM (fun found field => do
    let value ← field.2.value? depth
    return found.insert field.1 value) SortedMap.empty

/-- The fields other than the known ones, inside `depth` arrays and objects. -/
def extra? (fields : Fields) (depth : Nat) (known : List String) :
    Option (List (String × Json)) :=
  (bind? depth (fields.filter fun field => !known.contains field.1)).map (·.entries)

end Fields

/-- The text of a string document. -/
def stringOf? : Document → Option String
  | .string codes => Document.text? codes
  | _ => none

/-- The elements of an array document. -/
def elementsOf? : Document → Option (List Document)
  | .array elements => some elements
  | _ => none

/-- The truth value of a boolean document. -/
def booleanOf? : Document → Option Bool
  | .bool value => some value
  | _ => none

/-- The script offset that a number document denotes, which must be written as an integer. -/
def offsetOf? : Document → Option Nat
  | .number numeral =>
    match Document.numberValue? numeral with
    | some (.integer value) =>
      if 0 ≤ value ∧ value ≤ maxOffset then some value.toNat else none
    | _ => none
  | _ => none

/-- Reads a parameter: an object with a name and a type, or an array of these two. -/
def Parameter.ofDocument? : Document → Option Parameter
  | .array [name, type] => return ⟨← stringOf? name, ← stringOf? type⟩
  | x => do
    let fields ← Fields.ofDocument? x
    return ⟨← stringOf? (← fields.required? "name"), ← stringOf? (← fields.required? "type")⟩

/-- Reads a method. Parameters and safety may be missing. -/
def Method.ofDocument? (x : Document) : Option Method := do
  let fields ← Fields.ofDocument? x
  let parameters ← match ← fields.optional? "parameters" with
    | none => some []
    | some x => do (← elementsOf? x).mapM Parameter.ofDocument?
  let safe ← match ← fields.optional? "safe" with
    | none => some false
    | some x => booleanOf? x
  return {
    name := ← stringOf? (← fields.required? "name")
    parameters
    returnType := ← stringOf? (← fields.required? "returntype")
    offset := ← offsetOf? (← fields.required? "offset")
    safe
    extra := ← fields.extra? 4 ["name", "parameters", "returntype", "offset", "safe"] }

/-- Reads an interface. -/
def Abi.ofDocument? (x : Document) : Option Abi := do
  let fields ← Fields.ofDocument? x
  return {
    methods := ← (← elementsOf? (← fields.required? "methods")).mapM Method.ofDocument?
    extra := ← fields.extra? 2 ["methods"] }

/-- Reads a manifest from a document. -/
def Manifest.ofDocument? (x : Document) : Option Manifest := do
  let fields ← Fields.ofDocument? x
  return {
    name := ← stringOf? (← fields.required? "name")
    abi := ← Abi.ofDocument? (← fields.required? "abi")
    extra := ← fields.extra? 1 ["name", "abi"] }

/-- Reads a manifest from a JSON text. -/
def Manifest.parse? (text : String) : Option Manifest := do
  Manifest.ofDocument? (← Document.parse? text)

/-! ## Writing -/

/-- A parameter as a JSON value. -/
def Parameter.toJson (p : Parameter) : Json :=
  .object [("name", .string p.name), ("type", .string p.type)]

/-- A method as a JSON value. -/
def Method.toJson (m : Method) : Json :=
  .object ([("name", .string m.name),
    ("parameters", .array (m.parameters.map Parameter.toJson)),
    ("returntype", .string m.returnType),
    ("offset", .number (.integer m.offset)),
    ("safe", .bool m.safe)] ++ m.extra)

/-- An interface as a JSON value. -/
def Abi.toJson (a : Abi) : Json :=
  .object (("methods", .array (a.methods.map Method.toJson)) :: a.extra)

/-- A manifest as a JSON value. -/
def Manifest.toJson (m : Manifest) : Json :=
  .object (("name", .string m.name) :: ("abi", m.abi.toJson) :: m.extra)

/-- The compact JSON text of a manifest. -/
def Manifest.render (m : Manifest) : String := m.toJson.render

end SymbolicScript
