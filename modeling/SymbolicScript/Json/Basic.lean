import SymbolicScript.Decimal.Shortest

/-!
# JSON values

JSON values as data, and their compact text. Integers of 64 bits, signed or not, are kept exactly;
any other number is one of binary floating point and is written with the fewest digits that read
back.
-/

namespace SymbolicScript

/-- A number of a JSON value. -/
inductive JsonNumber where
  /-- An integer that fits 64 bits, signed or unsigned. -/
  | integer (value : Int)
  /-- Any other number. -/
  | float (negative : Bool) (magnitude : Binary64)
  deriving DecidableEq, Repr

/-- A JSON value. The members of an object have an order. -/
inductive Json where
  | null
  | bool (value : Bool)
  | number (value : JsonNumber)
  | string (value : String)
  | array (elements : List Json)
  | object (members : List (String × Json))
  deriving Repr

namespace JsonNumber

/-- Magnitudes from 0.00001 up to below 10^16 are written without an exponent. -/
def layout : Decimal.Layout := ⟨-5, 15⟩

/-- The text of a number. -/
def render : JsonNumber → String
  | integer value => toString value
  | float negative magnitude =>
    (if negative then "-" else "") ++ Decimal.write layout (Decimal.shortest magnitude)

end JsonNumber

namespace Json

/-- Four digits of the code of a control character. -/
def escapeCode (c : Char) : List Char :=
  let digits := Nat.toDigits 16 c.toNat
  '\\' :: 'u' :: (List.replicate (4 - digits.length) '0' ++ digits)

/-- A character as it stands inside a string. -/
def escape (c : Char) : List Char :=
  if c = '"' then ['\\', '"']
  else if c = '\\' then ['\\', '\\']
  else if c = '\n' then ['\\', 'n']
  else if c = '\r' then ['\\', 'r']
  else if c = '\t' then ['\\', 't']
  else if c.toNat = 8 then ['\\', 'b']
  else if c.toNat = 12 then ['\\', 'f']
  else if c.toNat < 32 then escapeCode c
  else [c]

/-- A string with its quotes. -/
def quote (s : String) : String :=
  String.ofList ('"' :: (s.toList.flatMap escape ++ ['"']))

mutual

/-- The compact text of a value. -/
def render : Json → String
  | null => "null"
  | bool value => if value then "true" else "false"
  | number value => value.render
  | string value => quote value
  | array elements => "[" ++ String.intercalate "," (renderElements elements) ++ "]"
  | object members => "\x7b" ++ String.intercalate "," (renderMembers members) ++ "\x7d"

/-- The texts of elements. -/
def renderElements : List Json → List String
  | [] => []
  | x :: xs => x.render :: renderElements xs

/-- The texts of members. -/
def renderMembers : List (String × Json) → List String
  | [] => []
  | (key, x) :: xs => (quote key ++ ":" ++ x.render) :: renderMembers xs

end

end Json

end SymbolicScript
