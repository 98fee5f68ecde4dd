import SymbolicScript.Text.Invisible

/-!
# Quoted text

Error messages quote the texts and characters they mention. A quoted text shows the quote, the
backslash and the usual control characters behind a backslash, every other invisible character by
its code point in braces, and everything else as itself.
-/

namespace SymbolicScript

namespace Quoted

/-- The code point of a character in braces, as in `u{1b}` behind a backslash. -/
def codePoint (c : Char) : List Char :=
  ['\\', 'u', '\x7b'] ++ Nat.toDigits 16 c.toNat ++ ['\x7d']

/-- A character as it stands between quotes of the kind `mark`. -/
def escape (mark c : Char) : List Char :=
  if c = mark ∨ c = '\\' then ['\\', c]
  else if c = '\n' then ['\\', 'n']
  else if c = '\r' then ['\\', 'r']
  else if c = '\t' then ['\\', 't']
  else if c.toNat = 0 then ['\\', '0']
  else if isInvisible c then codePoint c
  else [c]

/-- A text between double quotes. -/
def text (s : String) : String :=
  String.ofList ('"' :: (s.toList.flatMap (escape '"') ++ ['"']))

/-- A character between single quotes. -/
def character (c : Char) : String :=
  String.ofList ('\'' :: (escape '\'' c ++ ['\'']))

/-- A text that may be absent. -/
def optional : Option String → String
  | none => "None"
  | some s => "Some(" ++ text s ++ ")"

end Quoted

end SymbolicScript
