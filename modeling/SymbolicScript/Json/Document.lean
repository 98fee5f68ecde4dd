import SymbolicScript.Json.Basic
import SymbolicScript.SortedMap

/-!
# JSON documents

A document is what a JSON text says before it is given a meaning: numbers are their digits,
strings are code points among which unpaired surrogates may be, objects list their members as
written, and nesting is unlimited. `Document.parse?` reads one from a text, and `Document.value?`
is its meaning as a value, which demands more: numbers in the range of floating point, strings
without surrogates, and limited nesting. What a reader skips need only be a document.
-/

namespace SymbolicScript

/-- The digits of a number as written. -/
structure Numeral where
  /-- Whether there is a minus sign. -/
  negative : Bool
  /-- The digits in front of the point. -/
  whole : List Nat
  /-- The digits behind the point, if there is one. -/
  fraction : Option (List Nat)
  /-- The sign and the digits of the exponent, if there is one. -/
  exponent : Option (Bool × List Nat)
  deriving DecidableEq, Repr

/-- What a JSON text says. -/
inductive Document where
  | null
  | bool (value : Bool)
  | number (value : Numeral)
  | string (codes : List Nat)
  | array (elements : List Document)
  | object (members : List (List Nat × Document))
  deriving Repr

namespace Document

/-! ## Reading -/

/-- A text without the white space in front of it. -/
def skipBlank (text : List Char) : List Char :=
  text.dropWhile fun c => c = ' ' || c = '\n' || c = '\t' || c = '\r'

/-- The value of a hexadecimal digit. -/
def hexValue? (c : Char) : Option Nat :=
  let n := c.toNat
  if 48 ≤ n ∧ n ≤ 57 then some (n - 48)
  else if 97 ≤ n ∧ n ≤ 102 then some (n - 87)
  else if 65 ≤ n ∧ n ≤ 70 then some (n - 55)
  else none

/-- The code point that a character behind a backslash stands for. -/
def escapeValue? (c : Char) : Option Nat :=
  if c = '"' then some 34
  else if c = '\\' then some 92
  else if c = '/' then some 47
  else if c = 'b' then some 8
  else if c = 'f' then some 12
  else if c = 'n' then some 10
  else if c = 'r' then some 13
  else if c = 't' then some 9
  else none

/-- Reads the rest of a string up to its closing quote. -/
def parseString? : List Char → Option (List Nat × List Char)
  | [] => none
  | '"' :: rest => some ([], rest)
  | '\\' :: 'u' :: a :: b :: c :: d :: rest => do
    let a ← hexValue? a
    let b ← hexValue? b
    let c ← hexValue? c
    let d ← hexValue? d
    let (codes, rest) ← parseString? rest
    let code := ((a * 16 + b) * 16 + c) * 16 + d
    return (code :: codes, rest)
  | '\\' :: c :: rest => do
    let code ← escapeValue? c
    let (codes, rest) ← parseString? rest
    return (code :: codes, rest)
  | c :: rest =>
    if c.toNat < 32 ∨ c = '\\' then
      none
    else do
      let (codes, rest) ← parseString? rest
      return (c.toNat :: codes, rest)

/-- The decimal digits at the front of a text, and the rest. -/
def takeDigits (text : List Char) : List Nat × List Char :=
  ((text.takeWhile Char.isDigit).map fun c => c.toNat - 48, text.dropWhile Char.isDigit)

/-- Reads at least one digit. -/
def parseDigits? (text : List Char) : Option (List Nat × List Char) :=
  match takeDigits text with
  | ([], _) => none
  | found => some found

/-- Reads the digits in front of the point, of which the first is zero only if it is alone. -/
def parseWhole? (text : List Char) : Option (List Nat × List Char) :=
  match parseDigits? text with
  | some (0 :: _ :: _, _) => none
  | found => found

/-- Reads the part behind a point, if there is one. -/
def parseFraction? : List Char → Option (Option (List Nat) × List Char)
  | '.' :: rest => (parseDigits? rest).map fun (digits, rest) => (some digits, rest)
  | text => some (none, text)

/-- Reads an exponent, if there is one. -/
def parseExponent? : List Char → Option (Option (Bool × List Nat) × List Char)
  | c :: rest =>
    if c = 'e' ∨ c = 'E' then
      let (negative, rest) := match rest with
        | '-' :: rest => (true, rest)
        | '+' :: rest => (false, rest)
        | rest => (false, rest)
      (parseDigits? rest).map fun (digits, rest) => (some (negative, digits), rest)
    else
      some (none, c :: rest)
  | [] => some (none, [])

/-- Reads a number behind its sign. -/
def parseNumeral? (negative : Bool) (text : List Char) : Option (Document × List Char) := do
  let (whole, rest) ← parseWhole? text
  let (fraction, rest) ← parseFraction? rest
  let (exponent, rest) ← parseExponent? rest
  return (.number ⟨negative, whole, fraction, exponent⟩, rest)

mutual

/-- Reads a document from the front of a text. The fuel bounds the number of characters read. -/
def parseValue? : (fuel : Nat) → List Char → Option (Document × List Char)
  | 0, _ => none
  | fuel + 1, text =>
    match skipBlank text with
    | 'n' :: 'u' :: 'l' :: 'l' :: rest => some (.null, rest)
    | 't' :: 'r' :: 'u' :: 'e' :: rest => some (.bool true, rest)
    | 'f' :: 'a' :: 'l' :: 's' :: 'e' :: rest => some (.bool false, rest)
    | '"' :: rest => (parseString? rest).map fun (codes, rest) => (.string codes, rest)
    | '-' :: rest => parseNumeral? true rest
    | '[' :: rest =>
      match skipBlank rest with
      | ']' :: rest => some (.array [], rest)
      | rest => (parseElements? fuel rest).map fun (xs, rest) => (.array xs, rest)
    | '\x7b' :: rest =>
      match skipBlank rest with
      | '\x7d' :: rest => some (.object [], rest)
      | rest => (parseMembers? fuel rest).map fun (xs, rest) => (.object xs, rest)
    | text => parseNumeral? false text

/-- Reads the elements of an array and its closing bracket. -/
def parseElements? : (fuel : Nat) → List Char → Option (List Document × List Char)
  | 0, _ => none
  | fuel + 1, text => do
    let (x, rest) ← parseValue? fuel text
    match skipBlank rest with
    | ',' :: rest => do
      let (xs, rest) ← parseElements? fuel rest
      return (x :: xs, rest)
    | ']' :: rest => return ([x], rest)
    | _ => none

/-- Reads the members of an object and its closing brace. -/
def parseMembers? : (fuel : Nat) → List Char → Option (List (List Nat × Document) × List Char)
  | 0, _ => none
  | fuel + 1, text =>
    match skipBlank text with
    | '"' :: rest => do
      let (key, rest) ← parseString? rest
      match skipBlank rest with
      | ':' :: rest => do
        let (x, rest) ← parseValue? fuel rest
        match skipBlank rest with
        | ',' :: rest => do
          let (xs, rest) ← parseMembers? fuel rest
          return ((key, x) :: xs, rest)
        | '\x7d' :: rest => return ([(key, x)], rest)
        | _ => none
      | _ => none
    | _ => none

end

/-- The document that a text holds, with nothing but white space around it. -/
def parse? (text : String) : Option Document := do
  let chars := text.toList
  let (found, rest) ← parseValue? (2 * chars.length + 1) chars
  if (skipBlank rest).isEmpty then return found else none

/-! ## Meaning -/

/-- The code points in which a high surrogate that is followed by a low one has been joined with
it. -/
def joinSurrogates : List Nat → List Nat
  | high :: low :: rest =>
    if 0xD800 ≤ high ∧ high < 0xDC00 ∧ 0xDC00 ≤ low ∧ low < 0xE000 then
      (0x10000 + (high - 0xD800) * 0x400 + (low - 0xDC00)) :: joinSurrogates rest
    else
      high :: joinSurrogates (low :: rest)
  | codes => codes

/-- The text of a string, unless a surrogate stands alone in it. -/
def text? (codes : List Nat) : Option String :=
  let joined := joinSurrogates codes
  if joined.all fun n => n.isValidChar then some (String.ofList (joined.map Char.ofNat)) else none

/-- The greatest unsigned integer of 64 bits. -/
def maxUnsigned : Nat := Nat.pow 2 64 - 1

/-- Digits taken over into a significand of 64 bits, and how many were left out behind them. -/
def takeWhole (significand : Nat) : List Nat → Nat × Nat
  | [] => (significand, 0)
  | digit :: rest =>
    if significand * 10 + digit ≤ maxUnsigned then takeWhole (significand * 10 + digit) rest
    else (significand, rest.length + 1)

/-- Digits behind the point taken over into a significand of 64 bits, up to the first that does
not fit, and how many were taken. -/
def takeFraction (significand : Nat) : List Nat → Nat × Nat
  | [] => (significand, 0)
  | digit :: rest =>
    if significand * 10 + digit ≤ maxUnsigned then
      let (s, taken) := takeFraction (significand * 10 + digit) rest
      (s, taken + 1)
    else
      (significand, 0)

/-- The number that decimal digits denote. -/
def ofDigits (digits : List Nat) : Nat :=
  digits.foldl (fun n digit => n * 10 + digit) 0

/-- The value of an exponent. -/
def exponentValue : Option (Bool × List Nat) → Int
  | none => 0
  | some (negative, digits) => if negative then -(ofDigits digits : Int) else ofDigits digits

/-- The value of a number in floating point, from a significand of 64 bits. -/
def floatValue? (n : Numeral) : Option JsonNumber := do
  let (significand, dropped) := takeWhole 0 n.whole
  let (significand, taken) := takeFraction significand (n.fraction.getD [])
  let x ← Binary64.ofNat significand
  let power : Int := (dropped : Int) - taken + exponentValue n.exponent
  return .float n.negative (← x.scaleByTen power)

/-- The value of a number. Without point and exponent it is an integer if it fits 64 bits, with
the exception of minus zero. -/
def numberValue? (n : Numeral) : Option JsonNumber :=
  let magnitude := ofDigits n.whole
  if n.fraction.isSome ∨ n.exponent.isSome then floatValue? n
  else if n.negative then
    if 1 ≤ magnitude ∧ magnitude ≤ Nat.pow 2 63 then some (.integer (-(magnitude : Int)))
    else floatValue? n
  else if magnitude ≤ maxUnsigned then some (.integer magnitude)
  else floatValue? n

/-- The greatest number of arrays and objects around a value. -/
def maxNesting : Nat := 127

mutual

/-- The value of a document inside `depth` arrays and objects. Of members with the same key the
last one counts, and members are sorted by key. -/
def value? (depth : Nat) : Document → Option Json
  | null => some .null
  | bool value => some (.bool value)
  | number value => (numberValue? value).map .number
  | string codes => (text? codes).map .string
  | array elements =>
    if depth < maxNesting then (elementValues? (depth + 1) elements).map .array else none
  | object members =>
    if depth < maxNesting then
      (memberValues? (depth + 1) .empty members).map fun found => .object found.entries
    else
      none

/-- The values of elements. -/
def elementValues? (depth : Nat) : List Document → Option (List Json)
  | [] => some []
  | x :: xs => do
    let value ← x.value? depth
    let values ← elementValues? depth xs
    return value :: values

/-- The members found so far and those that follow, by key. -/
def memberValues? (depth : Nat) (found : SortedMap String Json) :
    List (List Nat × Document) → Option (SortedMap String Json)
  | [] => some found
  | (key, x) :: xs => do
    let key ← text? key
    let value ← x.value? depth
    memberValues? depth (found.insert key value) xs

end

end Document

end SymbolicScript
