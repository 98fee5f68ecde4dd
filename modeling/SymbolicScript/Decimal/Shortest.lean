import SymbolicScript.Number.Binary64

/-!
# The shortest decimal that reads back

Among the decimals that are nearer to a floating-point number than to any other one, the shortest
is found by trying one digit, two digits and so on: on the grid of decimals with so many digits,
the two neighbours of the number are the only candidates. Of two that read back the nearer is
taken, and of two equally near ones the even one.
-/

namespace SymbolicScript

namespace Decimal

/-- A decimal magnitude: `digits * 10 ^ exponent`. -/
structure Scaled where
  /-- The digits, as one number. -/
  digits : Nat
  /-- The power of ten. -/
  exponent : Int
  deriving DecidableEq, Repr

/-- Numerator and denominator of `10 ^ exponent`. -/
def tenTo (exponent : Int) : Nat × Nat :=
  if 0 ≤ exponent then (Nat.pow 10 exponent.toNat, 1)
  else (1, Nat.pow 10 (-exponent).toNat)

/-- Four times the ends of the interval of reals that read back as a number, as multiples of the
power of two of its exponent. Below a power of two the neighbours are twice as dense. -/
def interval (x : Binary64) : Nat × Nat :=
  let m := 4 * x.significand
  let below := if x.significand = Nat.pow 2 52 ∧ x.exponent > -1074 then 1 else 2
  (m - below, m + 2)

/-- Whether a decimal reads back as a number. -/
def readsBack (x : Binary64) (d : Scaled) : Bool :=
  let (low, high) := interval x
  let (num, den) := tenTo d.exponent
  let (p, q) := Binary64.toQuotient ⟨1, x.exponent⟩
  let value := 4 * d.digits * num * q
  let unit := p * den
  if x.significand % 2 = 0 then low * unit ≤ value ∧ value ≤ high * unit
  else low * unit < value ∧ value < high * unit

/-- The candidates with the power of ten `exponent`, of which there are at most two: the decimals
next to the number that read back, the nearer one first. -/
def candidates (x : Binary64) (exponent : Int) : List Scaled :=
  let (a, b) := x.toQuotient
  let (num, den) := tenTo exponent
  let n := a * den
  let d := b * num
  let floor := n / d
  let twice := 2 * (n % d)
  let nearLow := twice < d ∨ (twice = d ∧ floor % 2 = 0)
  let pair : List Scaled :=
    if nearLow then [⟨floor, exponent⟩, ⟨floor + 1, exponent⟩]
    else [⟨floor + 1, exponent⟩, ⟨floor, exponent⟩]
  pair.filter (readsBack x)

/-- The power of ten of the leading digit of a positive quotient. -/
def leadingExponent (num den : Nat) : Int :=
  if den ≤ num then
    ((Nat.toDigits 10 (num / den)).length : Int) - 1
  else
    let guess := (Nat.toDigits 10 (den / num)).length
    if num * Nat.pow 10 (guess - 1) ≥ den then -((guess : Int) - 1) else -(guess : Int)

/-- The first candidate on grids of decreasing power of ten, from `exponent` on. -/
def search (x : Binary64) (exponent : Int) : (tries : Nat) → Option Scaled
  | 0 => none
  | tries + 1 =>
    match candidates x exponent with
    | d :: _ => some d
    | [] => search x (exponent - 1) tries

/-- The decimal without zeros at its end. -/
def strip (d : Scaled) : Scaled :=
  if d.digits = 0 then d
  else if d.digits % 10 = 0 then strip ⟨d.digits / 10, d.exponent + 1⟩
  else d
termination_by d.digits
decreasing_by omega

/-- The shortest decimal that reads back as a number. Seventeen digits always suffice. -/
def shortest (x : Binary64) : Scaled :=
  if x.significand = 0 then
    ⟨0, 0⟩
  else
    let (num, den) := x.toQuotient
    strip ((search x (leadingExponent num den) 18).getD ⟨0, 0⟩)

/-- How a decimal magnitude is written: in which range of the leading digit's power of ten without
an exponent. -/
structure Layout where
  /-- The least power of ten written without an exponent. -/
  leastPositional : Int
  /-- The greatest power of ten written without an exponent. -/
  greatestPositional : Int

/-- Writes a decimal magnitude. There is always a digit on both sides of the point, except that a
single digit with an exponent has no point; the exponent has a sign. -/
def write (layout : Layout) (d : Scaled) : String :=
  let digits := Nat.toDigits 10 d.digits
  let leading : Int := d.exponent + digits.length - 1
  let text : List Char :=
    if d.digits = 0 then
      ['0', '.', '0']
    else if layout.leastPositional ≤ leading ∧ leading ≤ layout.greatestPositional then
      if 0 ≤ d.exponent then
        digits ++ List.replicate d.exponent.toNat '0' ++ ['.', '0']
      else if 0 ≤ leading then
        digits.take (leading.toNat + 1) ++ '.' :: digits.drop (leading.toNat + 1)
      else
        '0' :: '.' :: (List.replicate (-leading - 1).toNat '0' ++ digits)
    else
      let fraction := digits.drop 1
      let point := if fraction.isEmpty then [] else '.' :: fraction
      let sign := if 0 ≤ leading then '+' else '-'
      digits.take 1 ++ point ++ 'e' :: sign :: Nat.toDigits 10 leading.natAbs
  String.ofList text

end Decimal

end SymbolicScript
