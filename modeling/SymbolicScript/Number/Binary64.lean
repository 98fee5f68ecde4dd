/-!
# Numbers in binary floating point

A finite number of the 64-bit format is a sign with a significand below 2^53 and a power of two.
Operations are exact on natural numbers and round once, to the nearest such number and in a tie to
the one with an even significand; a result too large for the format is no number.
-/

namespace SymbolicScript

/-- The magnitude of a finite number of the 64-bit format: `significand * 2 ^ exponent`. -/
structure Binary64 where
  /-- The significand, below 2^53. -/
  significand : Nat
  /-- The power of two, at least -1074. -/
  exponent : Int
  deriving DecidableEq, Repr

namespace Binary64

/-- The magnitude zero. -/
def zero : Binary64 := ⟨0, -1074⟩

/-- The quotient rounded to the nearest natural number, in a tie to the even one. -/
def roundQuotient (num den : Nat) : Nat :=
  let floor := num / den
  let twice := 2 * (num % den)
  if twice < den ∨ (twice = den ∧ floor % 2 = 0) then floor else floor + 1

/-- Two natural numbers whose quotient is `num / den / 2 ^ exponent`. -/
def scale (num den : Nat) (exponent : Int) : Nat × Nat :=
  if 0 ≤ exponent then (num, den * Nat.pow 2 exponent.toNat)
  else (num * Nat.pow 2 (-exponent).toNat, den)

/-- The greatest exponent for which the quotient of `num` and `den` has a significand of 53 bits,
or the least exponent of the format if the quotient is smaller than that. -/
def exponentFor (num den : Nat) : Int :=
  let guess : Int := (num.log2 : Int) - den.log2 - 53
  let (n, d) := scale num den (guess + 1)
  max (if Nat.pow 2 52 * d ≤ n then guess + 1 else guess) (-1074)

/-- The number nearest to the quotient of two natural numbers, unless that is too large. -/
def ofQuotient (num den : Nat) : Option Binary64 :=
  if num = 0 then
    some zero
  else
    let exponent := exponentFor num den
    let (n, d) := scale num den exponent
    let q := roundQuotient n d
    let result : Binary64 :=
      if q = Nat.pow 2 53 then ⟨Nat.pow 2 52, exponent + 1⟩ else ⟨q, exponent⟩
    if result.exponent ≤ 971 then some result else none

/-- The number nearest to a natural number. -/
def ofNat (n : Nat) : Option Binary64 := ofQuotient n 1

/-- The numerator and the denominator of a magnitude. -/
def toQuotient (x : Binary64) : Nat × Nat :=
  if 0 ≤ x.exponent then (x.significand * Nat.pow 2 x.exponent.toNat, 1)
  else (x.significand, Nat.pow 2 (-x.exponent).toNat)

/-- The rounded product. -/
def mul (x y : Binary64) : Option Binary64 :=
  let (a, b) := x.toQuotient
  let (c, d) := y.toQuotient
  ofQuotient (a * c) (b * d)

/-- The rounded quotient. -/
def div (x y : Binary64) : Option Binary64 :=
  let (a, b) := x.toQuotient
  let (c, d) := y.toQuotient
  ofQuotient (a * d) (b * c)

/-- The number nearest to a power of ten. -/
def powerOfTen (n : Nat) : Option Binary64 := ofNat (Nat.pow 10 n)

/-- The greatest power of ten by which numbers are scaled at once. -/
def maxStep : Nat := 308

/-- Divides `count` times, as long as the number is not zero. -/
def divideTimes (divisor : Binary64) : (count : Nat) → Binary64 → Option Binary64
  | 0, x => some x
  | count + 1, x => do
    if x.significand = 0 then some x else divideTimes divisor count (← x.div divisor)

/-- Multiplies by a power of ten. A negative power is applied in steps of at most `maxStep`, with
rounding after each. -/
def scaleByTen (x : Binary64) (power : Int) : Option Binary64 := do
  let amount := power.natAbs
  if 0 ≤ power then
    if amount ≤ maxStep then x.mul (← powerOfTen amount)
    else if x.significand = 0 then some x
    else none
  else
    let steps := (amount - 1) / maxStep
    let y ← divideTimes (← powerOfTen maxStep) steps x
    y.div (← powerOfTen (amount - maxStep * steps))

end Binary64

end SymbolicScript
