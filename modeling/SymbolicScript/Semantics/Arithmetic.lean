import SymbolicScript.Machine.State
import SymbolicScript.Number.Modular

/-!
# Arithmetic and logic

Numeric instructions fold operands that are all known, and push a derived variable if one of them
is symbolic. Operands become integers in the order in which they were pushed, and results must fit
into 256 bits. Each family is a function from operands to a result, and `fold` supplies the rest.
-/

namespace SymbolicScript

namespace Semantics

/-- Pops operands, and gives them in the order in which they were pushed. -/
def popOperands (count : Nat) : Exec (List Item) :=
  return (← Exec.popMany count).reverse

/-- The operands as integers up to the first that fails or is symbolic; none if one is. -/
def integers : List Item → Except ExecutionError (Option (List Int))
  | [] => .ok (some [])
  | x :: rest => do
    match ← x.toInteger? with
    | none => return none
    | some value => return (← integers rest).map (value :: ·)

/-- Pushes the result of an operation on known operands, or a derived variable. -/
def fold (opcode : Opcode) (operands : List Item)
    (operation : List Int → Except ExecutionError Item) : Exec Unit := do
  match ← integers operands with
  | some values => Exec.push (← operation values)
  | none => Exec.push (.derived opcode operands)

/-- An integer result, which must have at most 256 bits. -/
def bounded (opcode : Opcode) (value : Int) : Except ExecutionError Item :=
  if (TwosComplement.minimal value).length ≤ Limits.integerBytes then .ok (.integer value)
  else .error (.outOfRange opcode value)

/-- A nonzero divisor. -/
def nonzero (opcode : Opcode) (value : Int) : Except ExecutionError Int :=
  if value = 0 then .error (.outOfRange opcode value) else .ok value

/-- An exponent or a shift. -/
def shiftAmount (opcode : Opcode) (value : Int) : Except ExecutionError Nat :=
  if 0 ≤ value ∧ value ≤ Limits.shift then .ok value.toNat
  else .error (.outOfRange opcode value)

/-- The greatest natural number whose square is at most `n`. -/
def squareRoot (n : Nat) : Nat :=
  if n = 0 then
    0
  else
    let root := 2 * squareRoot (n / 4)
    if (root + 1) * (root + 1) ≤ n then root + 1 else root
termination_by n
decreasing_by omega

/-- The inverse of `value` modulo `modulus`, where a positive value and a modulus of at least two
have one exactly if they have no common factor. -/
def modularInverse (opcode : Opcode) (value modulus : Int) : Except ExecutionError Int :=
  if value ≤ 0 then
    .error (.outOfRange opcode value)
  else if modulus < 2 then
    .error (.outOfRange opcode modulus)
  else
    match Modular.inverse? value.toNat modulus.toNat with
    | some inverse => .ok inverse
    | none => .error (.outOfRange opcode value)

/-- The power of `value` modulo `modulus`, with the sign of the full power. The exponent -1 asks
for the inverse. -/
def modularPower (opcode : Opcode) (value exponent modulus : Int) :
    Except ExecutionError Int := do
  let modulus ← nonzero opcode modulus
  if exponent = -1 then
    modularInverse opcode value modulus
  else if exponent < 0 then
    throw (.outOfRange opcode exponent)
  else
    let magnitude := Modular.pow value.natAbs exponent.natAbs modulus.natAbs
    return if value < 0 ∧ exponent % 2 ≠ 0 then -(magnitude : Int) else magnitude

/-- The result of an instruction on one integer. -/
def unaryResult (opcode : Opcode) (x : Int) : Except ExecutionError Item :=
  match opcode with
  | .invert => bounded opcode (-x - 1)
  | .sign => .ok (.integer x.sign)
  | .abs => bounded opcode x.natAbs
  | .negate => bounded opcode (-x)
  | .inc => bounded opcode (x + 1)
  | .dec => bounded opcode (x - 1)
  | .sqrt =>
    if x < 0 then .error (.outOfRange opcode x) else bounded opcode (squareRoot x.toNat)
  | .nz => .ok (.boolean (x ≠ 0))
  | _ => .error (.invalidOperand opcode)

/-- The result of an instruction on two integers, in the order in which they were pushed. -/
def binaryResult (opcode : Opcode) (x y : Int) : Except ExecutionError Item :=
  match opcode with
  | .and => bounded opcode (TwosComplement.land x y)
  | .or => bounded opcode (TwosComplement.lor x y)
  | .xor => bounded opcode (TwosComplement.lxor x y)
  | .add => bounded opcode (x + y)
  | .sub => bounded opcode (x - y)
  | .mul => bounded opcode (x * y)
  | .div => do bounded opcode (x.tdiv (← nonzero opcode y))
  | .mod => do bounded opcode (x.tmod (← nonzero opcode y))
  | .pow => do bounded opcode (x.pow (← shiftAmount opcode y))
  | .shl => do bounded opcode (x * Nat.pow 2 (← shiftAmount opcode y))
  | .shr => do bounded opcode (x.fdiv (Nat.pow 2 (← shiftAmount opcode y)))
  | .numEqual => .ok (.boolean (x = y))
  | .numNotEqual => .ok (.boolean (x ≠ y))
  | .lt => .ok (.boolean (x < y))
  | .le => .ok (.boolean (x ≤ y))
  | .gt => .ok (.boolean (x > y))
  | .ge => .ok (.boolean (x ≥ y))
  | .min => .ok (.integer (min x y))
  | .max => .ok (.integer (max x y))
  | _ => .error (.invalidOperand opcode)

/-- The result of an instruction on three integers, in the order in which they were pushed. -/
def ternaryResult (opcode : Opcode) (a b c : Int) : Except ExecutionError Item :=
  match opcode with
  | .modMul => do bounded opcode ((a * b).tmod (← nonzero opcode c))
  | .modPow => do bounded opcode (← modularPower opcode a b c)
  | .within => .ok (.boolean (b ≤ a ∧ a < c))
  | _ => .error (.invalidOperand opcode)

/-- Replaces an integer by a result. -/
def unary (i : Instruction) : Exec Unit := do
  let operands ← popOperands 1
  fold i.opcode operands fun
    | [x] => unaryResult i.opcode x
    | _ => .error (.invalidOperand i.opcode)

/-- Whether an opcode compares by size, for which null is comparable to nothing. -/
def isOrdering : Opcode → Bool
  | .lt | .le | .gt | .ge => true
  | _ => false

/-- Replaces two integers by a result. -/
def binary (i : Instruction) : Exec Unit := do
  let operands ← popOperands 2
  if isOrdering i.opcode && operands.any Item.isNull then
    Exec.push (.boolean false)
  else
    fold i.opcode operands fun
      | [x, y] => binaryResult i.opcode x y
      | _ => .error (.invalidOperand i.opcode)

/-- Replaces three integers by a result. -/
def ternary (i : Instruction) : Exec Unit := do
  let operands ← popOperands 3
  fold i.opcode operands fun
    | [a, b, c] => ternaryResult i.opcode a b c
    | _ => .error (.invalidOperand i.opcode)

/-- Replaces an item by the opposite of its truth value. -/
def logicalNot (i : Instruction) : Exec Unit := do
  let x ← Exec.pop
  match ← x.toBoolean? with
  | some value => Exec.push (.boolean !value)
  | none => Exec.push (.derived i.opcode [x])

/-- The value of a logical connective if it is determined by what is known of its operands. -/
def connective (opcode : Opcode) (a b : Option Bool) : Option Bool :=
  match opcode, a, b with
  | .boolAnd, some a, some b => some (a && b)
  | .boolAnd, some false, none | .boolAnd, none, some false => some false
  | .boolOr, some a, some b => some (a || b)
  | .boolOr, some true, none | .boolOr, none, some true => some true
  | _, _, _ => none

/-- Replaces two items by a logical connective of their truth values. -/
def logical (i : Instruction) : Exec Unit := do
  let y ← Exec.pop
  let x ← Exec.pop
  let a ← x.toBoolean?
  let b ← y.toBoolean?
  match connective i.opcode a b with
  | some value => Exec.push (.boolean value)
  | none => Exec.push (.derived i.opcode [x, y])

end Semantics

end SymbolicScript
