/-!
# Modular arithmetic

Powers and inverses modulo a natural number. `Modular.pow` squares its way through the binary
digits of the exponent, so it never forms the full power, and `Modular.inverse?` runs the extended
Euclidean algorithm, whose remainders strictly decrease.
-/

namespace SymbolicScript

namespace Modular

/-- The residue of `base ^ exponent` modulo `modulus`. -/
def pow (base exponent modulus : Nat) : Nat :=
  if exponent = 0 then
    1 % modulus
  else
    let root := pow (base * base % modulus) (exponent / 2) modulus
    if exponent % 2 = 1 then root * base % modulus else root
termination_by exponent
decreasing_by omega

/-- The last nonzero remainder of the Euclidean algorithm started from `r` and `next`, with the
coefficient that it has accumulated from `t` and `nextT`. -/
def bezout (r next : Nat) (t nextT : Int) : Nat × Int :=
  if next = 0 then
    (r, t)
  else
    bezout next (r % next) nextT (t - (r / next : Nat) * nextT)
termination_by next
decreasing_by exact Nat.mod_lt _ (by omega)

/-- The residue that multiplies `value` to one modulo `modulus`, if they have no common factor. -/
def inverse? (value modulus : Nat) : Option Nat :=
  let (common, coefficient) := bezout modulus (value % modulus) 0 1
  if common = 1 then some (coefficient % modulus).toNat else none

end Modular

end SymbolicScript
