import Mathlib.Algebra.Order.Ring.Basic
import Mathlib.Algebra.Order.Ring.Int
import Mathlib.Data.Int.GCD
import Mathlib.Data.Int.ModEq
import Mathlib.Tactic.Ring
import SymbolicScript.Proofs.IntegerEncoding
import SymbolicScript.Semantics.Arithmetic

/-!
# Modular powers and inverses are exact

A modular power is found by squaring through the digits of the exponent, on magnitudes, and gets its
sign back from the parity of the exponent.  It is the truncating remainder of the power itself
(`Semantics.tmod_pow_eq`).

A modular inverse is found by the extended Euclidean algorithm, which works on signed registers: two
remainders, and for each of them the coefficient with which it comes from the value
(`Modular.Registers`).  One round keeps the remainders congruent to the multiples of the value and
keeps their greatest common divisor (`Modular.Registers.Traces.round`), and it makes the second
remainder smaller.  So the loop ends after as many rounds as the first remainder counts, at the
latest, and what it leaves behind is the inverse or shows that there is none
(`Semantics.modularPower_exact`).
-/

namespace SymbolicScript

namespace Modular

/-! ## Powers -/

/-- Squaring through the digits of the exponent gives the residue of the power. -/
lemma pow_eq (base exponent modulus : Nat) :
    pow base exponent modulus = base ^ exponent % modulus := by
  fun_induction pow base exponent modulus with
  | case1 => rw [pow_zero]
  | case2 base exponent _ root hodd ih =>
    have hroot : root = (base * base) ^ (exponent / 2) % modulus :=
      ih.trans (Nat.pow_mod _ _ _).symm
    have hexponent : exponent = 2 * (exponent / 2) + 1 := by omega
    calc root * base % modulus
        = (base * base) ^ (exponent / 2) * base % modulus := by
          rw [hroot, Nat.mod_mul_mod]
      _ = base ^ (2 * (exponent / 2) + 1) % modulus := by
          rw [← pow_two, ← pow_mul, ← pow_succ]
      _ = base ^ exponent % modulus := by rw [← hexponent]
  | case3 base exponent _ root heven ih =>
    have hexponent : exponent = 2 * (exponent / 2) := by omega
    calc root = (base * base % modulus) ^ (exponent / 2) % modulus := ih
      _ = (base * base) ^ (exponent / 2) % modulus := by rw [← Nat.pow_mod]
      _ = base ^ (2 * (exponent / 2)) % modulus := by rw [← pow_two, ← pow_mul]
      _ = base ^ exponent % modulus := by rw [← hexponent]

/-! ## The Euclidean algorithm -/

/-- What the loop of the extended Euclidean algorithm works on. -/
structure Registers where
  /-- The remainder that divides no other one yet. -/
  rest : Int
  /-- The remainder that follows it; the loop ends when it is zero. -/
  next : Int
  /-- The coefficient of the first remainder. -/
  coefficient : Int
  /-- The coefficient of the second one. -/
  nextCoefficient : Int

namespace Registers

/-- The registers in front of the loop. -/
def start (value modulus : Int) : Registers :=
  ⟨modulus, value.tmod modulus, 0, 1⟩

/-- One round of the loop. -/
def round (s : Registers) : Registers :=
  let quotient := s.rest.tdiv s.next
  ⟨s.next, s.rest - quotient * s.next, s.nextCoefficient,
    s.coefficient - quotient * s.nextCoefficient⟩

/-- The registers come from a value and a modulus: each remainder is congruent to its multiple of
the value, and the common divisors of both are those of the value and the modulus. -/
structure Traces (value modulus : Int) (s : Registers) : Prop where
  /-- The first remainder is positive. -/
  pos : 0 < s.rest
  /-- The second one is not negative. -/
  nonneg : 0 ≤ s.next
  /-- The first remainder is a multiple of the value. -/
  rest_modEq : value * s.coefficient ≡ s.rest [ZMOD modulus]
  /-- So is the second one. -/
  next_modEq : value * s.nextCoefficient ≡ s.next [ZMOD modulus]
  /-- The greatest common divisor is that of the value and the modulus. -/
  gcd_eq : Int.gcd s.rest s.next = Int.gcd value modulus

variable {value modulus : Int} {s : Registers}

/-- The remainder of a division by a positive integer is the Euclidean one. -/
lemma next_round (hrest : 0 ≤ s.rest) : s.round.next = s.rest % s.next := by
  change s.rest - s.rest.tdiv s.next * s.next = s.rest % s.next
  rw [Int.tdiv_eq_ediv_of_nonneg hrest, Int.emod_def, mul_comm]

/-- The loop begins with the value and the modulus. -/
lemma traces_start (hvalue : 0 < value) (hmodulus : 0 < modulus) :
    (start value modulus).Traces value modulus where
  pos := hmodulus
  nonneg := Int.tmod_nonneg _ hvalue.le
  rest_modEq := by
    change value * 0 ≡ modulus [ZMOD modulus]
    rw [mul_zero]
    exact (Int.modEq_zero_iff_dvd.2 dvd_rfl).symm
  next_modEq := by
    change value * 1 ≡ value.tmod modulus [ZMOD modulus]
    rw [mul_one, Int.tmod_eq_emod_of_nonneg hvalue.le]
    exact (Int.mod_modEq value modulus).symm
  gcd_eq := by
    change Int.gcd modulus (value.tmod modulus) = Int.gcd value modulus
    rw [Int.tmod_eq_emod_of_nonneg hvalue.le, Int.gcd_comm, Int.gcd_emod]

/-- A round keeps the congruences and the common divisors. -/
lemma Traces.round (h : s.Traces value modulus) (hnext : s.next ≠ 0) :
    s.round.Traces value modulus where
  pos := lt_of_le_of_ne h.nonneg hnext.symm
  nonneg := by
    rw [next_round h.pos.le]
    exact Int.emod_nonneg _ hnext
  rest_modEq := h.next_modEq
  next_modEq := by
    change value * (s.coefficient - s.rest.tdiv s.next * s.nextCoefficient) ≡
      s.rest - s.rest.tdiv s.next * s.next [ZMOD modulus]
    have hsub := h.rest_modEq.sub (h.next_modEq.mul_left (s.rest.tdiv s.next))
    convert hsub using 1
    ring
  gcd_eq := by
    rw [next_round h.pos.le, ← h.gcd_eq]
    change Int.gcd s.next (s.rest % s.next) = Int.gcd s.rest s.next
    rw [Int.gcd_comm, Int.gcd_emod]

/-- The loop is left after some rounds. -/
def LeavesAfter (rounds : Nat) (s : Registers) : Prop :=
  (∀ k < rounds, (round^[k] s).next ≠ 0) ∧ (round^[rounds] s).next = 0

/-- The first round counts. -/
lemma LeavesAfter.succ {rounds : Nat} (h : s.round.LeavesAfter rounds) (hnext : s.next ≠ 0) :
    s.LeavesAfter (rounds + 1) := by
  refine ⟨fun k hk => ?_, h.2⟩
  cases k with
  | zero => exact hnext
  | succ k => exact h.1 k (Nat.lt_of_succ_lt_succ hk)

/-- What holds in front of the loop and is kept by its rounds holds behind it. -/
lemma LeavesAfter.traces {rounds : Nat} (h : s.LeavesAfter rounds) (hs : s.Traces value modulus) :
    (round^[rounds] s).Traces value modulus := by
  have hrounds : ∀ k ≤ rounds, (round^[k] s).Traces value modulus := by
    intro k
    induction k with
    | zero => exact fun _ => hs
    | succ k ih =>
      intro hk
      rw [Function.iterate_succ_apply']
      exact (ih (Nat.le_of_succ_le hk)).round (h.1 k hk)
  exact hrounds rounds le_rfl

end Registers

open Registers

/-- The recursion on natural remainders is the loop on signed registers.  The second remainder
becomes smaller with each round, so there are no more rounds than it counts. -/
lemma exists_leavesAfter (r next : Nat) (t nextT : Int) :
    ∃ rounds ≤ next, (⟨r, next, t, nextT⟩ : Registers).LeavesAfter rounds ∧
      bezout r next t nextT = ((Registers.round^[rounds] ⟨r, next, t, nextT⟩).rest.toNat,
        (Registers.round^[rounds] ⟨r, next, t, nextT⟩).coefficient) := by
  fun_induction bezout r next t nextT with
  | case1 r t nextT =>
    exact ⟨0, le_rfl, ⟨fun _ hk => absurd hk (Nat.not_lt_zero _), rfl⟩, rfl⟩
  | case2 r next t nextT hnext ih =>
    obtain ⟨rounds, hrounds, hleaves, hresult⟩ := ih
    have hround : (⟨r, next, t, nextT⟩ : Registers).round =
        ⟨next, (r % next : Nat), nextT, t - (r / next : Nat) * nextT⟩ := by
      have hquotient : ((r : Int)).tdiv next = (r / next : Nat) := (Int.ofNat_tdiv r next).symm
      have hremainder : (r : Int) - (r / next : Nat) * next = (r % next : Nat) := by
        rw [Int.natCast_mod, Int.emod_def, Int.natCast_div, mul_comm]
      simp only [Registers.round, hquotient, hremainder]
    rw [← hround] at hleaves hresult
    have hlt : r % next < next := Nat.mod_lt _ (Nat.pos_of_ne_zero hnext)
    have hnonzero : (⟨r, next, t, nextT⟩ : Registers).next ≠ 0 := Nat.cast_ne_zero.2 hnext
    exact ⟨rounds + 1, by omega, hleaves.succ hnonzero, hresult⟩

/-- What the registers behind the loop say about an inverse. -/
def Registers.inverse? (s : Registers) (modulus : Int) : Option Nat :=
  if s.rest = 1 then some (s.coefficient % modulus).toNat else none

variable {value modulus : Int}

/-- How the loop ends.  The remainder that is left is the greatest common divisor, its coefficient
leads to it, and the search for an inverse is answered by the registers that are left. -/
lemma exists_loop (hvalue : 0 < value) (hmodulus : 0 < modulus) :
    ∃ (rounds : Nat) (s : Registers), s = Registers.round^[rounds] (start value modulus) ∧
      (rounds : Int) ≤ value % modulus ∧ (start value modulus).LeavesAfter rounds ∧
      s.rest = Int.gcd value modulus ∧
      value * s.coefficient ≡ Int.gcd value modulus [ZMOD modulus] ∧
      inverse? value.toNat modulus.toNat = s.inverse? modulus := by
  obtain ⟨rounds, hrounds, hleaves, hbezout⟩ :=
    exists_leavesAfter modulus.toNat (value.toNat % modulus.toNat) 0 1
  have hcast : ((modulus.toNat : Nat) : Int) = modulus := Int.toNat_of_nonneg hmodulus.le
  have hremainder : ((value.toNat % modulus.toNat : Nat) : Int) = value % modulus := by
    rw [Int.natCast_mod, Int.toNat_of_nonneg hvalue.le, hcast]
  have hstart : (⟨modulus.toNat, (value.toNat % modulus.toNat : Nat), 0, 1⟩ : Registers) =
      start value modulus := by
    rw [hremainder, hcast, ← Int.tmod_eq_emod_of_nonneg hvalue.le]
    rfl
  rw [hstart] at hleaves hbezout
  have htraces := hleaves.traces (traces_start hvalue hmodulus)
  -- The remainder that divides zero is the greatest common divisor.
  have hrest : (Registers.round^[rounds] (start value modulus)).rest = Int.gcd value modulus := by
    rw [← htraces.gcd_eq, hleaves.2, Int.gcd_zero_right]
    exact (Int.natAbs_of_nonneg htraces.pos.le).symm
  refine ⟨rounds, _, rfl, by omega, hleaves, hrest, ?_, ?_⟩
  · rw [← hrest]
    exact htraces.rest_modEq
  · have hone : (Registers.round^[rounds] (start value modulus)).rest.toNat = 1 ↔
        (Registers.round^[rounds] (start value modulus)).rest = 1 := by omega
    unfold inverse? Registers.inverse?
    simp only [hbezout, hone, hcast]

end Modular

/-! ## The instruction -/

namespace Semantics

open SymbolicScript.Modular

/-- The magnitude of a power is that of the base to the power, and its sign is the sign of the base
if the exponent is odd.  So is it for the remainder. -/
lemma tmod_pow_eq (value modulus : Int) (exponent : Nat) :
    (value ^ exponent).tmod modulus =
      if value < 0 ∧ exponent % 2 ≠ 0 then -(pow value.natAbs exponent modulus.natAbs : Int)
      else pow value.natAbs exponent modulus.natAbs := by
  have hmagnitude : ((value ^ exponent).tmod modulus).natAbs =
      pow value.natAbs exponent modulus.natAbs := by
    rw [pow_eq, Int.natAbs_tmod, Int.natAbs_pow]
  rw [← hmagnitude]
  split
  · next h =>
    have hpower : value ^ exponent < 0 :=
      Odd.pow_neg (Nat.odd_iff.2 (by omega)) h.1
    have hnonpos : 0 ≤ (-(value ^ exponent)).tmod modulus :=
      Int.tmod_nonneg _ (by omega)
    rw [Int.neg_tmod] at hnonpos
    omega
  · next h =>
    have hpower : 0 ≤ value ^ exponent := by
      by_cases hvalue : 0 ≤ value
      · exact pow_nonneg hvalue exponent
      · exact Even.pow_nonneg (Nat.even_iff.2 (by omega)) value
    exact (Int.natAbs_of_nonneg (Int.tmod_nonneg _ hpower)).symm

variable {value exponent modulus : Int} (opcode : Opcode)

/-- A power with an exponent that is not negative. -/
lemma modularPower_of_nonneg (hexponent : 0 ≤ exponent) (hmodulus : modulus ≠ 0) :
    modularPower opcode value exponent modulus =
      .ok ((value ^ exponent.toNat).tmod modulus) := by
  have hparity : exponent % 2 ≠ 0 ↔ exponent.toNat % 2 ≠ 0 := by omega
  have hnatAbs : exponent.natAbs = exponent.toNat := by omega
  unfold modularPower nonzero
  rw [if_neg hmodulus, tmod_pow_eq]
  change (if exponent = -1 then _ else _) = _
  rw [if_neg (by omega), if_neg (by omega), hnatAbs]
  simp only [hparity]
  rfl

/-- With the exponent -1 it is the search for an inverse. -/
lemma modularPower_of_inverse (hmodulus : modulus ≠ 0) :
    modularPower opcode value (-1) modulus = modularInverse opcode value modulus := by
  unfold modularPower nonzero
  rw [if_neg hmodulus]
  rfl

/-- No other negative exponent is admitted. -/
lemma modularPower_of_lt (hmodulus : modulus ≠ 0) (hexponent : exponent < -1) :
    modularPower opcode value exponent modulus = .error (.outOfRange opcode exponent) := by
  unfold modularPower nonzero
  rw [if_neg hmodulus]
  change (if exponent = -1 then _ else _) = _
  rw [if_neg (by omega), if_pos (by omega)]
  rfl

/-- What the search for an inverse says. -/
lemma exists_modularInverse (hvalue : 0 < value) (hmodulus : 2 ≤ modulus) :
    ∃ coefficient : Int, value * coefficient ≡ Int.gcd value modulus [ZMOD modulus] ∧
      modularInverse opcode value modulus =
        if Int.gcd value modulus = 1 then .ok (coefficient % modulus)
        else .error (.outOfRange opcode value) := by
  obtain ⟨-, s, -, -, -, hrest, hmodEq, hinverse⟩ := exists_loop hvalue (by omega : 0 < modulus)
  refine ⟨s.coefficient, hmodEq, ?_⟩
  have hnonneg : 0 ≤ s.coefficient % modulus := Int.emod_nonneg _ (by omega)
  unfold modularInverse
  rw [if_neg (by omega), if_neg (by omega), hinverse, Registers.inverse?, hrest]
  by_cases hgcd : Int.gcd value modulus = 1
  · simp only [hgcd, Nat.cast_one, if_true, Int.toNat_of_nonneg hnonneg]
  · simp only [Nat.cast_eq_one, hgcd, if_false]

/-- A value without a common factor with the modulus has an inverse, and only one. -/
lemma modularInverse_of_coprime (hvalue : 0 < value) (hmodulus : 2 ≤ modulus)
    (hgcd : Int.gcd value modulus = 1) :
    ∃ r, modularInverse opcode value modulus = .ok r ∧ 0 < r ∧ r < modulus ∧
      value * r ≡ 1 [ZMOD modulus] ∧
      ∀ r', 0 < r' → r' < modulus → value * r' ≡ 1 [ZMOD modulus] → r' = r := by
  obtain ⟨coefficient, hmodEq, hinverse⟩ := exists_modularInverse opcode hvalue hmodulus
  rw [if_pos hgcd] at hinverse
  rw [hgcd, Nat.cast_one] at hmodEq
  have hone : value * (coefficient % modulus) ≡ 1 [ZMOD modulus] :=
    ((Int.mod_modEq coefficient modulus).mul_left value).trans hmodEq
  have hnonneg : 0 ≤ coefficient % modulus := Int.emod_nonneg _ (by omega)
  have hlt : coefficient % modulus < modulus := Int.emod_lt_of_pos _ (by omega)
  have hne : coefficient % modulus ≠ 0 := by
    intro hzero
    rw [hzero, mul_zero] at hone
    -- Zero and one are the same modulo one only.
    have hdvd : modulus ∣ 1 := (Int.modEq_zero_iff_dvd.1 hone.symm)
    have hle := Int.le_of_dvd one_pos hdvd
    omega
  refine ⟨coefficient % modulus, hinverse, by omega, hlt, hone, fun r hpos hr hr' => ?_⟩
  have hsame : r ≡ coefficient % modulus [ZMOD modulus] :=
    calc r = r * 1 := (mul_one r).symm
      _ ≡ r * (value * (coefficient % modulus)) [ZMOD modulus] := (hone.mul_left r).symm
      _ = value * r * (coefficient % modulus) := by ring
      _ ≡ 1 * (coefficient % modulus) [ZMOD modulus] := hr'.mul_right _
      _ = coefficient % modulus := one_mul _
  have hresidues : r % modulus = coefficient % modulus % modulus := hsame
  rwa [Int.emod_eq_of_lt hpos.le hr, Int.emod_eq_of_lt hnonneg hlt] at hresidues

/-- Only positive values have an inverse. -/
lemma modularInverse_of_nonpos (hvalue : value ≤ 0) :
    modularInverse opcode value modulus = .error (.outOfRange opcode value) :=
  if_pos hvalue

/-- And only modulo two and more. -/
lemma modularInverse_of_lt_two (hvalue : 0 < value) (hmodulus : modulus < 2) :
    modularInverse opcode value modulus = .error (.outOfRange opcode modulus) := by
  unfold modularInverse
  rw [if_neg (by omega), if_pos hmodulus]

/-- An inverse is a residue. -/
lemma natAbs_lt_of_modularInverse {r : Int} (h : modularInverse opcode value modulus = .ok r) :
    r.natAbs < modulus.natAbs := by
  have hvalue : 0 < value := by
    by_contra hle
    rw [modularInverse_of_nonpos opcode (by omega)] at h
    cases h
  have hmodulus : 2 ≤ modulus := by
    by_contra hlt
    rw [modularInverse_of_lt_two opcode hvalue (by omega)] at h
    cases h
  obtain ⟨coefficient, -, hinverse⟩ := exists_modularInverse opcode hvalue hmodulus
  rw [hinverse] at h
  split at h
  · cases h
    have hnonneg : 0 ≤ coefficient % modulus := Int.emod_nonneg _ (by omega)
    have hlt : coefficient % modulus < modulus := Int.emod_lt_of_pos _ (by omega)
    omega
  · cases h

/-- So every result is smaller than the modulus. -/
lemma natAbs_lt_of_modularPower {r : Int} (h : modularPower opcode value exponent modulus = .ok r) :
    r.natAbs < modulus.natAbs := by
  have hmodulus : modulus ≠ 0 := by
    rintro rfl
    cases h
  by_cases hexponent : 0 ≤ exponent
  · rw [modularPower_of_nonneg opcode hexponent hmodulus] at h
    cases h
    rw [Int.natAbs_tmod]
    exact Nat.mod_lt _ (by omega)
  · obtain rfl : exponent = -1 := by
      by_contra hne
      rw [modularPower_of_lt opcode hmodulus (by omega)] at h
      cases h
    rw [modularPower_of_inverse opcode hmodulus] at h
    exact natAbs_lt_of_modularInverse opcode h

/-- The bound of integers does not get in the way of a result if the modulus respects it. -/
lemma modPow_result (hmodulus : TwosComplement.Fits Limits.integerBytes modulus) {r : Int}
    (h : modularPower .modPow value exponent modulus = .ok r) :
    ternaryResult .modPow value exponent modulus = .ok (.integer r) := by
  have hlt := natAbs_lt_of_modularPower _ h
  obtain ⟨hlow, hhigh⟩ := hmodulus
  have hfits : TwosComplement.Fits Limits.integerBytes r := ⟨by omega, by omega⟩
  have hlength : (TwosComplement.minimal r).length ≤ Limits.integerBytes :=
    (TwosComplement.length_minimal_le_iff (by decide)).2 hfits
  change (modularPower .modPow value exponent modulus >>= bounded .modPow) = _
  rw [h]
  exact if_pos hlength

/-- Modular powers and inverses are exact.  With an exponent that is not negative the result is the
truncating remainder of the power itself, which has the sign of the power and is smaller than the
modulus.  With the exponent -1 it is the one residue that multiplies the value to one, if value and
modulus have no common factor.  In all other cases the instruction fails and names the operand that
is out of range.  A result fits the integers of the machine if the modulus does, and the loop of the
Euclidean algorithm is left after no more rounds than its first remainder counts. -/
theorem modularPower_exact (opcode : Opcode) (v e m : Int) :
    (0 ≤ e → m ≠ 0 → modularPower opcode v e m = .ok ((v ^ e.toNat).tmod m) ∧
      0 ≤ v ^ e.toNat * (v ^ e.toNat).tmod m ∧ ((v ^ e.toNat).tmod m).natAbs < m.natAbs) ∧
    (0 < v → 2 ≤ m → Int.gcd v m = 1 →
      ∃ r, modularPower opcode v (-1) m = .ok r ∧ 0 < r ∧ r < m ∧ v * r ≡ 1 [ZMOD m] ∧
        ∀ r', 0 < r' → r' < m → v * r' ≡ 1 [ZMOD m] → r' = r) ∧
    (0 < v → 2 ≤ m → Int.gcd v m ≠ 1 →
      modularPower opcode v (-1) m = .error (.outOfRange opcode v)) ∧
    modularPower opcode v e 0 = .error (.outOfRange opcode 0) ∧
    (m ≠ 0 → e < -1 → modularPower opcode v e m = .error (.outOfRange opcode e)) ∧
    (m ≠ 0 → v ≤ 0 → modularPower opcode v (-1) m = .error (.outOfRange opcode v)) ∧
    (m ≠ 0 → 0 < v → m < 2 → modularPower opcode v (-1) m = .error (.outOfRange opcode m)) ∧
    (∀ r, TwosComplement.Fits Limits.integerBytes m → modularPower .modPow v e m = .ok r →
      ternaryResult .modPow v e m = .ok (.integer r)) ∧
    (0 < v → 2 ≤ m → ∃ rounds : Nat, (rounds : Int) ≤ v % m ∧
      (Registers.start v m).LeavesAfter rounds ∧
      inverse? v.toNat m.toNat = (Registers.round^[rounds] (Registers.start v m)).inverse? m) := by
  refine ⟨fun he hm => ⟨modularPower_of_nonneg opcode he hm, ?_, ?_⟩, fun hv hm hgcd => ?_,
    fun hv hm hgcd => ?_, rfl, fun hm he => modularPower_of_lt opcode hm he, fun hm hv => ?_,
    fun hm hv hlt => ?_, fun r hm hr => modPow_result hm hr, fun hv hm => ?_⟩
  · -- the sign
    rcases le_total 0 (v ^ e.toNat) with hpower | hpower
    · exact mul_nonneg hpower (Int.tmod_nonneg m hpower)
    · have hneg : 0 ≤ (-(v ^ e.toNat)).tmod m := Int.tmod_nonneg m (by omega)
      rw [Int.neg_tmod] at hneg
      exact mul_nonneg_of_nonpos_of_nonpos hpower (by omega)
  · -- the magnitude
    rw [Int.natAbs_tmod]
    exact Nat.mod_lt _ (by omega)
  · rw [modularPower_of_inverse opcode (by omega)]
    exact modularInverse_of_coprime opcode hv hm hgcd
  · obtain ⟨coefficient, -, hinverse⟩ := exists_modularInverse opcode hv hm
    rw [modularPower_of_inverse opcode (by omega), hinverse, if_neg hgcd]
  · rw [modularPower_of_inverse opcode hm, modularInverse_of_nonpos opcode hv]
  · rw [modularPower_of_inverse opcode hm, modularInverse_of_lt_two opcode hv hlt]
  · obtain ⟨rounds, _, rfl, hrounds, hleaves, -, -, hinverse⟩ :=
      exists_loop hv (by omega : 0 < m)
    exact ⟨rounds, hrounds, hleaves, hinverse⟩

/-- The inverse of 3 modulo 11 is 4, the third power of -3 leaves -2 behind modulo -5, and 4 has no
inverse modulo 6. -/
theorem modularPower_exact_smallNumbers :
    (∃ r, modularPower .modPow 3 (-1) 11 = .ok r ∧ 0 < r ∧ r < 11 ∧ 3 * r ≡ 1 [ZMOD 11] ∧
      ∀ r', 0 < r' → r' < 11 → 3 * r' ≡ 1 [ZMOD 11] → r' = r) ∧
    modularPower .modPow (-3) 3 (-5) = .ok (-2) ∧
    modularPower .modPow 4 (-1) 6 = .error (.outOfRange .modPow 4) ∧
    ∃ rounds : Nat, (rounds : Int) ≤ 3 % 11 ∧ (Registers.start 3 11).LeavesAfter rounds :=
  ⟨(modularPower_exact .modPow 3 (-1) 11).2.1 (by decide) (by decide) (by decide),
    ((modularPower_exact .modPow (-3) 3 (-5)).1 (by decide) (by decide)).1,
    (modularPower_exact .modPow 4 (-1) 6).2.2.1 (by decide) (by decide) (by decide), by
    obtain ⟨rounds, hrounds, hleaves, -⟩ :=
      (modularPower_exact .modPow 3 (-1) 11).2.2.2.2.2.2.2.2 (by decide) (by decide)
    exact ⟨rounds, hrounds, hleaves⟩⟩

end Semantics

end SymbolicScript
