import Mathlib.Tactic.Common
import SymbolicScript.Number.TwosComplement

/-!
# Integers that fit a number of bytes

An integer fits `room` bytes in two's complement if its double lies between the negated span of that
many bytes, included, and the span itself.  Those integers are the ones that need no more than
`room` bytes (`TwosComplement.width_le_iff`), and they survive being written into `room` bytes and
read back (`TwosComplement.toInt_encodeIn`), although the writing keeps a residue only.
-/

namespace SymbolicScript

namespace TwosComplement

variable {value : Int} {room : Nat}

/-- The integer has room in that many bytes, with its sign. -/
def Fits (room : Nat) (value : Int) : Prop :=
  -(Nat.pow 256 room : Int) ≤ 2 * value ∧ 2 * value < Nat.pow 256 room

/-! ## How many bytes an integer needs -/

/-- The numbers with at most `count` binary digits are those below a power of two. -/
lemma bitLength_le_iff {n count : Nat} : bitLength n ≤ count ↔ n < Nat.pow 2 count := by
  unfold bitLength
  split
  · next hzero =>
    have hpos : 0 < Nat.pow 2 count := Nat.two_pow_pos count
    subst hzero
    exact ⟨fun _ => hpos, fun _ => Nat.zero_le count⟩
  · next hzero => exact Nat.log2_lt hzero

/-- So the integers with at most `count` binary digits lie below and above powers of two. -/
lemma magnitudeBits_le_iff {count : Nat} :
    magnitudeBits value ≤ count ↔ -(Nat.pow 2 count : Int) ≤ value ∧ value < Nat.pow 2 count := by
  cases value with
  | ofNat n =>
    rw [magnitudeBits, bitLength_le_iff]
    have hcast : (Int.ofNat n : Int) = n := rfl
    omega
  | negSucc n =>
    rw [magnitudeBits, bitLength_le_iff]
    have hcast : Int.negSucc n = -(n : Int) - 1 := by omega
    omega

/-- Half of the span of some bytes is a power of two. -/
lemma span_eq_double (hroom : 1 ≤ room) : Nat.pow 256 room = 2 * Nat.pow 2 (8 * room - 1) := by
  have hbits : 8 * room - 1 + 1 = 8 * room := by omega
  calc Nat.pow 256 room = Nat.pow 2 (8 * room) := (Nat.pow_mul 2 8 room).symm
    _ = Nat.pow 2 (8 * room - 1 + 1) := by rw [hbits]
    _ = 2 * Nat.pow 2 (8 * room - 1) := Nat.mul_comm _ _

/-- The integers that need no more than some bytes are those that fit them. -/
lemma width_le_iff (hroom : 1 ≤ room) : width value ≤ room ↔ Fits room value := by
  have hbits : width value ≤ room ↔ magnitudeBits value ≤ 8 * room - 1 := by
    unfold width
    omega
  rw [hbits, magnitudeBits_le_iff]
  unfold Fits
  have hspan := span_eq_double hroom
  omega

/-- An integer has at least one byte. -/
lemma one_le_width : 1 ≤ width value := by
  unfold width
  omega

/-! ## Writing and reading back -/

@[simp] lemma length_encodeIn : (encodeIn room value).length = room :=
  LittleEndian.length_ofNat _ _

/-- What is written into some bytes is the residue of the integer. -/
lemma toNat_encodeIn :
    (LittleEndian.toNat (encodeIn room value) : Int) = value % Nat.pow 256 room := by
  have hpos : (0 : Int) < Nat.pow 256 room := by
    exact_mod_cast Nat.pow_pos (by decide : 0 < 256)
  have hnonneg := Int.emod_nonneg value (Int.ne_of_gt hpos)
  have hlt := Int.emod_lt_of_pos value hpos
  unfold encodeIn
  rw [LittleEndian.toNat_ofNat, Nat.mod_eq_of_lt (by omega), Int.toNat_of_nonneg hnonneg]

/-- An integer that fits some bytes is read back from them. -/
lemma toInt_encodeIn (h : Fits room value) : toInt (encodeIn room value) = value := by
  obtain ⟨hlow, hhigh⟩ := h
  have hnumber : (LittleEndian.toNat (encodeIn room value) : Int) = value % Nat.pow 256 room :=
    toNat_encodeIn
  unfold toInt
  simp only [length_encodeIn]
  -- A negative integer is written as its distance to the span.
  by_cases hsign : 0 ≤ value
  · have hresidue : value % Nat.pow 256 room = value := Int.emod_eq_of_lt hsign (by omega)
    split
    · omega
    · omega
  · have hresidue : value % Nat.pow 256 room = value + Nat.pow 256 room := by
      rw [← Int.add_emod_right]
      exact Int.emod_eq_of_lt (by omega) (by omega)
    split
    · omega
    · omega

/-! ## Which integers fit -/

/-- What fits some bytes fits more of them. -/
lemma Fits.mono {room' : Nat} (h : Fits room value) (hle : room ≤ room') : Fits room' value := by
  have hspan : Nat.pow 256 room ≤ Nat.pow 256 room' := Nat.pow_le_pow_right (by decide) hle
  obtain ⟨hlow, hhigh⟩ := h
  constructor <;> omega

/-- What some bytes denote fits as many bytes. -/
lemma fits_toInt (bytes : Bytes) : Fits bytes.length (toInt bytes) := by
  have hlt := LittleEndian.toNat_lt bytes
  unfold toInt Fits
  simp only
  split
  · constructor <;> omega
  · constructor <;> omega

/-- The integers whose shortest form has no more than some bytes are those that fit them. -/
lemma length_minimal_le_iff (hroom : 1 ≤ room) :
    (minimal value).length ≤ room ↔ Fits room value := by
  unfold minimal
  split
  · next hzero =>
    have hspan : 0 < Nat.pow 256 room := Nat.pow_pos (by decide)
    subst hzero
    exact ⟨fun _ => ⟨by omega, by omega⟩, fun _ => Nat.zero_le room⟩
  · rw [← width_le_iff hroom, encode, length_encodeIn]

end TwosComplement

end SymbolicScript
