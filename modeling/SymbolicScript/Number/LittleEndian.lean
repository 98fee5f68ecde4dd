/-!
# Little-endian numbers

Scripts write every multi-byte quantity with its least significant byte first. This module fixes
the two directions: `LittleEndian.toNat` reads a byte string as a natural number, and
`LittleEndian.ofNat` writes the low bytes of a number into a given width. On numbers that fit the
width they are inverse to each other, in both orders.
-/

namespace SymbolicScript

/-- A finite sequence of bytes. -/
abbrev Bytes := List UInt8

namespace LittleEndian

/-- The number that the bytes denote, least significant byte first. -/
def toNat : Bytes → Nat
  | [] => 0
  | byte :: rest => byte.toNat + 256 * toNat rest

/-- The `width` low bytes of a number, least significant byte first. -/
def ofNat : (width : Nat) → Nat → Bytes
  | 0, _ => []
  | width + 1, n => UInt8.ofNat n :: ofNat width (n / 256)

@[simp] theorem length_ofNat (width n : Nat) : (ofNat width n).length = width := by
  induction width generalizing n with
  | zero => rfl
  | succ width ih => simp [ofNat, ih]

/-- A byte string denotes a number below 256 to the power of its length. -/
theorem toNat_lt (bytes : Bytes) : toNat bytes < Nat.pow 256 bytes.length := by
  induction bytes with
  | nil => exact Nat.one_pos
  | cons byte rest ih =>
    have hb : byte.toNat < 256 := byte.toNat_lt
    have hp : Nat.pow 256 (rest.length + 1) = Nat.pow 256 rest.length * 256 := rfl
    rw [toNat, List.length_cons, hp]
    omega

/-- Writing a number and reading it back leaves its residue modulo the width. -/
theorem toNat_ofNat (width n : Nat) : toNat (ofNat width n) = n % Nat.pow 256 width := by
  induction width generalizing n with
  | zero => exact (Nat.mod_one n).symm
  | succ width ih =>
    have hb : (UInt8.ofNat n).toNat = n % 256 := UInt8.toNat_ofNat'
    have hp : Nat.pow 256 (width + 1) = 256 * Nat.pow 256 width :=
      Nat.mul_comm (Nat.pow 256 width) 256
    rw [ofNat, toNat, ih, hb, hp, Nat.mod_mul]

/-- Reading a byte string and writing it back into its own length changes nothing. -/
theorem ofNat_toNat (bytes : Bytes) : ofNat bytes.length (toNat bytes) = bytes := by
  induction bytes with
  | nil => rfl
  | cons byte rest ih =>
    have hb : byte.toNat < 256 := byte.toNat_lt
    have hdiv : (byte.toNat + 256 * toNat rest) / 256 = toNat rest := by omega
    have hbyte : UInt8.ofNat (byte.toNat + 256 * toNat rest) = byte := by
      apply UInt8.toNat_inj.1
      have hn : (UInt8.ofNat (byte.toNat + 256 * toNat rest)).toNat
          = (byte.toNat + 256 * toNat rest) % 256 := UInt8.toNat_ofNat'
      omega
    simp only [List.length_cons, ofNat, toNat, hdiv, hbyte, ih]

end LittleEndian

end SymbolicScript
