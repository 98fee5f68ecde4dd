import SymbolicScript.Number.LittleEndian

/-!
# The SHA-256 digest

The digest pads a message to whole blocks of sixty-four bytes, expands every block to sixty-four
words, and folds sixty-four rounds over eight words of state. All arithmetic is on 32-bit words.
-/

namespace SymbolicScript

namespace Sha256

/-- The round constants: the first 32 bits of the fractional parts of the cube roots of the first
sixty-four primes. -/
def roundConstants : List UInt32 := [
  0x428a2f98, 0x71374491, 0xb5c0fbcf, 0xe9b5dba5, 0x3956c25b, 0x59f111f1, 0x923f82a4, 0xab1c5ed5,
  0xd807aa98, 0x12835b01, 0x243185be, 0x550c7dc3, 0x72be5d74, 0x80deb1fe, 0x9bdc06a7, 0xc19bf174,
  0xe49b69c1, 0xefbe4786, 0x0fc19dc6, 0x240ca1cc, 0x2de92c6f, 0x4a7484aa, 0x5cb0a9dc, 0x76f988da,
  0x983e5152, 0xa831c66d, 0xb00327c8, 0xbf597fc7, 0xc6e00bf3, 0xd5a79147, 0x06ca6351, 0x14292967,
  0x27b70a85, 0x2e1b2138, 0x4d2c6dfc, 0x53380d13, 0x650a7354, 0x766a0abb, 0x81c2c92e, 0x92722c85,
  0xa2bfe8a1, 0xa81a664b, 0xc24b8b70, 0xc76c51a3, 0xd192e819, 0xd6990624, 0xf40e3585, 0x106aa070,
  0x19a4c116, 0x1e376c08, 0x2748774c, 0x34b0bcb5, 0x391c0cb3, 0x4ed8aa4a, 0x5b9cca4f, 0x682e6ff3,
  0x748f82ee, 0x78a5636f, 0x84c87814, 0x8cc70208, 0x90befffa, 0xa4506ceb, 0xbef9a3f7, 0xc67178f2]

/-- The eight words that the rounds transform. -/
structure Words where
  /-- First word. -/
  a : UInt32
  /-- Second word. -/
  b : UInt32
  /-- Third word. -/
  c : UInt32
  /-- Fourth word. -/
  d : UInt32
  /-- Fifth word. -/
  e : UInt32
  /-- Sixth word. -/
  f : UInt32
  /-- Seventh word. -/
  g : UInt32
  /-- Eighth word. -/
  h : UInt32

/-- The state before the first block. -/
def start : Words :=
  ⟨0x6a09e667, 0xbb67ae85, 0x3c6ef372, 0xa54ff53a, 0x510e527f, 0x9b05688c, 0x1f83d9ab, 0x5be0cd19⟩

/-- Rotation to the right, for amounts from one to thirty-one. -/
def rotate (x : UInt32) (n : UInt32) : UInt32 :=
  (x >>> n) ||| (x <<< (32 - n))

/-- One round with the constant and the schedule word of its turn. -/
def round (s : Words) (constant word : UInt32) : Words :=
  let s1 := rotate s.e 6 ^^^ rotate s.e 11 ^^^ rotate s.e 25
  let choice := (s.e &&& s.f) ^^^ ((~~~ s.e) &&& s.g)
  let t1 := s.h + s1 + choice + constant + word
  let s0 := rotate s.a 2 ^^^ rotate s.a 13 ^^^ rotate s.a 22
  let majority := (s.a &&& s.b) ^^^ (s.a &&& s.c) ^^^ (s.b &&& s.c)
  ⟨t1 + (s0 + majority), s.a, s.b, s.c, s.d + t1, s.e, s.f, s.g⟩

/-- The word that follows the last sixteen words of the schedule, newest first. -/
def nextWord (recent : List UInt32) : UInt32 :=
  let w2 := recent.getD 1 0
  let w7 := recent.getD 6 0
  let w15 := recent.getD 14 0
  let w16 := recent.getD 15 0
  let s0 := rotate w15 7 ^^^ rotate w15 18 ^^^ (w15 >>> 3)
  let s1 := rotate w2 17 ^^^ rotate w2 19 ^^^ (w2 >>> 10)
  w16 + s0 + w7 + s1

/-- Extends a schedule, newest word first, by `count` words. -/
def extend : (count : Nat) → List UInt32 → List UInt32
  | 0, schedule => schedule
  | count + 1, schedule => extend count (nextWord schedule :: schedule)

/-- The number that four bytes denote, most significant byte first. -/
def bigEndian (bytes : Bytes) : UInt32 :=
  UInt32.ofNat (LittleEndian.toNat bytes.reverse)

/-- The sixteen words of a block. -/
def blockWords (block : Bytes) : List UInt32 :=
  (List.range 16).map fun i => bigEndian ((block.drop (4 * i)).take 4)

/-- Folds one block of sixty-four bytes into the state. -/
def absorb (s : Words) (block : Bytes) : Words :=
  let schedule := (extend 48 (blockWords block).reverse).reverse
  let t := (roundConstants.zip schedule).foldl (fun t pair => round t pair.1 pair.2) s
  ⟨s.a + t.a, s.b + t.b, s.c + t.c, s.d + t.d, s.e + t.e, s.f + t.f, s.g + t.g, s.h + t.h⟩

/-- The message followed by a one bit, zeros up to a block less eight bytes, and its length in
bits as eight bytes, most significant first. -/
def pad (message : Bytes) : Bytes :=
  let zeros := (119 - message.length % 64) % 64
  message ++ (0x80 :: List.replicate zeros 0)
    ++ (LittleEndian.ofNat 8 (8 * message.length)).reverse

/-- The four bytes of a word, most significant first. -/
def wordBytes (w : UInt32) : Bytes :=
  (LittleEndian.ofNat 4 w.toNat).reverse

/-- The thirty-two bytes of the digest of a message. -/
def digest (message : Bytes) : Bytes :=
  let padded := pad message
  let s := (List.range (padded.length / 64)).foldl
    (fun s i => absorb s ((padded.drop (64 * i)).take 64)) start
  [s.a, s.b, s.c, s.d, s.e, s.f, s.g, s.h].flatMap wordBytes

end Sha256

end SymbolicScript
