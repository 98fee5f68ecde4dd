import SymbolicScript.Text.Hex

/-!
# Located errors

An error becomes useful to a reader once it names the script offset at which it arose. A located
error pairs the two and shows the offset, in at least four hexadecimal digits, in front of the
text of the error.
-/

namespace SymbolicScript

/-- A value with the script offset it belongs to. -/
structure Located (ε : Type) where
  /-- The script offset. -/
  offset : Nat
  /-- The value found there. -/
  payload : ε
  deriving DecidableEq, Repr

namespace Located

/-- Changes the value and keeps the offset. -/
def map {ε φ : Type} (f : ε → φ) (e : Located ε) : Located φ :=
  ⟨e.offset, f e.payload⟩

/-- The text of a located error, given the text of the error. -/
def describe {ε : Type} (text : ε → String) (e : Located ε) : String :=
  "[" ++ Hex.padded 4 e.offset ++ "]: " ++ text e.payload

end Located

/-- Attaches an offset to the error of a failed result. -/
def locate {ε α : Type} (offset : Nat) : Except ε α → Except (Located ε) α
  | .ok a => .ok a
  | .error e => .error ⟨offset, e⟩

end SymbolicScript
