import SymbolicScript.Script.Basic

/-!
# Iterating over a script

An iteration hands out the instructions of a script one at a time. Its cursor holds the offset of
the next one, and no offset once the end of the script has been found or a fault has been handed
out.
-/

namespace SymbolicScript

namespace Script

/-- Where an iteration over the instructions of a script stands. -/
structure Cursor where
  /-- The offset of the next instruction, unless the iteration is over. -/
  offset : Option Nat
  deriving DecidableEq, Repr

namespace Cursor

/-- The cursor at the start of a script. -/
def start : Cursor := ⟨some 0⟩

/-- The instruction at the cursor, or the fault found there, and the cursor behind it. -/
def next (script : Script) (c : Cursor) :
    Option (Except (Located DisassemblyError) Instruction) × Cursor :=
  match c.offset with
  | none => (none, c)
  | some offset =>
    match script.instructionAt offset with
    | .ok (some i) => (some (.ok i), ⟨some i.nextOffset⟩)
    | .ok none => (none, ⟨none⟩)
    | .error e => (some (.error e), ⟨none⟩)

/-- Asked again and again, the iteration hands out these results one after the other, and then no
further one. -/
inductive Yields (script : Script) :
    Cursor → List (Except (Located DisassemblyError) Instruction) → Prop where
  /-- Nothing is handed out any more. -/
  | finished {c : Cursor} (h : (c.next script).1 = none) : Yields script c []
  /-- A result is handed out, and the iteration goes on behind it. -/
  | item {c : Cursor} {x : Except (Located DisassemblyError) Instruction}
      {xs : List (Except (Located DisassemblyError) Instruction)}
      (h : (c.next script).1 = some x) (hrest : Yields script (c.next script).2 xs) :
      Yields script c (x :: xs)

end Cursor

end Script

end SymbolicScript
