import SymbolicScript.Script.Basic
import SymbolicScript.Search.Bisect

/-!
# Basic blocks

A basic block is a run of instructions that is entered only at its start and left only at its
end: only its last instruction may be a block terminator. The blocks of a script cut its linear
decode in front of every leader, and the leaders are the first instruction, the given entries, the
branch targets, and whatever follows a block terminator.
-/

namespace SymbolicScript

/-- The first block terminator that is not the last of the instructions. -/
def innerTerminator? (instructions : List Instruction) : Option Instruction :=
  instructions.dropLast.find? fun i => i.opcode.isTerminator

/-- A run of instructions of which only the last may be a block terminator. -/
structure BasicBlock where
  /-- The instructions, in the order of their offsets. -/
  instructions : List Instruction
  /-- No terminator stands before the end. -/
  straight : innerTerminator? instructions = none

namespace BasicBlock

/-- The block of the given instructions, unless a terminator stands before the end. -/
def ofInstructions (instructions : List Instruction) : Except LocatedError BasicBlock :=
  match h : innerTerminator? instructions with
  | none => .ok ⟨instructions, h⟩
  | some inner => .error ⟨inner.offset, .terminatorInsideBlock inner.opcode⟩

/-- The offset of the first instruction, zero for an empty block. -/
def start (b : BasicBlock) : Nat :=
  b.instructions.head?.elim 0 Instruction.offset

/-- The offset behind the last instruction. -/
def stop (b : BasicBlock) : Nat :=
  b.instructions.getLast?.elim b.start Instruction.nextOffset

/-- The terminator at the end of the block, if it ends in one. -/
def terminator? (b : BasicBlock) : Option Instruction :=
  b.instructions.getLast?.filter fun i => i.opcode.isTerminator

/-- Whether an instruction of the block stands at `offset`. -/
def contains (b : BasicBlock) (offset : Nat) : Bool :=
  Bisect.member Instruction.offset offset b.instructions

end BasicBlock

namespace Script

/-- The offsets, other than those of entries and of the first instruction, at which one of the
instructions makes a block start. -/
def leadersOf (instructions : List Instruction) : Except LocatedError (List Nat) := do
  let found ← instructions.mapM fun i => do
    let targets ← locate i.offset i.branchTargets
    let inside := targets.filter fun (t : Int) => 0 ≤ t ∧ t ≤ (maxOffset : Int)
    return inside.map Int.toNat ++ if i.opcode.isTerminator then [i.nextOffset] else []
  return found.flatten

/-- Cuts the instructions in front of each one that `leads`. -/
def cut (leads : Instruction → Bool) : List Instruction → List (List Instruction)
  | [] => []
  | i :: rest =>
    match cut leads rest, rest with
    | run :: runs, next :: _ => if leads next then [i] :: run :: runs else (i :: run) :: runs
    | _, _ => [[i]]

/-- The basic blocks of a script that can also be entered at `entries`. -/
def basicBlocks (s : Script) (entries : List Nat) : Except LocatedError (List BasicBlock) := do
  let instructions ← s.instructions.mapError Located.toExecution
  let found ← leadersOf instructions
  let leaders := 0 :: entries ++ found
  (cut (fun i => leaders.contains i.offset) instructions).mapM BasicBlock.ofInstructions

end Script

end SymbolicScript
