import SymbolicScript.Access
import SymbolicScript.EvaluationStack
import SymbolicScript.Heap.Basic
import SymbolicScript.Script.Basic
import SymbolicScript.StorageView
import SymbolicScript.Variables

/-!
# Frames and the worlds they share

A frame is one activation of a routine: where it stands, its variables, and the try blocks that it
has entered. What all activations of one loaded script have in common is its world: the script,
the evaluation stack, the static fields, the heap, and the records of accesses and of storage. A
frame names its world by an index, so that frames share a world exactly if their indices agree.
-/

namespace SymbolicScript

/-- Which part of a try block is being executed. -/
inductive TryPhase where
  /-- The guarded instructions. -/
  | body
  /-- The instructions that catch an exception. -/
  | handler
  /-- The instructions that run in any case. -/
  | cleanup
  deriving DecidableEq, Repr

/-- The name of a part of a try block. -/
def TryPhase.name : TryPhase → String
  | .body => "Try"
  | .handler => "Catch"
  | .cleanup => "Finally"

/-- A try block that a frame has entered. -/
structure TryEntry where
  /-- The offset that catches exceptions, if any. -/
  catchTarget : Option Nat
  /-- The offset of the cleanup, if any. -/
  finallyTarget : Option Nat
  /-- Where to go on behind the cleanup, once that is known. -/
  endTarget : Option Nat
  /-- The part being executed. -/
  phase : TryPhase
  deriving DecidableEq, Repr

namespace TryEntry

/-- A try block at its beginning. -/
def begin (catchTarget finallyTarget : Option Nat) : TryEntry :=
  ⟨catchTarget, finallyTarget, none, .body⟩

/-- Whether the block has no part left to which an exception could lead. -/
def isSpent (t : TryEntry) : Bool :=
  match t.phase with
  | .body => false
  | .handler => t.finallyTarget.isNone
  | .cleanup => true

end TryEntry

/-- What all frames of one loaded script share. -/
structure World where
  /-- The script. -/
  script : Script
  /-- The evaluation stack. -/
  stack : EvaluationStack
  /-- The static fields. -/
  statics : Variables
  /-- The heap. -/
  heap : Heap
  /-- The accesses recorded so far, once there is one. -/
  tracker : Option AccessTracker
  /-- The view of storage, once storage has been used. -/
  storage : Option StorageView
  deriving DecidableEq, Repr

/-- The world of a script of which nothing has been executed. -/
def World.ofScript (script : Script) : World :=
  { script, stack := .empty, statics := .untouched .static, heap := .empty, tracker := none,
    storage := none }

/-- One activation of a routine. -/
structure Frame where
  /-- The index of the world that the frame shares. -/
  world : Nat
  /-- The instruction pointer. -/
  position : Nat
  /-- The number of values to return to another world; any number if negative. -/
  returnCount : Int
  /-- The local variables. -/
  locals : Variables
  /-- The arguments. -/
  arguments : Variables
  /-- The try blocks entered, innermost first. -/
  tries : List TryEntry
  deriving DecidableEq, Repr

namespace Frame

/-- The frame at another offset of its script, which may be its end. -/
def seek (f : Frame) (script : Script) (target : Int) : Except ExecutionError Frame :=
  if 0 ≤ target ∧ target ≤ script.length ∧ target ≤ maxOffset then
    .ok { f with position := target.toNat }
  else
    .error (.instructionPointerOutOfBounds target script.length)

/-- A new frame at an offset of the script of its world. -/
def enter (script : Script) (world : Nat) (returnCount : Int) (offset : Nat) :
    Except LocatedError Frame :=
  let f : Frame :=
    { world, position := 0, returnCount, locals := .untouched .local,
      arguments := .untouched .argument, tries := [] }
  locate offset (f.seek script offset)

/-- A new frame in the same world. -/
def cloneAt (f : Frame) (script : Script) (offset : Nat) : Except LocatedError Frame :=
  enter script f.world (-1) offset

/-- Whether two frames share their world. -/
def sharesWorld (f g : Frame) : Bool := f.world = g.world

/-- The instruction at the instruction pointer; none at the end of the script. -/
def current (f : Frame) (script : Script) : Except LocatedError (Option Instruction) :=
  (script.instructionAt f.position).mapError Located.toExecution

/-- The instruction behind the current one. -/
def next (f : Frame) (script : Script) : Except LocatedError (Option Instruction) := do
  match ← f.current script with
  | none => return none
  | some i => (script.instructionAt i.nextOffset).mapError Located.toExecution

/-- The frame behind its current instruction. -/
def moveNext (f : Frame) (script : Script) : Except LocatedError Frame := do
  match ← f.current script with
  | none => return f
  | some i => return { f with position := i.nextOffset }

end Frame

end SymbolicScript
