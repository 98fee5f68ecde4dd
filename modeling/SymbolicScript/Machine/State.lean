import SymbolicScript.Heap.Copy
import SymbolicScript.Machine.Config
import SymbolicScript.Machine.Frame

/-!
# The state of a machine

The state that instructions work on: the invocation stack with its worlds, the values returned so
far, the pending exception, and a supply of identities for fresh unknowns. Instructions are
computations on it that may fail, and a failure keeps what has been done before it.
-/

namespace SymbolicScript

/-- How far a machine has come. -/
inductive Status where
  /-- Execution has not ended. -/
  | running
  /-- The entry frame has returned. -/
  | halted
  /-- Execution has failed. -/
  | faulted
  deriving DecidableEq, Repr

/-- The name of a status. -/
def Status.name : Status → String
  | .running => "None"
  | .halted => "Halt"
  | .faulted => "Fault"

/-- The state that instructions work on. -/
structure State where
  /-- The worlds of the scripts loaded so far. -/
  worlds : Array World
  /-- The invocation stack, current frame first. -/
  frames : List Frame
  /-- The values returned by entry frames. -/
  result : EvaluationStack
  /-- How far the machine has come. -/
  status : Status
  /-- The exception being propagated. -/
  exception : Option Item
  /-- Whether an instruction has set the instruction pointer itself. -/
  jumping : Bool
  /-- The identity of the next fresh unknown. -/
  supply : Nat
  deriving DecidableEq, Repr

namespace State

/-- The state in which nothing is loaded and fresh unknowns are numbered from `supply` on. -/
def initial (supply : Nat) : State :=
  { worlds := #[], frames := [], result := .empty, status := .running, exception := none,
    jumping := false, supply }

/-- The number of frames on the invocation stack. -/
def depth (s : State) : Nat := s.frames.length

/-- The world with an index. -/
def worldAt (s : State) (index : Nat) : World :=
  s.worlds.getD index (.ofScript ⟨[]⟩)

/-- The state with another world at an index. -/
def setWorld (s : State) (index : Nat) (w : World) : State :=
  { s with worlds := s.worlds.setIfInBounds index w }

/-- The current frame and its world. -/
def current? (s : State) : Option (Frame × World) :=
  s.frames.head?.map fun f => (f, s.worldAt f.world)

/-- The frame that the machine was started in. -/
def entry? (s : State) : Option Frame := s.frames.getLast?

/-- The accesses recorded in the world of the entry frame. -/
def accesses (s : State) : AccessTracker :=
  (s.entry?.bind fun f => (s.worldAt f.world).tracker).getD .empty

end State

/-- A computation on the state that may fail. -/
abbrev Exec := EStateM ExecutionError State

namespace Exec

/-- The outcome of a pure computation. -/
def ofExcept {α : Type} (result : Except ExecutionError α) : Exec α := fun s =>
  match result with
  | .ok a => .ok a s
  | .error e => .error e s

instance : MonadLift (Except ExecutionError) Exec := ⟨ofExcept⟩

/-! ## The current frame and its world -/

/-- The current frame. -/
def frame : Exec Frame := fun s =>
  match s.frames with
  | f :: _ => .ok f s
  | [] => .error .noCurrentContext s

/-- Puts a frame in the place of the current one. -/
def setFrame (f : Frame) : Exec Unit := fun s =>
  match s.frames with
  | _ :: rest => .ok () { s with frames := f :: rest }
  | [] => .error .noCurrentContext s

/-- Looks at the world of the current frame and changes it. -/
def onWorld {α : Type} (change : World → α × World) : Exec α := fun s =>
  match s.frames with
  | f :: _ =>
    let (a, w) := change (s.worldAt f.world)
    .ok a (s.setWorld f.world w)
  | [] => .error .noCurrentContext s

/-- The world of the current frame. -/
def world : Exec World := fun s =>
  match s.frames with
  | f :: _ => .ok (s.worldAt f.world) s
  | [] => .error .noCurrentContext s

/-- Changes the world of the current frame. -/
def modifyWorld (change : World → World) : Exec Unit :=
  onWorld fun w => ((), change w)

/-- The heap. -/
def heap : Exec Heap := return (← world).heap

/-- Puts a heap in the place of the present one. -/
def setHeap (heap : Heap) : Exec Unit :=
  modifyWorld fun w => { w with heap }

/-- Works on the evaluation stack. -/
def onStack {α : Type} (change : EvaluationStack → α × EvaluationStack) : Exec α :=
  onWorld fun w =>
    let (a, stack) := change w.stack
    (a, { w with stack })

/-- Changes the evaluation stack. -/
def modifyStack (change : EvaluationStack → EvaluationStack) : Exec Unit :=
  onStack fun s => ((), change s)

/-! ## Items on the evaluation stack -/

/-- Pushes an item, wrapping a plain value. -/
def push (x : Item) : Exec Unit :=
  modifyStack (·.push x.constant)

/-- Pops an item. -/
def pop : Exec Item :=
  onStack (·.pop)

/-- The item `index` places below the top. -/
def peek (index : Nat) : Exec Item :=
  onStack (·.peek index)

/-- Pops `count` items, topmost first. -/
def popMany (count : Nat) : Exec (List Item) :=
  onStack (·.popMany count)

/-- A value that an instruction has to know. -/
def demand {α : Type} (opcode : Opcode) : Option α → Exec α
  | some a => return a
  | none => throw (.nonConstantOperand opcode)

/-- Pops an integer that `opcode` has to know. -/
def popInteger (opcode : Opcode) : Exec Int := do
  let x ← pop
  demand opcode (← x.toInteger?)

/-- Pops a count, a length or an index of `opcode`. -/
def popCount (opcode : Opcode) : Exec Nat := do
  let value ← popInteger opcode
  if 0 ≤ value ∧ value ≤ Limits.word then return value.toNat
  else throw (.outOfRange opcode value)

/-- Pops a condition that `opcode` has to decide. -/
def popBoolean (opcode : Opcode) : Exec Bool := do
  let x ← pop
  demand opcode (← x.toBoolean?)

/-- An identity for a fresh unknown. -/
def freshId : Exec Nat := fun s =>
  .ok s.supply { s with supply := s.supply + 1 }

/-- A fresh unknown of a type. -/
def fresh (type : ItemType) : Exec Item :=
  return .unknown type (.fresh (← freshId))

/-- Allocates a buffer and pushes it. -/
def pushBuffer (bytes : Bytes) : Exec Unit := do
  let (item, heap) := (← heap).newBuffer bytes
  setHeap heap
  push item

/-- Allocates an array or a struct and pushes it. -/
def pushCompound (kind : CompoundKind) (items : List Item) : Exec Unit := do
  let (item, heap) := (← heap).newCompound kind items
  setHeap heap
  push item

/-- What is stored when an item is put into a compound. -/
def cloneStruct (x : Item) : Exec Item := do
  let (copy, heap) := (← heap).cloneStruct x
  setHeap heap
  ofExcept copy

/-! ## Records of accesses -/

/-- Records a read in the world of the current frame. -/
def recordRead (a : Access) (offset : Nat) : Exec Unit :=
  modifyWorld fun w =>
    { w with tracker := some ((w.tracker.getD .empty).recordRead a offset) }

/-- Records a write in the world of the current frame. -/
def recordWrite (a : Access) (offset : Nat) : Exec Unit :=
  modifyWorld fun w =>
    { w with tracker := some ((w.tracker.getD .empty).recordWrite a offset) }

end Exec

end SymbolicScript
