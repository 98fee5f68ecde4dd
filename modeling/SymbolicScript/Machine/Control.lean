import SymbolicScript.Machine.State

/-!
# Transfers of control

Jumps, calls, returns and exceptions. Whatever sets the instruction pointer of the frame to go on
in marks the state as jumping, so that the pointer is not advanced once more.
-/

namespace SymbolicScript

namespace Exec

/-- Marks that the instruction pointer has been set. -/
def markJump : Exec Unit :=
  modify fun s => { s with jumping := true }

/-- Sets the instruction pointer of the current frame. -/
def seek (target : Int) : Exec Unit := do
  let f ← frame
  setFrame (← f.seek (← world).script target)

/-- Goes on at an offset that lies before the end of the script. -/
def jumpTo (target : Int) : Exec Unit := do
  let available := (← world).script.length
  if 0 ≤ target ∧ target < available then
    seek target
    markJump
  else
    throw (.instructionPointerOutOfBounds target available)

/-- Adds the world of a script, with the former number of worlds as its index. -/
def addWorld (script : Script) : Exec Unit :=
  modify fun s => { s with worlds := s.worlds.push (.ofScript script) }

/-- Makes a frame the current one. -/
def loadFrame (config : Config) (f : Frame) : Exec Unit := do
  if (← get).depth ≥ config.maxInvocationDepth then
    throw (.invocationDepthExceeded config.maxInvocationDepth)
  modify fun s => { s with frames := f :: s.frames }

/-- Enters a new frame of the same world at an offset of the script. -/
def call (config : Config) (target : Int) : Exec Unit := do
  let f ← frame
  let script := (← world).script
  if 0 ≤ target ∧ target ≤ script.length ∧ target ≤ maxOffset then
    let callee ← ofExcept ((f.cloneAt script target.toNat).mapError Located.payload)
    loadFrame config callee
  else
    throw (.instructionPointerOutOfBounds target script.length)

/-- Takes the current frame off the invocation stack. -/
def unloadFrame : Exec Frame := fun s =>
  match s.frames with
  | f :: rest => .ok f { s with frames := rest }
  | [] => .error .noCurrentContext s

/-- Hands all items of a world's stack to the world of the current frame, or to the result stack
if there is no frame. -/
def handOver (source : Nat) (s : State) : State :=
  let w := s.worldAt source
  match s.frames with
  | caller :: _ =>
    let target := s.worldAt caller.world
    let (left, moved) := w.stack.moveTo target.stack none
    (s.setWorld source { w with stack := left }).setWorld caller.world
      { target with stack := moved }
  | [] =>
    let (left, moved) := w.stack.moveTo s.result none
    let s := s.setWorld source { w with stack := left }
    { s with result := moved }

/-- Returns from the current frame. Between frames of one world nothing moves; a frame that
returns to another world, or to none, hands over its stack, which must hold the announced number
of items. -/
def ret : Exec Unit := do
  let f ← unloadFrame
  let s ← get
  unless s.frames.head?.any f.sharesWorld do
    let actual := (s.worldAt f.world).stack.length
    if 0 ≤ f.returnCount ∧ f.returnCount ≠ actual then
      throw (.returnCountMismatch f.returnCount actual)
    modify (handOver f.world)
  modify fun s => if s.frames.isEmpty then { s with status := .halted } else s
  markJump

/-- Takes the pending exception, which is null if there is none. -/
def takeException : Exec Item := fun s =>
  .ok (s.exception.getD .null) { s with exception := none }

/-- Routes the pending exception to the innermost try block that has a part left for it, and drops
the frames above. Spent try blocks on the way are left. -/
def handleException : Exec Unit := do
  let s ← get
  match s.frames.dropWhile fun f => f.tries.all TryEntry.isSpent with
  | [] =>
    modify fun s => { s with frames := s.frames.map fun f => { f with tries := [] } }
    throw .unhandledException
  | f :: rest =>
    match f.tries.dropWhile TryEntry.isSpent with
    | [] => throw .unhandledException
    | entry :: outer =>
      modify fun s => { s with frames := { f with tries := entry :: outer } :: rest }
      match entry.phase, entry.catchTarget with
      | .body, some target =>
        push (← takeException)
        setFrame { f with tries := { entry with phase := .handler } :: outer }
        seek target
      | _, _ =>
        setFrame { f with tries := { entry with phase := .cleanup } :: outer }
        seek (entry.finallyTarget.getD 0)
      markJump

/-- Throws an exception. -/
def raise (exception : Item) : Exec Unit := do
  modify fun s => { s with exception := some exception }
  handleException

end Exec

/-- Loads a script in a world of its own and makes its entry frame the current one. -/
def State.loadScript (config : Config) (script : Script) (offset : Nat) (s : State) :
    Except LocatedError Unit × State :=
  match Frame.enter script s.worlds.size (-1) offset with
  | .error e => (.error e, s)
  | .ok f =>
    match (do Exec.addWorld script; Exec.loadFrame config f : Exec Unit).run s with
    | .ok () loaded => (.ok (), loaded)
    | .error e _ => (.error ⟨offset, e⟩, s)

end SymbolicScript
