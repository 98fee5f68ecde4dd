import SymbolicScript.Machine.Control
import SymbolicScript.Text.Utf8

/-!
# Control flow

Jumps, calls, assertions and exception handling. Conditions and call targets must be known.
-/

namespace SymbolicScript

namespace Semantics

/-- Goes on at the target of the instruction. -/
def jump (i : Instruction) : Exec Unit := do
  Exec.jumpTo (← i.target)

/-- Goes on at the target if the popped condition is `wanted`. -/
def jumpWhen (wanted : Bool) (i : Instruction) : Exec Unit := do
  if (← Exec.popBoolean i.opcode) = wanted then jump i

/-- Whether a comparing jump is taken, for opcodes that are one. -/
def comparison? (opcode : Opcode) (x y : Int) : Option Bool :=
  match opcode with
  | .jmpEq | .jmpEqL => some (x = y)
  | .jmpNe | .jmpNeL => some (x ≠ y)
  | .jmpGt | .jmpGtL => some (x > y)
  | .jmpGe | .jmpGeL => some (x ≥ y)
  | .jmpLt | .jmpLtL => some (x < y)
  | .jmpLe | .jmpLeL => some (x ≤ y)
  | _ => none

/-- Goes on at the target if two popped integers compare as the opcode says. -/
def jumpCompare (i : Instruction) : Exec Unit := do
  let y ← Exec.popInteger i.opcode
  let x ← Exec.popInteger i.opcode
  match comparison? i.opcode x y with
  | some true => jump i
  | some false => return
  | none => throw (.invalidOperand i.opcode)

/-- Calls the routine at the target. -/
def call (config : Config) (i : Instruction) : Exec Unit := do
  Exec.call config (← i.target)

/-- Calls the routine at the popped pointer. -/
def callPointer (config : Config) (i : Instruction) : Exec Unit := do
  let pointer ← Exec.pop
  match pointer.known? with
  | some (.pointer target) => Exec.call config target
  | some other => throw (.invalidCast other.type .pointer)
  | none => throw (.nonConstantOperand i.opcode)

/-- Pops the text of a message, which an item without known bytes lacks. -/
def popMessage : Exec (Option String) := do
  let x ← Exec.pop
  match (← Exec.heap).bytesOf x with
  | .ok (some bytes) => return some (Utf8.lossyText bytes)
  | _ => return none

/-- Aborts. -/
def abort : Exec Unit :=
  throw (.aborted none)

/-- Aborts with the popped message. -/
def abortWithMessage : Exec Unit := do
  throw (.aborted (← popMessage))

/-- Fails with a message unless the popped condition holds. -/
def require (text : Option String) (i : Instruction) : Exec Unit := do
  unless ← Exec.popBoolean i.opcode do
    throw (.assertionFailed text)

/-- Fails unless the popped condition holds. -/
def assert (i : Instruction) : Exec Unit :=
  require none i

/-- Fails with the popped message unless the condition below it holds. -/
def assertWithMessage (i : Instruction) : Exec Unit := do
  require (← popMessage) i

/-- Throws the popped exception. -/
def raise : Exec Unit := do
  Exec.raise (← Exec.pop)

/-- The offset that a relative offset denotes; none for zero. -/
def handlerTarget (i : Instruction) (relative : Int) : Except ExecutionError (Option Nat) :=
  let target := i.offset + relative
  if relative = 0 then .ok none
  else if 0 ≤ target ∧ target ≤ maxOffset then .ok (some target.toNat)
  else .error (.invalidPointer target)

/-- Enters a try block. -/
def beginTry (i : Instruction) : Exec Unit := do
  let width := if i.opcode = .beginTry then 1 else 4
  let catchOffset ← i.signedToken 0 width
  let finallyOffset ← i.signedToken width width
  if catchOffset = 0 ∧ finallyOffset = 0 then throw (.invalidTryState i.opcode)
  let catchTarget ← handlerTarget i catchOffset
  let finallyTarget ← handlerTarget i finallyOffset
  let f ← Exec.frame
  if f.tries.length ≥ Limits.tryNesting then throw (.invalidTryState i.opcode)
  Exec.setFrame { f with tries := .begin catchTarget finallyTarget :: f.tries }

/-- Leaves the guarded part or the handler of a try block, through its cleanup if it has one. -/
def endTry (i : Instruction) : Exec Unit := do
  let target ← i.target
  if target < 0 ∨ target > maxOffset then throw (.invalidPointer target)
  let f ← Exec.frame
  match f.tries with
  | [] => throw (.invalidTryState i.opcode)
  | entry :: outer =>
    if entry.phase = .cleanup then throw (.invalidTryState i.opcode)
    match entry.finallyTarget with
    | some cleanup =>
      let entry := { entry with phase := .cleanup, endTarget := some target.toNat }
      Exec.setFrame { f with tries := entry :: outer }
      Exec.jumpTo cleanup
    | none =>
      Exec.setFrame { f with tries := outer }
      Exec.jumpTo target

/-- Leaves the cleanup of a try block: to where the block goes on, or along with the exception
that is pending. -/
def endFinally (i : Instruction) : Exec Unit := do
  let f ← Exec.frame
  match f.tries with
  | [] => throw (.invalidTryState i.opcode)
  | entry :: outer =>
    Exec.setFrame { f with tries := outer }
    if (← get).exception.isSome then
      Exec.handleException
    else
      match entry.endTarget with
      | some target => Exec.jumpTo target
      | none => throw (.invalidTryState i.opcode)

end Semantics

end SymbolicScript
