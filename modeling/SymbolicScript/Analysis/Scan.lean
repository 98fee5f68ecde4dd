import SymbolicScript.Analysis.Report
import SymbolicScript.Machine.Run
import SymbolicScript.Manifest

/-!
# Scanning a method

The scan of a method executes it from its entry and stops in front of the first instruction that
must not be skipped: one with an effect that outlives the frame, or one that transfers control. If
calls are to be followed, they are executed as well, and whatever must not be skipped inside a
called routine stops the scan at the call.
-/

namespace SymbolicScript

/-- What a scan remembers: where the entry frame last called a routine, and why and where the scan
has stopped. -/
structure Scan where
  /-- The offset of the last call in the entry frame. -/
  callSite : Option Nat
  /-- The offset for the entry, and the reason, once the scan has stopped. -/
  stop : Option (Nat × StopReason)
  deriving DecidableEq, Repr

namespace Scan

/-- The scan before the first instruction. -/
def start : Scan := ⟨none, none⟩

/-- Whether the opcode is a call of a routine at a fixed offset. -/
def isDirectCall : Opcode → Bool
  | .call | .callL => true
  | _ => false

/-- Whether the opcode accesses a static field, calls the host, or initializes variables. -/
def isEffectful (op : Opcode) : Bool :=
  op = .initSlot || op = .initSSlot || op = .syscall || op.isStaticLoad || op.isStaticStore

/-- Whether the opcode changes static fields or calls the host. -/
def isEffectfulInCallee (op : Opcode) : Bool :=
  op = .initSSlot || op = .syscall || op.isStaticStore

/-- What stops the scan of a method that begins at `entry` in front of an instruction of its
entry frame. -/
def stopInMethod (entry : Nat) (followCalls : Bool) (i : Instruction) :
    Option (Nat × StopReason) :=
  if isEffectful i.opcode then some (i.offset, .effectful)
  else if !i.opcode.isTerminator then none
  else
    match i.opcode with
    | .ret => some (entry, .halted)
    | .abort | .abortMsg | .throw => some (entry, .aborted)
    | op =>
      if isDirectCall op && followCalls then none else some (i.offset, .blockBoundary)

/-- What stops the scan in front of an instruction of a routine called at `site`. -/
def stopInCallee (site : Nat) (followCalls : Bool) (i : Instruction) :
    Option (Nat × StopReason) :=
  if isEffectfulInCallee i.opcode then some (site, .effectful)
  else if i.opcode = .ret || (isDirectCall i.opcode && followCalls) then none
  else if i.opcode.isTerminator then some (site, .blockBoundary)
  else none

/-- The scan in front of an instruction at an invocation depth. -/
def consider (entry : Nat) (followCalls : Bool) (depth : Nat) (i : Instruction) (s : Scan) :
    Scan :=
  if depth ≤ 1 then
    match stopInMethod entry followCalls i with
    | some stop => { s with stop := some stop }
    | none => if isDirectCall i.opcode then { s with callSite := some i.offset } else s
  else
    match stopInCallee (s.callSite.getD entry) followCalls i with
    | some stop => { s with stop := some stop }
    | none => s

/-- Whether the scan stops in front of an instruction. -/
def predicate (entry : Nat) (followCalls : Bool) (s : Scan) (m : Machine) (i : Instruction) :
    Bool × Scan :=
  let s := consider entry followCalls m.state.depth i s
  (s.stop.isSome, s)

end Scan

/-- Where the scan has moved the entry of a method from `entry`, the reason why it ended there, and
the error that ended it. -/
def Machine.Ending.placement (entry : Nat) (ending : Machine.Ending Scan) :
    Nat × StopReason × Option LocatedError :=
  match ending.outcome with
  | .ok (.stopped _) =>
    let (offset, reason) := ending.memory.stop.getD (entry, .halted)
    (offset, reason, none)
  | .ok (.unresolved e) =>
    let offset :=
      if ending.machine.state.depth > 1 then ending.memory.callSite.getD entry else e.offset
    (offset, .unresolved, some e)
  | .ok _ => (entry, .halted, none)
  | .error e => (entry, .aborted, some e)

/-- The report on a method whose scan has left a machine behind. -/
def MethodReport.ofMachine (method : Method) (m : Machine)
    (placement : Nat × StopReason × Option LocatedError) : MethodReport :=
  let accesses := m.state.accesses
  { name := method.name
    declaredOffset := method.offset
    newOffset := placement.1
    reason := placement.2.1
    reads := accesses.readSet
    writes := accesses.writeSet
    error := placement.2.2 }

/-- Analyzes a method of a script, and gives the watchdog as it is afterwards. -/
def analyzeMethod (script : Script) (config : Config) (watchdog : Watchdog) (method : Method) :
    MethodReport × Watchdog :=
  match (Machine.create config watchdog 0).loadScript script method.offset with
  | (.error e, m) => (.ofMachine method m (method.offset, .aborted, some e), m.watchdog)
  | (.ok (), m) =>
    let ending := m.run (Scan.predicate method.offset config.followCalls) .start
    (.ofMachine method ending.machine (ending.placement method.offset), ending.machine.watchdog)

end SymbolicScript
