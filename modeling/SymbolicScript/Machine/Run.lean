import SymbolicScript.Machine.JumpTable
import SymbolicScript.Machine.Watchdog
import SymbolicScript.Script.Block

/-!
# Running a machine

A machine executes one instruction at a time. Every execution counts against a budget, and the
watchdog is polled by that count, so that a run ends: it stops where the caller asks, where an
instruction cannot be resolved, where one fails, or when no frame is left.

`Machine.step` executes one instruction, `Machine.run` repeats it until the caller's predicate
asks to stop, and `Machine.runBlock` repeats it through the instructions of a basic block.
-/

namespace SymbolicScript

/-- A machine that executes scripts. -/
structure Machine where
  /-- The configuration. -/
  config : Config
  /-- The binding of opcodes to handlers. -/
  table : JumpTable
  /-- The watchdog. -/
  watchdog : Watchdog
  /-- The number of instructions executed so far. -/
  executed : Nat
  /-- The state that instructions work on. -/
  state : State

/-- How a run ended without a failure. -/
inductive Outcome where
  /-- Nothing is left to execute. -/
  | halted
  /-- The next instruction is the terminator of the block. -/
  | blockEnd (next : Instruction)
  /-- Control has left the block. -/
  | completed
  /-- The caller asked to stop in front of the instruction. -/
  | stopped (next : Instruction)
  /-- The instruction at the offset of the error cannot be resolved. -/
  | unresolved (cause : LocatedError)
  deriving DecidableEq, Repr

namespace Machine

/-- A machine without frames that uses the standard bindings. Fresh unknowns are numbered from
`supply` on. -/
def create (config : Config) (watchdog : Watchdog) (supply : Nat) : Machine :=
  { config, table := .standard, watchdog, executed := 0, state := .initial supply }

/-- Loads a script and makes its entry frame the current one. -/
def loadScript (m : Machine) (script : Script) (offset : Nat) :
    Except LocatedError Unit × Machine :=
  let (result, state) := m.state.loadScript m.config script offset
  (result, { m with state })

/-- Performs a computation on the state. -/
def perform {α : Type} (m : Machine) (action : Exec α) : Except ExecutionError α × Machine :=
  match action.run m.state with
  | .ok a state => (.ok a, { m with state })
  | .error e state => (.error e, { m with state })

/-- The machine with another status. -/
def withStatus (m : Machine) (status : Status) : Machine :=
  { m with state := { m.state with status } }

/-- The instruction that the machine executes next; none without a frame. At the end of its
script a frame returns. -/
def next (m : Machine) : Except LocatedError (Option Instruction) :=
  match m.state.current? with
  | none => .ok none
  | some (f, w) =>
    match f.current w.script with
    | .ok (some i) => .ok (some i)
    | .ok none => .ok (some ⟨f.position, .ret, []⟩)
    | .error e => .error e

/-- Moves the frame that executed an instruction behind it, if that frame still exists. The frame
is given by the number of frames below it. -/
def advance (below : Nat) (i : Instruction) : Exec Unit := fun s =>
  if s.frames.length ≤ below then
    .ok () s
  else
    let place := s.frames.length - 1 - below
    match s.frames[place]? with
    | none => .ok () s
    | some f =>
      match f.seek (s.worldAt f.world).script i.nextOffset with
      | .ok f => .ok () { s with frames := s.frames.set place f }
      | .error e => .error e s

/-- Takes the mark of a jump. -/
def takeJump (s : State) : Bool × State :=
  (s.jumping, { s with jumping := false })

/-- Performs an instruction on the state and advances the instruction pointer unless the
instruction has set it. A failure marks the state as faulted unless it is unresolved. -/
def performInstruction (config : Config) (table : JumpTable) (i : Instruction) (s : State) :
    Except ExecutionError Unit × State :=
  let below := s.frames.length - 1
  match (table.dispatch config i).run s with
  | .error e s =>
    let s := (takeJump s).2
    (.error e, if e.isUnresolved then s else { s with status := .faulted })
  | .ok () s =>
    let (jumped, s) := takeJump s
    if jumped then
      (.ok (), s)
    else
      match (advance below i).run s with
      | .ok () s => (.ok (), s)
      | .error e s => (.error e, s)

/-- Executes an instruction as the next one, within the budget and unless the watchdog asks to
stop. -/
def execute (m : Machine) (i : Instruction) : Except LocatedError Unit × Machine :=
  let executed := m.executed + 1
  if executed > m.config.instructionLimit then
    (.error ⟨i.offset, .instructionLimitExceeded m.config.instructionLimit⟩,
      { m with executed }.withStatus .faulted)
  else
    let (stop, watchdog) := m.watchdog.poll executed
    if stop then
      (.error ⟨i.offset, .stoppedByWatchdog⟩, { m with executed, watchdog })
    else
      let (result, state) := performInstruction m.config m.table i m.state
      (locate i.offset result, { m with executed, watchdog, state })

/-- An execution that succeeds uses up budget. -/
theorem execute_ok {m m' : Machine} {i : Instruction} (h : m.execute i = (.ok (), m')) :
    m'.config = m.config ∧ m'.executed = m.executed + 1
      ∧ m.executed < m.config.instructionLimit := by
  unfold execute at h
  simp only at h
  split at h
  · simp at h
  · next hlimit =>
    split at h
    · simp at h
    · have hm := (Prod.mk.inj h).2
      subst hm
      exact ⟨rfl, rfl, by omega⟩

/-- Executes the next instruction; without a frame the machine halts. -/
def step (m : Machine) : Except LocatedError Unit × Machine :=
  match m.next with
  | .error e => (.error e, m)
  | .ok none => (.ok (), m.withStatus .halted)
  | .ok (some i) => m.execute i

/-- Executes up to `count` instructions, as long as none fails. -/
def steps : Nat → Machine → Except LocatedError Unit × Machine
  | 0, m => (.ok (), m)
  | count + 1, m =>
    match m.step with
    | (.ok (), m) => steps count m
    | (.error e, m) => (.error e, m)

/-- How a run ended, the machine it left behind, and the memory of the caller's predicate. -/
structure Ending (σ : Type) where
  /-- How the run ended. -/
  outcome : Except LocatedError Outcome
  /-- The machine. -/
  machine : Machine
  /-- What the predicate remembers. -/
  memory : σ

/-- The end of a run by an error, which is an outcome if it is unresolved. -/
def failure (e : LocatedError) : Except LocatedError Outcome :=
  if e.payload.isUnresolved then .ok (.unresolved e) else .error e

/-- Executes instructions until nothing is left, one of them fails, or the predicate `stop` holds
in front of one. The predicate may remember what it has seen. -/
def run {σ : Type} (stop : σ → Machine → Instruction → Bool × σ) (memory : σ) (m : Machine) :
    Ending σ :=
  if m.state.status = .halted then
    ⟨.ok .halted, m, memory⟩
  else
    match m.next with
    | .error e => ⟨.error e, m, memory⟩
    | .ok none => ⟨.ok .halted, m.withStatus .halted, memory⟩
    | .ok (some i) =>
      let (stopping, memory) := stop memory m i
      if stopping then
        ⟨.ok (.stopped i), m, memory⟩
      else
        match _h : m.execute i with
        | (.error e, m) => ⟨failure e, m, memory⟩
        | (.ok (), m) => run stop memory m
termination_by m.config.instructionLimit - m.executed
decreasing_by
  have hm := execute_ok _h
  rw [hm.1, hm.2.1]
  omega

/-- Executes instructions of a block as long as the current frame stands at one of them at the
invocation depth `depth`, up to a terminator. -/
def runInside (block : List Instruction) (depth : Nat) (m : Machine) :
    Except LocatedError Outcome × Machine :=
  match m.next with
  | .error e => (.error e, m)
  | .ok none => (.ok .halted, m)
  | .ok (some i) =>
    if m.state.depth ≠ depth ∨ Bisect.member Instruction.offset i.offset block = false then
      (.ok .completed, m)
    else if i.opcode.isTerminator then
      (.ok (.blockEnd i), m)
    else
      match _h : m.execute i with
      | (.error e, m) => (failure e, m)
      | (.ok (), m) => runInside block depth m
termination_by m.config.instructionLimit - m.executed
decreasing_by
  have hm := execute_ok _h
  rw [hm.1, hm.2.1]
  omega

/-- Executes the instructions of a block in the current frame, from the first up to the
terminator, or until control leaves the block. -/
def runBlock (m : Machine) (block : List Instruction) : Except LocatedError Outcome × Machine :=
  match block with
  | [] => (.ok .completed, m)
  | first :: _ =>
    match innerTerminator? block with
    | some inner => (.error ⟨inner.offset, .terminatorInsideBlock inner.opcode⟩, m)
    | none =>
      match m.perform (Exec.seek first.offset) with
      | (.error e, m) => (.error ⟨first.offset, e⟩, m)
      | (.ok (), m) => runInside block m.state.depth m

end Machine

end SymbolicScript
