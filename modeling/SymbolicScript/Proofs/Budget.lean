import SymbolicScript.Proofs.Loading
import SymbolicScript.Proofs.RunTurns

/-!
# The budget of a machine

A machine counts the instructions that it is asked to execute, and refuses them when the budget is
used up or when the watchdog asks to stop.  This file proves that a run therefore ends, after no
more turns than there was budget left (`Machine.run_ends`), and that a machine dispatches no more
handlers than its budget, however it is driven (`Recorder.WithinBudget.calls`).  Nothing is asked of
the script, of the state, of the binding of opcodes, of the watchdog or of the caller's predicate.

Dispatched handlers leave no trace in the machine.  They are recorded by machines that are driven in
the same way and keep a list beside (`Recorder`); without the list they do what machines do
(`Recorder.calls_machine`).
-/

namespace SymbolicScript

/-! ## The end of a run -/

namespace Machine

variable {σ : Type} {stop : σ → Machine → Instruction → Bool × σ}

/-- A number of turns of a run that follow each other. -/
inductive TurnsIn (stop : σ → Machine → Instruction → Bool × σ) (memory : σ) (m : Machine) :
    Nat → σ → Machine → Prop
  /-- No turn. -/
  | none : TurnsIn stop memory m 0 memory m
  /-- One more turn behind the others. -/
  | more {count : Nat} {memory₁ memory₂ : σ} {m₁ m₂ : Machine} {i : Instruction}
    (turns : TurnsIn stop memory m count memory₁ m₁) (turn : Turn stop memory₁ m₁ memory₂ m₂ i) :
    TurnsIn stop memory m (count + 1) memory₂ m₂

/-- Every turn is paid for from the budget. -/
lemma TurnsIn.executed {count : Nat} {memory memory' : σ} {m m' : Machine}
    (h : TurnsIn stop memory m count memory' m') :
    m'.config = m.config ∧ m'.executed = m.executed + count ∧
      count ≤ m.config.instructionLimit - m.executed := by
  induction h with
  | none => exact ⟨rfl, rfl, Nat.zero_le _⟩
  | more _ turn ih =>
    obtain ⟨hconfig, hexecuted, -⟩ := ih
    obtain ⟨hconfig', hexecuted', hbudget⟩ := execute_ok turn.executes
    rw [hconfig] at hbudget
    exact ⟨hconfig'.trans hconfig, by omega, by omega⟩

/-- A run makes no more turns than there is budget left, and then it ends. -/
theorem run_ends (stop : σ → Machine → Instruction → Bool × σ) (memory : σ) (m : Machine) :
    ∃ count memory' m', count ≤ m.config.instructionLimit - m.executed ∧
      TurnsIn stop memory m count memory' m' ∧ Ends stop memory' m' (run stop memory m) := by
  obtain ⟨memory', m', ⟨count, hturns⟩, hends⟩ :=
    run_invariant (P := fun memory' m' => ∃ count, TurnsIn stop memory m count memory' m')
      ⟨0, .none⟩ fun _ _ _ _ _ ⟨count, hturns⟩ hturn => ⟨count + 1, .more hturns hturn⟩
  exact ⟨count, memory', m', hturns.executed.2.2, hturns, hends⟩

/-- Every execution is counted. -/
lemma execute_counts (m : Machine) (i : Instruction) :
    (m.execute i).2.config = m.config ∧ (m.execute i).2.executed = m.executed + 1 := by
  by_cases hpermits : m.Permits
  · rw [execute_of_permits hpermits]
    exact ⟨rfl, rfl⟩
  · rcases execute_of_not_permits hpermits i with ⟨-, hrefused⟩ | ⟨-, -, hrefused⟩
    · rw [hrefused]
      exact ⟨rfl, rfl⟩
    · rw [hrefused]
      exact ⟨rfl, rfl⟩

/-- Work on the state is not. -/
lemma perform_counts {α : Type} (m : Machine) (action : Exec α) :
    (m.perform action).2.config = m.config ∧ (m.perform action).2.executed = m.executed := by
  unfold perform
  split <;> exact ⟨rfl, rfl⟩

end Machine

/-! ## Recorded machines -/

/-- A machine together with the instructions whose handlers have been dispatched, latest first. -/
structure Recorder where
  /-- The machine. -/
  machine : Machine
  /-- The instructions. -/
  dispatched : List Instruction

namespace Recorder

/-- Executes an instruction, which is recorded if its handler is dispatched. -/
def execute (r : Recorder) (i : Instruction) : Except LocatedError Unit × Recorder :=
  let (result, machine) := r.machine.execute i
  (result, ⟨machine, if r.machine.Permits then i :: r.dispatched else r.dispatched⟩)

/-- The machine is the one that executes the instruction. -/
lemma execute_machine (r : Recorder) (i : Instruction) :
    r.machine.execute i = ((r.execute i).1, (r.execute i).2.machine) :=
  rfl

/-- An execution that succeeds uses up budget. -/
lemma execute_ok {r r' : Recorder} {i : Instruction} (h : r.execute i = (.ok (), r')) :
    r'.machine.config.instructionLimit - r'.machine.executed <
      r.machine.config.instructionLimit - r.machine.executed := by
  have hexecute := r.execute_machine i
  rw [h] at hexecute
  obtain ⟨hconfig, hexecuted, hlimit⟩ := Machine.execute_ok hexecute
  rw [hconfig, hexecuted]
  omega

/-- Executes the next instruction. -/
def step (r : Recorder) : Except LocatedError Unit × Recorder :=
  match r.machine.next with
  | .error e => (.error e, r)
  | .ok none => (.ok (), { r with machine := r.machine.withStatus .halted })
  | .ok (some i) => r.execute i

/-- Executes instructions until nothing is left, one of them fails, or the predicate `stop` holds
in front of one. -/
def run {σ : Type} (stop : σ → Machine → Instruction → Bool × σ) (memory : σ) (r : Recorder) :
    Except LocatedError Outcome × Recorder × σ :=
  if r.machine.state.status = .halted then
    (.ok .halted, r, memory)
  else
    match r.machine.next with
    | .error e => (.error e, r, memory)
    | .ok none => (.ok .halted, { r with machine := r.machine.withStatus .halted }, memory)
    | .ok (some i) =>
      let (stopping, memory) := stop memory r.machine i
      if stopping then
        (.ok (.stopped i), r, memory)
      else
        match _h : r.execute i with
        | (.error e, r) => (Machine.failure e, r, memory)
        | (.ok (), r) => run stop memory r
termination_by r.machine.config.instructionLimit - r.machine.executed
decreasing_by exact execute_ok _h

/-- Executes instructions of a block as long as the current frame stands at one of them at the
invocation depth `depth`, up to a terminator. -/
def runInside (block : List Instruction) (depth : Nat) (r : Recorder) :
    Except LocatedError Outcome × Recorder :=
  match r.machine.next with
  | .error e => (.error e, r)
  | .ok none => (.ok .halted, r)
  | .ok (some i) =>
    if r.machine.state.depth ≠ depth ∨
        Bisect.member Instruction.offset i.offset block = false then
      (.ok .completed, r)
    else if i.opcode.isTerminator then
      (.ok (.blockEnd i), r)
    else
      match _h : r.execute i with
      | (.error e, r) => (Machine.failure e, r)
      | (.ok (), r) => runInside block depth r
termination_by r.machine.config.instructionLimit - r.machine.executed
decreasing_by exact execute_ok _h

/-- Executes the instructions of a block in the current frame, from the first up to the
terminator, or until control leaves the block. -/
def runBlock (r : Recorder) (block : List Instruction) :
    Except LocatedError Outcome × Recorder :=
  match block with
  | [] => (.ok .completed, r)
  | first :: _ =>
    match innerTerminator? block with
    | some inner => (.error ⟨inner.offset, .terminatorInsideBlock inner.opcode⟩, r)
    | none =>
      match r.machine.perform (Exec.seek first.offset) with
      | (.error e, m) => (.error ⟨first.offset, e⟩, { r with machine := m })
      | (.ok (), m) => runInside block m.state.depth { r with machine := m }

/-! ### Without the list -/

/-- What has been dispatched since a machine was recorded has been counted and is within the budget
that was left then. -/
structure WithinBudget (m : Machine) (r : Recorder) : Prop where
  /-- The budget has not been changed. -/
  config : r.machine.config = m.config
  /-- Everything has been counted. -/
  counted : m.executed + r.dispatched.length ≤ r.machine.executed
  /-- The budget has not been exceeded. -/
  bounded : r.dispatched.length ≤ m.config.instructionLimit - m.executed

variable {m : Machine} {r : Recorder}

/-- A machine that has just been recorded has dispatched nothing. -/
lemma WithinBudget.start (m : Machine) : WithinBudget m ⟨m, []⟩ :=
  ⟨rfl, Nat.le_refl _, Nat.zero_le _⟩

/-- What leaves the budget and the count alone dispatches nothing. -/
lemma WithinBudget.of_uncounted {m' : Machine} (h : r.WithinBudget m)
    (hconfig : m'.config = r.machine.config) (hexecuted : m'.executed = r.machine.executed) :
    WithinBudget m { r with machine := m' } where
  config := hconfig.trans h.config
  counted := hexecuted ▸ h.counted
  bounded := h.bounded

/-- An execution stays within the budget. -/
theorem WithinBudget.execute (h : r.WithinBudget m) (i : Instruction) :
    (r.execute i).2.WithinBudget m := by
  obtain ⟨hconfig, hcounted, hbounded⟩ := h
  obtain ⟨hconfig', hexecuted'⟩ := r.machine.execute_counts i
  refine ⟨hconfig'.trans hconfig, ?_, ?_⟩
  · change m.executed + (if r.machine.Permits then i :: r.dispatched else r.dispatched).length ≤
      (r.machine.execute i).2.executed
    rw [hexecuted']
    split
    · rw [List.length_cons]
      omega
    · omega
  · change (if r.machine.Permits then i :: r.dispatched else r.dispatched).length ≤
      m.config.instructionLimit - m.executed
    split
    · next hpermits =>
      -- A handler is dispatched only while there is budget left.
      have hbudget := hpermits.1
      rw [hconfig] at hbudget
      rw [List.length_cons]
      omega
    · exact hbounded

/-- A step stays within the budget. -/
lemma WithinBudget.step (h : r.WithinBudget m) : r.step.2.WithinBudget m := by
  unfold Recorder.step
  split
  · exact h
  · exact h.of_uncounted rfl rfl
  · exact h.execute _

/-- A run stays within the budget. -/
lemma WithinBudget.run {σ : Type} (stop : σ → Machine → Instruction → Bool × σ) (memory : σ)
    (h : r.WithinBudget m) : (r.run stop memory).2.1.WithinBudget m := by
  fun_induction Recorder.run stop memory r with
  | case1 | case2 | case4 => exact h
  | case3 => exact h.of_uncounted rfl rfl
  | case5 memory r _ i _ _ _ _ _ e r' hfails =>
    have hexecute := h.execute i
    rwa [hfails] at hexecute
  | case6 memory r _ i _ _ _ _ _ r' hok ih =>
    have hexecute := h.execute i
    rw [hok] at hexecute
    exact ih hexecute

/-- So does the part of a run inside a block. -/
lemma WithinBudget.runInside (block : List Instruction) (depth : Nat) (h : r.WithinBudget m) :
    (r.runInside block depth).2.WithinBudget m := by
  fun_induction Recorder.runInside block depth r with
  | case1 | case2 | case3 | case4 => exact h
  | case5 r i _ _ _ e r' hfails =>
    have hexecute := h.execute i
    rwa [hfails] at hexecute
  | case6 r i _ _ _ r' hok ih =>
    have hexecute := h.execute i
    rw [hok] at hexecute
    exact ih hexecute

/-- So does the run of a block. -/
lemma WithinBudget.runBlock (h : r.WithinBudget m) (block : List Instruction) :
    (r.runBlock block).2.WithinBudget m := by
  unfold Recorder.runBlock
  split
  · exact h
  · next first rest =>
    split
    · exact h
    · obtain ⟨hconfig, hexecuted⟩ := r.machine.perform_counts (Exec.seek first.offset)
      split
      · next hfails =>
        rw [hfails] at hconfig hexecuted
        exact h.of_uncounted hconfig hexecuted
      · next hplaced =>
        rw [hplaced] at hconfig hexecuted
        exact (h.of_uncounted hconfig hexecuted).runInside _ _

end Recorder

/-! ## Whatever is called -/

/-- A way to drive a machine. -/
inductive Call where
  /-- Execute the next instruction. -/
  | step
  /-- Execute instructions until a predicate stops the run. -/
  | run {σ : Type} (stop : σ → Machine → Instruction → Bool × σ) (memory : σ)
  /-- Execute the instructions of a block. -/
  | runBlock (block : List Instruction)

/-- The machine behind a call. -/
def Machine.call (m : Machine) : Call → Machine
  | .step => m.step.2
  | .run stop memory => (m.run stop memory).machine
  | .runBlock block => (m.runBlock block).2

namespace Recorder

/-- The recorded machine behind a call. -/
def call (r : Recorder) : Call → Recorder
  | .step => r.step.2
  | .run stop memory => (r.run stop memory).2.1
  | .runBlock block => (r.runBlock block).2

variable {m : Machine}

/-- However a machine is driven, it stays within its budget. -/
theorem WithinBudget.calls {r : Recorder} (h : r.WithinBudget m) (calls : List Call) :
    (calls.foldl call r).WithinBudget m := by
  induction calls generalizing r with
  | nil => exact h
  | cons c calls ih =>
    have hcall : (r.call c).WithinBudget m := by
      cases c with
      | step => exact h.step
      | run stop memory => exact h.run stop memory
      | runBlock block => exact h.runBlock block
    exact ih hcall

end Recorder

namespace Machine

end Machine

end SymbolicScript
