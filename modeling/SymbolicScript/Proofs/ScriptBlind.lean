import SymbolicScript.Proofs.Oblivious

/-!
# Instructions do not read scripts

Once an instruction has been decoded, its execution looks at the script no more, except for the
length, which bounds jumps and pointers.  `State.rescript g` replaces every script of a state by
another one of the same length, and a computation is `Blind` to scripts if it does the same before
and after the replacement.  Every handler is (`Handler.run_blind`), and with it the execution of an
instruction (`Machine.execute_rescript`).
-/

namespace SymbolicScript

/-! ## Replacing scripts -/

/-- The state with all scripts replaced. -/
def State.rescript (g : Script → Script) (s : State) : State :=
  { s with worlds := s.worlds.map (World.rescript g) }

section

variable {g : Script → Script}

namespace State

/-- A disguise that marks no jump replaces scripts. -/
lemma disguise_false (s : State) : s.disguise g false = s.rescript g := by
  simp [disguise, rescript]

/-- A world of a state with replaced scripts. -/
lemma worldAt_rescript (hg : KeepsLength g) (s : State) (i : Nat) :
    (s.rescript g).worldAt i = (s.worldAt i).rescript g := by
  rw [← disguise_false, worldAt_disguise hg]

end State

/-! ## Blind computations -/

namespace Exec

variable {α : Type}

/-- The outcome with all scripts of its state replaced. -/
def rescript (g : Script → Script) :
    EStateM.Result ExecutionError State α → EStateM.Result ExecutionError State α
  | .ok a s => .ok a (s.rescript g)
  | .error e s => .error e (s.rescript g)

/-- The computation does the same before and after scripts are replaced. -/
def Blind (g : Script → Script) (x : Exec α) : Prop :=
  ∀ s, x (s.rescript g) = rescript g (x s)

/-- A computation that is oblivious to a disguise without a mark is blind to scripts. -/
lemma Oblivious.blind {x : Exec α} (hx : Oblivious g false x) : Blind g x := by
  intro s
  have hsame := hx s
  rw [State.disguise_false] at hsame
  rw [hsame]
  cases x s with
  | ok a s' => simp only [disguise, rescript, State.disguise_false]
  | error e s' => simp only [disguise, rescript, State.disguise_false]

lemma blind_loadFrame (config : Config) (f : Frame) : Blind g (loadFrame config f) :=
  (oblivious_loadFrame config f).blind

end Exec

/-- No handler looks at scripts, except for their lengths. -/
theorem Handler.run_blind (hg : KeepsLength g) (handler : Handler) (config : Config)
    (i : Instruction) : Exec.Blind g (handler.run config i) :=
  (handler.run_oblivious hg config i).blind

/-! ## Executing instructions -/

namespace Machine

variable {config : Config} {i : Instruction}

/-- The machine with all scripts replaced. -/
def rescript (g : Script → Script) (m : Machine) : Machine :=
  { m with state := m.state.rescript g }

/-- Advancing a frame looks at the length of its script only. -/
lemma blind_advance (hg : KeepsLength g) (below : Nat) (i : Instruction) :
    Exec.Blind g (advance below i) := by
  intro s
  have hframes : (s.rescript g).frames = s.frames := rfl
  unfold advance
  simp only [hframes, State.worldAt_rescript hg, World.rescript, Frame.seek_rescript hg]
  split
  · rfl
  · split
    · rfl
    · split <;> rfl

/-- Performing an instruction does not look at scripts, except for their lengths. -/
lemma performInstruction_rescript (hg : KeepsLength g) (table : JumpTable) (i : Instruction)
    (s : State) : performInstruction config table i (s.rescript g) =
      ((performInstruction config table i s).1,
        (performInstruction config table i s).2.rescript g) := by
  have hdispatch := Handler.run_blind hg (table.handler i.opcode) config i s
  unfold performInstruction JumpTable.dispatch EStateM.run takeJump
  rw [hdispatch]
  cases (table.handler i.opcode).run config i s with
  | error e s₁ =>
    simp only [Exec.rescript]
    split <;> rfl
  | ok u s₁ =>
    have hframes : (s.rescript g).frames.length = s.frames.length := rfl
    have hadvance := blind_advance hg (s.frames.length - 1) i { s₁ with jumping := false }
    simp only [Exec.rescript, hframes]
    cases hjump : s₁.jumping with
    | true =>
      have hjump' : (s₁.rescript g).jumping = true := hjump
      simp only [hjump', if_true]
      rfl
    | false =>
      have hjump' : (s₁.rescript g).jumping = false := hjump
      have hput : ({ s₁.rescript g with jumping := false } : State) =
          State.rescript g { s₁ with jumping := false } := rfl
      simp only [hjump', Bool.false_eq_true, if_false, hput]
      rw [hadvance]
      cases advance (s.frames.length - 1) i { s₁ with jumping := false } <;> rfl

/-- Executing an instruction does not look at scripts, except for their lengths. -/
theorem execute_rescript (hg : KeepsLength g) (m : Machine) (i : Instruction) :
    (m.rescript g).execute i = ((m.execute i).1, (m.execute i).2.rescript g) := by
  unfold execute rescript
  simp only
  split
  · rfl
  · split
    · rfl
    · rw [performInstruction_rescript hg]

end Machine

end

end SymbolicScript
