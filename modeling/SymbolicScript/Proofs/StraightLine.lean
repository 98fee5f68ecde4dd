import SymbolicScript.Proofs.FrameSteps
import SymbolicScript.Proofs.GroundedRuns

/-!
# Only block terminators transfer control

The division of a script into blocks and the analysis of its entries go by the classification of
opcodes: inside a block every instruction is followed by the next one.  The handlers do not know
the classification, and each of them could jump, drop a frame or enter a try block.

This file proves that none outside the classification does (`Machine.Reaches.execute_straight`).
Whatever instruction that is no block terminator is executed in a state that is reached, and
whether it succeeds or fails, the invocation stack is the same afterwards but for the variables and
the position of the current frame, and that position is the one behind the instruction if it has
succeeded, and the old one if not.
-/

namespace SymbolicScript

/-- What is left alone by an instruction that does not transfer control. -/
structure State.SameControl (s s' : State) : Prop where
  /-- There are as many frames. -/
  depth : s'.depth = s.depth
  /-- The frames below the current one are the same. -/
  below : s'.frames.tail = s.frames.tail
  /-- The try stacks of all frames are the same. -/
  tryStacks : s'.tryStacks = s.tryStacks
  /-- The pending exception is the same. -/
  exception : s'.exception = s.exception
  /-- The values returned so far are the same. -/
  result : s'.result = s.result

namespace State

/-- The instruction pointer of the current frame. -/
def position? (s : State) : Option Nat :=
  s.frames.head?.map Frame.position

variable {s s₁ : State}

/-- What preserves the skeleton does not transfer control. -/
lemma SameSkeleton.sameControl (h : s.SameSkeleton s₁) : s.SameControl s₁ where
  depth := h.depth
  below := h.tail
  tryStacks := by
    unfold State.tryStacks
    cases hs : s.frames with
    | nil =>
      have hdepth : s₁.frames.length = s.frames.length := h.depth
      rw [hs] at hdepth
      rw [List.eq_nil_of_length_eq_zero hdepth]
    | cons f rest =>
      obtain ⟨f₁, hs₁, hskeleton⟩ := h.frames_eq hs
      have htries : f₁.skeleton.tries = f.skeleton.tries := congrArg Frame.tries hskeleton
      change f₁.tries = f.tries at htries
      rw [hs₁, List.map_cons, List.map_cons, htries]
  exception := h.exception
  result := h.result

/-- Moving the current frame leaves the rest of the control state alone. -/
lemma SameControl.move (h : s.SameControl s₁) {f : Frame} {rest : List Frame}
    (hs₁ : s₁.frames = f :: rest) (position : Nat) :
    s.SameControl { s₁ with frames := { f with position } :: rest, jumping := false } where
  depth := by
    rw [← h.depth, State.depth, State.depth, hs₁]
    rfl
  below := by
    rw [← h.below, hs₁]
    rfl
  tryStacks := by
    rw [← h.tryStacks, State.tryStacks, State.tryStacks, hs₁]
    rfl
  exception := h.exception
  result := h.result

/-- What preserves the skeleton leaves the instruction pointer alone. -/
lemma SameSkeleton.position? (h : s.SameSkeleton s₁) : s₁.position? = s.position? := by
  have hposition (frames : List Frame) : frames.head?.map Frame.position =
      (frames.head?.map Frame.skeleton).map Frame.position := by
    rw [Option.map_map]
    rfl
  rw [State.position?, State.position?, hposition, h.head, ← hposition]

end State

namespace Machine

variable {config : Config} {i : Instruction} {s : State}

/-- The outcome of an instruction that does not transfer control. -/
structure Straight {ε : Type} (i : Instruction) (s : State) (result : Except ε Unit) (s' : State) :
    Prop where
  /-- The control state is the same but for the instruction pointer. -/
  sameControl : s.SameControl s'
  /-- Success puts the instruction pointer behind the instruction. -/
  advances : result = .ok () → s'.position? = s.position?.map fun _ => i.nextOffset
  /-- Failure leaves it where it is. -/
  stays : ∀ e, result = .error e → s'.position? = s.position?

/-- A success is straight if the instruction pointer is behind the instruction. -/
lemma Straight.of_ok {ε : Type} {s' : State} (hcontrol : s.SameControl s')
    (hposition : s'.position? = s.position?.map fun _ => i.nextOffset) :
    Straight i s (.ok () : Except ε Unit) s' := by
  refine ⟨hcontrol, fun _ => hposition, ?_⟩
  rintro e ⟨⟩

/-- A failure is straight if the instruction pointer is where it was. -/
lemma Straight.of_error {ε : Type} {s' : State} {e : ε} (hcontrol : s.SameControl s')
    (hposition : s'.position? = s.position?) :
    Straight i s (.error e) s' := by
  refine ⟨hcontrol, ?_, fun _ _ => hposition⟩
  rintro ⟨⟩

/-- Where a failure is located makes no difference. -/
lemma Straight.locate {s' : State} {result : Except ExecutionError Unit}
    (h : Straight i s result s') (offset : Nat) : Straight i s (locate offset result) s' := by
  cases result with
  | ok u => exact .of_ok h.sameControl (h.advances rfl)
  | error e => exact .of_error h.sameControl (h.stays e rfl)

/-- In the states that are reached no jump is marked, if there was none at first. -/
lemma Reaches.jumping {offsets : Nat → Prop} {m₀ m : Machine} (h : Reaches offsets m₀ m)
    (hstart : m₀.state.jumping = false) : m.state.jumping = false := by
  induction h with
  | start => exact hstart
  | step _ _ ih => exact step_jumping ih

/-- Behind an instruction that has preserved the skeleton, the frame that has executed it is the
current one and is advanced. -/
lemma advance_straight {s₁ s₂ : State} (hsame : s.SameSkeleton s₁)
    (h : advance (s.frames.length - 1) i { s₁ with jumping := false } = .ok () s₂) :
    s.SameControl s₂ ∧ s₂.position? = s.position?.map fun _ => i.nextOffset := by
  cases hs : s.frames with
  | nil =>
    -- Without a frame nothing is advanced.
    have hs₁ : s₁.frames.length ≤ s.frames.length - 1 := by
      have hdepth := hsame.depth
      simp only [State.depth, hs, List.length_nil] at hdepth ⊢
      omega
    rw [advance, if_pos hs₁] at h
    cases h
    refine ⟨{ hsame.sameControl with }, hsame.position?.trans ?_⟩
    simp [State.position?, hs]
  | cons f rest =>
    obtain ⟨f₁, hs₁, -⟩ := hsame.frames_eq hs
    have hbelow : s.frames.length - 1 = rest.length := by simp [hs]
    rw [hbelow] at h
    obtain ⟨rfl, -⟩ := @advance_ok _ { s₁ with jumping := false } _ _ [] _ hs₁ h
    refine ⟨hsame.sameControl.move hs₁ i.nextOffset, ?_⟩
    simp [State.position?, hs]

/-- An instruction that is no terminator does not transfer control. -/
lemma performInstruction_straight (hop : i.opcode.isTerminator = false)
    (hjumping : s.jumping = false) :
    Straight i s (performInstruction config .standard i s).1
      (performInstruction config .standard i s).2 := by
  have hkeeps := JumpTable.dispatch_sameSkeleton config hop s
  have hperforms := performInstruction_performs config .standard i s
  generalize performInstruction config .standard i s = outcome at hperforms
  cases hperforms with
  | @fails e s₁ status hdispatch _ =>
    rw [Exec.after_of_error hdispatch] at hkeeps
    exact .of_error { hkeeps.sameControl with } hkeeps.position?
  | @jumps s₁ hdispatch hjumps =>
    rw [Exec.after_of_ok hdispatch] at hkeeps
    rw [hkeeps.jumping, hjumping] at hjumps
    cases hjumps
  | @advances s₁ s₂ hdispatch _ hadvance =>
    rw [Exec.after_of_ok hdispatch] at hkeeps
    obtain ⟨hcontrol, hposition⟩ := advance_straight hkeeps hadvance
    exact .of_ok hcontrol hposition
  | @leaves e s₁ s₂ hdispatch _ hadvance =>
    rw [Exec.after_of_ok hdispatch] at hkeeps
    cases advance_error hadvance
    exact .of_error { hkeeps.sameControl with } hkeeps.position?

/-- Only block terminators transfer control.  In every state that is reached from a loaded script,
an instruction that is no terminator keeps the invocation depth, all that lies below the current
frame, the try stacks of all frames, the pending exception and the values returned so far.  It
advances the instruction pointer of the current frame behind itself if it succeeds, and does not
move it if it fails. -/
theorem Reaches.execute_straight {script : Script} {watchdog : Watchdog} {supply entry : Nat}
    {m₀ m : Machine} (hload : (create config watchdog supply).loadScript script entry = (.ok (), m₀))
    (hreaches : Reaches (fun _ => True) m₀ m) {i : Instruction}
    (hop : i.opcode.isTerminator = false) :
    Straight i m.state (m.execute i).1 (m.execute i).2.state := by
  obtain ⟨rfl, -, -⟩ := loadScript_ok hload
  have htable : m.table = .standard := hreaches.table_eq
  have hjumping : m.state.jumping = false := hreaches.jumping rfl
  by_cases hpermits : m.Permits
  · rw [execute_of_permits hpermits, htable]
    exact (performInstruction_straight hop hjumping).locate i.offset
  · have hsame : m.state.SameControl m.state := ⟨rfl, rfl, rfl, rfl, rfl⟩
    rcases execute_of_not_permits hpermits i with ⟨-, hrefused⟩ | ⟨-, -, hrefused⟩
    · rw [hrefused]
      exact .of_error { hsame with } rfl
    · rw [hrefused]
      exact .of_error hsame rfl

/-- A routine that consists of `NOP`, and a call of it. -/
def callingScript : Script := ⟨[0x34, 0x03, 0x40, 0x21]⟩

/-- The machine that has made the call. -/
def calledMachine : Machine :=
  (loaded callingScript {} .lazy 0 0).step.2

/-- In the routine `NOP` advances the instruction pointer, and an initialization of variables that
lacks its operand fails and leaves it alone. -/
theorem execute_straight_callingScript :
    (create {} .lazy 0).loadScript callingScript 0 = (.ok (), loaded callingScript {} .lazy 0 0) ∧
      Reaches (fun _ => True) (loaded callingScript {} .lazy 0 0) calledMachine ∧
      calledMachine.state.depth = 2 ∧
      Opcode.nop.isTerminator = false ∧ Opcode.initSlot.isTerminator = false ∧
      (calledMachine.execute ⟨3, .nop, []⟩).2.state.position? = some 4 ∧
      (calledMachine.execute ⟨3, .initSlot, []⟩).2.state.position? = some 3 := by
  have hload : (create {} .lazy 0).loadScript callingScript 0 =
      (.ok (), loaded callingScript {} .lazy 0 0) := rfl
  have hreaches : Reaches (fun _ => True) (loaded callingScript {} .lazy 0 0) calledMachine :=
    .step .start fun _ _ => trivial
  have hposition : calledMachine.state.position? = some 3 := by decide +kernel
  have hnop := hreaches.execute_straight hload (i := ⟨3, .nop, []⟩) rfl
  have hslot := hreaches.execute_straight hload (i := ⟨3, .initSlot, []⟩) rfl
  have hfails : (calledMachine.execute ⟨3, .initSlot, []⟩).1 =
      .error ⟨3, .invalidOperand .initSlot⟩ := by decide +kernel
  refine ⟨hload, hreaches, by decide +kernel, rfl, rfl, ?_, ?_⟩
  · rw [hnop.advances (by decide +kernel), hposition]
    rfl
  · rw [hslot.stays _ hfails, hposition]

end Machine

end SymbolicScript
