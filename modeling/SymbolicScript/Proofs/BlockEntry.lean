import SymbolicScript.Proofs.ControlTargets
import SymbolicScript.Proofs.Loading

/-!
# Basic blocks are entered at their start

A basic block is only of use to a reader who can rely on it being executed from its first
instruction on.  The blocks are computed from the text of a script, while control moves through
pointers on the stack, to callers and to try blocks entered many steps earlier.  This file proves
that nevertheless every transfer of control leads to the start of a block, in every run of a machine
that executes instructions of the linear decode (`Machine.step_enters_blockStart`).

The invariant of such a run is that the state is guided by the offsets at which blocks start
(`State.Resting`).  An instruction that is no terminator moves the current frame behind itself; any
other one leaves all frames at such offsets (`Machine.performInstruction_resting`).
-/

namespace SymbolicScript

variable {L : Nat → Prop} {script : Script} {f : Frame} {rest : List Frame}

/-! ## Between instructions -/

/-- The state is guided, and no instruction is underway. -/
structure State.Resting (L : Nat → Prop) (script : Script) (s : State) : Prop
    extends s.Guided L script where
  /-- No jump is marked. -/
  jumping : s.jumping = false

namespace State

variable {s : State}

/-- The current frame may execute an instruction. -/
lemma Resting.underway (h : s.Resting L script) (hframes : s.frames = f :: rest) :
    s.Underway L script rest.length where
  toGuided := h.toGuided
  depth := by simp [hframes]
  settled hout := by
    rw [hframes, List.length_cons, h.jumping] at hout
    rcases hout with hle | hfalse
    · omega
    · cases hfalse

/-- Once an instruction has ended, no jump is marked. -/
lemma Guided.settle (h : s.Guided L script) (status : Status) :
    ({ s with jumping := false, status } : State).Resting L script :=
  { h with jumping := rfl }

end State

/-- The frame of a routine leads into the set if its caller does. -/
lemma Frame.Guided.callee (hf : f.Guided L) (offset : Nat) : (f.callee offset).Guided L :=
  ⟨hf.world, .untouched _, .untouched _, nofun⟩

namespace Machine

variable {config : Config} {i : Instruction} {s s' : State} {below : Nat}

/-! ## Performing an instruction -/

/-- Advancing brings the frame that executed an instruction behind it, if it is still there, and all
others stand in the set. -/
lemma advance_resting (hs : s.Underway L script below) (hjumping : s.jumping = false)
    (hadvance : advance below i s = .ok () s') :
    s'.Resting L script ∧ (L i.nextOffset → ∀ g ∈ s'.frames, L g.position) := by
  by_cases hgone : s.frames.length ≤ below
  · have hstays : advance below i s = .ok () s := by
      unfold advance
      rw [if_pos hgone]
    rw [hstays] at hadvance
    cases hadvance
    exact ⟨⟨hs.toGuided, hjumping⟩, fun _ => hs.settled (.inl hgone)⟩
  · cases hframes : s.frames with
    | nil => simp [hframes] at hgone
    | cons f rest =>
      have hdepth := hs.depth
      have hcaller := hs.caller
      rw [hframes] at hgone hdepth hcaller
      simp only [List.length_cons] at hgone hdepth
      have hbelow : below = rest.length := by omega
      rw [hbelow] at hadvance
      have hsplit : s.frames = [] ++ f :: rest := hframes
      obtain ⟨rfl, -⟩ := advance_ok hsplit hadvance
      exact ⟨⟨hs.toGuided.move hframes _, hjumping⟩, fun hnext =>
        List.forall_mem_cons.2 ⟨hnext, hcaller⟩⟩

/-- The opcodes bound to the handler that enters a try block have two targets, which take one byte
each in the short form and four in the long one. -/
lemma targetForm_of_beginTry {op : Opcode} (h : JumpTable.standard.handler op = .beginTry) :
    Instruction.targetForm op = .handlers (if op = .beginTry then 1 else 4) := by
  cases op with
  | beginTry | beginTryL => rfl
  | _ => cases h

/-- An instruction that is no call leaves the state guided.  If it is a terminator and succeeds,
then all frames stand in the set. -/
lemma performs_resting_of_not_call {outcome : Except ExecutionError Unit × State}
    (hs : s.Resting L script) (hframes : s.frames = f :: rest) (hzero : L 0)
    (hi : i.LeadsInto L) (hcall : JumpTable.standard.handler i.opcode ≠ .call)
    (hpointer : JumpTable.standard.handler i.opcode ≠ .callPointer)
    (h : Performs config .standard i s outcome) :
    outcome.2.Resting L script ∧ (outcome.1 = .ok () → i.opcode.isTerminator = true →
      ∀ g ∈ outcome.2.frames, L g.position) := by
  have hleaves := Handler.run_underway config hzero hi hcall hpointer targetForm_of_beginTry s
    (hs.underway hframes)
  change Exec.Leaves _ _ (JumpTable.standard.dispatch config i s) at hleaves
  have hlength : s.frames.length - 1 = rest.length := by simp [hframes]
  cases h with
  | fails hdispatch _ =>
    rw [hdispatch] at hleaves
    exact ⟨hleaves.toGuided.settle _, nofun⟩
  | @jumps s₁ hdispatch hjumps =>
    rw [hdispatch] at hleaves
    exact ⟨hleaves.1.toGuided.settle s₁.status, fun _ _ => hleaves.1.settled (.inr hjumps)⟩
  | @advances s₁ s₂ hdispatch hstays hadvance =>
    rw [hdispatch] at hleaves
    rw [hlength] at hadvance
    have hput : ({ s₁ with jumping := false } : State) = s₁ := by rw [← hstays]
    rw [hput] at hadvance
    obtain ⟨hresting, hpositions⟩ := advance_resting hleaves.1 hstays hadvance
    refine ⟨hresting, fun _ hterminator => hpositions (hi.next hterminator fun hret => ?_)⟩
    rw [dispatch_ret hret] at hdispatch
    rw [Exec.ret_jumps hdispatch] at hstays
    cases hstays
  | @leaves e s₁ s₂ hdispatch _ hadvance =>
    rw [hdispatch] at hleaves
    obtain rfl := advance_error hadvance
    exact ⟨hleaves.1.toGuided.settle s₁.status, nofun⟩

/-- Calls are terminators, and no returns. -/
lemma isTerminator_of_call {op : Opcode} (h : JumpTable.standard.handler op = .call ∨
    JumpTable.standard.handler op = .callPointer) : op.isTerminator = true ∧ op ≠ .ret := by
  cases op with
  | call | callL | callA => exact ⟨rfl, nofun⟩
  | _ => rcases h with h | h <;> cases h

/-- A call leaves all frames in the set, or the state guided if it fails. -/
lemma performs_resting_of_call {outcome : Except ExecutionError Unit × State}
    (hs : s.Resting L script) (hframes : s.frames = f :: rest) (hi : i.LeadsInto L)
    (hnext : L i.nextOffset) (hinside : i.nextOffset ≤ script.length)
    (hcall : JumpTable.standard.handler i.opcode = .call ∨
      JumpTable.standard.handler i.opcode = .callPointer)
    (h : Performs config .standard i s outcome) :
    outcome.2.Resting L script ∧ (outcome.1 = .ok () → ∀ g ∈ outcome.2.frames, L g.position) := by
  have hcalled := Handler.run_called config hi hcall (hs.underway hframes) hframes hs.jumping
  change State.Called _ _ _ _ _ (JumpTable.standard.dispatch config i s) at hcalled
  have hlength : s.frames.length - 1 = rest.length := by simp [hframes]
  cases h with
  | fails hdispatch _ =>
    rw [hdispatch] at hcalled
    exact ⟨hcalled.toGuided.settle _, nofun⟩
  | jumps hdispatch hjumps =>
    rw [hdispatch] at hcalled
    obtain ⟨s₀, offset, -, -, hjumping, -, rfl⟩ := hcalled
    rw [show s₀.jumping = true from hjumps] at hjumping
    cases hjumping
  | advances hdispatch _ hadvance =>
    rw [hdispatch] at hcalled
    obtain ⟨s₀, offset, hs₀, hframes₀, hjumping, hoffset, rfl⟩ := hcalled
    rw [hlength] at hadvance
    have habove : f.callee offset :: f :: rest = [f.callee offset] ++ f :: rest := rfl
    obtain ⟨rfl, -⟩ := advance_ok (s := { s₀ with frames := _, jumping := false }) habove hadvance
    have hframe := hs₀.frame
    have hcaller := hs₀.caller
    rw [hframes₀] at hframe hcaller
    obtain ⟨hf, hrest⟩ := List.forall_mem_cons.1 hframe
    have hpositions : ∀ g ∈ { f with position := i.nextOffset } :: rest, L g.position :=
      List.forall_mem_cons.2 ⟨hnext, hcaller⟩
    exact ⟨⟨{ hs₀.toGuided with
      frame := List.forall_mem_cons.2 ⟨hf.callee offset,
        List.forall_mem_cons.2 ⟨{ hf with }, hrest⟩⟩
      caller := hpositions }, rfl⟩, fun _ => List.forall_mem_cons.2 ⟨hoffset, hpositions⟩⟩
  | leaves hdispatch _ hadvance =>
    -- The caller can be advanced, since what follows the call lies inside the script.
    rw [hdispatch] at hcalled
    obtain ⟨s₀, offset, hs₀, hframes₀, -, -, rfl⟩ := hcalled
    rw [hlength] at hadvance
    have habove : f.callee offset :: f :: rest = [f.callee offset] ++ f :: rest := rfl
    have hf : f.Guided L := hs₀.frame f (by simp [hframes₀])
    have houtside : (s₀.worldAt f.world).script.length < i.nextOffset :=
      length_lt_of_advance_error (s := { s₀ with frames := _, jumping := false }) habove hadvance
    rw [hf.world, hs₀.script] at houtside
    omega

/-- Performing an instruction leaves the state guided.  If the instruction is a terminator and
succeeds, then all frames stand in the set afterwards. -/
theorem performInstruction_resting (config : Config) (hs : s.Resting L script)
    (hframes : s.frames = f :: rest) (hzero : L 0) (hi : i.LeadsInto L)
    (hinside : i.opcode ≠ .ret → i.nextOffset ≤ script.length) :
    (performInstruction config .standard i s).2.Resting L script ∧
      ((performInstruction config .standard i s).1 = .ok () → i.opcode.isTerminator = true →
        ∀ g ∈ (performInstruction config .standard i s).2.frames, L g.position) := by
  have hperforms := performInstruction_performs config .standard i s
  by_cases hcall : JumpTable.standard.handler i.opcode = .call ∨
      JumpTable.standard.handler i.opcode = .callPointer
  · obtain ⟨hterminator, hret⟩ := isTerminator_of_call hcall
    obtain ⟨hresting, hpositions⟩ := performs_resting_of_call hs hframes hi
      (hi.next hterminator hret) (hinside hret) hcall hperforms
    exact ⟨hresting, fun hok _ => hpositions hok⟩
  · obtain ⟨hcall, hpointer⟩ := not_or.1 hcall
    exact performs_resting_of_not_call hs hframes hzero hi hcall hpointer hperforms

/-- Executing an instruction does not change how opcodes are bound. -/
lemma execute_table (m : Machine) (i : Instruction) : (m.execute i).2.table = m.table := by
  unfold execute
  simp only
  split
  · rfl
  · split <;> rfl

/-- Executing an instruction leaves the state guided, also if the budget or the watchdog does not
permit it. -/
lemma execute_resting {m : Machine} (htable : m.table = .standard) (hs : m.state.Resting L script)
    (hframes : m.state.frames = f :: rest) (hzero : L 0) (hi : i.LeadsInto L)
    (hinside : i.opcode ≠ .ret → i.nextOffset ≤ script.length) :
    (m.execute i).2.state.Resting L script := by
  rcases execute_state m i with ⟨status, hstate⟩ | hstate
  · rw [hstate]
    exact { hs with }
  · rw [hstate, htable]
    exact (performInstruction_resting m.config hs hframes hzero hi hinside).1

/-! ## Runs -/

/-- The machine is reached from `m₀` by steps that execute instructions at such offsets only,
whether they succeed or fail. -/
inductive Reaches (offsets : Nat → Prop) (m₀ : Machine) : Machine → Prop
  /-- No step has been made. -/
  | start : Reaches offsets m₀ m₀
  /-- One more step has been made. -/
  | step {m : Machine} (hreaches : Reaches offsets m₀ m)
    (hoffset : ∀ i, m.next = .ok (some i) → offsets i.offset) : Reaches offsets m₀ m.step.2

variable {instructions : List Instruction} {blocks : List BasicBlock} {entries : List Nat}
  {m m₀ : Machine}

/-- An instruction of the linear decode stands at the offset, or the script ends there. -/
def Aligned (script : Script) (instructions : List Instruction) (offset : Nat) : Prop :=
  offset ∈ instructions.map Instruction.offset ∨ offset = script.length

/-- The instruction that a machine comes to at such an offset is one of the linear decode or the
return at the end of the script. -/
lemma next_of_aligned (hdecode : script.instructions = .ok instructions)
    (hs : m.state.Guided L script) (hframes : m.state.frames = f :: rest)
    (hnext : m.next = .ok (some i)) (haligned : Aligned script instructions i.offset) :
    i ∈ instructions ∨ i.opcode = .ret := by
  rcases next_cases hframes hnext with hdecoded | rfl
  · have hf : f.Guided L := hs.frame f (by simp [hframes])
    rw [hf.world, hs.script] at hdecoded
    obtain ⟨hoffset, hinside⟩ := Script.instructionAt_some hdecoded
    rcases haligned with hmem | hend
    · obtain ⟨j, hj, hsame⟩ := List.mem_map.1 hmem
      have hdecoded' := Script.instructionAt_of_mem hdecode hj
      rw [hsame, hoffset, hdecoded] at hdecoded'
      cases hdecoded'
      exact .inl hj
    · omega
  · exact .inr rfl

/-- Executing an instruction of the linear decode sends control to where blocks start only. -/
lemma leadsInto_of_aligned (hdecode : script.instructions = .ok instructions)
    (hblocks : script.basicBlocks entries = .ok blocks)
    (hi : i ∈ instructions ∨ i.opcode = .ret) :
    i.LeadsInto (BlockStart instructions blocks) ∧
      (i.opcode ≠ .ret → i.nextOffset ≤ script.length) := by
  rcases hi with hi | hret
  · exact ⟨(Script.basicBlocks_leadsInto hdecode hblocks).2 i hi, fun _ =>
      Script.nextOffset_le_length (Script.instructionAt_of_mem hdecode hi)⟩
  · exact ⟨.of_ret hret, fun hne => absurd hret hne⟩

/-- A machine that has just loaded a script is guided. -/
lemma loaded_resting (script : Script) (config : Config) (watchdog : Watchdog)
    (supply offset : Nat) :
    (loaded script config watchdog supply offset).state.Resting L script where
  script := rfl
  world i := by
    cases i with
    | zero => exact .ofScript script
    | succ i => exact .ofScript ⟨[]⟩
  exception := nofun
  frame := by
    rintro f hf
    cases List.mem_singleton.1 hf
    exact ⟨rfl, .untouched _, .untouched _, nofun⟩
  caller := nofun
  jumping := rfl

/-- In a run that executes instructions of the linear decode, the machine is always guided by the
offsets at which blocks start. -/
theorem Reaches.resting (hdecode : script.instructions = .ok instructions)
    (hblocks : script.basicBlocks entries = .ok blocks) (htable : m₀.table = .standard)
    (hs : m₀.state.Resting (BlockStart instructions blocks) script)
    (h : Reaches (Aligned script instructions) m₀ m) :
    m.table = .standard ∧ m.state.Resting (BlockStart instructions blocks) script := by
  induction h with
  | start => exact ⟨htable, hs⟩
  | @step m _ hoffset ih =>
    obtain ⟨htable, hs⟩ := ih
    unfold Machine.step
    cases hnext : m.next with
    | error e => exact ⟨htable, hs⟩
    | ok next =>
      cases next with
      | none => exact ⟨htable, { hs with }⟩
      | some i =>
        obtain ⟨f, rest, hframes⟩ := exists_frame_of_next hnext
        obtain ⟨hi, hinside⟩ := leadsInto_of_aligned hdecode hblocks
          (next_of_aligned hdecode hs.toGuided hframes hnext (hoffset i hnext))
        have hzero := (Script.basicBlocks_leadsInto hdecode hblocks).1
        exact ⟨(execute_table m i).trans htable,
          execute_resting htable hs hframes hzero hi hinside⟩

/-- Control is transferred to the start of a block only.  A machine that has loaded a script once
and executes instructions of its linear decode stands at the start of a block, if at an instruction
at all, after each one that succeeds.  The exception is an instruction that is no terminator, which
brings its own frame behind itself.  The script may be entered anywhere, also at an offset that is
not among the entries of the blocks. -/
theorem step_enters_blockStart {config : Config} {watchdog : Watchdog} {supply entry : Nat}
    {m' : Machine} (hdecode : script.instructions = .ok instructions)
    (hblocks : script.basicBlocks entries = .ok blocks)
    (hload : (create config watchdog supply).loadScript script entry = (.ok (), m₀))
    (hreaches : Reaches (Aligned script instructions) m₀ m) (hnext : m.next = .ok (some i))
    (haligned : Aligned script instructions i.offset) (hstep : m.step = (.ok (), m'))
    (hcurrent : m'.state.frames = f :: rest)
    (hposition : f.position ∈ instructions.map Instruction.offset) :
    (∃ b ∈ blocks, b.instructions ≠ [] ∧ b.start = f.position) ∨
      (i.opcode.isTerminator = false ∧ f.position = i.nextOffset ∧
        ∃ f₀, m.state.frames = f₀ :: rest ∧
          f.skeleton = ({ f₀ with position := i.nextOffset } : Frame).skeleton) := by
  obtain ⟨rfl, -, -⟩ := loadScript_ok hload
  obtain ⟨htable, hs⟩ := hreaches.resting hdecode hblocks rfl
    (loaded_resting script config watchdog supply entry)
  obtain ⟨f₀, rest₀, hframes⟩ := exists_frame_of_next hnext
  have hexecute : m.execute i = (.ok (), m') := by
    unfold step at hstep
    rwa [hnext] at hstep
  have hperform := (execute_ok_state hexecute).1
  rw [htable] at hperform
  cases hterminator : i.opcode.isTerminator with
  | true =>
    obtain ⟨hi, hinside⟩ := leadsInto_of_aligned hdecode hblocks
      (next_of_aligned hdecode hs.toGuided hframes hnext haligned)
    have hzero := (Script.basicBlocks_leadsInto hdecode hblocks).1
    have hpositions := (performInstruction_resting m.config hs hframes hzero hi hinside).2
    rw [hperform] at hpositions
    exact .inl (hpositions rfl hterminator f (by simp [hcurrent]) hposition)
  | false =>
    obtain ⟨s₁, f₁, -, -, -, hskeleton, hstate⟩ :=
      performInstruction_plain hterminator hframes hs.jumping hperform
    rw [hstate] at hcurrent
    obtain ⟨rfl, rfl⟩ := List.cons.inj hcurrent
    exact .inr ⟨rfl, rfl, f₀, hframes, Frame.skeleton_move hskeleton i.nextOffset⟩

/-- A script that calls a routine through a pointer which it has pushed. -/
def pointingScript : Script := ⟨[0x0A, 0x07, 0x00, 0x00, 0x00, 0x36, 0x21, 0x40]⟩

/-- The blocks of the script: the call ends one, and the routine at its end is another. -/
def pointingBlocks : List BasicBlock :=
  [⟨[⟨0, .pushA, [7, 0, 0, 0]⟩, ⟨5, .callA, []⟩], rfl⟩, ⟨[⟨6, .nop, []⟩], rfl⟩,
    ⟨[⟨7, .ret, []⟩], rfl⟩]

/-- The machine that executes the script, after some steps. -/
def pointingMachine : Nat → Machine
  | 0 => loaded pointingScript {} .lazy 0 0
  | count + 1 => (pointingMachine count).step.2

/-- A frame of the script in which nothing has happened, at an offset. -/
def pointingFrame (position : Nat) : Frame :=
  { world := 0, position, returnCount := -1, locals := .untouched .local,
    arguments := .untouched .argument, tries := [] }

/-- The call through the pointer leads to the start of the routine. -/
theorem step_enters_blockStart_pointingScript :
    pointingScript.instructions = .ok (pointingBlocks.flatMap BasicBlock.instructions) ∧
      pointingScript.basicBlocks [] = .ok pointingBlocks ∧
      (create {} .lazy 0).loadScript pointingScript 0 = (.ok (), pointingMachine 0) ∧
      Reaches (Aligned pointingScript (pointingBlocks.flatMap BasicBlock.instructions))
        (pointingMachine 0) (pointingMachine 1) ∧
      (pointingMachine 1).next = .ok (some ⟨5, .callA, []⟩) ∧
      (pointingMachine 1).step = (.ok (), pointingMachine 2) ∧
      (pointingMachine 2).state.frames = [pointingFrame 7, pointingFrame 6] ∧
      ∃ b ∈ pointingBlocks, b.instructions ≠ [] ∧ b.start = 7 := by
  have hdecode : pointingScript.instructions =
      .ok (pointingBlocks.flatMap BasicBlock.instructions) := by
    have hwalk : pointingScript.walk = (pointingBlocks.flatMap BasicBlock.instructions, none) := by
      decide +kernel
    unfold Script.instructions
    rw [hwalk]
  have hblocks : pointingScript.basicBlocks [] = .ok pointingBlocks := by
    unfold Script.basicBlocks
    rw [hdecode]
    rfl
  have hreaches : Reaches (Aligned pointingScript (pointingBlocks.flatMap BasicBlock.instructions))
      (pointingMachine 0) (pointingMachine 1) := by
    refine .step .start fun i hi => .inl ?_
    have hpush : (pointingMachine 0).next = .ok (some ⟨0, .pushA, [7, 0, 0, 0]⟩) := rfl
    rw [hpush] at hi
    cases hi
    decide
  have hload : (create {} .lazy 0).loadScript pointingScript 0 = (.ok (), pointingMachine 0) := rfl
  have hnext : (pointingMachine 1).next = .ok (some ⟨5, .callA, []⟩) := rfl
  have hstep : (pointingMachine 1).step = (.ok (), pointingMachine 2) := rfl
  have hcurrent : (pointingMachine 2).state.frames = [pointingFrame 7, pointingFrame 6] := rfl
  refine ⟨hdecode, hblocks, hload, hreaches, hnext, hstep, hcurrent, ?_⟩
  rcases step_enters_blockStart hdecode hblocks hload hreaches hnext (.inl (by decide)) hstep
      hcurrent (by decide) with hstart | ⟨hterminator, -⟩
  · exact hstart
  · cases hterminator

end Machine

end SymbolicScript
