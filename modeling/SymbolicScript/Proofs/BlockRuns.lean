import SymbolicScript.Proofs.BlockEntry
import SymbolicScript.Proofs.BlockPartition

/-!
# Executing a basic block is stepping through it

The execution of a block decides in front of every instruction whether to go on, and it does so by
the offset at which the machine stands, by the depth of the invocation stack and by the class of the
opcode, never by how far it has come.  For a block of a script this amounts to making one step for
each instruction of its body (`Machine.runBlock_eq_steps`).

An instruction of the body is no terminator, so a step that succeeds brings the current frame behind
it and leaves the depth alone (`Machine.Stands.step`).  What stands there is the next instruction of
the linear decode (`Script.Decodes`): the next one of the block, or, behind the last one, something
whose offset does not belong to the block any more.
-/

namespace SymbolicScript

/-! ## Decoding on from an offset -/

namespace Script

variable {script : Script} {is front rest : List Instruction} {i : Instruction} {offset : Nat}

/-- From the offset on, the script decodes to these instructions, and ends behind them. -/
def Decodes (script : Script) : Nat → List Instruction → Prop
  | offset, [] => script.instructionAt offset = .ok none
  | offset, i :: rest =>
    script.instructionAt offset = .ok (some i) ∧ script.Decodes i.nextOffset rest

/-- A walk that comes to the end of the script decodes it. -/
lemma decodes_of_walkFrom (hlength : script.length ≤ maxOffset) {bytes : Bytes}
    (hbytes : bytes = script.bytes.drop offset) (hwalk : walkFrom offset bytes = (is, none)) :
    script.Decodes offset is := by
  have hat : script.instructionAt offset = Instruction.decodeFront offset bytes := by
    rw [hbytes]
    rfl
  induction offset, bytes using walkFrom.induct generalizing is with
  | case1 offset =>
    rw [walkFrom] at hwalk
    cases hwalk
    exact hat
  | case2 offset byte rest hdecode => cases (Instruction.decodeFront_eq_none.1 hdecode)
  | case3 offset byte rest i hdecode ih =>
    rw [walkFrom, hdecode] at hwalk
    obtain ⟨rfl, hnone⟩ := Prod.mk.inj hwalk
    have hinside := (instructionAt_size (hat.trans hdecode)).2.1
    have hoffset := (instructionAt_size (hat.trans hdecode)).1
    have hnext : i.nextOffset = offset + i.size := by
      unfold Instruction.nextOffset
      omega
    have hrest : rest.drop (i.size - 1) = script.bytes.drop (offset + i.size) := by
      have hpos : 1 ≤ i.size := Instruction.size_pos
      have hsize : i.size = (i.size - 1) + 1 := by omega
      rw [← List.drop_drop, ← hbytes, hsize, List.drop_succ_cons, Nat.add_sub_cancel]
    refine ⟨hat.trans hdecode, ?_⟩
    rw [hnext]
    exact ih hrest (Prod.ext rfl hnone) (by rw [hrest]; rfl)
  | case4 offset byte rest e hdecode =>
    rw [walkFrom, hdecode] at hwalk
    cases hwalk

/-- The linear decode of a script decodes it from the start. -/
lemma decodes_of_instructions (hlength : script.length ≤ maxOffset)
    (hdecode : script.instructions = .ok is) : script.Decodes 0 is := by
  refine decodes_of_walkFrom hlength List.drop_zero.symm ?_
  unfold instructions walk at hdecode
  split at hdecode
  · next found hfound =>
    cases hdecode
    exact hfound
  · cases hdecode

namespace Decodes

/-- The first instruction stands at the offset. -/
lemma offset_eq (h : script.Decodes offset (i :: rest)) : i.offset = offset :=
  (instructionAt_some h.1).1

/-- What is decoded behind some of the instructions are the others. -/
lemma exists_drop (h : script.Decodes offset (front ++ rest)) :
    ∃ offset', script.Decodes offset' rest := by
  induction front generalizing offset with
  | nil => exact ⟨offset, h⟩
  | cons i front ih => exact ih h.2

end Decodes

end Script

/-! ## The body of a block -/

namespace BasicBlock

/-- The instructions of a block without the terminator at its end. -/
def body (b : BasicBlock) : List Instruction :=
  match b.terminator? with
  | some _ => b.instructions.dropLast
  | none => b.instructions

/-- A block is its body and the terminator behind it, if there is one. -/
lemma instructions_eq (b : BasicBlock) : b.instructions = b.body ++ b.terminator?.toList := by
  unfold body
  cases hterminator : b.terminator? with
  | none => simp
  | some t =>
    obtain ⟨hlast, -⟩ := Option.filter_eq_some_iff.1 hterminator
    exact (List.dropLast_append_getLast? t hlast).symm

/-- The terminator of a block is one. -/
lemma isTerminator_of_terminator? {b : BasicBlock} {t : Instruction} (h : b.terminator? = some t) :
    t.opcode.isTerminator = true :=
  (Option.filter_eq_some_iff.1 h).2

/-- No instruction of the body is a terminator. -/
lemma plain_of_mem_body {b : BasicBlock} {i : Instruction} (hi : i ∈ b.body) :
    i.opcode.isTerminator = false := by
  have hinner : ∀ j ∈ b.instructions.dropLast, j.opcode.isTerminator = false := by
    have hstraight := b.straight
    unfold innerTerminator? at hstraight
    simpa using List.find?_eq_none.1 hstraight
  unfold body at hi
  cases hterminator : b.terminator? with
  | some t =>
    rw [hterminator] at hi
    exact hinner i hi
  | none =>
    rw [hterminator] at hi
    cases hlast : b.instructions.getLast? with
    | none =>
      rw [List.getLast?_eq_none_iff.1 hlast] at hi
      cases hi
    | some last =>
      rw [← List.dropLast_append_getLast? last hlast] at hi
      rcases List.mem_append.1 hi with hfront | hend
      · exact hinner i hfront
      · rw [List.mem_singleton.1 hend]
        unfold terminator? at hterminator
        rw [hlast] at hterminator
        simpa using hterminator

/-- A block that is decoded from an offset of the script starts there. -/
lemma start_of_decodes {b : BasicBlock} {script : Script} {behind : List Instruction} {offset : Nat}
    (hnonempty : b.instructions ≠ []) (h : script.Decodes offset (b.instructions ++ behind)) :
    b.start = offset ∧ offset < script.length := by
  unfold start
  cases hinstructions : b.instructions with
  | nil => exact absurd hinstructions hnonempty
  | cons first others =>
    rw [hinstructions] at h
    exact Script.instructionAt_some h.1

end BasicBlock

namespace Machine

variable {script : Script} {m m' : Machine} {i : Instruction} {offset depth : Nat}

/-! ## Stepping through the script -/

/-- The machine stands at an offset of the script, with as many frames, and no jump is pending. -/
structure Stands (script : Script) (depth offset : Nat) (m : Machine) : Prop where
  /-- Opcodes are bound as usual. -/
  table : m.table = .standard
  /-- No jump is marked. -/
  jumping : m.state.jumping = false
  /-- The current frame executes the script at the offset. -/
  current : ∃ f rest, m.state.frames = f :: rest ∧ f.position = offset ∧
    (m.state.worldAt f.world).script = script ∧ rest.length + 1 = depth

namespace Stands

/-- The depth is the number of frames. -/
lemma depth_eq (h : m.Stands script depth offset) : m.state.depth = depth := by
  obtain ⟨f, rest, hframes, -, -, hdepth⟩ := h.current
  unfold State.depth
  rw [hframes, List.length_cons, hdepth]

/-- The instruction at the offset is executed next. -/
lemma next_eq (h : m.Stands script depth offset)
    (hdecode : script.instructionAt offset = .ok (some i)) : m.next = .ok (some i) := by
  obtain ⟨f, rest, hframes, hposition, hscript, -⟩ := h.current
  refine next_of_decoded hframes ?_
  rw [hscript, hposition, hdecode]

/-- At the end of the script the machine returns. -/
lemma next_at_end (h : m.Stands script depth offset)
    (hdecode : script.instructionAt offset = .ok none) :
    m.next = .ok (some ⟨offset, .ret, []⟩) := by
  obtain ⟨f, rest, hframes, rfl, hscript, -⟩ := h.current
  refine next_of_end hframes ?_
  rw [hscript, hdecode]

/-- Executing an instruction that is no terminator brings the machine behind it, if it succeeds. -/
lemma execute (h : m.Stands script depth offset) (hplain : i.opcode.isTerminator = false)
    (hexecute : m.execute i = (.ok (), m')) : m'.Stands script depth i.nextOffset := by
  obtain ⟨f, rest, hframes, -, hscript, hdepth⟩ := h.current
  obtain ⟨hperform, -, htable, -, -⟩ := execute_ok_state hexecute
  rw [h.table] at hperform
  obtain ⟨s₁, f₁, -, hsame, -, hskeleton, hstate⟩ :=
    performInstruction_plain hplain hframes h.jumping hperform
  have hworld : f₁.skeleton.world = f.skeleton.world := congrArg Frame.world hskeleton
  refine ⟨htable.trans h.table, ?_, { f₁ with position := i.nextOffset }, rest, ?_, rfl, ?_, hdepth⟩
  · rw [hstate]
    exact hsame.jumping.trans h.jumping
  · rw [hstate]
  · rw [hstate]
    exact (hsame.script f₁.world).trans (by rw [show f₁.world = f.world from hworld, hscript])

end Stands

/-! ## Steps -/

/-- An instruction that is executed is counted, whether it succeeds or not. -/
lemma execute_executed (m : Machine) (i : Instruction) :
    (m.execute i).2.executed = m.executed + 1 := by
  unfold execute
  simp only
  split
  · rfl
  · split <;> rfl

/-- A step counts at most one instruction. -/
lemma step_executed (m : Machine) : m.step.2.executed ≤ m.executed + 1 := by
  unfold step
  split
  · exact Nat.le_succ _
  · exact Nat.le_succ _
  · next i _ => exact Nat.le_of_eq (execute_executed m i)

/-- Steps count at most one instruction each. -/
lemma steps_executed (count : Nat) (m : Machine) :
    (m.steps count).2.executed ≤ m.executed + count := by
  induction count generalizing m with
  | zero => exact Nat.le_refl _
  | succ count ih =>
    have hstep := step_executed m
    unfold steps
    split
    · next m' hok =>
      rw [hok] at hstep
      have hrest := ih m'
      simp only at hstep
      omega
    · next e m' hfails =>
      rw [hfails] at hstep
      simp only at hstep ⊢
      omega

/-- How the execution of a block ends, given the terminator behind its body and what the steps
through the body have come to. -/
def afterBody (terminator : Option Instruction) :
    Except LocatedError Unit × Machine → Except LocatedError Outcome × Machine
  | (.ok (), m) => (.ok (terminator.elim .completed .blockEnd), m)
  | (.error e, m) => (failure e, m)

/-- The machine at the end is the one that the steps have left behind. -/
lemma afterBody_machine (terminator : Option Instruction)
    (reached : Except LocatedError Unit × Machine) :
    (afterBody terminator reached).2 = reached.2 := by
  obtain ⟨_ | _, _⟩ := reached
  · rfl
  · rfl

/-- The machine steps through the instructions: after each number of steps that have succeeded, the
next instruction is the one with this number. -/
def Follows (m : Machine) (body : List Instruction) : Prop :=
  ∀ k m', m.steps k = (.ok (), m') → ∀ i, body[k]? = some i → m'.next = .ok (some i)

/-- The first of several steps executes the next instruction. -/
lemma steps_succ_of_next (hnext : m.next = .ok (some i)) (count : Nat) :
    m.steps (count + 1) =
      match m.execute i with
      | (.ok (), m) => m.steps count
      | (.error e, m) => (.error e, m) := by
  change (match m.step with
    | (.ok (), m) => m.steps count
    | (.error e, m) => (.error e, m)) = _
  rw [step_of_next hnext]

/-- There is nothing to say about no instructions. -/
lemma Follows.nil : m.Follows [] := by
  intro k m' _ i hi
  cases hi

/-- The machine steps through the instructions if it stands at the first one and steps through the
others once it has executed that. -/
lemma Follows.cons {body : List Instruction} (hnext : m.next = .ok (some i))
    (hrest : ∀ m', m.execute i = (.ok (), m') → m'.Follows body) : m.Follows (i :: body) := by
  intro k m₁ hok j hj
  cases k with
  | zero =>
    cases hok
    cases hj
    exact hnext
  | succ k =>
    rw [steps_succ_of_next hnext] at hok
    split at hok
    · next m' hexecute => exact hrest m' hexecute k m₁ hok j hj
    · cases hok

/-! ## Inside a block -/

variable {block todo behind : List Instruction} {terminator : Option Instruction}

/-- In front of an instruction of the block that is no terminator, the execution goes on. -/
lemma runInside_of_plain (hnext : m.next = .ok (some i)) (hdepth : m.state.depth = depth)
    (hmember : Bisect.member Instruction.offset i.offset block = true)
    (hplain : i.opcode.isTerminator = false) :
    runInside block depth m =
      match m.execute i with
      | (.error e, m) => (failure e, m)
      | (.ok (), m) => runInside block depth m := by
  rw [runInside, hnext]
  simp only [hdepth, hmember, hplain, ne_eq, not_true_eq_false, Bool.true_eq_false, or_self,
    if_false, Bool.false_eq_true]
  split <;> rename_i h <;> rw [h]

/-- Behind the body the execution of a block is over. -/
lemma runInside_of_end
    (hterminator : ∀ t, terminator = some t → t.opcode.isTerminator = true)
    (hinside : ∀ i ∈ terminator.toList, Bisect.member Instruction.offset i.offset block = true)
    (houtside : ∀ p, script.Decodes p behind → Bisect.member Instruction.offset p block = false)
    (hm : m.Stands script depth offset)
    (hdecodes : script.Decodes offset (terminator.toList ++ behind)) :
    runInside block depth m = (.ok (terminator.elim .completed .blockEnd), m) := by
  have hdepth := hm.depth_eq
  rw [runInside]
  cases terminator with
  | some t =>
    have hmember : Bisect.member Instruction.offset t.offset block = true := hinside t (by simp)
    rw [hm.next_eq hdecodes.1]
    simp [hdepth, hmember, hterminator t rfl]
  | none =>
    -- What stands behind the block is not looked at any further, be it the end of the script.
    obtain ⟨j, hnext, hoffset⟩ : ∃ j, m.next = .ok (some j) ∧ j.offset = offset := by
      cases behind with
      | nil => exact ⟨_, hm.next_at_end hdecodes, rfl⟩
      | cons j behind => exact ⟨j, hm.next_eq hdecodes.1, hdecodes.offset_eq⟩
    have hmember : Bisect.member Instruction.offset j.offset block = false := by
      rw [hoffset]
      exact houtside offset hdecodes
    rw [hnext]
    simp [hdepth, hmember]

/-- From an instruction of the body on, the execution of a block makes a step for each further
instruction of the body. -/
lemma runInside_eq_steps
    (hplain : ∀ i ∈ todo, i.opcode.isTerminator = false)
    (hterminator : ∀ t, terminator = some t → t.opcode.isTerminator = true)
    (hinside : ∀ i ∈ todo ++ terminator.toList,
      Bisect.member Instruction.offset i.offset block = true)
    (houtside : ∀ p, script.Decodes p behind → Bisect.member Instruction.offset p block = false)
    (hm : m.Stands script depth offset)
    (hdecodes : script.Decodes offset (todo ++ terminator.toList ++ behind)) :
    runInside block depth m = afterBody terminator (m.steps todo.length) ∧ m.Follows todo := by
  induction todo generalizing m offset with
  | nil => exact ⟨runInside_of_end hterminator hinside houtside hm hdecodes, .nil⟩
  | cons i todo ih =>
    obtain ⟨hi, htodo⟩ := List.forall_mem_cons.1 hplain
    obtain ⟨hmember, hinside'⟩ := List.forall_mem_cons.1 hinside
    have hnext := hm.next_eq hdecodes.1
    have hrest : ∀ m', m.execute i = (.ok (), m') →
        runInside block depth m' = afterBody terminator (m'.steps todo.length) ∧ m'.Follows todo :=
      fun m' hexecute => ih htodo hinside' (hm.execute hi hexecute) hdecodes.2
    refine ⟨?_, .cons hnext fun m' hexecute => (hrest m' hexecute).2⟩
    rw [runInside_of_plain hnext hm.depth_eq hmember hi, List.length_cons, steps_succ_of_next hnext]
    cases hexecute : m.execute i with
    | mk result m' =>
      cases result with
      | error e => rfl
      | ok u => exact (hrest m' hexecute).1

/-! ## Whole blocks -/

/-- The instruction pointer of the current frame can be set to an offset of its script. -/
lemma perform_seek {f : Frame} {rest : List Frame} (hframes : m.state.frames = f :: rest)
    (hscript : (m.state.worldAt f.world).script = script) (hoffset : offset ≤ script.length)
    (hlength : script.length ≤ maxOffset) :
    m.perform (Exec.seek offset) =
      (.ok (), { m with
        state := { m.state with frames := { f with position := offset } :: rest } }) := by
  have hseek : Exec.seek offset m.state =
      .ok () { m.state with frames := { f with position := offset } :: rest } := by
    rw [Exec.seek_eq hframes, hscript, f.seek_of_le hoffset (Nat.le_trans hoffset hlength)]
  unfold perform
  rw [show (Exec.seek offset).run m.state = Exec.seek offset m.state from rfl, hseek]

/-- The execution of instructions with a terminator in front of the last one fails at the first such
terminator and changes nothing. -/
lemma runBlock_of_inner (m : Machine) (h : ∃ t ∈ block.dropLast, t.opcode.isTerminator = true) :
    ∃ inner ∈ block.dropLast, inner.opcode.isTerminator = true ∧
      m.runBlock block = (.error ⟨inner.offset, .terminatorInsideBlock inner.opcode⟩, m) := by
  cases hinner : innerTerminator? block with
  | none =>
    obtain ⟨t, ht, hterminator⟩ := h
    exact absurd hterminator (List.find?_eq_none.1 hinner t ht)
  | some inner =>
    have hterminator : inner.opcode.isTerminator = true :=
      List.find?_some (p := fun i : Instruction => i.opcode.isTerminator) hinner
    refine ⟨inner, List.mem_of_find?_eq_some hinner, hterminator, ?_⟩
    cases block with
    | nil => cases hinner
    | cons first rest =>
      unfold runBlock
      rw [hinner]

/-- The execution of a block begins at its start. -/
lemma runBlock_eq {m₁ : Machine} {b : BasicBlock} (hnonempty : b.instructions ≠ [])
    (hseek : m.perform (Exec.seek b.start) = (.ok (), m₁)) :
    m.runBlock b.instructions = runInside b.instructions m₁.state.depth m₁ := by
  have hstraight := b.straight
  unfold BasicBlock.start at hseek
  unfold runBlock
  cases hinstructions : b.instructions with
  | nil => exact absurd hinstructions hnonempty
  | cons first others =>
    rw [hinstructions] at hstraight hseek
    simp only [List.head?_cons, Option.elim_some] at hseek
    simp only [hstraight, hseek]

/-- What stands behind a block stands at none of the offsets of the block. -/
lemma member_of_behind {is front instructions behind : List Instruction}
    (hdecode : script.instructions = .ok is) (his : front ++ instructions ++ behind = is)
    (hmember : ∀ p, Bisect.member Instruction.offset p instructions = true ↔
      ∃ i ∈ instructions, i.offset = p) {p : Nat} (hp : script.Decodes p behind) :
    Bisect.member Instruction.offset p instructions = false := by
  rw [Bool.eq_false_iff]
  intro hfound
  obtain ⟨i, hi, hoffset⟩ := (hmember p).1 hfound
  have hi' : i ∈ is := his ▸ List.mem_append_left _ (List.mem_append_right _ hi)
  cases behind with
  | nil =>
    have hend := Script.instructionAt_eq_none.1 hp
    have hinside := (Script.instructionAt_some (Script.instructionAt_of_mem hdecode hi')).2
    omega
  | cons j behind =>
    have hsorted := Script.sorted_of_instructions hdecode
    rw [← his] at hsorted
    have hlt := (List.pairwise_append.1 hsorted).2.2 i (List.mem_append_right _ hi) j
      List.mem_cons_self
    have hj := hp.offset_eq
    omega

/-- Executing a basic block of the script that the current frame executes leaves the same machine
behind as setting the instruction pointer to the start of the block and making a step for each
instruction of its body, up to the first one that fails.  The steps execute the instructions of the
body in their order, each at most once.  The outcome is the terminator of the block, or that control
has left it if it has none; after a step that fails it is the failure.  Offsets have to be able to
address the script, since the linear decode of a longer one does not end.

Executing instructions with a terminator in front of the last one, wherever they come from, fails
and changes nothing. -/
theorem runBlock_eq_steps (m : Machine) :
    (∀ {script : Script} {entries : List Nat} {blocks : List BasicBlock} {b : BasicBlock} {f : Frame}
        {rest : List Frame}, script.length ≤ maxOffset → script.basicBlocks entries = .ok blocks →
      b ∈ blocks → m.table = .standard → m.state.frames = f :: rest →
      (m.state.worldAt f.world).script = script → m.state.jumping = false →
      ∃ m₁, m.perform (Exec.seek b.start) = (.ok (), m₁) ∧
        m.runBlock b.instructions = afterBody b.terminator? (m₁.steps b.body.length) ∧
        m₁.Follows b.body ∧ b.body.Nodup ∧
        (m.runBlock b.instructions).2.executed ≤ m.executed + b.body.length) ∧
    ∀ block : List Instruction, (∃ t ∈ block.dropLast, t.opcode.isTerminator = true) →
      ∃ inner ∈ block.dropLast, inner.opcode.isTerminator = true ∧
        m.runBlock block = (.error ⟨inner.offset, .terminatorInsideBlock inner.opcode⟩, m) := by
  refine ⟨?_, fun block => runBlock_of_inner m⟩
  intro script entries blocks b f rest hlength hblocks hb htable hframes hscript hjumping
  obtain ⟨is, hdecode, hpartition⟩ := Script.partition_of_basicBlocks hlength hblocks
  obtain ⟨front, behind, his⟩ := hpartition.infix_of_mem hb
  have hmember := hpartition.contains_iff hdecode hb
  have hdecodes : ∃ p, script.Decodes p (b.instructions ++ behind) := by
    have hwhole := Script.decodes_of_instructions hlength hdecode
    rw [← his, List.append_assoc] at hwhole
    exact hwhole.exists_drop
  obtain ⟨p, hdecodes⟩ := hdecodes
  have hnonempty := hpartition.nonempty b hb
  obtain ⟨rfl, hstart⟩ := BasicBlock.start_of_decodes hnonempty hdecodes
  have hseek := perform_seek hframes hscript (Nat.le_of_lt hstart) hlength
  refine ⟨_, hseek, ?_⟩
  set m₁ : Machine := { m with
    state := { m.state with frames := { f with position := b.start } :: rest } }
  have hstands : m₁.Stands script m₁.state.depth b.start :=
    ⟨htable, hjumping, { f with position := b.start }, rest, rfl, rfl, hscript, rfl⟩
  have hparts := b.instructions_eq
  have houtside : ∀ p, script.Decodes p behind →
      Bisect.member Instruction.offset p b.instructions = false :=
    fun p hp => member_of_behind hdecode his hmember hp
  have hsteps : runInside b.instructions m₁.state.depth m₁ =
      afterBody b.terminator? (m₁.steps b.body.length) ∧ m₁.Follows b.body :=
    runInside_eq_steps (fun i hi => BasicBlock.plain_of_mem_body hi)
      (fun t ht => BasicBlock.isTerminator_of_terminator? ht)
      (fun i hi => (hmember i.offset).2 ⟨i, hparts ▸ hi, rfl⟩) houtside hstands
      (by rwa [← hparts])
  obtain ⟨hrun, hfollows⟩ := hsteps
  rw [← runBlock_eq hnonempty hseek] at hrun
  refine ⟨hrun, hfollows, ?_, ?_⟩
  · have hpart : b.body.Sublist is := by
      have hsublist := (hpartition.infix_of_mem hb).sublist
      rw [hparts] at hsublist
      exact (List.sublist_append_left _ _).trans hsublist
    refine ((Script.sorted_of_instructions hdecode).sublist hpart).imp fun hlt hsame => ?_
    rw [hsame] at hlt
    exact Nat.lt_irrefl _ hlt
  · rw [hrun, afterBody_machine]
    exact steps_executed _ m₁

/-- The first block of the script with a pointer is a push in front of the call: one step leads to
the call.  Together with the instruction behind it, the call is no block. -/
theorem runBlock_eq_steps_pointingScript :
    pointingScript.length ≤ maxOffset ∧ pointingScript.basicBlocks [] = .ok pointingBlocks ∧
      (∃ m₁, (pointingMachine 0).perform (Exec.seek 0) = (.ok (), m₁) ∧
        (pointingMachine 0).runBlock [⟨0, .pushA, [7, 0, 0, 0]⟩, ⟨5, .callA, []⟩] =
          afterBody (some ⟨5, .callA, []⟩) (m₁.steps 1) ∧
        m₁.Follows [⟨0, .pushA, [7, 0, 0, 0]⟩]) ∧
      ∃ inner ∈ [(⟨5, .callA, []⟩ : Instruction)], inner.opcode.isTerminator = true ∧
        (pointingMachine 0).runBlock [⟨5, .callA, []⟩, ⟨6, .nop, []⟩] =
          (.error ⟨inner.offset, .terminatorInsideBlock inner.opcode⟩, pointingMachine 0) := by
  have hlength : pointingScript.length ≤ maxOffset := by decide
  have hblocks : pointingScript.basicBlocks [] = .ok pointingBlocks := by
    have hwalk : pointingScript.walk = (pointingBlocks.flatMap BasicBlock.instructions, none) := by
      decide +kernel
    unfold Script.basicBlocks Script.instructions
    rw [hwalk]
    rfl
  obtain ⟨hsteps, hinner⟩ := runBlock_eq_steps (pointingMachine 0)
  obtain ⟨m₁, hseek, hrun, hfollows, -⟩ :=
    hsteps hlength hblocks List.mem_cons_self rfl rfl rfl rfl
  exact ⟨hlength, hblocks, ⟨m₁, hseek, hrun, hfollows⟩,
    hinner [⟨5, .callA, []⟩, ⟨6, .nop, []⟩] ⟨_, List.mem_cons_self, rfl⟩⟩

end Machine

end SymbolicScript
