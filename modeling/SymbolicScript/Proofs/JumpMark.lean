import SymbolicScript.Proofs.FrameSteps
import SymbolicScript.Proofs.Oblivious

/-!
# A mark that outlives its jump

A handler that sets the instruction pointer marks a jump, so that the pointer is not advanced behind
the instruction once more.  A jump that is made between two instructions leaves the same mark, and
there it means something else: the next instruction that is executed takes it for its own.  If that
instruction leaves the pointer where it is, it is executed twice.

No handler looks at the mark (`Handler.run_oblivious`).  So two machines that differ in it only do
the same up to the first instruction that is executed (`Machine.after_marked`), and from there on
they are equal or have gone different ways, depending on whether the one without the mark has
advanced its pointer (`Machine.jumpTo_continues_iff`).
-/

namespace SymbolicScript

/-! ## States -/

/-- To mark a jump and to leave all scripts as they are is a disguise. -/
lemma State.disguise_id (s : State) : s.disguise id true = { s with jumping := true } := by
  have hworlds : s.worlds.map (World.rescript id) = s.worlds := Array.map_id' _
  unfold disguise
  rw [hworlds, Bool.or_true]

namespace Machine

variable {config : Config} {table : JumpTable} {i : Instruction} {s s₁ : State}

/-- A handler does the same in a state in which a jump is marked. -/
lemma dispatch_marked (config : Config) (table : JumpTable) (i : Instruction) (s : State) :
    table.dispatch config i { s with jumping := true } =
      Exec.disguise id true (table.dispatch config i s) := by
  have hoblivious : Exec.Oblivious id true ((table.handler i.opcode).run config i) :=
    Handler.run_oblivious (fun _ => rfl) _ config i
  have hsame := hoblivious s
  rwa [State.disguise_id] at hsame

/-- If it fails, the mark is gone. -/
lemma performInstruction_marked_of_error {e : ExecutionError}
    (hdispatch : table.dispatch config i s = .error e s₁) :
    performInstruction config table i { s with jumping := true } =
      performInstruction config table i s := by
  have hmarked := dispatch_marked config table i s
  rw [hdispatch] at hmarked
  simp only [Exec.disguise, State.disguise_id] at hmarked
  rw [performInstruction_of_fails hmarked, performInstruction_of_fails hdispatch]

/-- If it succeeds, the instruction counts as one that has set the instruction pointer. -/
lemma performInstruction_marked_of_ok (hdispatch : table.dispatch config i s = .ok () s₁) :
    performInstruction config table i { s with jumping := true } =
      (.ok (), { s₁ with jumping := false }) := by
  have hmarked := dispatch_marked config table i s
  rw [hdispatch] at hmarked
  simp only [Exec.disguise, State.disguise_id] at hmarked
  have hjumps := performInstruction_of_jumps hmarked rfl
  exact hjumps

/-- Advancing changes frames only. -/
lemma advance_eq_of_frames {below : Nat} {s' : State} (h : advance below i s = .ok () s')
    (hframes : s'.frames = s.frames) : s' = s := by
  unfold advance at h
  split at h
  · cases h
    rfl
  · simp only at h
    split at h
    · cases h
      rfl
    · split at h
      · cases h
        exact congrArg (fun frames => { s with frames }) hframes
      · cases h

/-! ## Steps -/

variable {m : Machine}

/-- The machine with a jump marked. -/
def marked (m : Machine) : Machine :=
  { m with state := { m.state with jumping := true } }

/-- A step executes the next instruction. -/
def Executes (m : Machine) : Prop :=
  m.Permits ∧ ∃ i, m.next = .ok (some i)

/-- A step executes the next instruction, whose handler succeeds and leaves it to the machine to
advance the instruction pointer; and that moves a frame or fails. -/
def Advances (m : Machine) : Prop :=
  m.Permits ∧ ∃ i s, m.next = .ok (some i) ∧ m.table.dispatch m.config i m.state = .ok () s ∧
    s.jumping = false ∧ advance (m.state.frames.length - 1) i s ≠ .ok () s

/-- An execution that is not permitted does not look at the mark, and leaves it. -/
lemma execute_marked_of_not_permits (h : ¬m.Permits) (i : Instruction) :
    m.marked.execute i = ((m.execute i).1, (m.execute i).2.marked) := by
  unfold execute marked
  simp only
  split
  · rfl
  · next hlimit =>
    split
    · rfl
    · next hgoes =>
      have hpermits : m.Permits := ⟨by omega, Bool.eq_false_iff.2 hgoes⟩
      exact absurd hpermits h

/-- A step that executes nothing does not look at the mark, and leaves it. -/
lemma step_marked_of_not_executes (h : ¬m.Executes) :
    m.marked.step = (m.step.1, m.step.2.marked) := by
  have hmarked : m.marked.next = m.next := rfl
  cases hnext : m.next with
  | error e =>
    unfold step
    rw [hmarked, hnext]
  | ok next =>
    cases next with
    | none =>
      unfold step
      rw [hmarked, hnext]
      rfl
    | some i =>
      rw [step_of_next (hmarked.trans hnext), step_of_next hnext]
      exact execute_marked_of_not_permits (fun hpermits => h ⟨hpermits, i, hnext⟩) i

/-- An execution that is permitted differs by what performing the instruction does. -/
lemma step_marked_of_permits (hpermits : m.Permits) (hnext : m.next = .ok (some i)) :
    m.marked.step =
      (locate i.offset
          (performInstruction m.config m.table i { m.state with jumping := true }).1,
        { m with
          executed := m.executed + 1
          watchdog := (m.watchdog.poll (m.executed + 1)).2
          state :=
            (performInstruction m.config m.table i { m.state with jumping := true }).2 }) := by
  have hmarked : m.marked.next = .ok (some i) := hnext
  have hgoes : m.marked.Permits := hpermits
  rw [step_of_next hmarked, execute_of_permits hgoes]
  rfl

/-- A step that executes an instruction takes the mark, and if it does not have to advance the
instruction pointer, the mark makes no difference. -/
lemma step_marked_of_not_advances (hexecutes : m.Executes) (h : ¬m.Advances) :
    m.marked.step = m.step := by
  obtain ⟨hpermits, i, hnext⟩ := hexecutes
  rw [step_marked_of_permits hpermits hnext, step_of_next hnext, execute_of_permits hpermits]
  cases hdispatch : m.table.dispatch m.config i m.state with
  | error e s => rw [performInstruction_marked_of_error hdispatch]
  | ok u s =>
    rw [performInstruction_marked_of_ok hdispatch]
    cases hjumping : s.jumping with
    | true => rw [performInstruction_of_jumps hdispatch hjumping]
    | false =>
      have hput : ({ s with jumping := false } : State) = s := by rw [← hjumping]
      have hadvance : advance (m.state.frames.length - 1) i s = .ok () s := by
        by_contra hmoves
        exact h ⟨hpermits, i, s, hnext, hdispatch, hjumping, hmoves⟩
      have hstays :
          advance (m.state.frames.length - 1) i { s with jumping := false } = .ok () s := by
        rwa [hput]
      rw [performInstruction_of_advances hdispatch hjumping hstays, hput]

/-- Where a handler succeeds, the step that takes the mark succeeds with what the handler has
left. -/
lemma step_marked_of_dispatch_ok (hpermits : m.Permits) (hnext : m.next = .ok (some i))
    (hdispatch : m.table.dispatch m.config i m.state = .ok () s) :
    m.marked.step.1 = .ok () ∧ m.marked.step.2.state = { s with jumping := false } := by
  rw [step_marked_of_permits hpermits hnext, performInstruction_marked_of_ok hdispatch]
  exact ⟨rfl, rfl⟩

/-- Where the machine advances, the step that takes the mark has another result or leaves other
frames behind. -/
lemma frames_step_marked_ne (h : m.Advances) (hresult : m.marked.step.1 = m.step.1) :
    m.marked.step.2.state.frames ≠ m.step.2.state.frames := by
  obtain ⟨hpermits, i, s, hnext, hdispatch, hjumping, hmoves⟩ := h
  obtain ⟨hok, hstate⟩ := step_marked_of_dispatch_ok hpermits hnext hdispatch
  have hput : ({ s with jumping := false } : State) = s := by rw [← hjumping]
  rw [hok, step_of_next hnext, execute_of_permits hpermits] at hresult
  rw [hstate, hput, step_of_next hnext, execute_of_permits hpermits]
  cases hadvance : advance (m.state.frames.length - 1) i s with
  | ok u s' =>
    intro hframes
    rw [performInstruction_of_advances hdispatch hjumping (by rw [hput, hadvance])] at hframes
    rw [advance_eq_of_frames hadvance hframes.symm] at hadvance
    exact hmoves hadvance
  | error e s' =>
    rw [performInstruction_of_leaves hdispatch hjumping (by rw [hput, hadvance])] at hresult
    cases hresult

/-! ## Runs -/

/-- Up to the first instruction that is executed, the mark makes no difference and stays. -/
lemma after_marked {count : Nat} (h : ∀ earlier < count, ¬(m.after earlier).Executes) :
    m.marked.after count = (m.after count).marked := by
  induction count with
  | zero => rfl
  | succ count ih =>
    have hcount := ih fun earlier hlt => h earlier (Nat.lt_succ_of_lt hlt)
    change (m.marked.after count).step.2 = (m.after count).step.2.marked
    rw [hcount, step_marked_of_not_executes (h count (Nat.lt_succ_self count))]

/-- The machines give the same results in all steps to come, and have the same frames with their
positions, variables and try blocks, and the same worlds with their stacks, static fields, heaps and
records. -/
def Continues (m n : Machine) : Prop :=
  ∀ count, (m.after count).step.1 = (n.after count).step.1 ∧
    (m.after count).state.frames = (n.after count).state.frames ∧
    (m.after count).state.worlds = (n.after count).state.worlds

/-- Some steps execute nothing, and the one behind them advances the instruction pointer. -/
def FirstAdvances (m : Machine) (count : Nat) : Prop :=
  (∀ earlier < count, ¬(m.after earlier).Executes) ∧ (m.after count).Advances

/-- If the first instruction that is executed is not advanced, then at all times the machines are
equal, or nothing has been executed yet and they differ in the mark. -/
lemma after_marked_cases (h : ∀ count, ¬m.FirstAdvances count) (count : Nat) :
    m.marked.after count = m.after count ∨
      (∀ earlier < count, ¬(m.after earlier).Executes) ∧
        m.marked.after count = (m.after count).marked := by
  induction count with
  | zero => exact .inr ⟨nofun, rfl⟩
  | succ count ih =>
    rcases ih with hequal | ⟨hearlier, hmarked⟩
    · exact .inl (congrArg (·.step.2) hequal)
    · by_cases hexecutes : (m.after count).Executes
      · refine .inl ?_
        change (m.marked.after count).step.2 = (m.after count).step.2
        rw [hmarked, step_marked_of_not_advances hexecutes fun hadvances =>
          h count ⟨hearlier, hadvances⟩]
      · have hall : ∀ earlier < count + 1, ¬(m.after earlier).Executes := by
          intro earlier hlt
          rcases Nat.lt_succ_iff_lt_or_eq.1 hlt with hlt | rfl
          · exact hearlier earlier hlt
          · exact hexecutes
        exact .inr ⟨hall, after_marked hall⟩

/-- A machine continues as it does with a mark exactly if the first instruction that it executes is
not one that is advanced. -/
lemma continues_marked_iff : m.marked.Continues m ↔ ∀ count, ¬m.FirstAdvances count := by
  constructor
  · rintro hcontinues count ⟨hearlier, hadvances⟩
    obtain ⟨hresult, -, -⟩ := hcontinues count
    obtain ⟨-, hframes, -⟩ := hcontinues (count + 1)
    change (m.marked.after count).step.2.state.frames =
      (m.after count).step.2.state.frames at hframes
    rw [after_marked hearlier] at hresult hframes
    exact frames_step_marked_ne hadvances hresult hframes
  · intro h count
    rcases after_marked_cases h count with hequal | ⟨hearlier, hmarked⟩
    · rw [hequal]
      exact ⟨rfl, rfl, rfl⟩
    · refine ⟨?_, by rw [hmarked]; rfl, by rw [hmarked]; rfl⟩
      rw [hmarked]
      by_cases hexecutes : (m.after count).Executes
      · rw [step_marked_of_not_advances hexecutes fun hadvances => h count ⟨hearlier, hadvances⟩]
      · rw [step_marked_of_not_executes hexecutes]

/-! ## Jumps between instructions -/

/-- The machine with a jump marked is the same machine if one is marked already. -/
lemma marked_of_jumping (h : m.state.jumping = true) : m.marked = m := by
  unfold marked
  rw [← h]

/-- Inside the script a jump succeeds where setting the instruction pointer does, and leaves a mark
behind. -/
lemma jumpTo_eq {f : Frame} {rest : List Frame} {target : Int} (hframes : s.frames = f :: rest)
    (htarget : 0 ≤ target ∧ target < (s.worldAt f.world).script.length) :
    Exec.jumpTo target s = (Exec.seek target >>= fun _ => Exec.markJump) s := by
  unfold Exec.jumpTo
  rw [bind_of_ok (Exec.world_eq hframes), if_pos htarget]

/-- So a machine that has jumped is one whose instruction pointer has been set, with a mark. -/
lemma perform_jumpTo {f : Frame} {rest : List Frame} {target : Int}
    (hframes : m.state.frames = f :: rest)
    (htarget : 0 ≤ target ∧ target < (m.state.worldAt f.world).script.length)
    (hmax : target ≤ maxOffset) :
    ∃ placed, m.perform (Exec.seek target) = (.ok (), placed) ∧
      m.perform (Exec.jumpTo target) = (.ok (), placed.marked) ∧
      placed.state.jumping = m.state.jumping := by
  have hmoves : Exec.seek target m.state =
      .ok () { m.state with frames := { f with position := target.toNat } :: rest } := by
    rw [Exec.seek_eq hframes]
    unfold Frame.seek
    rw [if_pos ⟨htarget.1, Int.le_of_lt htarget.2, hmax⟩]
  have hjumps := jumpTo_eq hframes htarget
  rw [bind_of_ok hmoves] at hjumps
  unfold perform EStateM.run
  rw [hmoves, hjumps]
  exact ⟨_, rfl, rfl, rfl⟩

/-- Setting the instruction pointer beyond the offsets that can be written fails, and so does a
jump. -/
lemma perform_jumpTo_of_gt {f : Frame} {rest : List Frame} {target : Int}
    (hframes : m.state.frames = f :: rest)
    (htarget : 0 ≤ target ∧ target < (m.state.worldAt f.world).script.length)
    (hmax : maxOffset < target) :
    m.perform (Exec.jumpTo target) = m.perform (Exec.seek target) := by
  have hfails : Exec.seek target m.state =
      .error (.instructionPointerOutOfBounds target (m.state.worldAt f.world).script.length)
        m.state := by
    rw [Exec.seek_eq hframes]
    unfold Frame.seek
    rw [if_neg fun hinside => absurd hinside.2.2 (Int.not_le.2 hmax)]
  have hjumps := jumpTo_eq hframes htarget
  have hbind : (Exec.seek target >>= fun _ => Exec.markJump) m.state =
      .error (.instructionPointerOutOfBounds target (m.state.worldAt f.world).script.length)
        m.state := by
    simp only [Bind.bind, EStateM.bind, hfails]
  unfold perform EStateM.run
  rw [hjumps, hbind, hfails]

/-- The next instruction depends on the position of the current frame and its script only. -/
lemma next_congr {m' : Machine} {f f' : Frame} {rest rest' : List Frame}
    (hframes : m.state.frames = f :: rest) (hframes' : m'.state.frames = f' :: rest')
    (hposition : f'.position = f.position)
    (hscript : (m'.state.worldAt f'.world).script = (m.state.worldAt f.world).script) :
    m'.next = m.next := by
  unfold next State.current? Frame.current
  rw [hframes, hframes']
  simp only [List.head?_cons, Option.map_some, hposition, hscript]

/-- Where the next instruction transfers no control, the step that takes the mark leaves the machine
in front of the same instruction. -/
lemma step_marked_of_plain (hpermits : m.Permits) (hnext : m.next = .ok (some i))
    (hdispatch : m.table.dispatch m.config i m.state = .ok () s)
    (htransfers : (m.table.handler i.opcode).transfers = false) :
    m.marked.step.1 = .ok () ∧ m.marked.step.2.next = .ok (some i) := by
  obtain ⟨hok, hstate⟩ := step_marked_of_dispatch_ok hpermits hnext hdispatch
  have hsame : m.state.SameSkeleton s := by
    have hkeeps := Handler.run_sameSkeleton m.config i htransfers m.state
    change m.state.SameSkeleton ((m.table.dispatch m.config i).after m.state) at hkeeps
    rwa [Exec.after_of_ok hdispatch] at hkeeps
  obtain ⟨f, rest, hframes⟩ := exists_frame_of_next hnext
  obtain ⟨f₁, hframes₁, hskeleton⟩ := hsame.frames_eq hframes
  have hworld : f₁.skeleton.world = f.skeleton.world := congrArg Frame.world hskeleton
  have hposition : f₁.skeleton.position = f.skeleton.position :=
    congrArg Frame.position hskeleton
  have hframes₂ : m.marked.step.2.state.frames = f₁ :: rest := by rw [hstate, ← hframes₁]
  have hscript : (m.marked.step.2.state.worldAt f₁.world).script =
      (m.state.worldAt f.world).script := by
    rw [hstate, show f₁.world = f.world from hworld]
    exact hsame.script f.world
  exact ⟨hok, (next_congr hframes hframes₂ hposition hscript).trans hnext⟩

/-- A machine that jumps to an offset of its script between two instructions is the machine whose
instruction pointer has been set to it, with a mark, and both fail alike beyond the offsets that can
be written.  They go on in the same way exactly if another mark has been left there before, or the
first instruction that is executed is not one that is advanced.  If it is one that transfers no
control and its handler succeeds, the machine that has jumped stands in front of it once more. -/
theorem jumpTo_continues_iff {f : Frame} {rest : List Frame} {target : Int}
    (hframes : m.state.frames = f :: rest)
    (htarget : 0 ≤ target ∧ target < (m.state.worldAt f.world).script.length) :
    (maxOffset < target → m.perform (Exec.jumpTo target) = m.perform (Exec.seek target)) ∧
    (target ≤ maxOffset → ∃ placed, m.perform (Exec.seek target) = (.ok (), placed) ∧
      m.perform (Exec.jumpTo target) = (.ok (), placed.marked) ∧
      (placed.marked.Continues placed ↔
        m.state.jumping = true ∨ ∀ count, ¬placed.FirstAdvances count) ∧
      ∀ i s, placed.Permits → placed.next = .ok (some i) →
        placed.table.dispatch placed.config i placed.state = .ok () s →
        (placed.table.handler i.opcode).transfers = false →
        placed.marked.step.1 = .ok () ∧ placed.marked.step.2.next = .ok (some i)) := by
  refine ⟨perform_jumpTo_of_gt hframes htarget, fun hmax => ?_⟩
  obtain ⟨placed, hseek, hjump, hjumping⟩ := perform_jumpTo hframes htarget hmax
  have hexact : placed.marked.Continues placed ↔
      m.state.jumping = true ∨ ∀ count, ¬placed.FirstAdvances count := by
    cases hmark : m.state.jumping with
    | true =>
      rw [marked_of_jumping (hjumping.trans hmark)]
      exact ⟨fun _ => .inl rfl, fun _ _ => ⟨rfl, rfl, rfl⟩⟩
    | false => simpa using continues_marked_iff
  exact ⟨placed, hseek, hjump, hexact, fun _ _ => step_marked_of_plain⟩

/-- A machine that has loaded a script that pushes one and two and returns. -/
def pushingMachine : Machine :=
  loaded ⟨[0x11, 0x12, 0x40, 0x40]⟩ {} .lazy 0 0

/-- The machine with its instruction pointer at an offset. -/
def placedMachine (target : Int) : Machine :=
  (pushingMachine.perform (Exec.seek target)).2

/-- A jump to the return goes on as if the instruction pointer had been set, and one to the first
push executes it twice. -/
theorem jumpTo_continues_pushing :
    (∃ f, pushingMachine.state.frames = [f] ∧
      (pushingMachine.state.worldAt f.world).script.length = 4) ∧
    pushingMachine.perform (Exec.jumpTo 2) = (.ok (), (placedMachine 2).marked) ∧
    (placedMachine 2).marked.Continues (placedMachine 2) ∧
    pushingMachine.perform (Exec.jumpTo 0) = (.ok (), (placedMachine 0).marked) ∧
    (placedMachine 0).next = .ok (some ⟨0, .push1, []⟩) ∧
    (placedMachine 0).marked.step.2.next = .ok (some ⟨0, .push1, []⟩) := by
  have hreturn : (0 : Int) ≤ 2 ∧ 2 < ((pushingMachine.state.worldAt 0).script.length : Int) := by
    decide
  have hpush : (0 : Int) ≤ 0 ∧ 0 < ((pushingMachine.state.worldAt 0).script.length : Int) := by
    decide
  obtain ⟨placed, hseek, hjump, hexact, -⟩ :=
    (jumpTo_continues_iff (m := pushingMachine) rfl hreturn).2 (by decide)
  obtain rfl : placedMachine 2 = placed := congrArg Prod.snd hseek
  obtain ⟨first, hseek₀, hjump₀, -, htwice⟩ :=
    (jumpTo_continues_iff (m := pushingMachine) rfl hpush).2 (by decide)
  obtain rfl : placedMachine 0 = first := congrArg Prod.snd hseek₀
  have hcontinues : ∀ count, ¬(placedMachine 2).FirstAdvances count := by
    rintro (_ | count) ⟨hearlier, hadvances⟩
    · obtain ⟨-, i, s, hnext, hdispatch, hjumping, -⟩ := hadvances
      cases hnext
      cases hdispatch
      cases hjumping
    · exact hearlier 0 (Nat.succ_pos count) ⟨by decide, ⟨2, .ret, []⟩, rfl⟩
  exact ⟨⟨_, rfl, rfl⟩, hjump, hexact.2 (.inr hcontinues), hjump₀, rfl,
    (htwice ⟨0, .push1, []⟩ _ (by decide) rfl rfl rfl).2⟩

/-- A jump to the first push does not go on as if the instruction pointer had been set: behind two
steps the one machine has pushed one twice and the other has pushed one and two. -/
theorem jumpTo_repeats_push :
    pushingMachine.state.jumping = false ∧
      (∃ f, pushingMachine.state.frames = [f] ∧
        (0 : Int) < (pushingMachine.state.worldAt f.world).script.length) ∧
      (pushingMachine.perform (Exec.jumpTo 0)).1 = .ok () ∧
      ¬(pushingMachine.perform (Exec.jumpTo 0)).2.Continues (placedMachine 0) ∧
      (((pushingMachine.perform (Exec.jumpTo 0)).2.after 2).state.worldAt 0).stack =
        ⟨[.constant (.integer 1), .constant (.integer 1)], 0⟩ ∧
      (((placedMachine 0).after 2).state.worldAt 0).stack =
        ⟨[.constant (.integer 2), .constant (.integer 1)], 0⟩ := by
  refine ⟨rfl, ⟨_, rfl, by decide⟩, rfl, fun hcontinues => ?_, rfl, rfl⟩
  have hpositions := congrArg (·.map Frame.position) (hcontinues 1).2.1
  change [0] = [1] at hpositions
  cases hpositions

end Machine

end SymbolicScript
