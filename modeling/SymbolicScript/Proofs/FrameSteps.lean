import SymbolicScript.Proofs.TrackedRuns
import SymbolicScript.Proofs.TryInstructions

/-!
# What a step does to the invocation stack

Performing an instruction is the work of its handler and, behind it, the advance of the frame that
has executed it.  The two do not always meet the same frame: behind a call that frame lies below the
frame of the routine, and behind a return it is gone.  This file says what both together do to the
frames (`State.Moves`).  Either the current frame works and at most moves behind the instruction; or
frames are taken off the top, and the one below them goes on; or the frame of a routine is put on
top of the caller, which stands behind the call.

In none of the cases do the scripts change, and in the last one the caller can always be advanced,
since a call that has been decoded ends inside the script (`Machine.Performs.moves`).
-/

namespace SymbolicScript

/-- Whether the opcode calls a routine of the same script. -/
def Opcode.entersRoutine : Opcode → Bool
  | .call | .callL | .callA => true
  | _ => false

/-- Only these opcodes are bound to the handlers that put a frame on top of the others. -/
lemma Opcode.entersRoutine_of_calls {op : Opcode}
    (h : (JumpTable.standard.handler op).calls = true) : op.entersRoutine = true := by
  cases op with
  | call | callL | callA => rfl
  | _ => cases h

variable {config : Config} {i : Instruction} {s s' s₁ s₂ : State} {f f' : Frame}
  {rest : List Frame}

/-! ## Places -/

/-- The place of the first element of a list is its last one. -/
lemma getElem?_reverse_cons {α : Type} (x : α) (l : List α) (place : Nat) :
    (x :: l).reverse[place]? = if place = l.length then some x else l.reverse[place]? := by
  rw [List.reverse_cons]
  rcases Nat.lt_trichotomy place l.length with hlt | rfl | hgt
  · rw [List.getElem?_append_left (by simpa using hlt), if_neg (Nat.ne_of_lt hlt)]
  · simp
  · have hbeyond : (l.reverse ++ [x]).length ≤ place := by
      rw [List.length_append, List.length_reverse, List.length_singleton]
      exact hgt
    rw [if_neg (Nat.ne_of_gt hgt), List.getElem?_eq_none hbeyond,
      List.getElem?_eq_none (by simpa using Nat.le_of_lt hgt)]

/-- There is a frame in every place below the depth only. -/
lemma State.lt_depth_of_place {place : Nat} (h : s.frames.reverse[place]? = some f) :
    place < s.depth := by
  obtain ⟨hplace, -⟩ := List.getElem?_eq_some_iff.1 h
  simpa [depth] using hplace

/-- There is one in each of them. -/
lemma State.exists_of_place {place : Nat} (h : place < s.depth) :
    ∃ f, s.frames.reverse[place]? = some f := by
  have hplace : place < s.frames.reverse.length := by simpa [depth] using h
  exact ⟨_, List.getElem?_eq_getElem hplace⟩

/-! ## What an instruction may do -/

/-- What performing an instruction may do to the invocation stack. -/
inductive State.Moves (config : Config) (i : Instruction) (s : State) : State → Prop
  /-- The current frame works, and may have moved behind the instruction. -/
  | works {s' : State} {f f' : Frame} {rest : List Frame}
    (htransfers : (JumpTable.standard.handler i.opcode).transfers = false)
    (hframes : s.frames = f :: rest) (hframes' : s'.frames = f' :: rest)
    (hworld : f'.world = f.world)
    (hposition : f'.position = f.position ∨
      f'.position = i.nextOffset ∧ i.nextOffset ≤ (s.worldAt f.world).script.length)
    (hscript : ∀ index, (s'.worldAt index).script = (s.worldAt index).script) : Moves config i s s'
  /-- Frames are taken off the top, and the one below them goes on. -/
  | remains {s' : State} (htransfers : (JumpTable.standard.handler i.opcode).transfers = true)
    (h : s.UnwindsBy Frame.Remains s') : Moves config i s s'
  /-- A routine is called, and the caller stands behind the call. -/
  | calls {s' : State} {f : Frame} {rest : List Frame} {target : Int}
    (hop : i.opcode.entersRoutine = true) (hframes : s.frames = f :: rest)
    (hcallable : s.Callable config f target)
    (hframes' : s'.frames = f.callee target.toNat :: { f with position := i.nextOffset } :: rest)
    (hnext : i.nextOffset ≤ (s.worldAt f.world).script.length)
    (hscript : ∀ index, (s'.worldAt index).script = (s.worldAt index).script) : Moves config i s s'

namespace State

/-- Where the current frame is replaced by one that remains, inside its script, frames are
unwound. -/
lemma UnwindsBy.of_head (hframes : s.frames = f :: rest) (hframes' : s'.frames = f' :: rest)
    (hremains : f.Remains f')
    (hscript : ∀ index, (s'.worldAt index).script = (s.worldAt index).script)
    (hinside : f.position ≤ (s.worldAt f.world).script.length →
      f'.position ≤ (s.worldAt f.world).script.length) : s.UnwindsBy Frame.Remains s' :=
  IsTrans.trans _ _ _
    (.of_suffix (hframes ▸ List.suffix_refl (f :: rest)) hremains hremains.world hinside)
    (.of_frames hframes' hscript)

/-- Where a routine can be called behind work on stack and heap, it can be called before it. -/
lemma Callable.of_confined {target : Int} (hconfined : s.Confined s₁)
    (h : s₁.Callable config f target) : s.Callable config f target where
  nonneg := h.nonneg
  length := by
    rw [← (hconfined.world f.world).script]
    exact h.length
  max := h.max
  room := by
    unfold depth
    rw [← hconfined.frames]
    exact h.room

end State

namespace Machine

/-- The advance of the frame that has executed an instruction unwinds nothing. -/
lemma unwinds_advance (h : s.UnwindsBy Frame.Remains s₁)
    (hadvance : advance (s.frames.length - 1) i s₁ = .ok () s₂) :
    s.UnwindsBy Frame.Remains s₂ := by
  -- The frame that is to be advanced may be gone, and then another one has become the current.
  by_cases hgone : s₁.frames.length ≤ s.frames.length - 1
  · have hstays : advance (s.frames.length - 1) i s₁ = .ok () s₁ := by
      unfold advance
      rw [if_pos hgone]
    rw [hstays] at hadvance
    cases hadvance
    exact h
  · -- No frame is gone, so that the current one is advanced.
    cases hframes : s₁.frames with
    | nil => simp [hframes] at hgone
    | cons g below =>
      have hle := h.frames.length_le
      rw [hframes, List.length_cons] at hle hgone
      have hbelow : s.frames.length - 1 = below.length := by omega
      rw [hbelow] at hadvance
      have hsplit : s₁.frames = [] ++ g :: below := hframes
      obtain ⟨rfl, hnext⟩ := advance_ok hsplit hadvance
      exact IsTrans.trans _ _ _ h
        (.of_head hframes rfl ⟨rfl, rfl, rfl⟩ (fun _ => rfl) fun _ => hnext)

/-- An instruction that does not transfer control works in the current frame. -/
lemma Performs.works {outcome : Except ExecutionError Unit × State}
    (h : Performs config .standard i s outcome) (hjumping : s.jumping = false)
    (hframes : s.frames = f :: rest)
    (htransfers : (JumpTable.standard.handler i.opcode).transfers = false) :
    s.Moves config i outcome.2 := by
  have hkeeps := Handler.run_sameSkeleton config i htransfers s
  change s.SameSkeleton ((JumpTable.standard.dispatch config i).after s) at hkeeps
  have hstands {s₁ : State} (hsame : s.SameSkeleton s₁) : ∃ f₁, s₁.frames = f₁ :: rest ∧
      f₁.world = f.world ∧ f₁.position = f.position := by
    obtain ⟨f₁, hs₁, hskeleton⟩ := hsame.frames_eq hframes
    have hworld : f₁.skeleton.world = f.skeleton.world := congrArg Frame.world hskeleton
    have hposition : f₁.skeleton.position = f.skeleton.position :=
      congrArg Frame.position hskeleton
    exact ⟨f₁, hs₁, hworld, hposition⟩
  cases h with
  | @fails e s₁ status hdispatch _ =>
    rw [Exec.after_of_error hdispatch] at hkeeps
    obtain ⟨f₁, hs₁, hworld, hposition⟩ := hstands hkeeps
    exact .works htransfers hframes hs₁ hworld (.inl hposition) hkeeps.script
  | @jumps s₁ hdispatch hjumps =>
    -- A handler that transfers no control marks no jump.
    rw [Exec.after_of_ok hdispatch] at hkeeps
    rw [hkeeps.jumping, hjumping] at hjumps
    cases hjumps
  | @advances s₁ s₂ hdispatch _ hadvance =>
    rw [Exec.after_of_ok hdispatch] at hkeeps
    obtain ⟨f₁, hs₁, hworld, -⟩ := hstands hkeeps
    have hlength : s.frames.length - 1 = rest.length := by simp [hframes]
    rw [hlength] at hadvance
    obtain ⟨rfl, hnext⟩ := @advance_ok _ { s₁ with jumping := false } _ _ [] _ hs₁ hadvance
    have hinside : i.nextOffset ≤ (s.worldAt f.world).script.length := by
      rw [← hworld, ← hkeeps.script]
      exact hnext
    exact .works htransfers hframes rfl hworld (.inr ⟨rfl, hinside⟩) hkeeps.script
  | @leaves e s₁ s₂ hdispatch _ hadvance =>
    rw [Exec.after_of_ok hdispatch] at hkeeps
    obtain ⟨f₁, hs₁, hworld, hposition⟩ := hstands hkeeps
    obtain rfl := advance_error hadvance
    exact .works htransfers hframes hs₁ hworld (.inl hposition) hkeeps.script

/-- An instruction whose handler fails leaves behind what the handler has, but for the status and
the mark of a jump. -/
lemma Performs.of_dispatch_error {table : JumpTable} {outcome : Except ExecutionError Unit × State}
    {e : ExecutionError} (h : Performs config table i s outcome)
    (hdispatch : table.dispatch config i s = .error e s₁) :
    outcome.1 = .error e ∧ ∃ status, outcome.2 = { s₁ with jumping := false, status } := by
  cases h with
  | fails hfails =>
    rw [hdispatch] at hfails
    cases hfails
    exact ⟨rfl, _, rfl⟩
  | jumps hdispatched | advances hdispatched | leaves hdispatched =>
    rw [hdispatch] at hdispatched
    cases hdispatched

/-- Behind the handler of an instruction that does not transfer control and ends inside the script
nothing can fail, and at most the current frame is moved. -/
lemma Performs.of_dispatch_ok {outcome : Except ExecutionError Unit × State} {f₁ : Frame}
    (h : Performs config .standard i s outcome)
    (htransfers : (JumpTable.standard.handler i.opcode).transfers = false)
    (hframes : s.frames = f :: rest) (hinside : i.nextOffset ≤ (s.worldAt f.world).script.length)
    (hdispatch : JumpTable.standard.dispatch config i s = .ok () s₁)
    (hs₁ : s₁.frames = f₁ :: rest) :
    outcome.1 = .ok () ∧ outcome.2.worlds = s₁.worlds ∧
      ∃ position, outcome.2.frames = { f₁ with position } :: rest := by
  cases h with
  | fails hfails =>
    rw [hdispatch] at hfails
    cases hfails
  | jumps hdispatched =>
    rw [hdispatch] at hdispatched
    cases hdispatched
    exact ⟨rfl, rfl, f₁.position, hs₁⟩
  | advances hdispatched _ hadvance =>
    rw [hdispatch] at hdispatched
    cases hdispatched
    have hlength : s.frames.length - 1 = rest.length := by simp [hframes]
    rw [hlength] at hadvance
    obtain ⟨rfl, -⟩ := @advance_ok _ { s₁ with jumping := false } _ _ [] _ hs₁ hadvance
    exact ⟨rfl, rfl, i.nextOffset, rfl⟩
  | leaves hdispatched _ hadvance =>
    rw [hdispatch] at hdispatched
    cases hdispatched
    exact absurd hadvance (advance_ne_error htransfers hframes hinside hdispatch)

/-- The caller is advanced below the frame of the routine. -/
lemma Performs.called {outcome : Except ExecutionError Unit × State} {target : Int}
    (h : Performs config .standard i s outcome) (hjumping : s.jumping = false)
    (hdispatch : JumpTable.standard.dispatch config i s =
      .ok () { s₁ with frames := f.callee target.toNat :: f :: rest })
    (hcalls : (JumpTable.standard.handler i.opcode).calls = true) (hconfined : s.Confined s₁)
    (hframes : s.frames = f :: rest) (hcallable : s₁.Callable config f target)
    (hnext : i.nextOffset ≤ (s.worldAt f.world).script.length) : s.Moves config i outcome.2 := by
  have hscript (index : Nat) : (s₁.worldAt index).script = (s.worldAt index).script :=
    (hconfined.world index).script
  have hstays : s₁.jumping = false := hconfined.jumping.trans hjumping
  have hlength : s.frames.length - 1 = rest.length := by simp [hframes]
  have habove : f.callee target.toNat :: f :: rest = [f.callee target.toNat] ++ f :: rest := rfl
  cases h with
  | fails hfails _ =>
    rw [hdispatch] at hfails
    cases hfails
  | jumps hdispatched hjumps =>
    rw [hdispatch] at hdispatched
    cases hdispatched
    exact absurd hjumps (by simp [hstays])
  | @advances s₁' s₂ hdispatched _ hadvance =>
    rw [hdispatch] at hdispatched
    cases hdispatched
    rw [hlength] at hadvance
    obtain ⟨rfl, -⟩ := advance_ok
      (s := { s₁ with frames := f.callee target.toNat :: f :: rest, jumping := false }) habove
      hadvance
    exact .calls (Opcode.entersRoutine_of_calls hcalls) hframes
      (.of_confined hconfined hcallable) rfl hnext hscript
  | @leaves e s₁' s₂ hdispatched _ hadvance =>
    rw [hdispatch] at hdispatched
    cases hdispatched
    rw [hlength] at hadvance
    -- The advance could only fail if the call did not end inside the script.
    have houtside : (s₁.worldAt f.world).script.length < i.nextOffset :=
      length_lt_of_advance_error
        (s := { s₁ with frames := f.callee target.toNat :: f :: rest, jumping := false }) habove
        hadvance
    rw [hscript] at houtside
    omega

/-- Performing an instruction moves the frames in one of these ways. -/
theorem Performs.moves {outcome : Except ExecutionError Unit × State}
    (h : Performs config .standard i s outcome) (hjumping : s.jumping = false)
    (hframes : s.frames = f :: rest)
    (hnext : i.opcode.entersRoutine = true → i.nextOffset ≤ (s.worldAt f.world).script.length) :
    s.Moves config i outcome.2 := by
  cases htransfers : (JumpTable.standard.handler i.opcode).transfers with
  | false => exact h.works hjumping hframes htransfers
  | true =>
    have htransferred := Handler.run_transferred config i s htransfers
    change s.Transferred config _ (JumpTable.standard.dispatch config i s) at htransferred
    cases hdispatch : JumpTable.standard.dispatch config i s with
    | error e s₁ =>
      rw [hdispatch] at htransferred
      have hunwinds : s.UnwindsBy Frame.Remains s₁ :=
        htransferred.mono fun _ _ hresumes => hresumes.toRemains
      cases h with
      | fails hfails _ =>
        rw [hdispatch] at hfails
        cases hfails
        exact .remains htransfers (IsTrans.trans _ _ _ hunwinds (.of_frames rfl fun _ => rfl))
      | jumps hdispatched | advances hdispatched | leaves hdispatched =>
        rw [hdispatch] at hdispatched
        cases hdispatched
    | ok u s₁ =>
      rw [hdispatch] at htransferred
      -- What unwinds still does so with the advance behind it.  Only a call has to be told apart.
      have hmoves (hunwinds : s.UnwindsBy Frame.Remains s₁) : s.Moves config i outcome.2 := by
        have hput : s.UnwindsBy Frame.Remains { s₁ with jumping := false } :=
          IsTrans.trans _ _ _ hunwinds (.of_frames rfl fun _ => rfl)
        cases h with
        | fails hdispatched =>
          rw [hdispatch] at hdispatched
          cases hdispatched
        | jumps hdispatched =>
          rw [hdispatch] at hdispatched
          cases hdispatched
          exact .remains htransfers hput
        | advances hdispatched _ hadvance =>
          rw [hdispatch] at hdispatched
          cases hdispatched
          exact .remains htransfers (unwinds_advance hput hadvance)
        | leaves hdispatched _ hadvance =>
          rw [hdispatch] at hdispatched
          cases hdispatched
          obtain rfl := advance_error hadvance
          exact .remains htransfers hput
      cases htransferred with
      | unwinds hunwinds => exact hmoves (hunwinds.mono fun _ _ hresumes => hresumes.toRemains)
      | enters hconfined hs htarget hroom =>
        refine hmoves (.of_head hs rfl ⟨rfl, rfl, rfl⟩ (fun index => ?_) id)
        exact (hconfined.world index).script
      | calls hcalls hconfined hs hcallable =>
        rw [hframes] at hs
        cases hs
        exact h.called hjumping hdispatch hcalls hconfined hframes hcallable
          (hnext (Opcode.entersRoutine_of_calls hcalls))

/-! ## Steps -/

/-- Once an instruction has been performed, no jump is marked. -/
lemma Performs.jumping {table : JumpTable} {outcome : Except ExecutionError Unit × State}
    (h : Performs config table i s outcome) : outcome.2.jumping = false := by
  cases h with
  | fails | jumps => rfl
  | @advances s₁ s₂ _ _ hadvance =>
    unfold advance at hadvance
    split at hadvance
    · cases hadvance
      rfl
    · simp only at hadvance
      split at hadvance
      · cases hadvance
        rfl
      · split at hadvance
        · cases hadvance
          rfl
        · cases hadvance
  | leaves _ _ hadvance =>
    obtain rfl := advance_error hadvance
    rfl

variable {m : Machine}

/-- A step that is permitted performs the next instruction. -/
lemma step_of_permits (hnext : m.next = .ok (some i)) (h : m.Permits) :
    m.step.1 = locate i.offset (performInstruction m.config m.table i m.state).1 ∧
      m.step.2.state = (performInstruction m.config m.table i m.state).2 := by
  unfold step
  rw [hnext]
  simp only [execute_of_permits h]
  exact ⟨trivial, trivial⟩

/-- A step performs the next instruction, or changes the status at most.  In the second case it
fails, unless there is no next instruction. -/
lemma step_cases (m : Machine) :
    (∃ i, m.next = .ok (some i) ∧ m.Permits) ∨
      (m.next = .ok none ∨ ∃ e, m.step.1 = .error e) ∧
        ∃ status, m.step.2.state = { m.state with status } := by
  cases hnext : m.next with
  | error e =>
    unfold step
    rw [hnext]
    exact .inr ⟨.inr ⟨e, rfl⟩, m.state.status, rfl⟩
  | ok next =>
    cases next with
    | none =>
      unfold step
      rw [hnext]
      exact .inr ⟨.inl rfl, .halted, rfl⟩
    | some i =>
      by_cases hpermits : m.Permits
      · exact .inl ⟨i, rfl, hpermits⟩
      · unfold step
        rw [hnext]
        rcases execute_of_not_permits hpermits i with ⟨-, hrefused⟩ | ⟨-, -, hrefused⟩
        · exact .inr ⟨.inr ⟨_, congrArg Prod.fst hrefused⟩, .faulted,
            congrArg (·.2.state) hrefused⟩
        · exact .inr ⟨.inr ⟨_, congrArg Prod.fst hrefused⟩, m.state.status,
            congrArg (·.2.state) hrefused⟩

/-- Between steps no jump is marked. -/
lemma step_jumping (h : m.state.jumping = false) : m.step.2.state.jumping = false := by
  rcases step_cases m with ⟨i, hnext, hpermits⟩ | ⟨-, status, hstate⟩
  · rw [(step_of_permits hnext hpermits).2]
    exact (performInstruction_performs m.config m.table i m.state).jumping
  · rw [hstate]
    exact h

lemma after_jumping (h : m.state.jumping = false) (count : Nat) :
    (m.after count).state.jumping = false := by
  induction count with
  | zero => exact h
  | succ count ih => exact step_jumping ih

/-- A step that is permitted moves the frames as its instruction does. -/
theorem step_moves (htable : m.table = .standard) (hjumping : m.state.jumping = false)
    (hnext : m.next = .ok (some i)) (hpermits : m.Permits) :
    m.state.Moves m.config i m.step.2.state := by
  obtain ⟨f, rest, hframes⟩ := exists_frame_of_next hnext
  have hperforms := performInstruction_performs m.config m.table i m.state
  have hstate := (step_of_permits hnext hpermits).2
  rw [htable] at hperforms hstate
  rw [hstate]
  refine hperforms.moves hjumping hframes fun hop => nextOffset_le_of_next hnext hframes ?_
  rintro hret
  rw [hret] at hop
  cases hop

/-- A step whose handler fails fails as the handler does. -/
lemma step_of_dispatch_error {e : ExecutionError} (hnext : m.next = .ok (some i))
    (hpermits : m.Permits) (hdispatch : m.table.dispatch m.config i m.state = .error e s₁) :
    m.step.1 = .error ⟨i.offset, e⟩ ∧
      ∃ status, m.step.2.state = { s₁ with jumping := false, status } := by
  obtain ⟨hresult, hstate⟩ := step_of_permits hnext hpermits
  obtain ⟨herror, houtcome⟩ :=
    (performInstruction_performs m.config m.table i m.state).of_dispatch_error hdispatch
  rw [hresult, hstate, herror]
  exact ⟨rfl, houtcome⟩

/-- A step whose handler succeeds without a transfer of control succeeds. -/
lemma step_of_dispatch_ok (htable : m.table = .standard) (hnext : m.next = .ok (some i))
    (hpermits : m.Permits) (htransfers : (JumpTable.standard.handler i.opcode).transfers = false)
    (hframes : m.state.frames = f :: rest)
    (hdispatch : JumpTable.standard.dispatch m.config i m.state = .ok () s₁)
    (hs₁ : s₁.frames = f' :: rest) :
    m.step.1 = .ok () ∧ m.step.2.state.worlds = s₁.worlds ∧
      ∃ position, m.step.2.state.frames = { f' with position } :: rest := by
  have hop : i.opcode ≠ .ret := by
    intro hret
    rw [hret] at htransfers
    cases htransfers
  obtain ⟨hresult, hstate⟩ := step_of_permits hnext hpermits
  have hperforms := performInstruction_performs m.config m.table i m.state
  rw [htable] at hperforms hresult hstate
  obtain ⟨hok, hworlds, hmoved⟩ := hperforms.of_dispatch_ok htransfers hframes
    (nextOffset_le_of_next hnext hframes hop) hdispatch hs₁
  rw [hresult, hstate, hok]
  exact ⟨rfl, hworlds, hmoved⟩

end Machine

end SymbolicScript
