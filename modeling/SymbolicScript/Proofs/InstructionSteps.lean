import SymbolicScript.Analysis.Scan
import SymbolicScript.Proofs.HandlerFootprint
import SymbolicScript.Proofs.Resolved

/-!
# What one instruction does to the invocation stack

`Machine.performInstruction` dispatches an instruction and then advances the frame that executed it.
For the three kinds of instructions that a scan lets pass this file says exactly what becomes of the
invocation stack: an instruction that is no terminator moves the current frame behind itself
(`performInstruction_plain`), a direct call puts the frame of the routine on top
(`performInstruction_call`), and a return inside a script takes the current frame away
(`performInstruction_ret`).  Neither of the last two can be unresolved, so an unresolved instruction
leaves the depth as it is (`performInstruction_unresolved`).
-/

namespace SymbolicScript

/-- The frame of a routine that is called from a frame. -/
def Frame.callee (f : Frame) (offset : Nat) : Frame :=
  { world := f.world, position := offset, returnCount := -1, locals := .untouched .local,
    arguments := .untouched .argument, tries := [] }

namespace Frame

/-- A frame that can be moved stands at the target afterwards. -/
lemma seek_ok {f f' : Frame} {script : Script} {target : Int} (h : f.seek script target = .ok f') :
    f' = { f with position := target.toNat } ∧ 0 ≤ target ∧ target ≤ script.length ∧
      target ≤ maxOffset := by
  unfold seek at h
  split at h
  · next hbounds =>
    cases h
    exact ⟨rfl, hbounds⟩
  · cases h

/-- A frame can be moved to an offset inside its script or at its end. -/
lemma seek_of_le (f : Frame) {script : Script} {target : Nat} (hlength : target ≤ script.length)
    (hmax : target ≤ maxOffset) : f.seek script target = .ok { f with position := target } := by
  unfold seek
  rw [if_pos (by omega), Int.toNat_natCast]

/-- A frame that can be entered stands at its offset, and nothing has happened in it. -/
lemma enter_ok {f : Frame} {script : Script} {world offset : Nat} {returnCount : Int}
    (h : enter script world returnCount offset = .ok f) :
    f = { world, position := offset, returnCount, locals := .untouched .local,
          arguments := .untouched .argument, tries := [] } ∧
      offset ≤ script.length ∧ offset ≤ maxOffset := by
  unfold enter locate at h
  simp only at h
  split at h
  · next hseek =>
    cases h
    obtain ⟨rfl, -, hlength, hmax⟩ := seek_ok hseek
    exact ⟨rfl, by omega, by omega⟩
  · cases h

/-- A frame that is cloned for a call is that of the routine. -/
lemma cloneAt_eq_ok {f callee : Frame} {script : Script} {offset : Nat}
    (h : (f.cloneAt script offset).mapError Located.payload = .ok callee) :
    callee = f.callee offset := by
  cases henter : enter script f.world (-1) offset with
  | error e =>
    simp only [cloneAt, henter, Except.mapError] at h
    cases h
  | ok g =>
    simp only [cloneAt, henter, Except.mapError] at h
    cases h
    exact (enter_ok henter).1

end Frame

/-- A routine at the offset can be called from the frame. -/
structure State.Callable (config : Config) (s : State) (f : Frame) (target : Int) : Prop where
  /-- The offset is one. -/
  nonneg : 0 ≤ target
  /-- It lies inside the script, or at the end of it. -/
  length : target ≤ (s.worldAt f.world).script.length
  /-- It can be represented. -/
  max : target ≤ maxOffset
  /-- There is room for another frame. -/
  room : s.depth < config.maxInvocationDepth

namespace Exec

/-- A frame is put on top of the others if there is room for it. -/
lemma loadFrame_eq (config : Config) (g : Frame) (s : State) :
    loadFrame config g s =
      if s.depth ≥ config.maxInvocationDepth then
        .error (.invocationDepthExceeded config.maxInvocationDepth) s
      else .ok () { s with frames := g :: s.frames } := by
  rw [loadFrame, bind_of_ok (get_eq s)]
  split
  · rfl
  · rfl

/-- A frame is put on top of the others, for which there was room, or nothing changes. -/
lemma loadFrame_cases (config : Config) (g : Frame) (s : State) :
    (s.depth < config.maxInvocationDepth ∧
      loadFrame config g s = .ok () { s with frames := g :: s.frames }) ∨
    ∃ e, loadFrame config g s = .error e s := by
  rw [loadFrame_eq]
  split
  · exact .inr ⟨_, rfl⟩
  · next hroom => exact .inl ⟨Nat.lt_of_not_le hroom, rfl⟩

/-- A call that succeeds puts the frame of the routine on top of the others, and one that fails
changes nothing. -/
lemma call_cases (config : Config) (target : Int) {s : State} {f : Frame} {rest : List Frame}
    (hs : s.frames = f :: rest) :
    (s.Callable config f target ∧
      call config target s = .ok () { s with frames := f.callee target.toNat :: s.frames }) ∨
    ∃ e, call config target s = .error e s := by
  rw [call, bind_of_ok (frame_eq hs), bind_of_ok (world_eq hs)]
  split
  · next hbounds =>
    cases hclone : (f.cloneAt (s.worldAt f.world).script target.toNat).mapError
        Located.payload with
    | error e => exact .inr ⟨e, rfl⟩
    | ok callee =>
      obtain rfl := Frame.cloneAt_eq_ok hclone
      rcases loadFrame_cases config (f.callee target.toNat) s with ⟨hroom, hload⟩ | hload
      · exact .inl ⟨⟨hbounds.1, hbounds.2.1, hbounds.2.2, hroom⟩, hload⟩
      · exact .inr hload
  · exact .inr ⟨_, rfl⟩

/-- A call that succeeds has put the frame of the routine on top of the others. -/
lemma call_ok {config : Config} {target : Int} {s s' : State} {f : Frame} {rest : List Frame}
    (hs : s.frames = f :: rest) (h : call config target s = .ok () s') :
    ∃ offset, s' = { s with frames := f.callee offset :: s.frames } := by
  rcases call_cases config target hs with ⟨-, hload⟩ | ⟨e, hfails⟩
  · rw [hload] at h
    cases h
    exact ⟨target.toNat, rfl⟩
  · rw [hfails] at h
    cases h

/-- Where there is a current frame, it can be taken away. -/
lemma unloadFrame_eq {s : State} {f : Frame} {rest : List Frame} (hs : s.frames = f :: rest) :
    unloadFrame s = .ok f { s with frames := rest } := by
  simp [unloadFrame, hs]

/-- A return to a frame of the same world takes the current frame away. -/
lemma ret_eq {s : State} {f g : Frame} {rest : List Frame} (hs : s.frames = f :: g :: rest)
    (hworld : f.world = g.world) :
    ret s = .ok () { s with frames := g :: rest, jumping := true } := by
  have hshares : (g :: rest).head?.any f.sharesWorld = true := by simp [Frame.sharesWorld, hworld]
  rw [ret, bind_of_ok (unloadFrame_eq hs), bind_of_ok (get_eq _), if_pos hshares]
  rfl

end Exec

namespace Machine

variable {config : Config} {table : JumpTable} {i : Instruction} {s s' : State} {f : Frame}
  {above rest : List Frame}

/-! ## Advancing -/

/-- Advancing moves the frame that has the given number of frames below it, whichever frames lie
above it, unless the frame would leave its script. -/
lemma advance_eq (hs : s.frames = above ++ f :: rest) (i : Instruction) :
    advance rest.length i s =
      match f.seek (s.worldAt f.world).script i.nextOffset with
      | .ok f => .ok () { s with frames := above ++ f :: rest }
      | .error e => .error e s := by
  have hlength : s.frames.length = above.length + (rest.length + 1) := by
    rw [hs, List.length_append, List.length_cons]
  have hplace : s.frames.length - 1 - rest.length = above.length := by omega
  have hframe : s.frames[above.length]? = some f := by
    rw [hs, List.getElem?_append_right (Nat.le_refl _), Nat.sub_self, List.getElem?_cons_zero]
  have hset (g : Frame) : s.frames.set above.length g = above ++ g :: rest := by
    rw [hs, List.set_append_right _ _ (Nat.le_refl _), Nat.sub_self, List.set_cons_zero]
  unfold advance
  rw [if_neg (by omega)]
  cases hseek : f.seek (s.worldAt f.world).script i.nextOffset with
  | ok g => simp only [hplace, hframe, hset, hseek]
  | error e => simp only [hplace, hframe, hseek]

/-- A frame that can be advanced stands behind the instruction afterwards. -/
lemma advance_ok (hs : s.frames = above ++ f :: rest)
    (h : advance rest.length i s = .ok () s') :
    s' = { s with frames := above ++ { f with position := i.nextOffset } :: rest } ∧
      i.nextOffset ≤ (s.worldAt f.world).script.length := by
  rw [advance_eq hs] at h
  split at h
  · next hseek =>
    cases h
    obtain ⟨rfl, -, hbound, -⟩ := Frame.seek_ok hseek
    exact ⟨by rw [Int.toNat_natCast], by omega⟩
  · cases h

/-- A frame that cannot be advanced would leave its script. -/
lemma length_lt_of_advance_error {e : ExecutionError} (hs : s.frames = above ++ f :: rest)
    (h : advance rest.length i s = .error e s') :
    (s.worldAt f.world).script.length < i.nextOffset := by
  have hmax : i.nextOffset ≤ maxOffset := Nat.min_le_right _ _
  rw [advance_eq hs] at h
  split at h
  · cases h
  · next hseek =>
    unfold Frame.seek at hseek
    split at hseek
    · cases hseek
    · omega

/-- Advancing changes no world. -/
lemma advance_worlds {below : Nat} (h : advance below i s = .ok () s') :
    s'.worlds = s.worlds := by
  unfold advance at h
  split at h
  · cases h
    rfl
  · simp only at h
    split at h
    · cases h
      rfl
    · split at h
      · cases h
        rfl
      · cases h

/-- Advancing changes nothing if it fails. -/
lemma advance_error {below : Nat} {e : ExecutionError} (h : advance below i s = .error e s') :
    s' = s := by
  unfold advance at h
  split at h
  · cases h
  · simp only at h
    split at h
    · cases h
    · split at h
      · cases h
      · cases h
        rfl

/-- Advancing fails only for a frame that would leave its script. -/
lemma advance_resolved (below : Nat) (i : Instruction) : Exec.Resolved (advance below i) := by
  intro s e s' h
  unfold advance at h
  split at h
  · cases h
  · simp only at h
    split at h
    · cases h
    · split at h
      · cases h
      · next hseek =>
        cases h
        exact Frame.seek_resolved _ _ _ _ hseek

/-! ## Performing an instruction -/

/-- The ways in which performing an instruction can end. -/
inductive Performs (config : Config) (table : JumpTable) (i : Instruction) (s : State) :
    Except ExecutionError Unit × State → Prop
  /-- The handler fails, which marks the state as faulted unless the failure is unresolved. -/
  | fails {e : ExecutionError} {s₁ : State} {status : Status}
    (hdispatch : table.dispatch config i s = .error e s₁)
    (hstatus : e.isUnresolved = true → status = s₁.status) :
    Performs config table i s (.error e, { s₁ with jumping := false, status })
  /-- The handler has set the instruction pointer. -/
  | jumps {s₁ : State} (hdispatch : table.dispatch config i s = .ok () s₁)
    (hjumps : s₁.jumping = true) : Performs config table i s (.ok (), { s₁ with jumping := false })
  /-- The instruction pointer is advanced. -/
  | advances {s₁ s₂ : State} (hdispatch : table.dispatch config i s = .ok () s₁)
    (hstays : s₁.jumping = false)
    (hadvance : advance (s.frames.length - 1) i { s₁ with jumping := false } = .ok () s₂) :
    Performs config table i s (.ok (), s₂)
  /-- The instruction pointer cannot be advanced. -/
  | leaves {e : ExecutionError} {s₁ s₂ : State} (hdispatch : table.dispatch config i s = .ok () s₁)
    (hstays : s₁.jumping = false)
    (hadvance : advance (s.frames.length - 1) i { s₁ with jumping := false } = .error e s₂) :
    Performs config table i s (.error e, s₂)

/-- An instruction whose handler fails leaves behind what the handler has, and marks the state as
faulted unless the failure is unresolved. -/
lemma performInstruction_of_fails {e : ExecutionError} {s₁ : State}
    (hdispatch : table.dispatch config i s = .error e s₁) :
    performInstruction config table i s =
      (.error e, { s₁ with
        jumping := false, status := if e.isUnresolved then s₁.status else .faulted }) := by
  unfold performInstruction EStateM.run takeJump
  simp only [hdispatch]
  split <;> rfl

/-- An instruction whose handler has set the instruction pointer is done. -/
lemma performInstruction_of_jumps {s₁ : State} (hdispatch : table.dispatch config i s = .ok () s₁)
    (hjumps : s₁.jumping = true) :
    performInstruction config table i s = (.ok (), { s₁ with jumping := false }) := by
  unfold performInstruction EStateM.run takeJump
  simp only [hdispatch, hjumps, if_true]

/-- An instruction whose handler has left the instruction pointer alone is advanced. -/
lemma performInstruction_of_advances {s₁ : State}
    (hdispatch : table.dispatch config i s = .ok () s₁) (hstays : s₁.jumping = false)
    (hadvance : advance (s.frames.length - 1) i { s₁ with jumping := false } = .ok () s') :
    performInstruction config table i s = (.ok (), s') := by
  unfold performInstruction EStateM.run takeJump
  simp only [hdispatch, hstays, Bool.false_eq_true, if_false]
  rw [hadvance]

/-- If it cannot be advanced, it fails. -/
lemma performInstruction_of_leaves {e : ExecutionError} {s₁ : State}
    (hdispatch : table.dispatch config i s = .ok () s₁) (hstays : s₁.jumping = false)
    (hadvance : advance (s.frames.length - 1) i { s₁ with jumping := false } = .error e s') :
    performInstruction config table i s = (.error e, s') := by
  unfold performInstruction EStateM.run takeJump
  simp only [hdispatch, hstays, Bool.false_eq_true, if_false]
  rw [hadvance]

/-- Performing an instruction ends in one of these ways. -/
theorem performInstruction_performs (config : Config) (table : JumpTable) (i : Instruction)
    (s : State) : Performs config table i s (performInstruction config table i s) := by
  cases hdispatch : table.dispatch config i s with
  | error e s₁ =>
    rw [performInstruction_of_fails hdispatch]
    exact .fails hdispatch fun hunresolved => if_pos hunresolved
  | ok u s₁ =>
    cases hjump : s₁.jumping with
    | true =>
      rw [performInstruction_of_jumps hdispatch hjump]
      exact .jumps hdispatch hjump
    | false =>
      cases hadvance : advance (s.frames.length - 1) i { s₁ with jumping := false } with
      | ok v s₂ =>
        rw [performInstruction_of_advances hdispatch hjump hadvance]
        exact .advances hdispatch hjump hadvance
      | error e s₂ =>
        rw [performInstruction_of_leaves hdispatch hjump hadvance]
        exact .leaves hdispatch hjump hadvance

/-- An instruction that succeeds has been dispatched, and then either has jumped or been
advanced. -/
lemma performInstruction_ok (h : performInstruction config table i s = (.ok (), s')) :
    ∃ s₁, table.dispatch config i s = .ok () s₁ ∧
      ((s₁.jumping = true ∧ s' = { s₁ with jumping := false }) ∨
        (s₁.jumping = false ∧
          advance (s.frames.length - 1) i { s₁ with jumping := false } = .ok () s')) := by
  have hperforms := performInstruction_performs config table i s
  rw [h] at hperforms
  cases hperforms with
  | jumps hdispatch hjumps => exact ⟨_, hdispatch, .inl ⟨hjumps, rfl⟩⟩
  | advances hdispatch hstays hadvance => exact ⟨_, hdispatch, .inr ⟨hstays, hadvance⟩⟩

/-- An instruction that is unresolved has failed when it was dispatched. -/
lemma performInstruction_error {e : ExecutionError} (he : e.isUnresolved = true)
    (h : performInstruction config table i s = (.error e, s')) :
    ∃ s₁, table.dispatch config i s = .error e s₁ ∧ s' = { s₁ with jumping := false } := by
  have hperforms := performInstruction_performs config table i s
  rw [h] at hperforms
  cases hperforms with
  | fails hdispatch hstatus => exact ⟨_, hdispatch, by rw [hstatus he]⟩
  | leaves hdispatch hstays hadvance =>
    have hresolved := advance_resolved _ _ _ _ _ hadvance
    rw [he] at hresolved
    cases hresolved

/-! ## The instructions that a scan lets pass -/

/-- An instruction that is no terminator preserves the skeleton, and moves the current frame behind
itself. -/
theorem performInstruction_plain (hop : i.opcode.isTerminator = false)
    (hs : s.frames = f :: rest) (hjump : s.jumping = false)
    (h : performInstruction config .standard i s = (.ok (), s')) :
    ∃ s₁ f₁, JumpTable.standard.dispatch config i s = .ok () s₁ ∧ s.SameSkeleton s₁ ∧
      s₁.frames = f₁ :: rest ∧ f₁.skeleton = f.skeleton ∧
      s' = { s₁ with frames := { f₁ with position := i.nextOffset } :: rest } := by
  obtain ⟨s₁, hdispatch, hcases⟩ := performInstruction_ok h
  have hsame : s.SameSkeleton s₁ := by
    have hkeeps := JumpTable.dispatch_sameSkeleton config hop s
    rwa [Exec.after_of_ok hdispatch] at hkeeps
  obtain ⟨f₁, hs₁, hf₁⟩ := hsame.frames_eq hs
  have hjump₁ : s₁.jumping = false := hsame.jumping.trans hjump
  refine ⟨s₁, f₁, hdispatch, hsame, hs₁, hf₁, ?_⟩
  rcases hcases with ⟨hjumps, -⟩ | ⟨-, hadvance⟩
  · rw [hjump₁] at hjumps
    cases hjumps
  · have hlength : s.frames.length - 1 = rest.length := by simp [hs]
    rw [hlength] at hadvance
    obtain ⟨rfl, -⟩ := @advance_ok _ { s₁ with jumping := false } _ _ [] _ hs₁ hadvance
    rw [← hjump₁, List.nil_append]

/-- Direct calls are bound to the handler for calls. -/
lemma dispatch_call (hop : Scan.isDirectCall i.opcode = true) :
    JumpTable.standard.dispatch config i = Semantics.call config i := by
  unfold JumpTable.dispatch
  unfold Scan.isDirectCall at hop
  split at hop
  · next hi => rw [hi]; rfl
  · next hi => rw [hi]; rfl
  · cases hop

/-- Returns are bound to the handler for returns. -/
lemma dispatch_ret (hop : i.opcode = .ret) :
    JumpTable.standard.dispatch config i = Exec.ret := by
  unfold JumpTable.dispatch
  rw [hop]
  rfl

/-- A direct call puts the frame of the routine on top of the caller, which stands behind the
call. -/
theorem performInstruction_call (hop : Scan.isDirectCall i.opcode = true)
    (hs : s.frames = f :: rest) (hjump : s.jumping = false)
    (h : performInstruction config .standard i s = (.ok (), s')) :
    ∃ offset, s' =
      { s with frames := f.callee offset :: { f with position := i.nextOffset } :: rest } := by
  obtain ⟨s₁, hdispatch, hcases⟩ := performInstruction_ok h
  rw [dispatch_call hop] at hdispatch
  obtain ⟨target, s₂, htarget, hcall⟩ := bind_eq_ok.1 hdispatch
  obtain ⟨-, rfl⟩ := Exec.liftM_eq_ok.1 htarget
  obtain ⟨offset, rfl⟩ := Exec.call_ok hs hcall
  refine ⟨offset, ?_⟩
  rcases hcases with ⟨hjumps, -⟩ | ⟨-, hadvance⟩
  · simp only [hjump] at hjumps
    cases hjumps
  · have hlength : s.frames.length - 1 = rest.length := by simp [hs]
    rw [hlength] at hadvance
    have hframes : f.callee offset :: s.frames = [f.callee offset] ++ f :: rest := by
      rw [hs, List.singleton_append]
    obtain ⟨rfl, -⟩ := advance_ok
      (s := { s with frames := f.callee offset :: s.frames, jumping := false }) hframes hadvance
    rw [← hjump, List.singleton_append]

/-- A return to a frame of the same world takes the current frame away. -/
theorem performInstruction_ret {g : Frame} (hop : i.opcode = .ret) (hs : s.frames = f :: g :: rest)
    (hworld : f.world = g.world) (hjump : s.jumping = false)
    (h : performInstruction config .standard i s = (.ok (), s')) :
    s' = { s with frames := g :: rest } := by
  obtain ⟨s₁, hdispatch, hcases⟩ := performInstruction_ok h
  rw [dispatch_ret hop, Exec.ret_eq hs hworld] at hdispatch
  cases hdispatch
  rcases hcases with ⟨-, rfl⟩ | ⟨hjumps, -⟩
  · rw [← hjump]
  · cases hjumps

/-- An unresolved instruction that is no terminator, a direct call or a return is no terminator,
and preserves the skeleton but for the mark of a jump. -/
theorem performInstruction_unresolved {e : ExecutionError} (he : e.isUnresolved = true)
    (hop : i.opcode.isTerminator = true → Scan.isDirectCall i.opcode = true ∨ i.opcode = .ret)
    (h : performInstruction config .standard i s = (.error e, s')) :
    ∃ s₁, s.SameSkeleton s₁ ∧ s' = { s₁ with jumping := false } := by
  obtain ⟨s₁, hdispatch, rfl⟩ := performInstruction_error he h
  refine ⟨s₁, ?_, rfl⟩
  cases hterminator : i.opcode.isTerminator with
  | false =>
    have hsame := JumpTable.dispatch_sameSkeleton config hterminator s
    rwa [Exec.after_of_error hdispatch] at hsame
  | true =>
    have hresolved : e.isUnresolved = false := by
      rcases hop hterminator with hcall | hret
      · rw [dispatch_call hcall] at hdispatch
        exact Semantics.call_resolved config i _ _ _ hdispatch
      · rw [dispatch_ret hret] at hdispatch
        exact Exec.ret_resolved _ _ _ hdispatch
    rw [he] at hresolved
    cases hresolved

/-! ## Executing an instruction -/

/-- Only an instruction that cannot be decoded keeps a machine from going on. -/
lemma next_eq_error {m : Machine} {e : LocatedError} (h : m.next = .error e) :
    ∃ cause, e.payload = .disassembly cause := by
  unfold next Frame.current at h
  split at h
  · cases h
  · next f w _ =>
    cases hdecode : w.script.instructionAt f.position with
    | error d =>
      simp only [hdecode] at h
      cases h
      exact ⟨d.payload, rfl⟩
    | ok decoded =>
      cases decoded <;> simp only [hdecode] at h <;> cases h

/-- The budget is not used up, and the watchdog does not ask to stop. -/
def Permits (m : Machine) : Prop :=
  m.executed < m.config.instructionLimit ∧ (m.watchdog.poll (m.executed + 1)).1 = false

instance (m : Machine) : Decidable m.Permits :=
  inferInstanceAs (Decidable (_ ∧ _))

/-- An execution that is permitted performs the instruction. -/
lemma execute_of_permits {m : Machine} (h : m.Permits) (i : Instruction) :
    m.execute i = (locate i.offset (performInstruction m.config m.table i m.state).1,
      { m with
        executed := m.executed + 1
        watchdog := (m.watchdog.poll (m.executed + 1)).2
        state := (performInstruction m.config m.table i m.state).2 }) := by
  have hlimit : ¬m.executed + 1 > m.config.instructionLimit := Nat.not_lt.2 h.1
  unfold execute
  simp only [if_neg hlimit, h.2, Bool.false_eq_true, if_false]

/-- An execution that is not permitted fails, and is counted all the same.  Beyond the budget the
machine is faulted, and where the watchdog asks to stop, it has been polled. -/
lemma execute_of_not_permits {m : Machine} (h : ¬m.Permits) (i : Instruction) :
    (m.config.instructionLimit ≤ m.executed ∧
      m.execute i = (.error ⟨i.offset, .instructionLimitExceeded m.config.instructionLimit⟩,
        { m with executed := m.executed + 1 }.withStatus .faulted)) ∨
    (m.executed < m.config.instructionLimit ∧ (m.watchdog.poll (m.executed + 1)).1 = true ∧
      m.execute i = (.error ⟨i.offset, .stoppedByWatchdog⟩,
        { m with
          executed := m.executed + 1
          watchdog := (m.watchdog.poll (m.executed + 1)).2 })) := by
  unfold execute
  simp only
  split
  · next hlimit => exact .inl ⟨Nat.le_of_lt_succ hlimit, rfl⟩
  · next hlimit =>
    have hbudget : m.executed < m.config.instructionLimit := Nat.not_lt.1 hlimit
    have hstop : (m.watchdog.poll (m.executed + 1)).1 = true := by
      rw [← Bool.not_eq_false]
      exact fun hgoes => h ⟨hbudget, hgoes⟩
    rw [if_pos hstop]
    exact .inr ⟨hbudget, hstop, rfl⟩

/-- An execution leaves the state alone up to its status, or performs the instruction. -/
lemma execute_state (m : Machine) (i : Instruction) :
    (∃ status, (m.execute i).2.state = { m.state with status }) ∨
      (m.execute i).2.state = (performInstruction m.config m.table i m.state).2 := by
  unfold execute
  simp only
  split
  · exact .inl ⟨.faulted, rfl⟩
  · split
    · exact .inl ⟨m.state.status, rfl⟩
    · exact .inr rfl

/-- An execution that succeeds performs the instruction and counts it. -/
lemma execute_ok_state {m m' : Machine} (h : m.execute i = (.ok (), m')) :
    performInstruction m.config m.table i m.state = (.ok (), m'.state) ∧ m'.config = m.config ∧
      m'.table = m.table ∧ m'.executed = m.executed + 1 ∧
      m'.watchdog = (m.watchdog.poll (m.executed + 1)).2 := by
  unfold execute at h
  simp only at h
  split at h
  · cases h
  · split at h
    · cases h
    · cases hperform : performInstruction m.config m.table i m.state with
      | mk result state =>
        simp only [hperform] at h
        obtain ⟨hresult, rfl⟩ := Prod.mk.inj h
        cases result with
        | ok u => exact ⟨rfl, rfl, rfl, rfl, rfl⟩
        | error e => cases hresult

/-- An execution that fails exceeds the budget, is stopped by the watchdog, or performs an
instruction that fails. -/
lemma execute_error_cases {m m' : Machine} {e : LocatedError} (h : m.execute i = (.error e, m')) :
    e.offset = i.offset ∧ (e.payload = .instructionLimitExceeded m.config.instructionLimit ∨
      e.payload = .stoppedByWatchdog ∨
      performInstruction m.config m.table i m.state = (.error e.payload, m'.state)) := by
  unfold execute at h
  simp only at h
  split at h
  · cases h
    exact ⟨rfl, .inl rfl⟩
  · split at h
    · cases h
      exact ⟨rfl, .inr (.inl rfl)⟩
    · cases hperform : performInstruction m.config m.table i m.state with
      | mk result state =>
        simp only [hperform] at h
        obtain ⟨hresult, rfl⟩ := Prod.mk.inj h
        cases result with
        | ok u => cases hresult
        | error e' =>
          cases hresult
          exact ⟨rfl, .inr (.inr rfl)⟩

/-- An execution that fails unresolved performs an instruction that does. -/
lemma execute_error {m m' : Machine} {e : LocatedError} (h : m.execute i = (.error e, m')) :
    e.offset = i.offset ∧ (e.payload.isUnresolved = false ∨
      performInstruction m.config m.table i m.state = (.error e.payload, m'.state)) := by
  obtain ⟨hoffset, hlimit | hstopped | hperform⟩ := execute_error_cases h
  · rw [hlimit]
    exact ⟨hoffset, .inl rfl⟩
  · rw [hstopped]
    exact ⟨hoffset, .inl rfl⟩
  · exact ⟨hoffset, .inr hperform⟩

end Machine

end SymbolicScript
