import SymbolicScript.Proofs.SlotRuns

/-!
# Frames stay in bounds

In a run of one script there are never more frames than the configuration allows, each of them
stands inside the script or at its end, and its locals are initialized exactly if its arguments are
(`Machine.step_inBounds`).  A frame below the current one stands behind the call by which it was
left.  That is said of the run and not of a state: there is a step at which the frame was the
current one and the call the next instruction, and since then there has always been a frame above it
(`Machine.LeftBy`).

What a step does to the frames is known from `State.Moves`, and what it does to slots from
`State.SlotStep`, so that no instruction has to be looked at here.
-/

namespace SymbolicScript

variable {g : Ground} {config : Config} {s s' : State} {i : Instruction}

/-! ## Moves -/

namespace State.Moves

/-- No script changes. -/
lemma script (h : s.Moves config i s') (index : Nat) :
    (s'.worldAt index).script = (s.worldAt index).script := by
  cases h with
  | works _ _ _ _ _ hscript => exact hscript index
  | remains _ h => exact h.script index
  | calls _ _ _ _ _ hscript => exact hscript index

/-- There are not too many frames. -/
lemma depth_le (h : s.Moves config i s') (hs : s.depth ≤ config.maxInvocationDepth) :
    s'.depth ≤ config.maxInvocationDepth := by
  unfold depth at hs ⊢
  cases h with
  | works _ hframes hframes' _ _ _ =>
    rw [hframes] at hs
    rw [hframes']
    exact hs
  | remains _ h => exact Nat.le_trans h.frames.length_le hs
  | calls _ hframes hcallable hframes' _ _ =>
    have hroom := hcallable.room
    unfold depth at hroom
    rw [hframes] at hroom
    rw [hframes']
    exact hroom

/-- No frame leaves its script. -/
lemma inside (h : s.Moves config i s') (hs : s.Inside) : s'.Inside := by
  have hscript := h.script
  intro k hk
  cases h with
  | remains _ h => exact h.inside hs k hk
  | @works f f' rest _ hframes hframes' hworld hposition _ =>
    rw [hscript]
    rw [hframes'] at hk
    rcases List.mem_cons.1 hk with rfl | hrest
    · rw [hworld]
      rcases hposition with hstays | ⟨hmoved, hnext⟩
      · rw [hstays]
        exact hs f (by simp [hframes])
      · rw [hmoved]
        exact hnext
    · exact hs k (by simp [hframes, hrest])
  | @calls f rest target _ hframes hcallable hframes' hnext _ =>
    rw [hscript]
    rw [hframes'] at hk
    rcases List.mem_cons.1 hk with rfl | hk
    · have hlength := hcallable.length
      change target.toNat ≤ (s.worldAt f.world).script.length
      omega
    · rcases List.mem_cons.1 hk with rfl | hrest
      · exact hnext
      · exact hs k (by simp [hframes, hrest])

/-- A frame below the current one stands where it stood before, or it has just been left by the
call. -/
lemma caller (h : s.Moves config i s') {place : Nat} {f' : Frame}
    (hf' : s'.frames.tail.reverse[place]? = some f') :
    (∃ f, s.frames.tail.reverse[place]? = some f ∧ f'.position = f.position) ∨
      i.opcode.entersRoutine = true ∧ s.depth = place + 1 ∧ f'.position = i.nextOffset := by
  cases h with
  | works _ hframes hframes' _ _ _ =>
    rw [hframes'] at hf'
    rw [hframes]
    exact .inl ⟨f', hf', rfl⟩
  | remains _ h => exact .inl (h.callers.exists_of_place hf')
  | @calls f rest _ hop hframes _ hframes' _ _ =>
    rw [hframes', List.tail_cons, getElem?_reverse_cons] at hf'
    rw [hframes]
    split at hf'
    · next hplace =>
      cases hf'
      exact .inr ⟨hop, by simp [depth, hframes, hplace], rfl⟩
    · exact .inl ⟨f', hf', rfl⟩

end State.Moves

/-! ## Initialized slots -/

/-- The event initializes the slot. -/
def SlotEvent.initializes : SlotEvent → Bool
  | .stored _ _ => false
  | .initialized _ => true

/-- A slot is initialized behind an event if it was before, or if the event initializes it. -/
lemma Variables.Becomes.isInitialized_eq {v v' : Variables} {event : Option SlotEvent}
    (h : v.Becomes event v') :
    v'.isInitialized = (v.isInitialized || event.any SlotEvent.initializes) := by
  rw [Variables.isInitialized_eq, Variables.isInitialized_eq]
  cases event with
  | none =>
    obtain rfl := h
    rw [Option.any_none, Bool.or_false]
  | some event =>
    cases event with
    | stored index x =>
      rw [(Variables.size?_of_store h).2]
      exact (Bool.or_false _).symm
    | initialized values =>
      rcases v.allocateWith_cases values with ⟨-, hallocate⟩ | ⟨-, hfails⟩
      · cases hallocate.symm.trans h
        exact (Bool.or_true _).symm
      · cases hfails.symm.trans h

/-- An instruction initializes both the locals and the arguments, or neither of them. -/
lemma World.slotEvent?_initializes (w : World) (i : Instruction) :
    (w.slotEvent? i .local).any SlotEvent.initializes =
      (w.slotEvent? i .argument).any SlotEvent.initializes := by
  obtain ⟨offset, op, operand⟩ := i
  cases op <;> rfl

namespace Machine

variable {m : Machine}

/-- So does a step. -/
lemma slotEvent?_initializes (m : Machine) :
    (m.slotEvent? .local).any SlotEvent.initializes =
      (m.slotEvent? .argument).any SlotEvent.initializes := by
  unfold slotEvent?
  split
  · exact World.slotEvent?_initializes _ _
  · rfl

end Machine

/-- In every frame the locals are initialized exactly if the arguments are. -/
def State.SlotsPaired (s : State) : Prop :=
  ∀ f ∈ s.frames, f.locals.isInitialized = f.arguments.isInitialized

/-- This stays so where an event initializes both or neither. -/
lemma State.SlotStep.slotsPaired {events : SlotKind → Option SlotEvent} (h : s.SlotStep events s')
    (hevents : (events .local).any SlotEvent.initializes =
      (events .argument).any SlotEvent.initializes)
    (hs : s.SlotsPaired) : s'.SlotsPaired := by
  intro f' hf'
  obtain ⟨place, hplace, hget⟩ := List.getElem_of_mem (List.mem_reverse.2 hf')
  have hf' : s'.frames.reverse[place]? = some f' := List.getElem?_eq_some_iff.2 ⟨hplace, hget⟩
  rcases Nat.lt_or_ge place s.depth with hold | hnew
  · obtain ⟨f, hf⟩ := State.exists_of_place hold
    have hlocals := (h.stays place f f' hf hf' .local nofun).isInitialized_eq
    have harguments := (h.stays place f f' hf hf' .argument nofun).isInitialized_eq
    have hpaired := hs f (List.mem_reverse.1 (List.mem_of_getElem? hf))
    simp only [Frame.variables] at hlocals harguments
    rw [hlocals, harguments, hpaired]
    split
    · rw [hevents]
    · rfl
  · -- The frame of a routine has neither.
    have hlocals : f'.locals = .untouched .local := h.enters place f' hnew hf' .local nofun
    have harguments : f'.arguments = .untouched .argument :=
      h.enters place f' hnew hf' .argument nofun
    rw [hlocals, harguments]
    rfl

/-! ## Runs -/

variable {script : Script}

/-- There are at most as many frames as the configuration allows, and what they share is the
script, inside which each of them stands. -/
structure State.InBounds (config : Config) (script : Script) (s : State) : Prop where
  /-- The number of frames. -/
  depth : s.depth ≤ config.maxInvocationDepth
  /-- The script of the only world. -/
  script : (s.worldAt 0).script = script
  /-- The positions of the frames. -/
  inside : s.Inside
  /-- The slots of the frames. -/
  paired : s.SlotsPaired

namespace Machine

variable {m : Machine}

/-- A step keeps the frames in bounds. -/
theorem step_inBounds (htable : m.table = .standard) (hs : m.state.Grounded g)
    (hjumping : m.state.jumping = false) (h : m.state.InBounds m.config script) :
    m.step.2.state.InBounds m.config script := by
  have hpaired := (step_slots htable hs hjumping).slotsPaired m.slotEvent?_initializes h.paired
  rcases step_cases m with ⟨i, hnext, hpermits⟩ | ⟨-, status, hstate⟩
  · have hmoves := step_moves htable hjumping hnext hpermits
    exact ⟨hmoves.depth_le h.depth, (hmoves.script 0).trans h.script, hmoves.inside h.inside,
      hpaired⟩
  · rw [hstate] at hpaired ⊢
    exact ⟨h.depth, h.script, h.inside, hpaired⟩

/-- However many steps are made, the frames stay in bounds. -/
lemma after_inBounds (htable : m.table = .standard) (hs : m.state.Grounded g)
    (hjumping : m.state.jumping = false) (h : m.state.InBounds m.config script) (count : Nat) :
    (m.after count).config = m.config ∧ (m.after count).state.InBounds m.config script := by
  induction count with
  | zero => exact ⟨rfl, h⟩
  | succ count ih =>
    obtain ⟨hconfig, hbounds⟩ := ih
    obtain ⟨htable', g', -, hs'⟩ := (m.reaches_after count).grounded htable hs
    rw [← hconfig] at hbounds ⊢
    exact ⟨step_config _, step_inBounds htable' hs' (after_jumping hjumping count) hbounds⟩

/-- A frame that stands inside its script is in bounds on its own, if a frame is allowed. -/
lemma loaded_inBounds {watchdog : Watchdog} {supply entry : Nat} (hentry : entry ≤ script.length)
    (hroom : 0 < config.maxInvocationDepth) :
    (loaded script config watchdog supply entry).state.InBounds config script where
  depth := hroom
  script := rfl
  inside := by
    intro f hf
    cases List.mem_singleton.1 hf
    exact hentry
  paired := by
    intro f hf
    cases List.mem_singleton.1 hf
    rfl

/-- In the first steps the frame at a place has been left by the call: it was the current frame when
the call was the next instruction, and there has been a frame above it since then. -/
def LeftBy (m : Machine) (count place : Nat) (i : Instruction) : Prop :=
  i.opcode.entersRoutine = true ∧ ∃ k < count, (m.after k).next = .ok (some i) ∧
    (m.after k).state.depth = place + 1 ∧
    ∀ j, k < j → j ≤ count → place + 1 < (m.after j).state.depth

/-- A call by which a frame has been left stays the one as long as there is a frame above it. -/
lemma LeftBy.succ {count place : Nat} (h : m.LeftBy count place i)
    (habove : place + 1 < (m.after (count + 1)).state.depth) : m.LeftBy (count + 1) place i := by
  obtain ⟨hop, k, hk, hnext, hdepth, hsince⟩ := h
  refine ⟨hop, k, Nat.lt_succ_of_lt hk, hnext, hdepth, fun j hj hle => ?_⟩
  rcases Nat.lt_succ_iff_lt_or_eq.1 (Nat.lt_succ_of_le hle) with hlt | rfl
  · exact hsince j hj (Nat.le_of_lt_succ hlt)
  · exact habove

/-- Every frame below the current one stands behind the call by which it has been left. -/
theorem exists_leftBy (htable : m.table = .standard) (hjumping : m.state.jumping = false)
    (hentry : m.state.frames.tail = []) (count place : Nat) (f : Frame)
    (hf : (m.after count).state.frames.tail.reverse[place]? = some f) :
    ∃ i, m.LeftBy count place i ∧ f.position = i.nextOffset := by
  induction count generalizing f with
  | zero =>
    change m.state.frames.tail.reverse[place]? = some f at hf
    rw [hentry] at hf
    cases hf
  | succ count ih =>
    have habove : place + 1 < (m.after (count + 1)).state.depth := by
      obtain ⟨hplace, -⟩ := List.getElem?_eq_some_iff.1 hf
      rw [List.length_reverse, List.length_tail] at hplace
      unfold State.depth
      omega
    -- A frame that has been waiting in front of the step waits behind the same call.
    have hstays (f' : Frame) (hposition : f.position = f'.position)
        (hf' : (m.after count).state.frames.tail.reverse[place]? = some f') :
        ∃ i, m.LeftBy (count + 1) place i ∧ f.position = i.nextOffset := by
      obtain ⟨i, hleft, hi⟩ := ih f' hf'
      exact ⟨i, hleft.succ habove, hposition.trans hi⟩
    rcases step_cases (m.after count) with ⟨i, hnext, hpermits⟩ | ⟨-, status, hstate⟩
    · have htable' := (m.reaches_after count).table_eq.trans htable
      have hmoves := step_moves htable' (after_jumping hjumping count) hnext hpermits
      rcases hmoves.caller hf with ⟨f', hf', hposition⟩ | ⟨hop, hdepth, hposition⟩
      · exact hstays f' hposition hf'
      · -- The step is the call, and there is no step behind it yet.
        refine ⟨i, ⟨hop, count, Nat.lt_succ_self _, hnext, hdepth, fun j hj hle => ?_⟩, hposition⟩
        obtain rfl : j = count + 1 := by omega
        exact habove
    · refine hstays f rfl ?_
      change (m.after count).step.2.state.frames.tail.reverse[place]? = some f at hf
      rwa [hstate] at hf

/-- Frames stay in bounds and share one world.  Whatever a machine has executed since it has loaded
a script, its frames are not more than the configuration allows, they all belong to its only world,
whose script has not changed, and each of them stands inside that script or at its end, with locals
that are initialized exactly if its arguments are.  And a frame below the current one stands behind
the call by which it has been left. -/
theorem frames_stay_in_bounds {watchdog : Watchdog} {supply entry : Nat} {m₀ : Machine}
    (hload : (create config watchdog supply).loadScript script entry = (.ok (), m₀))
    (count : Nat) :
    (m₀.after count).state.depth ≤ config.maxInvocationDepth ∧
    (∃ w, (m₀.after count).state.worlds = #[w] ∧ w.script = script ∧
      ∀ f ∈ (m₀.after count).state.frames, f.world = 0 ∧ f.position ≤ script.length ∧
        f.locals.isInitialized = f.arguments.isInitialized) ∧
    ∀ place f, (m₀.after count).state.frames.tail.reverse[place]? = some f →
      ∃ i, m₀.LeftBy count place i ∧ f.position = i.nextOffset := by
  obtain ⟨rfl, hentry, -, hroom⟩ := loadScript_ok hload
  have hgrounded := loaded_grounded script config watchdog supply entry
  have hbounds := (after_inBounds rfl hgrounded rfl (loaded_inBounds hentry hroom) count).2
  obtain ⟨-, g, -, hs⟩ := (reaches_after _ count).grounded rfl hgrounded
  refine ⟨hbounds.depth, ?_, exists_leftBy rfl rfl rfl count⟩
  obtain ⟨w, hw⟩ := Array.size_eq_one_iff.1 hs.worlds
  have hscript := hbounds.script
  rw [State.worldAt, hw] at hscript
  refine ⟨w, hw, hscript, fun f hf => ?_⟩
  have hworld : f.world = 0 := (hs.frame f hf).world
  have hposition := hbounds.inside f hf
  rw [hworld, hbounds.script] at hposition
  exact ⟨hworld, hposition, hbounds.paired f hf⟩

/-- A script that calls a routine, which initializes a local variable and returns. -/
def routineScript : Script := ⟨[0x34, 0x03, 0x40, 0x57, 0x01, 0x00, 0x40]⟩

/-- The machine that executes the script.  It may have two frames. -/
def routineMachine : Machine :=
  loaded routineScript { maxInvocationDepth := 2 } .lazy 0 0

/-- The frame that has called the routine. -/
def routineCaller : Frame :=
  { world := 0, position := 2, returnCount := -1, locals := .untouched .local,
    arguments := .untouched .argument, tries := [] }

/-- In the routine there are as many frames as may be, and the caller stands behind the call. -/
theorem frames_stay_in_bounds_routineScript :
    (create { maxInvocationDepth := 2 } .lazy 0).loadScript routineScript 0 =
        (.ok (), routineMachine) ∧
      (routineMachine.after 2).state.depth = 2 ∧ (routineMachine.after 2).state.depth ≤ 2 ∧
      (∃ f ∈ (routineMachine.after 2).state.frames, f.locals.isInitialized = true ∧
        f.arguments.isInitialized = true ∧ f.position ≤ 7) ∧
      (routineMachine.after 2).state.frames.tail.reverse[0]? = some routineCaller ∧
      ∃ i, routineMachine.LeftBy 2 0 i ∧ i.nextOffset = 2 := by
  have hload : (create { maxInvocationDepth := 2 } .lazy 0).loadScript routineScript 0 =
      (.ok (), routineMachine) := rfl
  have hcaller : (routineMachine.after 2).state.frames.tail.reverse[0]? = some routineCaller := rfl
  have hne : (routineMachine.after 2).state.frames ≠ [] := by decide
  have hlocals : ((routineMachine.after 2).state.frames.head hne).locals.isInitialized = true := rfl
  obtain ⟨hdepth, ⟨w, -, -, hframes⟩, hcallers⟩ := frames_stay_in_bounds hload 2
  obtain ⟨-, hposition, hpaired⟩ := hframes _ (List.head_mem hne)
  obtain ⟨i, hleft, hi⟩ := hcallers 0 routineCaller hcaller
  refine ⟨hload, rfl, hdepth, ⟨_, List.head_mem hne, hlocals, ?_, hposition⟩, hcaller, i, hleft,
    hi.symm⟩
  rw [← hpaired]
  exact hlocals

end Machine

end SymbolicScript
