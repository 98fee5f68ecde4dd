import SymbolicScript.Proofs.FrameSteps
import SymbolicScript.Proofs.SlotInstructions

/-!
# Slots through a run

A run loads a script and makes any number of steps, whether they succeed or fail.  The history of a
slot is told from the run alone (`Machine.slotHistory`): static fields have one history, and the
locals and arguments of a frame have theirs, to which only the steps add at which the frame is the
current one.  A frame is told by its place, counted from the entry frame.  When it is gone the
history of the place begins anew.

This file proves that the slots of all frames follow their histories (`Machine.after_followsSlots`),
and so says what a load pushes, when a load or a store fails, and that an initialized slot is never
initialized again (`Machine.slots_hold_history`).
-/

namespace SymbolicScript

variable {g : Ground} {config : Config} {s s' s₁ : State} {w : World} {f f' : Frame}
  {rest : List Frame} {i : Instruction} {events : SlotKind → Option SlotEvent} {m : Machine}

/-! ## What a step does to slots -/

/-- What has become of the slots of all frames, where the events have happened to those of the
current one. -/
structure State.SlotStep (events : SlotKind → Option SlotEvent) (s s' : State) : Prop where
  /-- The static fields. -/
  statics : (s.worldAt 0).statics.Becomes (events .static) (s'.worldAt 0).statics
  /-- The locals and the arguments of a frame that stays.  Nothing happens to them unless the frame
  is the current one. -/
  stays : ∀ (place : Nat) (f f' : Frame), s.frames.reverse[place]? = some f →
    s'.frames.reverse[place]? = some f' → ∀ kind ≠ SlotKind.static,
      (f.variables (s.worldAt 0) kind).Becomes (if place + 1 = s.depth then events kind else none)
        (f'.variables (s'.worldAt 0) kind)
  /-- Those of a new frame are untouched. -/
  enters : ∀ (place : Nat) (f' : Frame), s.depth ≤ place → s'.frames.reverse[place]? = some f' →
    ∀ kind ≠ SlotKind.static, f'.variables (s'.worldAt 0) kind = .untouched kind

/-- A frame that remains has the same locals and arguments. -/
lemma Frame.Remains.variables_eq (h : f.Remains f') {kind : SlotKind} (hkind : kind ≠ .static)
    (w w' : World) : f'.variables w' kind = f.variables w kind := by
  cases kind with
  | static => exact absurd rfl hkind
  | «local» => exact h.locals
  | argument => exact h.arguments

namespace State

/-- Nothing has happened to slots where static fields and frames remain. -/
lemma SlotStep.of_unwound (hstatics : (s'.worldAt 0).statics = (s.worldAt 0).statics)
    (hframes : Unwound Frame.Remains s.frames s'.frames) : s.SlotStep (fun _ => none) s' where
  statics := hstatics
  stays place f f' hf hf' kind hkind := by
    have hremains := hframes.related place f f' hf hf'
    rw [ite_self]
    exact hremains.variables_eq hkind _ _
  enters place f' hplace hf' := by
    have hlt := lt_depth_of_place hf'
    have hle := hframes.length_le
    unfold depth at hplace hlt
    omega

/-- What has become of the slots of the current frame tells what has become of all. -/
lemma SlotsBecome.slotStep (h : s'.SlotsBecome events f rest w) (hw : s.WorksIn w)
    (hframes : s.frames = f :: rest) : s.SlotStep events s' := by
  obtain ⟨f', w', hframes', hworlds', -, hbecome⟩ := h
  have hworld' : s'.worldAt 0 = w' := by simp [worldAt, hworlds']
  have hdepth : s.depth = rest.length + 1 := by simp [depth, hframes]
  refine ⟨?_, fun place k k' hk hk' kind hkind => ?_, fun place k' hplace hk' => ?_⟩
  · rw [hw.worldAt, hworld']
    exact hbecome .static
  · rw [hframes, getElem?_reverse_cons] at hk
    rw [hframes', getElem?_reverse_cons] at hk'
    rw [hw.worldAt, hworld', hdepth]
    by_cases hplace : place = rest.length
    · rw [if_pos hplace] at hk hk'
      cases hk
      cases hk'
      rw [if_pos (by omega)]
      exact hbecome kind
    · -- Below the current frame the frames are the same.
      rw [if_neg hplace] at hk hk'
      cases hk.symm.trans hk'
      have hremains : k.Remains k := Std.Refl.refl k
      rw [if_neg (by omega)]
      exact hremains.variables_eq hkind _ _
  · have hlt := lt_depth_of_place hk'
    simp only [depth, hframes', List.length_cons] at hlt
    omega

/-- Where the frame of a routine is put on top of the others, its slots are untouched. -/
lemma SlotStep.of_call {target : Nat} {caller : Frame}
    (hstatics : (s'.worldAt 0).statics = (s.worldAt 0).statics) (hframes : s.frames = f :: rest)
    (hframes' : s'.frames = f.callee target :: caller :: rest) (hcaller : f.Remains caller) :
    s.SlotStep (fun _ => none) s' where
  statics := hstatics
  stays place k k' hk hk' kind hkind := by
    have hlt := lt_depth_of_place hk
    simp only [depth, hframes, List.length_cons] at hlt
    have hne : place ≠ (caller :: rest).length := by
      rw [List.length_cons]
      omega
    rw [hframes', getElem?_reverse_cons, if_neg hne] at hk'
    -- Below the new frame only the caller has changed, and it remains.
    have hbelow : Unwound Frame.Remains (f :: rest) (caller :: rest) :=
      .cons (fun _ => Std.Refl.refl _) hcaller rest
    have hremains := hbelow.related place k k' (hframes ▸ hk) hk'
    rw [ite_self]
    exact hremains.variables_eq hkind _ _
  enters place k' hplace hk' kind hkind := by
    have hlt := lt_depth_of_place hk'
    simp only [depth, hframes, hframes', List.length_cons] at hplace hlt
    -- The only place that has not been taken before is that of the routine.
    have heq : place = (caller :: rest).length := by
      rw [List.length_cons]
      omega
    rw [hframes', getElem?_reverse_cons, if_pos heq] at hk'
    cases hk'
    cases kind with
    | static => exact absurd rfl hkind
    | «local» | argument => rfl

end State

/-! ## Steps -/

namespace Machine

/-- What the next step does to the slot of a kind that the current frame has access to, if the step
succeeds. -/
def slotEvent? (m : Machine) (kind : SlotKind) : Option SlotEvent :=
  match m.next, m.state.current?, m.step.1 with
  | .ok (some i), some (_, w), .ok () => w.slotEvent? i kind
  | _, _, _ => none

/-- A step that fails does nothing to slots. -/
lemma slotEvent?_of_error {e : LocatedError} (h : m.step.1 = .error e) :
    m.slotEvent? = fun _ => none := by
  funext kind
  unfold slotEvent?
  rw [h]
  split
  · next heq => cases heq
  · rfl

/-- Nor does a step without an instruction. -/
lemma slotEvent?_of_none (h : m.next = .ok none) : m.slotEvent? = fun _ => none := by
  funext kind
  unfold slotEvent?
  rw [h]

/-- A step that succeeds does what its instruction does. -/
lemma slotEvent?_of_ok (hnext : m.next = .ok (some i)) (hw : m.state.WorksIn w)
    (h : m.step.1 = .ok ()) : m.slotEvent? = w.slotEvent? i := by
  obtain ⟨f, rest, hframes, hworld⟩ := hw.frame
  have hcurrent : m.state.current? = some (f, w) := by
    simp [State.current?, hframes, hworld, hw.worldAt]
  funext kind
  unfold slotEvent?
  rw [hnext, hcurrent, h]

/-- Performing an instruction leaves the worlds as its handler does. -/
lemma Performs.worlds_eq {table : JumpTable} {outcome : Except ExecutionError Unit × State}
    (h : Performs config table i s outcome) :
    outcome.2.worlds = ((table.dispatch config i).after s).worlds := by
  cases h with
  | fails hdispatch _ => rw [Exec.after_of_error hdispatch]
  | jumps hdispatch _ => rw [Exec.after_of_ok hdispatch]
  | advances hdispatch _ hadvance => rw [Exec.after_of_ok hdispatch, advance_worlds hadvance]
  | leaves hdispatch _ hadvance => rw [Exec.after_of_ok hdispatch, advance_error hadvance]

/-- A step that does not transfer control does to slots what the text of its instruction says, if it
succeeds, and nothing if it fails. -/
lemma step_slotsBecome (htable : m.table = .standard) (hw : m.state.WorksIn w)
    (hframes : m.state.frames = f :: rest) (hnext : m.next = .ok (some i)) (hpermits : m.Permits)
    (htransfers : (JumpTable.standard.handler i.opcode).transfers = false) :
    m.step.2.state.SlotsBecome m.slotEvent? f rest w := by
  have hslots := JumpTable.dispatch_slots m.config hw hframes htransfers
  cases hdispatch : JumpTable.standard.dispatch m.config i m.state with
  | error e s₁ =>
    rw [hdispatch] at hslots
    obtain ⟨f₁, w₁, hs₁, hworlds, hworld, hbecome⟩ := hslots
    rw [← htable] at hdispatch
    obtain ⟨hfails, status, hstate⟩ := step_of_dispatch_error hnext hpermits hdispatch
    rw [slotEvent?_of_error hfails, hstate]
    exact ⟨f₁, w₁, hs₁, hworlds, hworld, hbecome⟩
  | ok u s₁ =>
    rw [hdispatch] at hslots
    obtain ⟨f₁, w₁, hs₁, hworlds, hworld, hbecome⟩ := hslots
    obtain ⟨hok, hworlds', position, hframes'⟩ :=
      step_of_dispatch_ok htable hnext hpermits htransfers hframes hdispatch hs₁
    rw [slotEvent?_of_ok hnext hw hok]
    refine ⟨{ f₁ with position }, w₁, hframes', hworlds'.trans hworlds, hworld, fun kind => ?_⟩
    cases kind with
    | static | «local» | argument => exact hbecome _

/-- An instruction that transfers control does nothing to slots, and means nothing to them. -/
lemma step_transfers (htable : m.table = .standard) (hjumping : m.state.jumping = false)
    (hnext : m.next = .ok (some i)) (hpermits : m.Permits)
    (htransfers : (JumpTable.standard.handler i.opcode).transfers = true) (w : World) :
    w.slotEvent? i = (fun _ => none) ∧ m.state.SlotStep (fun _ => none) m.step.2.state := by
  have hne {handler : Handler} (hwork : handler.transfers = false) :
      JumpTable.standard.handler i.opcode ≠ handler := by
    rintro rfl
    rw [hwork] at htransfers
    cases htransfers
  refine ⟨w.slotEvent?_eq_none (fun _ => hne rfl) (hne rfl) (hne rfl), ?_⟩
  have hstatics : (m.step.2.state.worldAt 0).statics = (m.state.worldAt 0).statics := by
    have hrecords := Handler.run_records m.config i (hne rfl) (fun _ => hne rfl)
      (fun _ => hne rfl) (hne rfl) m.state 0
    have hworlds := (performInstruction_performs m.config m.table i m.state).worlds_eq
    rw [htable] at hworlds
    rw [(step_of_permits hnext hpermits).2, htable, State.worldAt, hworlds]
    exact hrecords.statics
  cases step_moves htable hjumping hnext hpermits with
  | works hworks =>
    rw [hworks] at htransfers
    cases htransfers
  | remains _ h => exact .of_unwound hstatics h.frames
  | calls _ hframes _ hframes' _ _ => exact .of_call hstatics hframes hframes' ⟨rfl, rfl, rfl⟩

/-- A step does to the slots of all frames what it says. -/
theorem step_slots (htable : m.table = .standard) (hs : m.state.Grounded g)
    (hjumping : m.state.jumping = false) :
    m.state.SlotStep m.slotEvent? m.step.2.state := by
  rcases step_cases m with ⟨i, hnext, hpermits⟩ | ⟨hnothing, status, hstate⟩
  · obtain ⟨f, rest, hframes⟩ := exists_frame_of_next hnext
    have hw := hs.worksIn (by simp [hframes])
    cases htransfers : (JumpTable.standard.handler i.opcode).transfers with
    | true =>
      obtain ⟨hnone, hstep⟩ :=
        step_transfers htable hjumping hnext hpermits htransfers (m.state.worldAt 0)
      -- The instruction means nothing to slots, so it does not matter whether the step succeeds.
      have hevent : m.slotEvent? = fun _ => none := by
        cases hstep : m.step.1 with
        | ok u => rw [slotEvent?_of_ok hnext hw hstep, hnone]
        | error e => exact slotEvent?_of_error hstep
      rw [hevent]
      exact hstep
    | false =>
      exact (step_slotsBecome htable hw hframes hnext hpermits htransfers).slotStep hw hframes
  · have hevent : m.slotEvent? = fun _ => none := by
      rcases hnothing with hnone | ⟨e, hfails⟩
      · exact slotEvent?_of_none hnone
      · exact slotEvent?_of_error hfails
    rw [hevent, hstate]
    exact .of_unwound rfl (.refl (fun _ => Std.Refl.refl _) _)

/-! ## Histories -/

/-- What has happened in the first steps to the slot of a kind that the frame at a place has access
to, latest first.  Places are counted from the entry frame.  The steps at which another frame is the
current one add nothing to the history of locals and arguments, and when the frame is gone it is
forgotten.  Static fields belong to all frames. -/
def slotHistory (m : Machine) (kind : SlotKind) (place : Nat) : Nat → SlotHistory
  | 0 => []
  | count + 1 =>
    if kind ≠ .static ∧ (m.after (count + 1)).state.depth ≤ place then []
    else if kind = .static ∨ place + 1 = (m.after count).state.depth then
      ((m.after count).slotEvent? kind).toList ++ slotHistory m kind place count
    else slotHistory m kind place count

section

variable {kind : SlotKind} {place count : Nat}

/-- The history of static fields grows at every step. -/
lemma slotHistory_static :
    m.slotHistory .static place (count + 1) =
      ((m.after count).slotEvent? .static).toList ++ m.slotHistory .static place count := by
  rw [slotHistory, if_neg (fun h => h.1 rfl), if_pos (.inl rfl)]

/-- The history of a frame that is gone is empty. -/
lemma slotHistory_of_gone (hkind : kind ≠ .static) (hgone : (m.after count).state.depth ≤ place) :
    m.slotHistory kind place count = [] := by
  cases count with
  | zero => rfl
  | succ count => rw [slotHistory, if_pos ⟨hkind, hgone⟩]

/-- The history of a frame that is not gone grows where the frame is the current one. -/
lemma slotHistory_of_stays (hkind : kind ≠ .static)
    (hstays : place < (m.after (count + 1)).state.depth) :
    m.slotHistory kind place (count + 1) =
      (if place + 1 = (m.after count).state.depth then (m.after count).slotEvent? kind
        else none).toList ++ m.slotHistory kind place count := by
  rw [slotHistory, if_neg (fun h => Nat.not_le.2 hstays h.2)]
  by_cases hcurrent : place + 1 = (m.after count).state.depth
  · rw [if_pos (.inr hcurrent), if_pos hcurrent]
  · rw [if_neg (not_or.2 ⟨hkind, hcurrent⟩), if_neg hcurrent]
    rfl

end

end Machine

/-- What an event makes of variables follows the history with the event in front. -/
lemma Variables.Follows.becomes {kind : SlotKind} {history : SlotHistory} {v v' : Variables}
    {event : Option SlotEvent} (h : v.Follows kind history) (hbecomes : v.Becomes event v') :
    v'.Follows kind (event.toList ++ history) := by
  cases event with
  | none =>
    obtain rfl := hbecomes
    exact h
  | some event => exact .event h hbecomes

/-- No event changes the size of an initialized slot. -/
lemma Variables.Follows.size?_append {kind : SlotKind} {history : SlotHistory} {v : Variables}
    {event : Option SlotEvent} {size : Nat} (h : v.Follows kind (event.toList ++ history))
    (hsize : history.size? = some size) :
    SlotHistory.size? (event.toList ++ history) = some size := by
  cases event with
  | none => exact hsize
  | some event => exact h.size?_cons hsize

/-- The slots of all frames follow the histories of their places. -/
structure State.FollowsSlots (history : SlotKind → Nat → SlotHistory) (s : State) : Prop where
  /-- The static fields, whatever the place. -/
  statics : ∀ place, (s.worldAt 0).statics.Follows .static (history .static place)
  /-- All slots that a frame has access to. -/
  frames : ∀ (place : Nat) (f : Frame), s.frames.reverse[place]? = some f →
    ∀ kind, (f.variables (s.worldAt 0) kind).Follows kind (history kind place)

namespace Machine

/-- However many steps are made, the slots follow their histories. -/
theorem after_followsSlots (htable : m.table = .standard) (hs : m.state.Grounded g)
    (hjumping : m.state.jumping = false) (hstart : m.state.FollowsSlots fun _ _ => [])
    (count : Nat) :
    (m.after count).state.FollowsSlots fun kind place => m.slotHistory kind place count := by
  induction count with
  | zero => exact hstart
  | succ count ih =>
    obtain ⟨htable', g', -, hs'⟩ := (m.reaches_after count).grounded htable hs
    have hstep := step_slots htable' hs' (after_jumping hjumping count)
    -- Static fields are among the variables of every frame, new frames included.
    have hstatics (place : Nat) : (((m.after (count + 1)).state.worldAt 0).statics).Follows .static
        (m.slotHistory .static place (count + 1)) := by
      rw [slotHistory_static]
      exact (ih.statics place).becomes hstep.statics
    refine ⟨hstatics, fun place f' hf' kind => ?_⟩
    by_cases hkind : kind = .static
    · subst hkind
      exact hstatics place
    · rw [slotHistory_of_stays hkind (State.lt_depth_of_place hf')]
      rcases Nat.lt_or_ge place (m.after count).state.depth with hold | hnew
      · obtain ⟨f, hf⟩ := State.exists_of_place hold
        exact (ih.frames place f hf kind).becomes (hstep.stays place f f' hf hf' kind hkind)
      · -- A frame enters the place, and nothing is known of the frames that were there.
        rw [if_neg (by omega), slotHistory_of_gone hkind hnew]
        have huntouched := hstep.enters place f' hnew hf' kind hkind
        change (f'.variables ((m.after count).step.2.state.worldAt 0) kind).Follows kind []
        rw [huntouched]
        exact .untouched

/-- In a machine that has just loaded a script all slots are untouched. -/
lemma loaded_followsSlots (script : Script) (config : Config) (watchdog : Watchdog)
    (supply offset : Nat) :
    (loaded script config watchdog supply offset).state.FollowsSlots fun _ _ => [] where
  statics _ := .untouched
  frames := by
    intro place f hf kind
    have hmem := List.mem_of_getElem? hf
    cases List.mem_singleton.1 (List.mem_reverse.1 hmem)
    cases kind with
    | static | «local» | argument => exact .untouched

/-! ## Instructions on slots in a run -/

/-- The step fails because the index lies beyond the size to which the slot has been
initialized. -/
def FailsBeyond (m : Machine) (history : SlotHistory) (kind : SlotKind) (index : Nat) : Prop :=
  ∃ size e, history.size? = some size ∧ size ≤ index ∧ m.step.1 = .error e ∧
    e.payload = .slotIndexOutOfRange kind index size

/-- How the next instruction works on slots, where those of the current frame have the given
histories. -/
structure WorksOnSlots (m : Machine) (i : Instruction) (f : Frame)
    (history : SlotKind → SlotHistory) : Prop where
  /-- A load pushes what the history says, or it fails beyond the size of the slot. -/
  loads : m.Permits → ∀ kind index, i.loadedSlot? = some (kind, index) →
    (∃ x, (history kind).value? kind index = some x ∧ (history kind).Admits index ∧
      m.step.1 = .ok () ∧ (m.step.2.state.worldAt f.world).stack =
        (m.state.worldAt f.world).stack.push x.constant) ∨
    m.FailsBeyond (history kind) kind index
  /-- A store succeeds, or it fails beyond the size of the slot. -/
  stores : m.Permits → ∀ kind index, i.storedSlot? = some (kind, index) →
    ((history kind).Admits index ∧ m.step.1 = .ok ()) ∨ m.FailsBeyond (history kind) kind index
  /-- What is initialized cannot be initialized again, and no slot and no stack changes. -/
  initializes : i.opcode = .initSSlot ∧ (history .static).size? ≠ none ∨
    i.opcode = .initSlot ∧ ((history .local).size? ≠ none ∨ (history .argument).size? ≠ none) →
    (∃ e, m.step.1 = .error e) ∧ m.step.2.state.frames = m.state.frames ∧
      m.step.2.state.worlds = m.state.worlds

section

variable {history : SlotKind → SlotHistory}

/-- A load in a machine whose slots follow their histories. -/
lemma load_follows (htable : m.table = .standard) (hw : m.state.WorksIn w)
    (hframes : m.state.frames = f :: rest)
    (hfollows : ∀ kind, (f.variables w kind).Follows kind (history kind))
    (hnext : m.next = .ok (some i)) (hpermits : m.Permits) {kind : SlotKind} {index : Nat}
    (hload : i.loadedSlot? = some (kind, index)) :
    (∃ x, (history kind).value? kind index = some x ∧ (history kind).Admits index ∧
      m.step.1 = .ok () ∧ (m.step.2.state.worldAt 0).stack = w.stack.push x.constant) ∨
    m.FailsBeyond (history kind) kind index := by
  obtain ⟨hhandler, hindex⟩ := Instruction.load_of_loadedSlot? (next_admits hnext) hload
  have hdispatch : JumpTable.standard.dispatch m.config i =
      Semantics.load kind (Handler.firstLoad kind) i := by
    unfold JumpTable.dispatch
    rw [hhandler]
    rfl
  rcases Semantics.load_cases hw hframes kind hindex with
    ⟨x, s', w', hvalue, hloaded, hs', hw', hstack⟩ | ⟨e, hvalue, hfails⟩
  · rw [← hdispatch] at hloaded
    obtain ⟨hok, hworlds, -⟩ := step_of_dispatch_ok htable hnext hpermits (by rw [hhandler]; rfl)
      hframes hloaded (hs'.trans hframes)
    rcases (hfollows kind).load_cases index with ⟨y, hy, hload', hadmits⟩ | ⟨_, hfails, -⟩
    · cases hvalue.symm.trans hload'
      refine .inl ⟨x, hy, hadmits, hok, ?_⟩
      rw [State.worldAt, hworlds, ← hstack, ← hw'.worldAt]
      rfl
    · cases hvalue.symm.trans hfails
  · rw [← hdispatch, ← htable] at hfails
    obtain ⟨herror, -⟩ := step_of_dispatch_error hnext hpermits hfails
    rcases (hfollows kind).load_cases index with ⟨_, -, hload', -⟩ | ⟨size, hout, hsize, hle⟩
    · cases hvalue.symm.trans hload'
    · cases hvalue.symm.trans hout
      exact .inr ⟨size, _, hsize, hle, herror, rfl⟩

/-- A store in such a machine. -/
lemma store_follows (htable : m.table = .standard) (hw : m.state.WorksIn w)
    (hframes : m.state.frames = f :: rest)
    (hfollows : ∀ kind, (f.variables w kind).Follows kind (history kind))
    (hnext : m.next = .ok (some i)) (hpermits : m.Permits) {kind : SlotKind} {index : Nat}
    (hstore : i.storedSlot? = some (kind, index)) :
    ((history kind).Admits index ∧ m.step.1 = .ok ()) ∨
      m.FailsBeyond (history kind) kind index := by
  obtain ⟨hhandler, hindex⟩ := Instruction.store_of_storedSlot? (next_admits hnext) hstore
  have hdispatch : JumpTable.standard.dispatch m.config i =
      Semantics.store kind (Handler.firstStore kind) i := by
    unfold JumpTable.dispatch
    rw [hhandler]
    rfl
  rcases Semantics.store_cases hw hframes kind hindex with
    ⟨v, s', hvalue, hstored, f', w', hs', -⟩ | ⟨e, s', hvalue, hfails, -⟩
  · rw [← hdispatch] at hstored
    obtain ⟨hok, -⟩ := step_of_dispatch_ok htable hnext hpermits (by rw [hhandler]; rfl) hframes
      hstored hs'
    rcases (hfollows kind).store_cases index (w.stack.view 0) with
      ⟨-, hadmits⟩ | ⟨_, hfails, -⟩
    · exact .inl ⟨hadmits, hok⟩
    · cases hvalue.symm.trans hfails
  · rw [← hdispatch, ← htable] at hfails
    obtain ⟨herror, -⟩ := step_of_dispatch_error hnext hpermits hfails
    rcases (hfollows kind).store_cases index (w.stack.view 0) with
      ⟨⟨_, hstored⟩, -⟩ | ⟨size, hout, hsize, hle⟩
    · cases hvalue.symm.trans hstored
    · cases hvalue.symm.trans hout
      exact .inr ⟨size, _, hsize, hle, herror, rfl⟩

/-- A second initialization in such a machine. -/
lemma initialize_follows (htable : m.table = .standard) (hw : m.state.WorksIn w)
    (hframes : m.state.frames = f :: rest)
    (hfollows : ∀ kind, (f.variables w kind).Follows kind (history kind))
    (hnext : m.next = .ok (some i))
    (hinitialized : i.opcode = .initSSlot ∧ (history .static).size? ≠ none ∨
      i.opcode = .initSlot ∧
        ((history .local).size? ≠ none ∨ (history .argument).size? ≠ none)) :
    (∃ e, m.step.1 = .error e) ∧ m.step.2.state.frames = m.state.frames ∧
      m.step.2.state.worlds = m.state.worlds := by
  have hrefused : ∃ e, JumpTable.standard.dispatch m.config i m.state = .error e m.state := by
    rcases hinitialized with ⟨hop, hsize⟩ | ⟨hop, hsize⟩
    · rw [← (hfollows .static).size?_eq] at hsize
      unfold JumpTable.dispatch
      rw [hop]
      exact Semantics.allocateStatics_refused hw hsize i
    · rw [← (hfollows .local).size?_eq, ← (hfollows .argument).size?_eq] at hsize
      unfold JumpTable.dispatch
      rw [hop]
      exact Semantics.allocateFrame_refused hframes hsize i
  obtain ⟨e, hdispatch⟩ := hrefused
  rcases step_cases m with ⟨j, hnext', hpermits⟩ | ⟨hnothing, status, hstate⟩
  · cases hnext.symm.trans hnext'
    rw [← htable] at hdispatch
    obtain ⟨herror, status, hstate⟩ := step_of_dispatch_error hnext hpermits hdispatch
    rw [hstate]
    exact ⟨⟨_, herror⟩, rfl, rfl⟩
  · -- The instruction is refused before its handler could refuse it.
    rw [hstate]
    refine ⟨hnothing.resolve_left fun hnone => ?_, rfl, rfl⟩
    cases hnext.symm.trans hnone

end

/-- Slots are bounded arrays over open fields.  Whatever a machine has executed since it has loaded
a script, the slots of every frame have the sizes and the values that their histories say, and no
size ever changes.  Locals and arguments are not changed while another frame is the current one.
And a load pushes what the history of its variable says, loads and stores fail exactly beyond the
size of an initialized slot, and what is initialized cannot be initialized again. -/
theorem slots_hold_history {script : Script} {watchdog : Watchdog} {supply entry : Nat}
    {m₀ : Machine} (hload : (create config watchdog supply).loadScript script entry = (.ok (), m₀))
    (count : Nat) :
    (∀ place f, (m₀.after count).state.frames.reverse[place]? = some f → ∀ kind,
      (f.variables ((m₀.after count).state.worldAt f.world) kind).size? =
          (m₀.slotHistory kind place count).size? ∧
        ∀ index x, (f.variables ((m₀.after count).state.worldAt f.world) kind).load index = .ok x ↔
          (m₀.slotHistory kind place count).value? kind index = some x) ∧
    (∀ kind place size, (kind = .static ∨ place < (m₀.after (count + 1)).state.depth) →
      (m₀.slotHistory kind place count).size? = some size →
        (m₀.slotHistory kind place (count + 1)).size? = some size) ∧
    (∀ place f f', place + 1 < (m₀.after count).state.depth →
      (m₀.after count).state.frames.reverse[place]? = some f →
      (m₀.after (count + 1)).state.frames.reverse[place]? = some f' →
        f'.locals = f.locals ∧ f'.arguments = f.arguments) ∧
    ∀ i f rest, (m₀.after count).next = .ok (some i) → (m₀.after count).state.frames = f :: rest →
      (m₀.after count).WorksOnSlots i f fun kind => m₀.slotHistory kind rest.length count := by
  obtain ⟨rfl, -, -⟩ := loadScript_ok hload
  generalize hloaded : loaded script config watchdog supply entry = m₀
  have hgrounded : m₀.state.Grounded ⟨script.length, fun _ => none⟩ :=
    hloaded ▸ loaded_grounded script config watchdog supply entry
  have hstart : m₀.state.FollowsSlots fun _ _ => [] :=
    hloaded ▸ loaded_followsSlots script config watchdog supply entry
  have htable : m₀.table = .standard := hloaded ▸ rfl
  have hjumping : m₀.state.jumping = false := hloaded ▸ rfl
  have hfollows := after_followsSlots htable hgrounded hjumping hstart
  obtain ⟨htable', g, -, hs⟩ := (m₀.reaches_after count).grounded htable hgrounded
  have hworld {f : Frame} (hf : f ∈ (m₀.after count).state.frames) : f.world = 0 :=
    (hs.frame f hf).world
  refine ⟨fun place f hf kind => ?_, fun kind place size hstays => ?_,
    fun place f f' hplace hf hf' => ?_, fun i f rest hnext hframes => ?_⟩
  · -- the sizes and the values
    rw [hworld (List.mem_reverse.1 (List.mem_of_getElem? hf))]
    have hslot := (hfollows count).frames place f hf kind
    exact ⟨hslot.size?_eq, fun index x => hslot.load_eq_ok_iff⟩
  · -- the next step changes no size
    by_cases hkind : kind = .static
    · subst hkind
      have hstatics := (hfollows (count + 1)).statics place
      rw [slotHistory_static] at hstatics ⊢
      exact hstatics.size?_append
    · have hplace : place < (m₀.after (count + 1)).state.depth := hstays.resolve_left hkind
      obtain ⟨f', hf'⟩ := State.exists_of_place hplace
      have hslot := (hfollows (count + 1)).frames place f' hf' kind
      rw [slotHistory_of_stays hkind hplace] at hslot ⊢
      exact hslot.size?_append
  · -- the frames below the current one
    have hstep := step_slots htable' hs (after_jumping hjumping count)
    have hsame (kind : SlotKind) (hkind : kind ≠ .static) :=
      hstep.stays place f f' hf hf' kind hkind
    simp only [if_neg (Nat.ne_of_lt hplace)] at hsame
    exact ⟨hsame .local nofun, hsame .argument nofun⟩
  · -- the next instruction of the current frame
    have hwithin := hs.worksIn (by simp [hframes])
    have hplace : (m₀.after count).state.frames.reverse[rest.length]? = some f := by
      rw [hframes, getElem?_reverse_cons, if_pos rfl]
    have hslots := (hfollows count).frames rest.length f hplace
    constructor
    · intro hpermits kind index hload
      rw [hworld (by simp [hframes])]
      exact load_follows htable' hwithin hframes hslots hnext hpermits hload
    · intro hpermits kind index hstore
      exact store_follows htable' hwithin hframes hslots hnext hpermits hstore
    · exact initialize_follows htable' hwithin hframes hslots hnext

/-- A script that initializes a local variable and an argument, the latter with five, stores six to
the local variable, and goes on with further instructions. -/
def slotScript (further : Bytes) : Script := ⟨[0x15, 0x57, 0x01, 0x01, 0x16, 0x70] ++ further⟩

/-- The machine that executes the script, in front of the further instructions. -/
def slotMachine (further : Bytes) : Machine :=
  (loaded (slotScript further) {} .lazy 0 0).after 4

/-- The frame of the machine. -/
def slotFrame : Frame :=
  { world := 0, position := 6, returnCount := -1, tries := []
    locals := ⟨.local, .initialized [.const (.integer 6)]⟩
    arguments := ⟨.argument, .initialized [.const (.integer 5)]⟩ }

/-- What has been stored by a short form is loaded by the long form, the argument comes from the
stack, there is no second local variable, and the slots cannot be initialized again. -/
theorem slots_hold_history_slotScript :
    (∀ further ∈ [[0x6F, 0x00], [0x78], [0x77, 0x01], [0x57, 0x01, 0x00]],
      (create {} .lazy 0).loadScript (slotScript further) 0 =
          (.ok (), loaded (slotScript further) {} .lazy 0 0) ∧
        (slotMachine further).Permits ∧ (slotMachine further).state.frames = [slotFrame]) ∧
    ((slotMachine [0x6F, 0x00]).step.2.state.worldAt 0).stack =
      ((slotMachine [0x6F, 0x00]).state.worldAt 0).stack.push (.const (.integer 6)) ∧
    ((slotMachine [0x78]).step.2.state.worldAt 0).stack =
      ((slotMachine [0x78]).state.worldAt 0).stack.push (.const (.integer 5)) ∧
    (∃ e, (slotMachine [0x77, 0x01]).step.1 = .error e ∧
      e.payload = .slotIndexOutOfRange .local 1 1) ∧
    (∃ e, (slotMachine [0x57, 0x01, 0x00]).step.1 = .error e) ∧
      (slotMachine [0x57, 0x01, 0x00]).step.2.state.frames = [slotFrame] := by
  have hload (further : Bytes) : (create {} .lazy 0).loadScript (slotScript further) 0 =
      (.ok (), loaded (slotScript further) {} .lazy 0 0) := rfl
  refine ⟨?_, ?_, ?_, ?_, ?_⟩
  · intro further hfurther
    simp only [List.mem_cons, List.not_mem_nil, or_false] at hfurther
    rcases hfurther with rfl | rfl | rfl | rfl <;> exact ⟨rfl, by decide, rfl⟩
  · have hworks := (slots_hold_history (hload [0x6F, 0x00]) 4).2.2.2
      ⟨6, .ldLoc, [0x00]⟩ slotFrame [] rfl rfl
    rcases hworks.loads (by decide) .local 0 rfl with
      ⟨x, hx, -, -, hstack⟩ | ⟨size, e, hsize, hle, -⟩
    · cases hx
      exact hstack
    · cases hsize
      exact absurd hle (by decide)
  · have hworks := (slots_hold_history (hload [0x78]) 4).2.2.2
      ⟨6, .ldArg0, []⟩ slotFrame [] rfl rfl
    rcases hworks.loads (by decide) .argument 0 rfl with
      ⟨x, hx, -, -, hstack⟩ | ⟨size, e, hsize, hle, -⟩
    · cases hx
      exact hstack
    · cases hsize
      exact absurd hle (by decide)
  · have hworks := (slots_hold_history (hload [0x77, 0x01]) 4).2.2.2
      ⟨6, .stLoc, [0x01]⟩ slotFrame [] rfl rfl
    rcases hworks.stores (by decide) .local 1 rfl with
      ⟨hadmits, -⟩ | ⟨size, e, hsize, -, hfails, he⟩
    · exact absurd (hadmits 1 rfl) (by decide)
    · cases hsize
      exact ⟨e, hfails, he⟩
  · have hworks := (slots_hold_history (hload [0x57, 0x01, 0x00]) 4).2.2.2
      ⟨6, .initSlot, [0x01, 0x00]⟩ slotFrame [] rfl rfl
    obtain ⟨hfails, hframes, -⟩ := hworks.initializes (.inr ⟨rfl, .inl nofun⟩)
    exact ⟨hfails, hframes⟩

end Machine

end SymbolicScript
