import SymbolicScript.Proofs.ScanSteps
import SymbolicScript.Proofs.StateSimulation

/-!
# What skipped instructions store

Most instructions that a scan lets pass work on the stack and on the heap only.  The others store to
a local variable or to an argument, or initialize the variables of a routine that is followed.  This
file says what any of them does to the data outside of stack and heap
(`Machine.Scanning.execute_effect`).  Static fields and storage stay as they are.  A variable of the
entry frame changes only if the instruction stores to it, and then the write is recorded.

Which write is recorded depends on the instruction alone (`Instruction.writesAfter`), so that two
machines that execute the same instructions record the same writes.
-/

namespace SymbolicScript

/-! ## The variable that is stored to -/

/-- The variable that an instruction stores to. -/
def Instruction.storedVariable? (i : Instruction) : Option Access :=
  match JumpTable.standard.handler i.opcode with
  | .store kind =>
    match Semantics.variableIndex (Handler.firstStore kind) i with
    | .ok index => some (.slot kind index)
    | .error _ => none
  | _ => none

/-- The variable of the entry frame that an instruction stores to at an invocation depth. -/
def Instruction.write? (i : Instruction) (depth : Nat) : Option Access :=
  if depth ≤ 1 then i.storedVariable? else none

/-- The writes recorded behind an instruction, given those recorded before it. -/
def Instruction.writesAfter (i : Instruction) (depth : Nat) (writes : SortedMap Access Nat) :
    SortedMap Access Nat :=
  match i.write? depth with
  | some a => writes.insert a i.offset
  | none => writes

/-- What is recorded behind an instruction has been recorded before, or is the variable that the
instruction stores to. -/
lemma Instruction.contains_writesAfter {i : Instruction} {depth : Nat}
    {writes : SortedMap Access Nat} {a : Access} :
    (i.writesAfter depth writes).contains a ↔ i.write? depth = some a ∨ writes.contains a := by
  unfold writesAfter
  cases i.write? depth with
  | some b => rw [writes.contains_insert, Option.some.injEq, eq_comm]
  | none => simp

/-! ## Effects -/

/-- Nothing is stored outside of the stack, the heap and the frames. -/
structure State.SameData (s s' : State) : Prop where
  /-- The static fields are the same. -/
  statics : ∀ i, (s'.worldAt i).statics = (s.worldAt i).statics
  /-- The view of storage is the same. -/
  storage : ∀ i, (s'.worldAt i).storage = (s.worldAt i).storage
  /-- No write is recorded. -/
  writes : ∀ i, (s'.worldAt i).writes = (s.worldAt i).writes

instance : Std.Refl State.SameData where
  refl _ := ⟨fun _ => rfl, fun _ => rfl, fun _ => rfl⟩

instance : IsTrans State State.SameData where
  trans _ _ _ hst htu :=
    { statics := fun i => (htu.statics i).trans (hst.statics i)
      storage := fun i => (htu.storage i).trans (hst.storage i)
      writes := fun i => (htu.writes i).trans (hst.writes i) }

/-- What is confined to stack and heap stores nothing outside of them. -/
lemma State.Confined.sameData {s s' : State} (h : s.Confined s') : s.SameData s' where
  statics i := (h.world i).statics
  storage i := (h.world i).storage
  writes i := (h.world i).writes

/-- What an instruction that a scan lets pass does to the data of the first world outside of stack
and heap. -/
structure State.Effect (i : Instruction) (s s' : State) : Prop where
  /-- The static fields are the same. -/
  statics : (s'.worldAt 0).statics = (s.worldAt 0).statics
  /-- The view of storage is the same. -/
  storage : (s'.worldAt 0).storage = (s.worldAt 0).storage
  /-- A write to a variable of the entry frame is recorded. -/
  writes : (s'.worldAt 0).writes = i.writesAfter s.depth (s.worldAt 0).writes

/-- What stores nothing has the effect of an instruction that stores to no variable. -/
lemma State.SameData.effect {i : Instruction} {s s' : State} (h : s.SameData s')
    (hstored : i.storedVariable? = none) : s.Effect i s' where
  statics := h.statics 0
  storage := h.storage 0
  writes := by
    simp [h.writes, Instruction.writesAfter, Instruction.write?, hstored]

/-- At most the given variable of a frame changes. -/
structure Frame.StoresOnly (stored : Option Access) (f f' : Frame) : Prop where
  /-- Any other local variable is the same. -/
  locals : ∀ j, stored ≠ some (.slot .local j) → f'.locals.load j = f.locals.load j
  /-- Any other argument is the same. -/
  arguments : ∀ j, stored ≠ some (.slot .argument j) → f'.arguments.load j = f.arguments.load j

/-- A frame that does not change stores to no variable. -/
lemma Frame.StoresOnly.refl (stored : Option Access) (f : Frame) : f.StoresOnly stored f :=
  ⟨fun _ _ => rfl, fun _ _ => rfl⟩

/-- Frames may be moved. -/
lemma Frame.StoresOnly.move {stored : Option Access} {f f' : Frame} (h : f.StoresOnly stored f')
    (position : Nat) : f.StoresOnly stored { f' with position } :=
  ⟨h.locals, h.arguments⟩

/-! ## Handlers -/

namespace Exec

open State (SameData)

/-- Replacing the current frame stores nothing outside of the frames. -/
lemma keeps_setFrame (f : Frame) : Keeps SameData (setFrame f) := by
  intro s
  unfold after setFrame
  cases s.frames with
  | nil => exact Std.Refl.refl s
  | cons g rest => exact ⟨fun _ => rfl, fun _ => rfl, fun _ => rfl⟩

end Exec

namespace Semantics

open Exec
open State (SameData)

variable {i : Instruction} {s s' : State} {f : Frame} {rest : List Frame}

/-- Initializing the variables of a frame stores nothing outside of the frame. -/
lemma keeps_allocateFrame (i : Instruction) : Keeps SameData (allocateFrame i) :=
  (keeps_liftM _).bind fun _ => (keeps_liftM _).bind fun _ => .check fun _ =>
    keeps_frame.bind fun _ => .check fun _ => .check fun _ =>
    ((keeps_popMany _).mono fun _ _ => State.Confined.sameData).bind fun _ =>
    (keeps_liftM _).bind fun _ => (keeps_frame.bind fun _ => keeps_setFrame _).bind fun _ =>
    (keeps_liftM _).bind fun _ => keeps_frame.bind fun _ => keeps_setFrame _

/-- The variables of a kind of the current frame are replaced by others. -/
lemma setVariables_ok {kind : SlotKind} {v v' : Variables} {index : Nat} {x : Item}
    (hkind : kind ≠ .static) (hs : s.frames = f :: rest)
    (hload : variablesOf kind s = .ok v s) (hstore : v.store index x = .ok v')
    (h : setVariables kind v' s = .ok () s') :
    ∃ f', s' = { s with frames := f' :: rest } ∧ f'.world = f.world ∧
      f.StoresOnly (some (.slot kind index)) f' := by
  cases kind with
  | static => exact absurd rfl hkind
  | «local» =>
    have hv : f.locals = v := by
      unfold variablesOf at hload
      simp only [bind_of_ok (frame_eq hs)] at hload
      cases hload
      rfl
    unfold setVariables at h
    simp only [bind_of_ok (frame_eq hs), setFrame, hs] at h
    cases h
    refine ⟨{ f with locals := v' }, rfl, rfl, fun j hj => ?_, fun _ _ => rfl⟩
    rw [hv, Variables.load_store hstore, if_neg fun heq => hj (by rw [heq])]
  | argument =>
    have hv : f.arguments = v := by
      unfold variablesOf at hload
      simp only [bind_of_ok (frame_eq hs)] at hload
      cases hload
      rfl
    unfold setVariables at h
    simp only [bind_of_ok (frame_eq hs), setFrame, hs] at h
    cases h
    refine ⟨{ f with arguments := v' }, rfl, rfl, fun _ _ => rfl, fun j hj => ?_⟩
    rw [hv, Variables.load_store hstore, if_neg fun heq => hj (by rw [heq])]

/-- Looking at variables does not change the state. -/
lemma variablesOf_ok {kind : SlotKind} {v : Variables} (hs : s.frames = f :: rest)
    (h : variablesOf kind s = .ok v s') : s' = s := by
  cases kind with
  | static =>
    unfold variablesOf at h
    simp only [bind_of_ok (world_eq hs)] at h
    cases h
    rfl
  | «local» | argument =>
    unfold variablesOf at h
    simp only [bind_of_ok (frame_eq hs)] at h
    cases h
    rfl

/-- Whether an access is recorded depends on the depth. -/
lemma isTracked_ok {kind : SlotKind} {tracked : Bool} (hkind : kind ≠ .static)
    (h : isTracked kind s = .ok tracked s') : s' = s ∧ (tracked = true ↔ s.depth ≤ 1) := by
  unfold isTracked at h
  rw [bind_of_ok (get_eq s)] at h
  cases h
  refine ⟨rfl, ?_⟩
  simp [hkind]

/-- Recording a write changes nothing but the record. -/
lemma recordWrite_effect {a : Access} (hs : s.frames = f :: rest) (hworld : f.world = 0)
    (hsize : s.worlds.size = 1) (h : recordWrite a i.offset s = .ok () s') :
    s'.frames = s.frames ∧ (s'.worldAt 0).statics = (s.worldAt 0).statics ∧
      (s'.worldAt 0).storage = (s.worldAt 0).storage ∧
      (s'.worldAt 0).writes = (s.worldAt 0).writes.insert a i.offset := by
  unfold recordWrite modifyWorld onWorld at h
  simp only [hs, hworld] at h
  cases h
  refine ⟨rfl, ?_, ?_, ?_⟩ <;> rw [State.worldAt_setWorld, if_pos ⟨rfl, by omega⟩]
  rfl

/-- Storing to a variable of the current frame changes that variable, and records the write in the
entry frame. -/
lemma store_effect {kind : SlotKind} (hkind : kind ≠ .static) (hs : s.frames = f :: rest)
    (hworld : f.world = 0) (hsize : s.worlds.size = 1)
    (hhandler : JumpTable.standard.handler i.opcode = .store kind)
    (h : store kind (Handler.firstStore kind) i s = .ok () s') :
    s.Effect i s' ∧ ∃ f', s'.frames = f' :: rest ∧ f.StoresOnly i.storedVariable? f' := by
  obtain ⟨index, s₀, hindex, hafterIndex⟩ := bind_eq_ok.1 h
  obtain ⟨hindexed, rfl⟩ := liftM_eq_ok.1 hindex
  have hstored : i.storedVariable? = some (.slot kind index) := by
    simp [Instruction.storedVariable?, hhandler, hindexed]
  obtain ⟨x, s₁, hpop, hafterPop⟩ := bind_eq_ok.1 hafterIndex
  have hconfined : s.Confined s₁ := by
    have hkeeps := keeps_pop s
    rwa [after_of_ok hpop] at hkeeps
  have hdata := hconfined.sameData
  have hs₁ : s₁.frames = f :: rest := hconfined.frames.trans hs
  have hdepth : s₁.depth = s.depth := by rw [State.depth, State.depth, hconfined.frames]
  obtain ⟨v, s₂, hload, hafterLoad⟩ := bind_eq_ok.1 hafterPop
  obtain rfl := variablesOf_ok hs₁ hload
  obtain ⟨v', s₃, hstore, hafterStore⟩ := bind_eq_ok.1 hafterLoad
  obtain ⟨hstored', rfl⟩ := liftM_eq_ok.1 hstore
  obtain ⟨_, s₄, hset, hafterSet⟩ := bind_eq_ok.1 hafterStore
  obtain ⟨f', rfl, hworld', honly⟩ := setVariables_ok hkind hs₁ hload hstored' hset
  obtain ⟨tracked, s₅, hasked, hrecord⟩ := bind_eq_ok.1 hafterSet
  obtain ⟨rfl, htracked⟩ := isTracked_ok hkind hasked
  have hdepth' : State.depth { s₂ with frames := f' :: rest } = s.depth := by
    rw [← hdepth, State.depth, State.depth, hs₁]
    rfl
  rw [hdepth'] at htracked
  rw [hstored]
  -- The write is recorded in the entry frame and nowhere else, whatever is stored.
  split at hrecord
  · next hyes =>
    have hframes : ({ s₂ with frames := f' :: rest } : State).frames = f' :: rest := rfl
    obtain ⟨hframes', hstatics, hstorage, hwrites⟩ := recordWrite_effect hframes
      (hworld'.trans hworld) (hconfined.size.trans hsize) hrecord
    refine ⟨⟨hstatics.trans (hdata.statics 0), hstorage.trans (hdata.storage 0), ?_⟩, f', hframes',
      honly⟩
    rw [hwrites, Instruction.writesAfter, Instruction.write?, if_pos (htracked.1 hyes), hstored]
    simp only
    rw [← hdata.writes 0]
    rfl
  · next hno =>
    cases hrecord
    refine ⟨⟨hdata.statics 0, hdata.storage 0, ?_⟩, f', rfl, honly⟩
    rw [Instruction.writesAfter, Instruction.write?, if_neg fun hle => hno (htracked.2 hle)]
    exact hdata.writes 0

end Semantics

/-! ## Instructions -/

variable {config : Config} {i : Instruction} {s s' : State} {f : Frame} {rest : List Frame}

/-- What an instruction does that is no terminator and is let pass by a scan. -/
theorem JumpTable.dispatch_effect (hop : i.opcode.isTerminator = false)
    (hpass : i.Passable s.depth) (hs : s.frames = f :: rest) (hworld : f.world = 0)
    (hsize : s.worlds.size = 1)
    (h : JumpTable.standard.dispatch config i s = .ok () s') :
    s.Effect i s' ∧
      (i.opcode ≠ .initSlot →
        ∃ f', s'.frames = f' :: rest ∧ f.StoresOnly i.storedVariable? f') := by
  have htransfers : (JumpTable.standard.handler i.opcode).transfers = false := by
    cases htransfers : (JumpTable.standard.handler i.opcode).transfers with
    | false => rfl
    | true =>
      rw [Opcode.isTerminator_of_transfers htransfers] at hop
      cases hop
  have hstatics := JumpTable.handler_ne_allocateStatics hpass.not_initSSlot
  have hsyscall := JumpTable.handler_ne_syscall hpass.not_syscall
  have hstore := JumpTable.handler_ne_storeStatic hpass.not_staticStore
  unfold JumpTable.dispatch at h
  cases hstores : (JumpTable.standard.handler i.opcode).storesData with
  | false =>
    have hconfined : s.Confined s' := by
      have hkeeps := Handler.run_confined config i htransfers hstores s
      rwa [Exec.after_of_ok h] at hkeeps
    have hstored : i.storedVariable? = none := by
      unfold Instruction.storedVariable?
      split
      · next hhandler =>
        rw [hhandler] at hstores
        cases hstores
      · rfl
    exact ⟨hconfined.sameData.effect hstored, fun _ => ⟨f, hconfined.frames.trans hs, .refl _ f⟩⟩
  | true =>
    cases hhandler : JumpTable.standard.handler i.opcode with
    | store kind =>
      have hkind : kind ≠ .static := by
        rintro rfl
        exact hstore hhandler
      rw [hhandler] at h
      obtain ⟨heffect, hframe⟩ := Semantics.store_effect hkind hs hworld hsize hhandler h
      exact ⟨heffect, fun _ => hframe⟩
    | allocateFrame =>
      have hdata : s.SameData s' := by
        have hkeeps := Semantics.keeps_allocateFrame i s
        rw [hhandler] at h
        have hallocate : Semantics.allocateFrame i s = .ok () s' := h
        rwa [Exec.after_of_ok hallocate] at hkeeps
      have hstored : i.storedVariable? = none := by
        simp [Instruction.storedVariable?, hhandler]
      exact ⟨hdata.effect hstored, fun hne =>
        absurd hhandler (JumpTable.handler_ne_allocateFrame hne)⟩
    | allocateStatics => exact absurd hhandler hstatics
    | syscall => exact absurd hhandler hsyscall
    | _ =>
      rw [hhandler] at hstores
      cases hstores

/-- Neither calls nor returns store to variables. -/
lemma storedVariable?_of_terminator (hop : Scan.isDirectCall i.opcode = true ∨ i.opcode = .ret) :
    i.storedVariable? = none := by
  unfold Instruction.storedVariable?
  rcases hop with hcall | hret
  · rcases Scan.isDirectCall_iff.1 hcall with hop | hop <;> rw [hop] <;> rfl
  · rw [hret]
    rfl

/-- What an instruction that a scan lets pass does outside of stack and heap.  The entry frame is
still there, and its variables are the same but for the one that is stored to. -/
theorem Machine.Scanning.execute_effect {script : Script} {m m' : Machine}
    (h : Scanning script config m) (hpass : i.Passable m.state.depth)
    (hexecute : m.execute i = (.ok (), m')) :
    m.state.Effect i m'.state ∧ ∀ g, m.state.entry? = some g →
      ∃ g', m'.state.entry? = some g' ∧ g.StoresOnly (i.write? m.state.depth) g' := by
  obtain ⟨f, rest, hframes⟩ := List.exists_cons_of_ne_nil h.nonempty
  have hf : f.Simple := h.simple f (by simp [hframes])
  have hdepth : m.state.depth = rest.length + 1 := by simp [State.depth, hframes]
  obtain ⟨hperform, -, -, -, -⟩ := execute_ok_state hexecute
  rw [h.table, h.configured] at hperform
  unfold State.entry?
  rw [hframes]
  cases hterminator : i.opcode.isTerminator with
  | false =>
    obtain ⟨s₁, f₁, hdispatch, -, hs₁, -, hstate⟩ :=
      performInstruction_plain hterminator hframes h.jumping hperform
    obtain ⟨heffect, hframe⟩ :=
      JumpTable.dispatch_effect hterminator hpass hframes hf.world h.size hdispatch
    rw [hstate]
    refine ⟨⟨heffect.statics, heffect.storage, heffect.writes⟩, ?_⟩
    cases rest with
    | nil =>
      -- The current frame is the entry frame, which must not be initialized here.
      rintro g ⟨⟩
      obtain ⟨f', hf', honly⟩ := hframe (hpass.not_initSlot (by simp [hdepth]))
      obtain ⟨rfl, -⟩ := List.cons.inj (hs₁.symm.trans hf')
      rw [Instruction.write?, if_pos (by simp [hdepth])]
      exact ⟨_, rfl, honly.move i.nextOffset⟩
    | cons b below => exact fun g hg => ⟨g, hg, .refl _ g⟩
  | true =>
    have hstored := storedVariable?_of_terminator
      ((hpass.terminator hterminator).imp id (·.1))
    rcases hpass.terminator hterminator with hcall | ⟨hret, hdeep⟩
    · obtain ⟨offset, hstate⟩ := performInstruction_call hcall hframes h.jumping hperform
      rw [hstate]
      refine ⟨State.SameData.effect ⟨fun _ => rfl, fun _ => rfl, fun _ => rfl⟩ hstored, ?_⟩
      cases rest with
      | nil =>
        rintro g ⟨⟩
        exact ⟨_, rfl, (Frame.StoresOnly.refl _ f).move i.nextOffset⟩
      | cons b below => exact fun g hg => ⟨g, hg, .refl _ g⟩
    · cases rest with
      | nil => simp [hdepth] at hdeep
      | cons b below =>
        have hb : b.Simple := h.simple b (by simp [hframes])
        have hstate := performInstruction_ret hret hframes (hf.world.trans hb.world.symm) h.jumping
          hperform
        rw [hstate]
        refine ⟨State.SameData.effect ⟨fun _ => rfl, fun _ => rfl, fun _ => rfl⟩ hstored, ?_⟩
        exact fun g hg => ⟨g, hg, .refl _ g⟩

end SymbolicScript
