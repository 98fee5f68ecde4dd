import SymbolicScript.Proofs.Encoding
import SymbolicScript.Proofs.SlotHistories
import SymbolicScript.Proofs.TrackedHandlers

/-!
# What an instruction does to slots

Which variable an instruction loads or stores can be read off its text: the opcodes of a family have
the index built in, but for the last one, which has it in its operand (`Instruction.loadedSlot?`,
`Instruction.storedSlot?`).  With the items on the stack this determines the event that the
instruction is for the slots of each kind (`World.slotEvent?`).

This file proves that the handlers of a machine with one world do just that.  A handler that
succeeds applies the event of its instruction to the slots of the current frame, and one that fails
leaves them as they are (`JumpTable.dispatch_slots`).  The second half is not obvious for the
instruction that initializes the locals and the arguments of a frame one after the other: it fails
before the first, or not at all.
-/

namespace SymbolicScript

/-! ## The variable that an instruction names -/

/-- The kind of variables that an opcode loads, with the index if it is built into the opcode. -/
def Opcode.loads? : Opcode → Option (SlotKind × Option Nat)
  | .ldSFld0 => some (.static, some 0)
  | .ldSFld1 => some (.static, some 1)
  | .ldSFld2 => some (.static, some 2)
  | .ldSFld3 => some (.static, some 3)
  | .ldSFld4 => some (.static, some 4)
  | .ldSFld5 => some (.static, some 5)
  | .ldSFld6 => some (.static, some 6)
  | .ldSFld => some (.static, none)
  | .ldLoc0 => some (.local, some 0)
  | .ldLoc1 => some (.local, some 1)
  | .ldLoc2 => some (.local, some 2)
  | .ldLoc3 => some (.local, some 3)
  | .ldLoc4 => some (.local, some 4)
  | .ldLoc5 => some (.local, some 5)
  | .ldLoc6 => some (.local, some 6)
  | .ldLoc => some (.local, none)
  | .ldArg0 => some (.argument, some 0)
  | .ldArg1 => some (.argument, some 1)
  | .ldArg2 => some (.argument, some 2)
  | .ldArg3 => some (.argument, some 3)
  | .ldArg4 => some (.argument, some 4)
  | .ldArg5 => some (.argument, some 5)
  | .ldArg6 => some (.argument, some 6)
  | .ldArg => some (.argument, none)
  | _ => none

/-- The kind of variables that an opcode stores, with the index if it is built into the opcode. -/
def Opcode.stores? : Opcode → Option (SlotKind × Option Nat)
  | .stSFld0 => some (.static, some 0)
  | .stSFld1 => some (.static, some 1)
  | .stSFld2 => some (.static, some 2)
  | .stSFld3 => some (.static, some 3)
  | .stSFld4 => some (.static, some 4)
  | .stSFld5 => some (.static, some 5)
  | .stSFld6 => some (.static, some 6)
  | .stSFld => some (.static, none)
  | .stLoc0 => some (.local, some 0)
  | .stLoc1 => some (.local, some 1)
  | .stLoc2 => some (.local, some 2)
  | .stLoc3 => some (.local, some 3)
  | .stLoc4 => some (.local, some 4)
  | .stLoc5 => some (.local, some 5)
  | .stLoc6 => some (.local, some 6)
  | .stLoc => some (.local, none)
  | .stArg0 => some (.argument, some 0)
  | .stArg1 => some (.argument, some 1)
  | .stArg2 => some (.argument, some 2)
  | .stArg3 => some (.argument, some 3)
  | .stArg4 => some (.argument, some 4)
  | .stArg5 => some (.argument, some 5)
  | .stArg6 => some (.argument, some 6)
  | .stArg => some (.argument, none)
  | _ => none

namespace Instruction

/-- A byte of the operand as a number. -/
def operandByte (i : Instruction) (place : Nat) : Nat :=
  (i.operand.getD place 0).toNat

/-- The variable that the instruction loads. -/
def loadedSlot? (i : Instruction) : Option (SlotKind × Nat) :=
  i.opcode.loads?.map fun form => (form.1, form.2.getD (i.operandByte 0))

/-- The variable that the instruction stores. -/
def storedSlot? (i : Instruction) : Option (SlotKind × Nat) :=
  i.opcode.stores?.map fun form => (form.1, form.2.getD (i.operandByte 0))

/-- One byte of the operand can be read where there is one. -/
lemma unsignedToken_byte (i : Instruction) (place : Nat) :
    i.unsignedToken place 1 =
      if place < i.operand.length then .ok (i.operandByte place)
      else .error (.invalidOperand i.opcode) := by
  unfold unsignedToken token operandByte
  by_cases hplace : place < i.operand.length
  · have hbytes : (i.operand.drop place).take 1 = [i.operand[place]] := by
      rw [List.drop_eq_getElem_cons hplace]
      rfl
    have hbyte : i.operand.getD place 0 = i.operand[place] := by
      simp [List.getD_eq_getElem?_getD, hplace]
    rw [if_pos (by omega), if_pos hplace, hbytes, hbyte]
    simp [Except.map, LittleEndian.toNat]
  · rw [if_neg (by omega), if_neg hplace]
    rfl

end Instruction

namespace Semantics

/-- The index that is built into an opcode of the family that begins with `first`. -/
def builtIn? (first op : Opcode) : Option Nat :=
  if op.byte.toNat - first.byte.toNat < shortForms then some (op.byte.toNat - first.byte.toNat)
  else none

lemma variableIndex_eq (first : Opcode) (i : Instruction) :
    variableIndex first i =
      match builtIn? first i.opcode with
      | some index => .ok index
      | none => i.unsignedToken 0 1 := by
  unfold variableIndex builtIn?
  simp only
  split <;> rfl

/-- The index can be told if it is built in or there is an operand, and it is the one that the
instruction names. -/
lemma variableIndex_eq_ok_iff {first : Opcode} {i : Instruction} {index : Nat} :
    variableIndex first i = .ok index ↔
      (builtIn? first i.opcode = none → 0 < i.operand.length) ∧
        (builtIn? first i.opcode).getD (i.operandByte 0) = index := by
  rw [variableIndex_eq, i.unsignedToken_byte]
  cases builtIn? first i.opcode with
  | some built => simp
  | none =>
    by_cases hoperand : 0 < i.operand.length
    · simp [hoperand]
    · simp [hoperand]

end Semantics

/-- An opcode loads variables of a kind if it is bound to the handler that does, and the index that
it has built in is its place in the family. -/
lemma Opcode.loads?_eq (op : Opcode) :
    op.loads? =
      match JumpTable.standard.handler op with
      | .load kind => some (kind, Semantics.builtIn? (Handler.firstLoad kind) op)
      | _ => none := by
  cases op <;> rfl

/-- So it is with the opcodes that store variables. -/
lemma Opcode.stores?_eq (op : Opcode) :
    op.stores? =
      match JumpTable.standard.handler op with
      | .store kind => some (kind, Semantics.builtIn? (Handler.firstStore kind) op)
      | _ => none := by
  cases op <;> rfl

/-- A load that has no index built in has it in an operand of one byte. -/
lemma Opcode.layout_of_loads? {op : Opcode} {kind : SlotKind} (h : op.loads? = some (kind, none)) :
    op.layout = .fixed 1 := by
  cases op with
  | ldSFld | ldLoc | ldArg => rfl
  | _ => cases h

/-- So does a store. -/
lemma Opcode.layout_of_stores? {op : Opcode} {kind : SlotKind}
    (h : op.stores? = some (kind, none)) : op.layout = .fixed 1 := by
  cases op with
  | stSFld | stLoc | stArg => rfl
  | _ => cases h

namespace Instruction

variable {i : Instruction} {kind : SlotKind} {index : Nat}

/-- There is an operand of one byte. -/
lemma operand_pos (hadmits : i.opcode.layout.Admits i.operand.length)
    (hlayout : i.opcode.layout = .fixed 1) : 0 < i.operand.length := by
  rw [hlayout] at hadmits
  have hlength : i.operand.length = 1 := hadmits
  omega

/-- An instruction that loads a variable is bound to the handler that does, which finds the same
index. -/
lemma load_of_loadedSlot? (hadmits : i.opcode.layout.Admits i.operand.length)
    (h : i.loadedSlot? = some (kind, index)) :
    JumpTable.standard.handler i.opcode = .load kind ∧
      Semantics.variableIndex (Handler.firstLoad kind) i = .ok index := by
  obtain ⟨⟨kind', built⟩, hform, heq⟩ := Option.map_eq_some_iff.1 h
  obtain ⟨rfl, rfl⟩ := Prod.mk.inj heq
  have hloads := hform
  rw [Opcode.loads?_eq] at hform
  split at hform
  · next hhandler =>
    cases hform
    refine ⟨hhandler, Semantics.variableIndex_eq_ok_iff.2 ⟨fun hnone => ?_, rfl⟩⟩
    exact operand_pos hadmits (Opcode.layout_of_loads? (hnone ▸ hloads))
  · cases hform

/-- So is one that stores a variable. -/
lemma store_of_storedSlot? (hadmits : i.opcode.layout.Admits i.operand.length)
    (h : i.storedSlot? = some (kind, index)) :
    JumpTable.standard.handler i.opcode = .store kind ∧
      Semantics.variableIndex (Handler.firstStore kind) i = .ok index := by
  obtain ⟨⟨kind', built⟩, hform, heq⟩ := Option.map_eq_some_iff.1 h
  obtain ⟨rfl, rfl⟩ := Prod.mk.inj heq
  have hstores := hform
  rw [Opcode.stores?_eq] at hform
  split at hform
  · next hhandler =>
    cases hform
    refine ⟨hhandler, Semantics.variableIndex_eq_ok_iff.2 ⟨fun hnone => ?_, rfl⟩⟩
    exact operand_pos hadmits (Opcode.layout_of_stores? (hnone ▸ hstores))
  · cases hform

/-- An instruction that is bound to this handler stores the variable that the handler finds. -/
lemma storedSlot?_of_store (hhandler : JumpTable.standard.handler i.opcode = .store kind)
    (hindex : Semantics.variableIndex (Handler.firstStore kind) i = .ok index) :
    i.storedSlot? = some (kind, index) := by
  have hbuilt := (Semantics.variableIndex_eq_ok_iff.1 hindex).2
  unfold storedSlot?
  rw [Opcode.stores?_eq, hhandler, Option.map_some, hbuilt]

end Instruction

/-! ## Events -/

/-- What an instruction that succeeds does to the slot of a kind, in a world in front of it. -/
def World.slotEvent? (w : World) (i : Instruction) (kind : SlotKind) : Option SlotEvent :=
  match i.storedSlot? with
  | some (stored, index) =>
    if stored = kind then some (.stored index (w.stack.view 0)) else none
  | none =>
    match i.opcode, kind with
    | .initSSlot, .static | .initSlot, .local =>
      some (.initialized (List.replicate (i.operandByte 0) .null))
    | .initSlot, .argument =>
      some (.initialized ((List.range (i.operandByte 1)).map w.stack.view))
    | _, _ => none

/-- An instruction that stores a variable is an event for the slot of that variable. -/
lemma World.slotEvent?_of_stored (w : World) {i : Instruction} {kind : SlotKind} {index : Nat}
    (h : i.storedSlot? = some (kind, index)) :
    w.slotEvent? i = fun k => if kind = k then some (.stored index (w.stack.view 0)) else none := by
  funext k
  unfold slotEvent?
  rw [h]

/-- The instruction that initializes static fields is an event for these only. -/
lemma World.slotEvent?_of_initSSlot (w : World) {i : Instruction} (h : i.opcode = .initSSlot) :
    w.slotEvent? i = fun k =>
      if SlotKind.static = k then some (.initialized (List.replicate (i.operandByte 0) .null))
      else none := by
  funext k
  unfold slotEvent? Instruction.storedSlot?
  rw [h]
  cases k <;> rfl

/-- The instruction that initializes the slots of a frame is an event for both of them. -/
lemma World.slotEvent?_of_initSlot (w : World) {i : Instruction} (h : i.opcode = .initSlot) :
    w.slotEvent? i = fun k =>
      match k with
      | .static => none
      | .local => some (.initialized (List.replicate (i.operandByte 0) .null))
      | .argument =>
        some (.initialized ((List.range (i.operandByte 1)).map w.stack.view)) := by
  funext k
  unfold slotEvent? Instruction.storedSlot?
  rw [h]
  cases k <;> rfl

/-- The variables of a kind that a frame in a world has access to. -/
def Frame.variables (f : Frame) (w : World) : SlotKind → Variables
  | .static => w.statics
  | .local => f.locals
  | .argument => f.arguments

/-- What variables become if something happens to them, or nothing. -/
def Variables.Becomes (event : Option SlotEvent) (v v' : Variables) : Prop :=
  match event with
  | none => v' = v
  | some event => v.apply event = .ok v'

variable {s s' : State} {w w' : World} {f : Frame} {rest : List Frame} {i : Instruction}
  {kind : SlotKind}

/-- The state has one world and, on top of some frames, one whose slots are what events have made of
those of a frame in a world. -/
def State.SlotsBecome (events : SlotKind → Option SlotEvent) (f : Frame) (rest : List Frame)
    (w : World) (s : State) : Prop :=
  ∃ f' w', s.frames = f' :: rest ∧ s.worlds = #[w'] ∧ f'.world = 0 ∧
    ∀ kind, (f.variables w kind).Becomes (events kind) (f'.variables w' kind)

/-- However a computation ends: the events have happened if it succeeds, and none if it fails. -/
def Exec.SlotsOutcome {α : Type} (events : SlotKind → Option SlotEvent) (f : Frame)
    (rest : List Frame) (w : World) : EStateM.Result ExecutionError State α → Prop
  | .ok _ s => s.SlotsBecome events f rest w
  | .error _ s => s.SlotsBecome (fun _ => none) f rest w

/-- The slots of a frame depend on the world by its static fields only. -/
lemma Frame.variables_congr (hstatics : w'.statics = w.statics) (kind : SlotKind) :
    f.variables w' kind = f.variables w kind := by
  cases kind with
  | static => exact hstatics
  | «local» | argument => rfl

namespace State.WorksIn

/-- The current frame of a state that works in its only world. -/
lemma world_eq (h : s.WorksIn w) (hframes : s.frames = f :: rest) : f.world = 0 := by
  obtain ⟨f', rest', hs, hworld⟩ := h.frame
  rw [hframes] at hs
  cases hs
  exact hworld

/-- Events have happened to the slots of the current frame. -/
lemma slotsBecome {events : SlotKind → Option SlotEvent} {f' : Frame} (h : s.WorksIn w')
    (hframes : s.frames = f' :: rest)
    (hbecome : ∀ kind, (f.variables w kind).Becomes (events kind) (f'.variables w' kind)) :
    s.SlotsBecome events f rest w :=
  ⟨f', w', hframes, h.worlds, h.world_eq hframes, hbecome⟩

/-- Nothing has happened to the slots. -/
lemma slotsSame (h : s.WorksIn w') (hframes : s.frames = f :: rest)
    (hstatics : w'.statics = w.statics) : s.SlotsBecome (fun _ => none) f rest w :=
  h.slotsBecome hframes fun kind => Frame.variables_congr hstatics kind

end State.WorksIn

/-! ## Work in one world -/

namespace Exec

/-- Popping several items gives them from the top of the view on. -/
lemma exists_popMany (h : s.WorksIn w) (count : Nat) :
    ∃ s', popMany count s = .ok ((List.range count).map w.stack.view) s' ∧
      s'.WorksIn { w with stack := (w.stack.popMany count).2 } ∧ s'.frames = s.frames := by
  have hpop := exists_onWorld h fun w =>
    ((w.stack.popMany count).1, { w with stack := (w.stack.popMany count).2 })
  rwa [w.stack.popMany_fst] at hpop

end Exec

namespace Semantics

open Exec

/-- The variables that the current frame has access to. -/
lemma variablesOf_of_worksIn (h : s.WorksIn w) (hframes : s.frames = f :: rest)
    (kind : SlotKind) : variablesOf kind s = .ok (f.variables w kind) s := by
  cases kind with
  | static => exact bind_of_ok (world_of_worksIn h)
  | «local» | argument => exact bind_of_ok (frame_eq hframes)

/-- Variables of a kind can be replaced, and the others are the same. -/
lemma exists_setVariables_frames (h : s.WorksIn w) (hframes : s.frames = f :: rest)
    (kind : SlotKind) (v : Variables) :
    ∃ s' f' w', setVariables kind v s = .ok () s' ∧ s'.WorksIn w' ∧ s'.frames = f' :: rest ∧
      ∀ k, f'.variables w' k = if k = kind then v else f.variables w k := by
  have hworld := h.world_eq hframes
  have hset (g : Frame) (hg : g.world = 0) : ∃ s', setFrame g s = .ok () s' ∧ s'.WorksIn w ∧
      s'.frames = g :: rest := by
    refine ⟨{ s with frames := g :: rest }, ?_, ⟨h.worlds, g, rest, rfl, hg⟩, rfl⟩
    simp [setFrame, hframes]
  -- Static fields are replaced in the world, locals and arguments in the frame.
  cases kind with
  | static =>
    obtain ⟨s', hmodify, h', hframes'⟩ :=
      exists_onWorld h fun w => ((), { w with statics := v })
    exact ⟨s', f, _, hmodify, h', hframes'.trans hframes, fun k => by cases k <;> rfl⟩
  | «local» =>
    obtain ⟨s', hput, h', hframes'⟩ := hset { f with locals := v } hworld
    refine ⟨s', _, w, ?_, h', hframes', fun k => by cases k <;> rfl⟩
    unfold setVariables
    simp only [bind_of_ok (frame_eq hframes)]
    exact hput
  | argument =>
    obtain ⟨s', hput, h', hframes'⟩ := hset { f with arguments := v } hworld
    refine ⟨s', _, w, ?_, h', hframes', fun k => by cases k <;> rfl⟩
    unfold setVariables
    simp only [bind_of_ok (frame_eq hframes)]
    exact hput

/-! ## Instructions on variables -/

variable {first : Opcode}

/-- A load pushes the value of its variable if it has one, and otherwise fails. -/
lemma load_cases (h : s.WorksIn w) (hframes : s.frames = f :: rest) (kind : SlotKind) {index : Nat}
    (hindex : variableIndex first i = .ok index) :
    (∃ x s' w', (f.variables w kind).load index = .ok x ∧ load kind first i s = .ok () s' ∧
      s'.frames = s.frames ∧ s'.WorksIn w' ∧ w'.stack = w.stack.push x.constant) ∨
    ∃ e, (f.variables w kind).load index = .error e ∧ load kind first i s = .error e s := by
  unfold load
  rw [hindex, bind_of_ok (liftM_eq_ok.2 ⟨rfl, rfl⟩),
    bind_of_ok (variablesOf_of_worksIn h hframes kind)]
  cases hload : (f.variables w kind).load index with
  | error e => exact .inr ⟨e, rfl, rfl⟩
  | ok x =>
    rw [bind_of_ok (liftM_eq_ok.2 ⟨rfl, rfl⟩), bind_of_ok (isTracked_of_worksIn h kind)]
    split
    · obtain ⟨s₁, hrecord, h₁, hs₁⟩ := exists_onWorld h fun w => ((), { w with
        tracker := some ((w.tracker.getD .empty).recordRead (.slot kind index) i.offset) })
      change recordRead _ _ _ = _ at hrecord
      obtain ⟨s₂, hpush, h₂, hs₂⟩ := exists_push h₁ x
      simp only
      rw [bind_of_ok hrecord]
      exact .inl ⟨x, s₂, _, rfl, hpush, hs₂.trans hs₁, h₂, rfl⟩
    · obtain ⟨s₁, hpush, h₁, hs₁⟩ := exists_push h x
      exact .inl ⟨x, s₁, _, rfl, hpush, hs₁, h₁, rfl⟩

/-- A store gives its variable the item on top of the stack if it can be stored, and otherwise fails
and changes no slot. -/
lemma store_cases (h : s.WorksIn w) (hframes : s.frames = f :: rest) (kind : SlotKind) {index : Nat}
    (hindex : variableIndex first i = .ok index) :
    (∃ v s', (f.variables w kind).store index (w.stack.view 0) = .ok v ∧
      store kind first i s = .ok () s' ∧
      s'.SlotsBecome (fun k => if kind = k then some (.stored index (w.stack.view 0)) else none) f
        rest w) ∨
    ∃ e s', (f.variables w kind).store index (w.stack.view 0) = .error e ∧
      store kind first i s = .error e s' ∧ s'.SlotsBecome (fun _ => none) f rest w := by
  -- The item is popped in any case, which no slot depends on.
  obtain ⟨s₁, hpop, h₁, hframes₁⟩ := exists_pop h
  have hs₁ := hframes₁.trans hframes
  have hsame (k : SlotKind) :
      f.variables { w with stack := w.stack.pop.2 } k = f.variables w k :=
    Frame.variables_congr rfl k
  have hv := variablesOf_of_worksIn h₁ hs₁ kind
  rw [hsame] at hv
  unfold store
  rw [hindex, bind_of_ok (liftM_eq_ok.2 ⟨rfl, rfl⟩), bind_of_ok hpop, bind_of_ok hv]
  cases hstore : (f.variables w kind).store index (w.stack.view 0) with
  | error e => exact .inr ⟨e, s₁, rfl, rfl, h₁.slotsSame hs₁ rfl⟩
  | ok v =>
    obtain ⟨s₂, f', w', hset, h₂, hs₂, hvariables⟩ := exists_setVariables_frames h₁ hs₁ kind v
    have hbecome (k : SlotKind) : (f.variables w k).Becomes
        (if kind = k then some (.stored index (w.stack.view 0)) else none)
        (f'.variables w' k) := by
      rw [hvariables k]
      by_cases hk : kind = k
      · subst hk
        rw [if_pos rfl, if_pos rfl]
        exact hstore
      · rw [if_neg hk, if_neg (Ne.symm hk)]
        exact hsame k
    rw [bind_of_ok (liftM_eq_ok.2 ⟨rfl, rfl⟩), bind_of_ok hset,
      bind_of_ok (isTracked_of_worksIn h₂ kind)]
    split
    · obtain ⟨s₃, hrecord, h₃, hs₃⟩ := exists_onWorld h₂ fun w => ((), { w with
        tracker := some ((w.tracker.getD .empty).recordWrite (.slot kind index) i.offset) })
      change recordWrite _ _ _ = _ at hrecord
      refine .inl ⟨v, s₃, rfl, hrecord, h₃.slotsBecome (hs₃.trans hs₂) fun k => ?_⟩
      -- The record of accesses is no variable of any kind.
      cases k with
      | static | «local» | argument => exact hbecome _
    · exact .inl ⟨v, s₂, rfl, rfl, h₂.slotsBecome hs₂ hbecome⟩

/-- A store that cannot tell its variable does nothing. -/
lemma store_eq_error {e : ExecutionError} (hindex : variableIndex first i = .error e) :
    store kind first i s = .error e s := by
  unfold store
  rw [hindex]
  rfl

/-- Initializing static fields gives as many of them as the operand says, or changes no slot. -/
lemma allocateStatics_slots (h : s.WorksIn w) (hframes : s.frames = f :: rest) :
    SlotsOutcome (fun k => if SlotKind.static = k then
      some (.initialized (List.replicate (i.operandByte 0) .null)) else none) f rest w
      (allocateStatics i s) := by
  have hfails : s.SlotsBecome (fun _ => none) f rest w := h.slotsSame hframes rfl
  unfold allocateStatics
  rw [i.unsignedToken_byte 0]
  split
  · rw [bind_of_ok (liftM_eq_ok.2 ⟨rfl, rfl⟩)]
    split
    · exact hfails
    · simp only
      rw [bind_of_ok (variablesOf_of_worksIn h hframes .static)]
      cases hallocate : w.statics.allocate (i.operandByte 0) with
      | error e =>
        simp only [Frame.variables, hallocate]
        exact hfails
      | ok v =>
        obtain ⟨s', f', w', hset, h', hs', hvariables⟩ :=
          exists_setVariables_frames h hframes .static v
        simp only [Frame.variables, hallocate]
        rw [bind_of_ok (liftM_eq_ok.2 ⟨rfl, rfl⟩), hset]
        refine h'.slotsBecome hs' fun k => ?_
        rw [hvariables k]
        cases k with
        | static => exact hallocate
        | «local» | argument => rfl
  · exact hfails

/-- Initializing the slots of a frame gives as many locals as the operand says, which are null, and
as many arguments as it says, which come from the stack; or it changes no slot. -/
lemma allocateFrame_slots (h : s.WorksIn w) (hframes : s.frames = f :: rest) :
    SlotsOutcome (fun k =>
      match k with
      | .static => none
      | .local => some (.initialized (List.replicate (i.operandByte 0) .null))
      | .argument => some (.initialized ((List.range (i.operandByte 1)).map w.stack.view)))
      f rest w (allocateFrame i s) := by
  have hfails : s.SlotsBecome (fun _ => none) f rest w := h.slotsSame hframes rfl
  unfold allocateFrame
  rw [i.unsignedToken_byte 0, i.unsignedToken_byte 1]
  split
  · rw [bind_of_ok (liftM_eq_ok.2 ⟨rfl, rfl⟩)]
    split
    · rw [bind_of_ok (liftM_eq_ok.2 ⟨rfl, rfl⟩)]
      split
      · exact hfails
      · simp only
        rw [bind_of_ok (frame_eq hframes)]
        split
        · exact hfails
        · next hlocals =>
          split
          · exact hfails
          · next harguments =>
            -- From here on nothing can fail.
            obtain ⟨s₁, hpop, h₁, hs₁⟩ := exists_popMany h (i.operandByte 1)
            obtain ⟨v, hv⟩ : ∃ v, f.locals.allocate (i.operandByte 0) = .ok v := by
              unfold Variables.allocate Variables.allocateWith
              rw [if_neg hlocals]
              exact ⟨_, rfl⟩
            obtain ⟨v', hv'⟩ : ∃ v', f.arguments.allocateWith
                ((List.range (i.operandByte 1)).map w.stack.view) = .ok v' := by
              unfold Variables.allocateWith
              rw [if_neg harguments]
              exact ⟨_, rfl⟩
            obtain ⟨s₂, f₂, w₂, hset, h₂, hs₂, hvariables⟩ :=
              exists_setVariables_frames h₁ (hs₁.trans hframes) .local v
            obtain ⟨s₃, f₃, w₃, hset', h₃, hs₃, hvariables'⟩ :=
              exists_setVariables_frames h₂ hs₂ .argument v'
            rw [bind_of_ok hpop, hv, bind_of_ok (liftM_eq_ok.2 ⟨rfl, rfl⟩), bind_of_ok hset, hv',
              bind_of_ok (liftM_eq_ok.2 ⟨rfl, rfl⟩), hset']
            refine h₃.slotsBecome hs₃ fun k => ?_
            rw [hvariables' k, hvariables k]
            cases k with
            | static => rfl
            | «local» => exact hv
            | argument => exact hv'
    · exact hfails
  · exact hfails

/-- Static fields that are initialized cannot be initialized again, and nothing changes. -/
lemma allocateStatics_refused (h : s.WorksIn w) (hsize : w.statics.size? ≠ none) (i : Instruction) :
    ∃ e, allocateStatics i s = .error e s := by
  obtain ⟨f, rest, hframes, -⟩ := h.frame
  unfold allocateStatics
  cases i.unsignedToken 0 1 with
  | error e => exact ⟨e, rfl⟩
  | ok count =>
    rw [bind_of_ok (liftM_eq_ok.2 ⟨rfl, rfl⟩)]
    split
    · exact ⟨_, rfl⟩
    · simp only
      rw [bind_of_ok (variablesOf_of_worksIn h hframes .static)]
      have hrefused : w.statics.allocate count =
          .error (.slotAlreadyInitialized w.statics.kind) := by
        rcases w.statics.allocateWith_cases (List.replicate count .null) with
          ⟨hnone, -⟩ | ⟨-, hfails⟩
        · exact absurd hnone hsize
        · exact hfails
      simp only [Frame.variables, hrefused]
      exact ⟨_, rfl⟩

/-- So it is with the locals and the arguments of a frame, of which either may be initialized. -/
lemma allocateFrame_refused (hframes : s.frames = f :: rest)
    (hsize : f.locals.size? ≠ none ∨ f.arguments.size? ≠ none) (i : Instruction) :
    ∃ e, allocateFrame i s = .error e s := by
  unfold allocateFrame
  cases i.unsignedToken 0 1 with
  | error e => exact ⟨e, rfl⟩
  | ok locals =>
    rw [bind_of_ok (liftM_eq_ok.2 ⟨rfl, rfl⟩)]
    cases i.unsignedToken 1 1 with
    | error e => exact ⟨e, rfl⟩
    | ok arguments =>
      rw [bind_of_ok (liftM_eq_ok.2 ⟨rfl, rfl⟩)]
      split
      · exact ⟨_, rfl⟩
      · simp only
        rw [bind_of_ok (frame_eq hframes)]
        split
        · exact ⟨_, rfl⟩
        · next hlocals =>
          split
          · exact ⟨_, rfl⟩
          · next harguments =>
            rw [Variables.isInitialized_eq, Option.isSome_iff_ne_none] at hlocals harguments
            rcases hsize with hsome | hsome
            · exact absurd hsome hlocals
            · exact absurd hsome harguments

end Semantics

/-! ## All other instructions -/

/-- Frames and static fields are the same, and so are the slots of all frames. -/
structure State.SameSlots (s s' : State) : Prop where
  /-- The frames are the same. -/
  frames : s'.frames = s.frames
  /-- There are as many worlds. -/
  size : s'.worlds.size = s.worlds.size
  /-- The static fields are the same. -/
  statics : ∀ index, (s'.worldAt index).statics = (s.worldAt index).statics

namespace State

instance : Std.Refl SameSlots where
  refl _ := ⟨rfl, rfl, fun _ => rfl⟩

instance : IsTrans State SameSlots where
  trans _ _ _ hst htu :=
    { frames := htu.frames.trans hst.frames
      size := htu.size.trans hst.size
      statics := fun index => (htu.statics index).trans (hst.statics index) }

/-- Work on stack and heap does not touch slots. -/
lemma Confined.sameSlots (h : s.Confined s') : s.SameSlots s' :=
  ⟨h.frames, h.size, fun index => (h.world index).statics⟩

/-- Where slots are the same, nothing has happened to those of the current frame. -/
lemma SameSlots.slotsBecome (hsame : s.SameSlots s') (h : s.WorksIn w)
    (hframes : s.frames = f :: rest) : s'.SlotsBecome (fun _ => none) f rest w := by
  have hsize : s'.worlds.size = 1 := by
    rw [hsame.size, h.worlds]
    rfl
  obtain ⟨w', hw'⟩ := Array.size_eq_one_iff.1 hsize
  have hs' : s'.frames = f :: rest := hsame.frames.trans hframes
  have h' : s'.WorksIn w' := ⟨hw', f, rest, hs', h.world_eq hframes⟩
  refine h'.slotsSame hs' ?_
  rw [← h'.worldAt, ← h.worldAt]
  exact hsame.statics 0

end State

namespace Exec

open State (SameSlots)

/-- What is confined does not touch slots. -/
lemma Keeps.sameSlots {α : Type} {x : Exec α} (h : Keeps State.Confined x) : Keeps SameSlots x :=
  h.mono fun _ _ => State.Confined.sameSlots

lemma modifyWorld_sameSlots {change : World → World} (h : ∀ w, (change w).statics = w.statics) :
    Keeps SameSlots (modifyWorld change) := by
  intro s
  unfold after modifyWorld onWorld
  cases s.frames with
  | nil => exact Std.Refl.refl s
  | cons f rest =>
    refine ⟨rfl, s.size_setWorld _ _, fun index => ?_⟩
    rw [State.worldAt_setWorld]
    split
    · next hi => rw [h, hi.1]
    · rfl

/-- Whatever keeps the slots is an outcome to which nothing has happened. -/
lemma Keeps.slotsOutcome {x : Exec Unit} (hx : Keeps SameSlots x) (h : s.WorksIn w)
    (hframes : s.frames = f :: rest) : SlotsOutcome (fun _ => none) f rest w (x s) := by
  have hsame := (hx s).slotsBecome h hframes
  cases hresult : x s with
  | ok u s' =>
    rw [after_of_ok hresult] at hsame
    exact hsame
  | error e s' =>
    rw [after_of_error hresult] at hsame
    exact hsame

end Exec

namespace Semantics

open Exec
open State (SameSlots)

lemma modifyStorage_sameSlots (change : StorageView → StorageView) :
    Keeps SameSlots (modifyStorage change) :=
  modifyWorld_sameSlots fun _ => rfl

lemma recordWrite_sameSlots (a : Access) (offset : Nat) : Keeps SameSlots (recordWrite a offset) :=
  modifyWorld_sameSlots fun _ => rfl

lemma syscall_sameSlots (i : Instruction) : Keeps SameSlots (syscall i) := by
  refine (keeps_liftM _).bind fun hash => ?_
  split
  · exact keeps_throw _
  · exact ((keeps_fresh _).bind fun _ => keeps_push _).sameSlots
  · exact ((keeps_fresh _).bind fun _ => keeps_push _).sameSlots
  · exact keeps_pop.sameSlots.bind fun _ => keeps_popKey.sameSlots.bind fun _ =>
      (keeps_recordRead _ _).sameSlots.bind fun _ => (modifyStorage_sameSlots _).bind fun _ =>
      keeps_world.bind fun _ => keeps_freshId.sameSlots.bind fun _ => (keeps_push _).sameSlots
  · exact keeps_pop.sameSlots.bind fun _ => keeps_popKey.sameSlots.bind fun _ =>
      keeps_pop.sameSlots.bind fun _ => (recordWrite_sameSlots _ _).bind fun _ =>
      modifyStorage_sameSlots _
  · exact keeps_pop.sameSlots.bind fun _ => keeps_popKey.sameSlots.bind fun _ =>
      (recordWrite_sameSlots _ _).bind fun _ => modifyStorage_sameSlots _

end Semantics

/-- A handler that neither transfers control nor stores to variables nor initializes any does not
touch slots. -/
lemma Handler.run_sameSlots {handler : Handler} (config : Config) (i : Instruction)
    (htransfers : handler.transfers = false) (hstore : ∀ kind, handler ≠ .store kind)
    (hstatics : handler ≠ .allocateStatics) (hframe : handler ≠ .allocateFrame) :
    Exec.Keeps State.SameSlots (handler.run config i) := by
  cases hstores : handler.storesData with
  | false => exact (Handler.run_confined config i htransfers hstores).sameSlots
  | true =>
    cases handler with
    | store kind => exact absurd rfl (hstore kind)
    | allocateStatics => exact absurd rfl hstatics
    | allocateFrame => exact absurd rfl hframe
    | syscall => exact Semantics.syscall_sameSlots i
    | _ => cases hstores

/-- An instruction is an event for slots only if it is bound to one of three handlers. -/
lemma World.slotEvent?_eq_none (w : World)
    (hstore : ∀ kind, JumpTable.standard.handler i.opcode ≠ .store kind)
    (hstatics : JumpTable.standard.handler i.opcode ≠ .allocateStatics)
    (hframe : JumpTable.standard.handler i.opcode ≠ .allocateFrame) :
    w.slotEvent? i = fun _ => none := by
  have hnone : i.storedSlot? = none := by
    unfold Instruction.storedSlot?
    rw [Opcode.stores?_eq]
    split
    · next kind hhandler => exact absurd hhandler (hstore kind)
    · rfl
  funext kind
  unfold slotEvent?
  rw [hnone]
  obtain ⟨offset, op, operand⟩ := i
  -- What does not store is an event for two opcodes only, and both are excluded.
  cases op with
  | initSSlot => exact absurd rfl hstatics
  | initSlot => exact absurd rfl hframe
  | _ => cases kind <;> rfl

/-- An instruction that does not transfer control is the event for the slots of the current frame
that its text says, if it succeeds, and none if it fails. -/
theorem JumpTable.dispatch_slots (config : Config) (h : s.WorksIn w)
    (hframes : s.frames = f :: rest)
    (htransfers : (standard.handler i.opcode).transfers = false) :
    Exec.SlotsOutcome (w.slotEvent? i) f rest w (standard.dispatch config i s) := by
  unfold dispatch
  cases hhandler : standard.handler i.opcode with
  | store kind =>
    change Exec.SlotsOutcome _ _ _ _ (Semantics.store kind (Handler.firstStore kind) i s)
    cases hindex : Semantics.variableIndex (Handler.firstStore kind) i with
    | ok index =>
      have hstored : i.storedSlot? = some (kind, index) :=
        Instruction.storedSlot?_of_store hhandler hindex
      rw [w.slotEvent?_of_stored hstored]
      rcases Semantics.store_cases h hframes kind hindex with
        ⟨v, s', -, hstored, hbecome⟩ | ⟨e, s', -, hfails, hbecome⟩
      · rw [hstored]
        exact hbecome
      · rw [hfails]
        exact hbecome
    | error e =>
      rw [Semantics.store_eq_error hindex]
      exact h.slotsSame hframes rfl
  | allocateStatics =>
    have hop : i.opcode = .initSSlot := by
      by_contra hne
      exact JumpTable.handler_ne_allocateStatics hne hhandler
    rw [w.slotEvent?_of_initSSlot hop]
    exact Semantics.allocateStatics_slots h hframes
  | allocateFrame =>
    have hop : i.opcode = .initSlot := by
      by_contra hne
      exact JumpTable.handler_ne_allocateFrame hne hhandler
    rw [w.slotEvent?_of_initSlot hop]
    exact Semantics.allocateFrame_slots h hframes
  | _ =>
    have hnone : w.slotEvent? i = fun _ => none :=
      w.slotEvent?_eq_none (by rw [hhandler]; exact nofun) (by rw [hhandler]; exact nofun)
        (by rw [hhandler]; exact nofun)
    rw [hnone]
    rw [hhandler] at htransfers
    exact (Handler.run_sameSlots config i htransfers nofun nofun nofun).slotsOutcome h hframes

end SymbolicScript
