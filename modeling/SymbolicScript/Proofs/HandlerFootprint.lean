import SymbolicScript.Proofs.HandlerWork

/-!
# The footprint of every handler

Handlers fall into three groups.  Those that work on the stack and the heap change nothing else
(`Handler.run_confined`).  Those that store to variables, initialize variables or call the host
change data but no control state, so that together with the first group they preserve the skeleton
of the invocation stack (`Handler.run_sameSkeleton`).  The remaining ones transfer control, and an
opcode bound to one of them by default is a block terminator
(`Opcode.isTerminator_of_transfers`).
-/

namespace SymbolicScript

/-- An opcode whose standard handler transfers control is a block terminator. -/
lemma Opcode.isTerminator_of_transfers {op : Opcode}
    (h : (JumpTable.standard.handler op).transfers = true) : op.isTerminator = true := by
  revert h
  cases op <;> decide

namespace JumpTable

/-- Only one opcode is bound to calls of the host. -/
lemma handler_ne_syscall {op : Opcode} (h : op ≠ .syscall) : standard.handler op ≠ .syscall := by
  cases op with
  | syscall => exact absurd rfl h
  | _ => nofun

/-- Only one opcode is bound to the initialization of the variables of a frame. -/
lemma handler_ne_allocateFrame {op : Opcode} (h : op ≠ .initSlot) :
    standard.handler op ≠ .allocateFrame := by
  cases op with
  | initSlot => exact absurd rfl h
  | _ => nofun

/-- Only one opcode is bound to the initialization of static fields. -/
lemma handler_ne_allocateStatics {op : Opcode} (h : op ≠ .initSSlot) :
    standard.handler op ≠ .allocateStatics := by
  cases op with
  | initSSlot => exact absurd rfl h
  | _ => nofun

/-- Only the opcodes that store static fields are bound to the handler that does. -/
lemma handler_ne_storeStatic {op : Opcode} (h : op.isStaticStore = false) :
    standard.handler op ≠ .store .static := by
  intro hhandler
  cases op with
  | stSFld0 | stSFld1 | stSFld2 | stSFld3 | stSFld4 | stSFld5 | stSFld6 | stSFld => cases h
  | _ => cases hhandler

end JumpTable

/-! ## Stack and heap -/

namespace Semantics

open Exec
open State (Confined)

@[simp] lemma keeps_variablesOf (kind : SlotKind) : Keeps Confined (variablesOf kind) := by
  cases kind <;> simp [variablesOf]

@[simp] lemma keeps_isTracked (kind : SlotKind) : Keeps Confined (isTracked kind) := by
  simp [isTracked]

@[simp] lemma keeps_load (kind : SlotKind) (first : Opcode) (i : Instruction) :
    Keeps Confined (load kind first i) :=
  (keeps_liftM _).bind fun _ => (keeps_variablesOf _).bind fun _ => (keeps_liftM _).bind fun _ =>
    by simp

end Semantics

/-- A handler that neither transfers control nor stores data changes stack and heap only. -/
theorem Handler.run_confined {handler : Handler} (config : Config) (i : Instruction)
    (htransfers : handler.transfers = false) (hstores : handler.storesData = false) :
    Exec.Keeps State.Confined (handler.run config i) := by
  cases hlocal : handler.worksLocally with
  | true =>
    have hwork : Exec.Local (fun _ => True) (handler.run config i) fun _ => True :=
      run_local config hlocal fun _ _ _ _ _ => trivial
    exact hwork.reworked.mono fun _ _ h => h.toConfined
  | false =>
    cases handler with
    | load kind => exact Semantics.keeps_load kind _ i
    | _ => simp_all [worksLocally]

/-! ## Data as a whole -/

/-- A frame without its variables: what decides where control goes. -/
def Frame.skeleton (f : Frame) : Frame :=
  { f with locals := .untouched .local, arguments := .untouched .argument }

/-- Frames with the same skeleton still have it after both are moved to the same position. -/
lemma Frame.skeleton_move {f g : Frame} (h : f.skeleton = g.skeleton) (position : Nat) :
    ({ f with position } : Frame).skeleton = ({ g with position } : Frame).skeleton :=
  congrArg (fun k : Frame => { k with position }) h

/-- Two states that differ at most in their data: the current frame stands at the same instruction,
in the same world and try blocks, the frames below it and the scripts are the same. -/
structure State.SameSkeleton (s s' : State) : Prop where
  /-- The current frame is the same up to its variables. -/
  head : s'.frames.head?.map Frame.skeleton = s.frames.head?.map Frame.skeleton
  /-- The frames below the current one are the same. -/
  tail : s'.frames.tail = s.frames.tail
  /-- The values returned so far are the same. -/
  result : s'.result = s.result
  /-- The status is the same. -/
  status : s'.status = s.status
  /-- The pending exception is the same. -/
  exception : s'.exception = s.exception
  /-- The mark of a jump is the same. -/
  jumping : s'.jumping = s.jumping
  /-- There are as many worlds. -/
  size : s'.worlds.size = s.worlds.size
  /-- The scripts are the same. -/
  script : ∀ i, (s'.worldAt i).script = (s.worldAt i).script
  /-- No recorded write is forgotten. -/
  writes : ∀ i a, (s.worldAt i).writes.contains a → (s'.worldAt i).writes.contains a

namespace State

instance : Std.Refl SameSkeleton where
  refl _ := ⟨rfl, rfl, rfl, rfl, rfl, rfl, rfl, fun _ => rfl, fun _ _ h => h⟩

instance : IsTrans State SameSkeleton where
  trans _ _ _ hst htu :=
    { head := htu.head.trans hst.head
      tail := htu.tail.trans hst.tail
      result := htu.result.trans hst.result
      status := htu.status.trans hst.status
      exception := htu.exception.trans hst.exception
      jumping := htu.jumping.trans hst.jumping
      size := htu.size.trans hst.size
      script := fun i => (htu.script i).trans (hst.script i)
      writes := fun i a h => htu.writes i a (hst.writes i a h) }

/-- Confined changes preserve the skeleton. -/
lemma Confined.sameSkeleton {s s' : State} (h : s.Confined s') : s.SameSkeleton s' where
  head := by rw [h.frames]
  tail := by rw [h.frames]
  result := h.result
  status := h.status
  exception := h.exception
  jumping := h.jumping
  size := h.size
  script i := (h.world i).script
  writes i a hwritten := by rwa [(h.world i).writes]

/-- States with the same skeleton have the same depth. -/
lemma SameSkeleton.depth {s s' : State} (h : s.SameSkeleton s') : s'.depth = s.depth := by
  have hhead := h.head
  have htail := congrArg List.length h.tail
  unfold State.depth
  cases hs : s.frames <;> cases hs' : s'.frames <;> simp_all

/-- A frame on top of the others has a counterpart on top of the same others. -/
lemma SameSkeleton.frames_eq {s s' : State} (h : s.SameSkeleton s') {f : Frame}
    {rest : List Frame} (hs : s.frames = f :: rest) :
    ∃ f', s'.frames = f' :: rest ∧ f'.skeleton = f.skeleton := by
  have hhead := h.head
  have htail := h.tail
  rw [hs] at hhead htail
  cases hs' : s'.frames with
  | nil => simp [hs'] at hhead
  | cons f' rest' =>
    rw [hs'] at hhead htail
    have hrest : rest' = rest := htail
    exact ⟨f', by rw [hrest], Option.some.inj hhead⟩

end State

namespace Exec

open State (SameSkeleton)

/-- What is confined preserves the skeleton. -/
lemma Keeps.sameSkeleton {α : Type} {x : Exec α} (h : Keeps State.Confined x) :
    Keeps SameSkeleton x :=
  h.mono fun _ _ => State.Confined.sameSkeleton

/-- Changing the world of the current frame preserves the skeleton unless the script changes or a
write is forgotten. -/
lemma modifyWorld_sameSkeleton {change : World → World}
    (h : ∀ w, (change w).script = w.script)
    (hwrites : ∀ w a, w.writes.contains a → (change w).writes.contains a) :
    Keeps SameSkeleton (modifyWorld change) := by
  intro s
  unfold after modifyWorld onWorld
  cases s.frames with
  | nil => exact Std.Refl.refl s
  | cons f rest =>
    refine ⟨rfl, rfl, rfl, rfl, rfl, rfl, s.size_setWorld _ _, fun i => ?_, fun i a hwritten => ?_⟩
    · rw [State.worldAt_setWorld]
      split
      · next hi => rw [h, hi.1]
      · rfl
    · rw [State.worldAt_setWorld]
      split
      · next hi => exact hwrites _ a (hi.1 ▸ hwritten)
      · exact hwritten

/-- Replacing the current frame by one that differs in the variables preserves the skeleton. -/
lemma setFrame_sameSkeleton (change : Frame → Frame)
    (h : ∀ f, (change f).skeleton = f.skeleton) :
    Keeps SameSkeleton (do setFrame (change (← frame))) := by
  intro s
  cases hs : s.frames with
  | nil =>
    have hafter : Exec.after (do setFrame (change (← frame))) s = s := by
      simp [after, Bind.bind, EStateM.bind, frame, hs]
    rw [hafter]
    exact Std.Refl.refl s
  | cons f rest =>
    have hafter : Exec.after (do setFrame (change (← frame))) s =
        { s with frames := change f :: rest } := by
      simp [after, Bind.bind, EStateM.bind, frame, setFrame, hs]
    rw [hafter]
    exact ⟨by simp [hs, h], by simp [hs], rfl, rfl, rfl, rfl, rfl, fun _ => rfl, fun _ _ h => h⟩

end Exec

namespace Semantics

open Exec
open State (SameSkeleton)

lemma setVariables_sameSkeleton (kind : SlotKind) (v : Variables) :
    Keeps SameSkeleton (setVariables kind v) := by
  cases kind with
  | static => exact modifyWorld_sameSkeleton (fun _ => rfl) fun _ _ h => h
  | «local» => exact setFrame_sameSkeleton (fun f => { f with locals := v }) fun _ => rfl
  | argument =>
    exact setFrame_sameSkeleton (fun f => { f with arguments := v }) fun _ => rfl

lemma recordWrite_sameSkeleton (a : Access) (offset : Nat) :
    Keeps SameSkeleton (recordWrite a offset) :=
  modifyWorld_sameSkeleton (fun _ => rfl) fun w b h =>
    (w.writes.contains_insert a b offset).2 (.inr h)

variable (i : Instruction)

lemma store_sameSkeleton (kind : SlotKind) (first : Opcode) :
    Keeps SameSkeleton (store kind first i) :=
  (keeps_liftM _).bind fun _ => keeps_pop.sameSkeleton.bind fun _ =>
    (keeps_variablesOf kind).sameSkeleton.bind fun _ => (keeps_liftM _).bind fun _ =>
    (setVariables_sameSkeleton kind _).bind fun _ =>
    (keeps_isTracked kind).sameSkeleton.bind fun _ =>
    (recordWrite_sameSkeleton _ _).ite (keeps_pure _)

lemma allocateStatics_sameSkeleton : Keeps SameSkeleton (allocateStatics i) :=
  (keeps_liftM _).bind fun _ => .check fun _ =>
    (keeps_variablesOf .static).sameSkeleton.bind fun _ => (keeps_liftM _).bind fun _ =>
    setVariables_sameSkeleton .static _

lemma allocateFrame_sameSkeleton : Keeps SameSkeleton (allocateFrame i) :=
  (keeps_liftM _).bind fun _ => (keeps_liftM _).bind fun _ => .check fun _ =>
    keeps_frame.bind fun _ => .check fun _ => .check fun _ =>
    (keeps_popMany _).sameSkeleton.bind fun _ => (keeps_liftM _).bind fun _ =>
    (setVariables_sameSkeleton .local _).bind fun _ => (keeps_liftM _).bind fun _ =>
    setVariables_sameSkeleton .argument _

lemma modifyStorage_sameSkeleton (change : StorageView → StorageView) :
    Keeps SameSkeleton (modifyStorage change) :=
  modifyWorld_sameSkeleton (fun _ => rfl) fun _ _ h => h

@[simp] lemma keeps_popKey : Keeps State.Confined popKey :=
  local_popKey.reworked.mono fun _ _ h => h.toConfined

lemma storageGet_sameSkeleton : Keeps SameSkeleton (storageGet i) :=
  keeps_pop.sameSkeleton.bind fun _ => keeps_popKey.sameSkeleton.bind fun _ =>
    (keeps_recordRead _ _).sameSkeleton.bind fun _ => (modifyStorage_sameSkeleton _).bind fun _ =>
    keeps_world.bind fun _ => keeps_freshId.sameSkeleton.bind fun _ => (keeps_push _).sameSkeleton

lemma storagePut_sameSkeleton : Keeps SameSkeleton (storagePut i) :=
  keeps_pop.sameSkeleton.bind fun _ => keeps_popKey.sameSkeleton.bind fun _ =>
    keeps_pop.sameSkeleton.bind fun _ => (recordWrite_sameSkeleton _ _).bind fun _ =>
    modifyStorage_sameSkeleton _

lemma storageDelete_sameSkeleton : Keeps SameSkeleton (storageDelete i) :=
  keeps_pop.sameSkeleton.bind fun _ => keeps_popKey.sameSkeleton.bind fun _ =>
    (recordWrite_sameSkeleton _ _).bind fun _ => modifyStorage_sameSkeleton _

lemma syscall_sameSkeleton : Keeps SameSkeleton (syscall i) := by
  refine (keeps_liftM _).bind fun hash => ?_
  split
  · exact keeps_throw _
  · exact ((keeps_fresh _).bind fun _ => keeps_push _).sameSkeleton
  · exact ((keeps_fresh _).bind fun _ => keeps_push _).sameSkeleton
  · exact storageGet_sameSkeleton i
  · exact storagePut_sameSkeleton i
  · exact storageDelete_sameSkeleton i

end Semantics

/-- A handler that does not transfer control preserves the skeleton of the state. -/
theorem Handler.run_sameSkeleton {handler : Handler} (config : Config) (i : Instruction)
    (htransfers : handler.transfers = false) :
    Exec.Keeps State.SameSkeleton (handler.run config i) := by
  cases hstores : handler.storesData with
  | false => exact (Handler.run_confined config i htransfers hstores).sameSkeleton
  | true =>
    cases handler with
    | store kind => exact Semantics.store_sameSkeleton i kind _
    | allocateStatics => exact Semantics.allocateStatics_sameSkeleton i
    | allocateFrame => exact Semantics.allocateFrame_sameSkeleton i
    | syscall => exact Semantics.syscall_sameSkeleton i
    | _ => cases hstores

/-- Dispatching an instruction that is no terminator preserves the skeleton of the state. -/
theorem JumpTable.dispatch_sameSkeleton {i : Instruction} (config : Config)
    (hop : i.opcode.isTerminator = false) :
    Exec.Keeps State.SameSkeleton (JumpTable.standard.dispatch config i) := by
  refine Handler.run_sameSkeleton config i ?_
  cases htransfers : (JumpTable.standard.handler i.opcode).transfers with
  | false => rfl
  | true =>
    rw [Opcode.isTerminator_of_transfers htransfers] at hop
    cases hop

end SymbolicScript
