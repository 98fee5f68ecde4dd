import SymbolicScript.Proofs.BlockStarts
import SymbolicScript.Proofs.HandlerWork

/-!
# Guided states

Where control goes next is not only written in the instructions.  It is decided by pointers that
have been pushed long before, by the positions of the callers, and by the targets of the try blocks
that have been entered.  A state is guided by a set `L` of offsets if all of these belong to the set
(`State.Guided`).

While an instruction is being executed, one frame may stand elsewhere: the one that executes it, as
long as it has not jumped (`State.Underway`).  This file proves that the instructions which do not
transfer control maintain the property.
-/

namespace SymbolicScript

variable {L : Nat → Prop}

/-! ## Variables and storage -/

/-- All values that the variables have been given point into the set. -/
def VariableState.PointsInto (L : Nat → Prop) : VariableState → Prop
  | .uninitialized stored => ∀ index x, stored.find? index = some x → x.PointsInto L
  | .initialized items => ∀ x ∈ items, x.PointsInto L

/-- All values of the variables point into the set. -/
def Variables.PointsInto (L : Nat → Prop) (v : Variables) : Prop :=
  v.state.PointsInto L

namespace Variables.PointsInto

variable {v v' : Variables}

lemma untouched (kind : SlotKind) : (Variables.untouched kind).PointsInto L := nofun

/-- A variable has the value that it was given, or is an unknown. -/
lemma load {index : Nat} {x : Item} (h : v.PointsInto L) (hload : v.load index = .ok x) :
    x.PointsInto L :=
  All.load (P := Item.PointsInto L) h (.symbolic rfl) hload

lemma store {index : Nat} {x : Item} (h : v.PointsInto L) (hx : x.PointsInto L)
    (hstore : v.store index x = .ok v') : v'.PointsInto L :=
  All.store (P := Item.PointsInto L) h hx hstore

lemma allocateWith {items : List Item} (hitems : ∀ x ∈ items, x.PointsInto L)
    (hallocate : v.allocateWith items = .ok v') : v'.PointsInto L :=
  All.allocateWith (P := Item.PointsInto L) hitems hallocate

lemma allocate {size : Nat} (hallocate : v.allocate size = .ok v') : v'.PointsInto L :=
  All.allocate (P := Item.PointsInto L) .null hallocate

end Variables.PointsInto

/-- All values written to storage point into the set. -/
def StorageView.PointsInto (L : Nat → Prop) (view : StorageView) : Prop :=
  ∀ key x, view.values.find? key = some (some x) → x.PointsInto L

namespace StorageView.PointsInto

variable {view : StorageView}

lemma empty : StorageView.empty.PointsInto L := nofun

lemma set (h : view.PointsInto L) (key : Item) {value : Option Item}
    (hvalue : ∀ x, value = some x → x.PointsInto L) : (view.set key value).PointsInto L := by
  intro key' x hx
  simp only [StorageView.set] at hx
  rw [SortedMap.find?_insert] at hx
  split at hx
  · exact hvalue x (Option.some.inj hx)
  · exact h key' x hx

/-- A value read from storage has been written before, or is an unknown. -/
lemma get (h : view.PointsInto L) (id : Nat) (key : Item) : (view.get id key).PointsInto L := by
  unfold StorageView.get
  split
  · next value hfind => exact h key value hfind
  · exact .null
  · split
    · exact .symbolic rfl
    · exact .symbolic rfl

end StorageView.PointsInto

/-! ## States -/

/-- All offsets to which the try block may send control belong to the set. -/
structure TryEntry.LeadsInto (L : Nat → Prop) (t : TryEntry) : Prop where
  /-- The handler of exceptions. -/
  catchTarget : ∀ target, t.catchTarget = some target → L target
  /-- The cleanup. -/
  finallyTarget : ∀ target, t.finallyTarget = some target → L target
  /-- Where to go on behind the cleanup. -/
  endTarget : ∀ target, t.endTarget = some target → L target

/-- What a frame holds, apart from its position, leads into the set. -/
structure Frame.Guided (L : Nat → Prop) (f : Frame) : Prop where
  /-- The frame belongs to the first world. -/
  world : f.world = 0
  /-- The local variables point into the set. -/
  locals : f.locals.PointsInto L
  /-- The arguments point into the set. -/
  arguments : f.arguments.PointsInto L
  /-- The try blocks lead into the set. -/
  tries : ∀ t ∈ f.tries, t.LeadsInto L

/-- All items of a world point into the set. -/
structure World.PointsInto (L : Nat → Prop) (w : World) : Prop extends w.MemoryInto L where
  /-- The static fields point into the set. -/
  statics : w.statics.PointsInto L
  /-- The values written to storage point into the set. -/
  storage : ∀ view, w.storage = some view → view.PointsInto L

/-- Nothing in a world points anywhere before something has been executed. -/
lemma World.PointsInto.ofScript (script : Script) : (World.ofScript script).PointsInto L where
  stack := .empty
  heap := .empty
  statics := .untouched _
  storage := nofun

/-- Wherever the state may send control on its own, it sends it into the set: through pointers,
through try blocks, and by returning to callers. -/
structure State.Guided (L : Nat → Prop) (script : Script) (s : State) : Prop where
  /-- The first world is that of the script. -/
  script : (s.worldAt 0).script = script
  /-- The items of all worlds point into the set. -/
  world : ∀ i, (s.worldAt i).PointsInto L
  /-- The pending exception points into the set. -/
  exception : ∀ x, s.exception = some x → x.PointsInto L
  /-- The frames lead into the set. -/
  frame : ∀ f ∈ s.frames, f.Guided L
  /-- The callers stand in the set. -/
  caller : ∀ f ∈ s.frames.tail, L f.position

/-- The state is guided while an instruction is executed in the frame with `below` frames below it.
No frame lies above that one, and if it is gone or has jumped, all frames stand in the set. -/
structure State.Underway (L : Nat → Prop) (script : Script) (below : Nat) (s : State) : Prop
    extends s.Guided L script where
  /-- No frame lies above the one that executes the instruction. -/
  depth : s.frames.length ≤ below + 1
  /-- Control is in the set once it has been transferred. -/
  settled : s.frames.length ≤ below ∨ s.jumping = true → ∀ f ∈ s.frames, L f.position

namespace State

variable {script : Script} {below : Nat} {s s' : State}

/-- The current frame may be moved anywhere. -/
lemma Guided.move {f : Frame} {rest : List Frame} (h : s.Guided L script)
    (hframes : s.frames = f :: rest) (position : Nat) :
    ({ s with frames := { f with position } :: rest } : State).Guided L script := by
  have hframe := h.frame
  have hcaller := h.caller
  rw [hframes] at hframe hcaller
  obtain ⟨hf, hrest⟩ := List.forall_mem_cons.1 hframe
  exact { h with frame := List.forall_mem_cons.2 ⟨{ hf with }, hrest⟩, caller := hcaller }

/-- Work on stack and heap keeps a state guided if the pointers there still lead into the set. -/
lemma Underway.reworked (h : s.Underway L script below) (hmemory : s'.MemoryInto L)
    (hreworked : s.Reworked s') : s'.Underway L script below where
  script := (hreworked.world 0).script.trans h.script
  world i :=
    { hmemory i with
      statics := by
        rw [(hreworked.world i).statics]
        exact (h.world i).statics
      storage := by
        rw [(hreworked.world i).storage]
        exact (h.world i).storage }
  exception := by
    rw [hreworked.exception]
    exact h.exception
  frame := by
    rw [hreworked.frames]
    exact h.frame
  caller := by
    rw [hreworked.frames]
    exact h.caller
  depth := by
    rw [hreworked.frames]
    exact h.depth
  settled := by
    rw [hreworked.frames, hreworked.jumping]
    exact h.settled

/-- A world may be replaced by one of the same script whose items point into the set. -/
lemma Underway.setWorld {i : Nat} {w : World} (h : s.Underway L script below)
    (hw : w.PointsInto L) (hscript : w.script = (s.worldAt i).script) :
    (s.setWorld i w).Underway L script below := by
  refine { h with script := ?_, world := fun j => ?_ }
  · rw [worldAt_setWorld]
    split
    · next hi =>
      rw [hscript, hi.1]
      exact h.script
    · exact h.script
  · rw [worldAt_setWorld]
    split
    · exact hw
    · exact h.world j

/-- Frames may be dropped, and the one below them may be replaced by a guided one in the same place.
-/
lemma Underway.unwind {f g : Frame} {rest : List Frame} (h : s.Underway L script below)
    (hframes : f :: rest <:+ s.frames) (hg : g.Guided L) (hposition : g.position = f.position) :
    ({ s with frames := g :: rest } : State).Underway L script below := by
  have hlength := hframes.length_le
  have hdepth := h.depth
  have hrest : ∀ k ∈ rest, k ∈ s.frames.tail := by
    obtain ⟨above, habove⟩ := hframes
    rw [← habove]
    cases above with
    | nil => exact fun k hk => hk
    | cons => exact fun k hk => List.mem_append_right _ (List.mem_cons_of_mem _ hk)
  have hsettled : (g :: rest).length ≤ below ∨ s.jumping = true →
      ∀ k ∈ g :: rest, L k.position := by
    intro hout
    refine List.forall_mem_cons.2 ⟨?_, fun k hk => h.caller k (hrest k hk)⟩
    rw [hposition]
    obtain ⟨above, habove⟩ := hframes
    cases above with
    | nil =>
      have hlength' : s.frames.length = (g :: rest).length := by simp [← habove]
      refine h.settled (hout.imp (fun hle => ?_) id) f (by simp [← habove])
      rw [hlength']
      exact hle
    | cons => exact h.caller f (by simp [← habove])
  refine { h with
    frame := List.forall_mem_cons.2 ⟨hg, fun k hk => h.frame k (List.mem_of_mem_tail (hrest k hk))⟩
    caller := fun k hk => h.caller k (hrest k hk)
    depth := ?_
    settled := hsettled }
  simp only [List.length_cons] at hlength ⊢
  omega

end State

/-! ## Computations on guided states -/

namespace Exec

variable {α : Type} {script : Script} {below : Nat} {Q : α → Prop}

/-- Work on stack and heap keeps a state guided, and touches neither the frames nor the mark of a
jump. -/
lemma Local.maintains_control {x : Exec α} (h : Local L x Q) (frames : List Frame)
    (jumping : Bool) :
    Maintains (fun s => s.Underway L script below ∧ s.frames = frames ∧ s.jumping = jumping) x
      Q := by
  rintro s ⟨hs, hframes, hjumping⟩
  have hkept : ∀ s' : State, s'.MemoryInto L ∧ s.Reworked s' →
      s'.Underway L script below ∧ s'.frames = frames ∧ s'.jumping = jumping := by
    rintro s' ⟨hmemory, hreworked⟩
    exact ⟨hs.reworked hmemory hreworked, hreworked.frames.trans hframes,
      hreworked.jumping.trans hjumping⟩
  have hmemory : s.MemoryInto L := fun i => (hs.world i).toMemoryInto
  exact (h.maintains s s ⟨hmemory, Std.Refl.refl s⟩).mono hkept

/-- Work on stack and heap keeps a state guided. -/
lemma Local.maintains_underway {x : Exec α} (h : Local L x Q) :
    Maintains (State.Underway L script below) x Q :=
  fun s hs => (h.maintains_control s.frames s.jumping s ⟨hs, rfl, rfl⟩).mono fun _ h => h.1

/-- Working on the world of the current frame keeps a state guided if the items of the world still
lead into the set. -/
lemma maintains_onWorld {change : World → α × World}
    (hitems : ∀ w : World, w.PointsInto L → Q (change w).1 ∧ (change w).2.PointsInto L)
    (hscript : ∀ w : World, (change w).2.script = w.script) :
    Maintains (State.Underway L script below) (onWorld change) Q := by
  intro s hs
  unfold onWorld
  cases s.frames with
  | nil => exact hs
  | cons f rest =>
    obtain ⟨hresult, hworld⟩ := hitems _ (hs.world f.world)
    exact ⟨hs.setWorld hworld (hscript _), hresult⟩

lemma maintains_modifyWorld {change : World → World}
    (hitems : ∀ w : World, w.PointsInto L → (change w).PointsInto L)
    (hscript : ∀ w : World, (change w).script = w.script) :
    Maintains (State.Underway L script below) (modifyWorld change) fun _ => True :=
  maintains_onWorld (fun w hw => ⟨trivial, hitems w hw⟩) hscript

/-- The items of the world that is read point into the set. -/
lemma maintains_world :
    Maintains (State.Underway L script below) world (World.PointsInto L) := by
  intro s hs
  cases hframes : s.frames with
  | nil =>
    have hfails : world s = .error .noCurrentContext s := by simp [world, hframes]
    rw [hfails]
    exact hs
  | cons f rest =>
    rw [world_eq hframes]
    exact ⟨hs, hs.world f.world⟩

/-- The current frame may be read together with the state. -/
lemma maintains_frame_bind {k : Frame → Exec α}
    (hk : ∀ s f rest, s.Underway L script below → s.frames = f :: rest → f.Guided L →
      Leaves (State.Underway L script below) Q (k f s)) :
    Maintains (State.Underway L script below) (frame >>= k) Q := by
  intro s hs
  cases hframes : s.frames with
  | nil =>
    have hfails : (frame >>= k) s = .error .noCurrentContext s := by
      simp [frame, Bind.bind, EStateM.bind, hframes]
    rw [hfails]
    exact hs
  | cons f rest =>
    rw [bind_of_ok (frame_eq hframes)]
    exact hk s f rest hs hframes (hs.frame f (by simp [hframes]))

/-- The frame that is read leads into the set. -/
lemma maintains_frame :
    Maintains (State.Underway L script below) frame (Frame.Guided L) := by
  have hbind : Maintains (State.Underway L script below) (frame >>= Pure.pure) (Frame.Guided L) :=
    maintains_frame_bind fun s f rest hs _ hf => ⟨hs, hf⟩
  rwa [bind_pure] at hbind

/-- The current frame may be replaced by a guided one in the same place. -/
lemma leaves_setFrame {s : State} {f g : Frame} {rest : List Frame}
    (hs : s.Underway L script below) (hframes : s.frames = f :: rest) (hg : g.Guided L)
    (hposition : g.position = f.position) :
    Leaves (State.Underway L script below) (fun _ => True) (setFrame g s) := by
  have hset : setFrame g s = .ok () { s with frames := g :: rest } := by simp [setFrame, hframes]
  rw [hset]
  exact ⟨hs.unwind (hframes ▸ List.suffix_refl _) hg hposition, trivial⟩

lemma maintains_recordRead (a : Access) (offset : Nat) :
    Maintains (State.Underway L script below) (recordRead a offset) fun _ => True :=
  maintains_modifyWorld (fun _ hw => { hw with }) fun _ => rfl

lemma maintains_recordWrite (a : Access) (offset : Nat) :
    Maintains (State.Underway L script below) (recordWrite a offset) fun _ => True :=
  maintains_modifyWorld (fun _ hw => { hw with }) fun _ => rfl

end Exec

/-! ## Instructions on data -/

namespace Semantics

open Exec

variable {script : Script} {below : Nat} (i : Instruction)

lemma maintains_variablesOf (kind : SlotKind) :
    Maintains (State.Underway L script below) (variablesOf kind) (Variables.PointsInto L) := by
  cases kind with
  | static => exact maintains_world.bind fun _ hw => .pure hw.statics
  | «local» => exact maintains_frame.bind fun _ hf => .pure hf.locals
  | argument => exact maintains_frame.bind fun _ hf => .pure hf.arguments

lemma maintains_setVariables (kind : SlotKind) {v : Variables} (hv : v.PointsInto L) :
    Maintains (State.Underway L script below) (setVariables kind v) fun _ => True := by
  cases kind with
  | static => exact maintains_modifyWorld (fun _ hw => { hw with statics := hv }) fun _ => rfl
  | «local» =>
    exact maintains_frame_bind fun s f rest hs hframes hf =>
      leaves_setFrame hs hframes { hf with locals := hv } rfl
  | argument =>
    exact maintains_frame_bind fun s f rest hs hframes hf =>
      leaves_setFrame hs hframes { hf with arguments := hv } rfl

lemma maintains_isTracked (kind : SlotKind) :
    Maintains (State.Underway L script below) (isTracked kind) fun _ => True :=
  Maintains.get.bind fun _ _ => .pure trivial

lemma maintains_push {x : Item} (hx : x.PointsInto L) :
    Maintains (State.Underway L script below) (push x) fun _ => True :=
  (Local.push hx).maintains_underway

lemma maintains_pop :
    Maintains (State.Underway L script below) pop (Item.PointsInto L) :=
  Local.pop.maintains_underway

lemma maintains_load (kind : SlotKind) (first : Opcode) :
    Maintains (State.Underway L script below) (load kind first i) fun _ => True :=
  (Maintains.lift fun _ _ => trivial).bind fun _ _ =>
    (maintains_variablesOf kind).bind fun _ hv =>
    (Maintains.lift fun _ hload => hv.load hload).bind fun _ hx =>
    (maintains_isTracked kind).bind fun _ _ =>
    .ite (fun _ => (maintains_recordRead _ _).bind fun _ _ => maintains_push hx)
      fun _ => maintains_push hx

lemma maintains_store (kind : SlotKind) (first : Opcode) :
    Maintains (State.Underway L script below) (store kind first i) fun _ => True :=
  (Maintains.lift fun _ _ => trivial).bind fun _ _ => maintains_pop.bind fun _ hx =>
    (maintains_variablesOf kind).bind fun _ hv =>
    (Maintains.lift fun _ hstore => hv.store hx hstore).bind fun _ hv' =>
    (maintains_setVariables kind hv').bind fun _ _ => (maintains_isTracked kind).bind fun _ _ =>
    .ite (fun _ => maintains_recordWrite _ _) fun _ => .pure trivial

lemma maintains_allocateStatics :
    Maintains (State.Underway L script below) (allocateStatics i) fun _ => True :=
  (Maintains.lift fun _ _ => trivial).bind fun _ _ => .check fun _ _ =>
    (maintains_variablesOf .static).bind fun _ _ =>
    (Maintains.lift fun _ hallocate => Variables.PointsInto.allocate hallocate).bind fun _ hv =>
    maintains_setVariables .static hv

lemma maintains_allocateFrame :
    Maintains (State.Underway L script below) (allocateFrame i) fun _ => True :=
  (Maintains.lift fun _ _ => trivial).bind fun _ _ =>
    (Maintains.lift fun _ _ => trivial).bind fun _ _ => .check fun _ _ =>
    maintains_frame.bind fun _ _ => .check fun _ _ => .check fun _ _ =>
    (Local.popMany _).maintains_underway.bind fun _ hvalues =>
    (Maintains.lift fun _ hallocate => Variables.PointsInto.allocate hallocate).bind fun _ hv =>
    (maintains_setVariables .local hv).bind fun _ _ =>
    (Maintains.lift fun _ hallocate =>
      Variables.PointsInto.allocateWith hvalues hallocate).bind fun _ hv' =>
    maintains_setVariables .argument hv'

/-- The view of storage that is known, or the empty one. -/
lemma getD_pointsInto {w : World} (hw : w.PointsInto L) :
    (w.storage.getD .empty).PointsInto L := by
  cases hstorage : w.storage with
  | none => exact .empty
  | some view => exact hw.storage view hstorage

lemma maintains_modifyStorage {change : StorageView → StorageView}
    (hchange : ∀ view : StorageView, view.PointsInto L → (change view).PointsInto L) :
    Maintains (State.Underway L script below) (modifyStorage change) fun _ => True :=
  maintains_modifyWorld (fun w hw => { hw with
    storage := by
      rintro _ ⟨⟩
      exact hchange _ (getD_pointsInto hw) }) fun _ => rfl

lemma maintains_storageGet :
    Maintains (State.Underway L script below) (storageGet i) fun _ => True :=
  maintains_pop.bind fun _ _ => local_popKey.maintains_underway.bind fun key _ =>
    (maintains_recordRead _ _).bind fun _ _ => (maintains_modifyStorage fun _ h => h).bind fun _ _ =>
    maintains_world.bind fun _ hw => Local.freshId.maintains_underway.bind fun id _ =>
    maintains_push ((getD_pointsInto hw).get id key)

lemma maintains_storagePut :
    Maintains (State.Underway L script below) (storagePut i) fun _ => True :=
  maintains_pop.bind fun _ _ => local_popKey.maintains_underway.bind fun key _ =>
    maintains_pop.bind fun _ hvalue => (maintains_recordWrite _ _).bind fun _ _ =>
    maintains_modifyStorage fun _ h => h.set key (by
      rintro _ ⟨⟩
      exact hvalue)

lemma maintains_storageDelete :
    Maintains (State.Underway L script below) (storageDelete i) fun _ => True :=
  maintains_pop.bind fun _ _ => local_popKey.maintains_underway.bind fun key _ =>
    (maintains_recordWrite _ _).bind fun _ _ => maintains_modifyStorage fun _ h => h.set key nofun

lemma maintains_syscall :
    Maintains (State.Underway L script below) (syscall i) fun _ => True := by
  refine (Maintains.lift fun _ _ => trivial).bind fun hash _ => ?_
  split
  · exact .throw _
  · exact (Local.fresh _).maintains_underway.bind fun _ hx => maintains_push hx
  · exact (Local.fresh _).maintains_underway.bind fun _ hx => maintains_push hx
  · exact maintains_storageGet i
  · exact maintains_storagePut i
  · exact maintains_storageDelete i

end Semantics

end SymbolicScript
