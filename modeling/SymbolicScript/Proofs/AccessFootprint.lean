import SymbolicScript.Proofs.HandlerFootprint

/-!
# Which accesses a handler makes

Static fields, storage and the records of accesses live in the worlds, next to the evaluation stack
and the heap.  Three handlers change static fields or storage: the one that initializes static
fields, the one that stores to them, and the one that calls the host.  Every other handler leaves
both alone, whether it succeeds or fails, whatever it does to the frames, and records no access but
to a variable of its own kind (`Handler.run_accesses`).

Most handlers do not even touch the records of accesses.  So the pieces that handlers are made of
are first shown to leave all of this alone (`State.SameRecords`), and accesses are only spoken of
where variables are loaded and stored.
-/

namespace SymbolicScript

/-- The reads recorded in a world, with offsets. -/
def World.reads (w : World) : SortedMap Access Nat :=
  (w.tracker.getD .empty).reads

/-- A change of a world that leaves static fields and storage alone and records only the given reads
and writes. -/
structure World.Accesses (reads writes : Access → Prop) (w w' : World) : Prop where
  /-- The static fields are the same. -/
  statics : w'.statics = w.statics
  /-- The view of storage is the same. -/
  storage : w'.storage = w.storage
  /-- Only the given reads are recorded. -/
  reads : ∀ a, w'.reads.contains a → w.reads.contains a ∨ reads a
  /-- Only the given writes are recorded. -/
  writes : ∀ a, w'.writes.contains a → w.writes.contains a ∨ writes a

/-- A change of the state that leaves static fields and storage alone and records only the given
reads and writes. -/
def State.Accesses (reads writes : Access → Prop) (s s' : State) : Prop :=
  ∀ i, (s.worldAt i).Accesses reads writes (s'.worldAt i)

/-- A change of a world that leaves static fields, storage and the records of accesses alone. -/
structure World.SameRecords (w w' : World) : Prop where
  /-- The static fields are the same. -/
  statics : w'.statics = w.statics
  /-- The view of storage is the same. -/
  storage : w'.storage = w.storage
  /-- The records of accesses are the same. -/
  tracker : w'.tracker = w.tracker

/-- A change of the state that leaves static fields, storage and the records of accesses alone. -/
def State.SameRecords (s s' : State) : Prop :=
  ∀ i, (s.worldAt i).SameRecords (s'.worldAt i)

section

variable {reads writes : Access → Prop}

namespace World

lemma SameRecords.refl (w : World) : w.SameRecords w :=
  ⟨rfl, rfl, rfl⟩

lemma SameRecords.trans {u v w : World} (huv : u.SameRecords v) (hvw : v.SameRecords w) :
    u.SameRecords w where
  statics := hvw.statics.trans huv.statics
  storage := hvw.storage.trans huv.storage
  tracker := hvw.tracker.trans huv.tracker

/-- Nothing is accessed where the records stay the same. -/
lemma SameRecords.accesses {w w' : World} (h : w.SameRecords w') : w.Accesses reads writes w' := by
  refine ⟨h.statics, h.storage, fun a ha => .inl ?_, fun a ha => .inl ?_⟩
  · rwa [World.reads, h.tracker] at ha
  · rwa [World.writes, h.tracker] at ha

lemma Accesses.trans {u v w : World} (huv : u.Accesses reads writes v)
    (hvw : v.Accesses reads writes w) : u.Accesses reads writes w where
  statics := hvw.statics.trans huv.statics
  storage := hvw.storage.trans huv.storage
  reads a ha := (hvw.reads a ha).elim (huv.reads a) .inr
  writes a ha := (hvw.writes a ha).elim (huv.writes a) .inr

end World

namespace State

instance : Std.Refl SameRecords where
  refl _ _ := .refl _

instance : IsTrans State SameRecords where
  trans _ _ _ hst htu i := (hst i).trans (htu i)

instance : Std.Refl (Accesses reads writes) where
  refl _ _ := (World.SameRecords.refl _).accesses

instance : IsTrans State (Accesses reads writes) where
  trans _ _ _ hst htu i := (hst i).trans (htu i)

/-- Nothing is accessed where the records stay the same. -/
lemma SameRecords.accesses {s s' : State} (h : s.SameRecords s') : s.Accesses reads writes s' :=
  fun i => (h i).accesses

/-- Where the worlds stay the same the records do. -/
lemma SameRecords.of_worlds {s s' : State} (h : s'.worlds = s.worlds) : s.SameRecords s' := by
  intro i
  rw [show s'.worldAt i = s.worldAt i by rw [worldAt, h, worldAt]]
  exact .refl _

/-- Where the worlds stay the same nothing is accessed. -/
lemma Accesses.of_worlds {s s' : State} (h : s'.worlds = s.worlds) : s.Accesses reads writes s' :=
  (SameRecords.of_worlds h).accesses

/-- Work on stack and heap leaves the records alone. -/
lemma Reworked.sameRecords {s s' : State} (h : s.Reworked s') : s.SameRecords s' :=
  fun i => ⟨(h.world i).statics, (h.world i).storage, h.tracker i⟩

/-- What a change of one world leaves alone there it leaves alone. -/
lemma SameRecords.of_setWorld {s : State} {i : Nat} {w : World} (h : (s.worldAt i).SameRecords w) :
    s.SameRecords (s.setWorld i w) := by
  intro j
  rw [worldAt_setWorld]
  split
  · next hij =>
    rw [← hij.1]
    exact h
  · exact .refl _

/-- A change of one world accesses what it accesses there. -/
lemma Accesses.of_setWorld {s : State} {i : Nat} {w : World}
    (h : (s.worldAt i).Accesses reads writes w) : s.Accesses reads writes (s.setWorld i w) := by
  intro j
  rw [worldAt_setWorld]
  split
  · next hij =>
    rw [← hij.1]
    exact h
  · exact (World.SameRecords.refl _).accesses

end State

/-! ## Pieces -/

namespace Exec

open State (Accesses SameRecords)

variable {α : Type}

/-- What leaves the worlds as they are leaves the records alone. -/
lemma records_of_worlds {x : Exec α} (h : ∀ s, (x.after s).worlds = s.worlds) :
    Keeps SameRecords x :=
  fun s => .of_worlds (h s)

lemma records_modify {change : State → State} (h : ∀ s, (change s).worlds = s.worlds) :
    Keeps SameRecords (modify change : Exec Unit) :=
  records_of_worlds h

/-- Nothing is accessed where the records stay the same. -/
lemma Keeps.accesses {x : Exec α} (h : Keeps SameRecords x) : Keeps (Accesses reads writes) x :=
  h.mono fun _ _ => SameRecords.accesses

/-- Work on stack and heap leaves the records alone. -/
lemma Local.records {x : Exec α} {Q : α → Prop} (h : Local (fun _ => True) x Q) :
    Keeps SameRecords x :=
  h.reworked.mono fun _ _ => State.Reworked.sameRecords

lemma records_push (x : Item) : Keeps SameRecords (push x) :=
  (Local.push (L := fun _ => True) fun _ _ => trivial).records

lemma records_pop : Keeps SameRecords pop :=
  Local.pop.records

lemma records_setFrame (f : Frame) : Keeps SameRecords (setFrame f) :=
  records_of_worlds fun s => by
    unfold after setFrame
    cases s.frames <;> rfl

lemma records_unloadFrame : Keeps SameRecords unloadFrame :=
  records_of_worlds fun s => by
    unfold after unloadFrame
    cases s.frames <;> rfl

lemma records_takeException : Keeps SameRecords takeException :=
  records_of_worlds fun _ => rfl

/-- Changing the world of the current frame accesses what the change accesses. -/
lemma accesses_modifyWorld {change : World → World}
    (h : ∀ w, World.Accesses reads writes w (change w)) :
    Keeps (Accesses reads writes) (modifyWorld change) := by
  intro s
  unfold after modifyWorld onWorld
  cases s.frames with
  | nil => exact Std.Refl.refl s
  | cons f rest => exact .of_setWorld (h _)

/-- A recorded read is recorded. -/
lemma accesses_recordRead {a : Access} (ha : reads a) (offset : Nat) :
    Keeps (Accesses reads writes) (recordRead a offset) := by
  refine accesses_modifyWorld fun w => ⟨rfl, rfl, fun b hb => ?_, fun b hb => .inl ?_⟩
  · simp only [World.reads, Option.getD_some, AccessTracker.recordRead] at hb
    split at hb
    · exact .inl hb
    · rcases (SortedMap.contains_insert _ _ _ _).1 hb with rfl | hold
      · exact .inr ha
      · exact .inl hold
  · simp only [World.writes, Option.getD_some, AccessTracker.recordRead] at hb
    split at hb
    · exact hb
    · exact hb

/-- A recorded write is recorded. -/
lemma accesses_recordWrite {a : Access} (ha : writes a) (offset : Nat) :
    Keeps (Accesses reads writes) (recordWrite a offset) := by
  refine accesses_modifyWorld fun w => ⟨rfl, rfl, fun b hb => .inl hb, fun b hb => ?_⟩
  rcases (SortedMap.contains_insert _ _ _ _).1 hb with rfl | hold
  · exact .inr ha
  · exact .inl hold

/-! ## Transfers of control -/

lemma records_seek (target : Int) : Keeps SameRecords (seek target) :=
  keeps_frame.bind fun _ => keeps_world.bind fun _ => (keeps_liftM _).bind fun _ =>
    records_setFrame _

lemma records_markJump : Keeps SameRecords markJump :=
  records_modify fun _ => rfl

lemma records_jumpTo (target : Int) : Keeps SameRecords (jumpTo target) :=
  keeps_world.bind fun _ =>
    ((records_seek target).bind fun _ => records_markJump).ite (keeps_throw _)

lemma records_loadFrame (config : Config) (f : Frame) :
    Keeps SameRecords (loadFrame config f) := by
  refine keeps_get.bind fun _ => .check fun _ => records_modify ?_
  exact fun _ => rfl

lemma records_call (config : Config) (target : Int) :
    Keeps SameRecords (call config target) :=
  keeps_frame.bind fun _ => keeps_world.bind fun _ =>
    ((keeps_liftM _).bind fun _ => records_loadFrame config _).ite (keeps_throw _)

/-- Replacing the stack of a world leaves the records alone. -/
lemma setStack_records (s : State) (i : Nat) (stack : EvaluationStack) :
    s.SameRecords (s.setWorld i { s.worldAt i with stack }) :=
  .of_setWorld ⟨rfl, rfl, rfl⟩

/-- So does handing over a stack. -/
lemma handOver_records (source : Nat) (s : State) : s.SameRecords (handOver source s) := by
  unfold handOver
  simp only
  split
  · next caller rest hs =>
    refine IsTrans.trans _ _ _ (setStack_records s source _) (.of_setWorld ?_)
    -- The world of the caller is the one that it was, but perhaps for its stack.
    rw [State.worldAt_setWorld]
    split
    · next hsame =>
      rw [← hsame.1]
      exact ⟨rfl, rfl, rfl⟩
    · exact ⟨rfl, rfl, rfl⟩
  · exact setStack_records s source _

lemma records_ret : Keeps SameRecords ret := by
  refine records_unloadFrame.bind fun f => keeps_get.bind fun s => ?_
  have hrest : ∀ u : Unit, Keeps SameRecords (do
      modify fun s => if s.frames.isEmpty then { s with status := .halted } else s
      markJump) := fun _ => by
    refine (records_modify fun s => ?_).bind fun _ => records_markJump
    split <;> rfl
  have hover : Keeps SameRecords (modify (handOver f.world) : Exec Unit) :=
    fun s => handOver_records f.world s
  exact (hrest ()).ite (.check fun _ => hover.bind fun _ => hrest ())

lemma records_handleException : Keeps SameRecords handleException := by
  refine keeps_get.bind fun s => ?_
  split
  · refine Keeps.bind (records_modify ?_) fun _ => keeps_throw _
    exact fun _ => rfl
  · split
    · exact keeps_throw _
    · refine Keeps.bind (records_modify ?_) fun _ => ?_
      · exact fun _ => rfl
      split
      · exact records_takeException.bind fun _ => (records_push _).bind fun _ =>
          (records_setFrame _).bind fun _ => (records_seek _).bind fun _ => records_markJump
      · exact (records_setFrame _).bind fun _ => (records_seek _).bind fun _ => records_markJump

lemma records_raise (exception : Item) : Keeps SameRecords (raise exception) := by
  refine Keeps.bind (records_modify ?_) fun _ => records_handleException
  exact fun _ => rfl

end Exec

/-! ## Handlers -/

namespace Semantics

open Exec
open State (Accesses SameRecords)

variable (config : Config) (i : Instruction)

lemma records_jump : Keeps SameRecords (jump i) :=
  (keeps_liftM _).bind fun _ => records_jumpTo _

lemma records_jumpCompare : Keeps SameRecords (jumpCompare i) := by
  refine (Local.popInteger _).records.bind fun _ => (Local.popInteger _).records.bind fun _ => ?_
  split
  · exact records_jump i
  · exact keeps_pure _
  · exact keeps_throw _

lemma records_callPointer : Keeps SameRecords (callPointer config i) := by
  refine records_pop.bind fun _ => ?_
  split
  · exact records_call config _
  · exact keeps_throw _
  · exact keeps_throw _

lemma records_beginTry : Keeps SameRecords (beginTry i) :=
  (keeps_liftM _).bind fun _ => (keeps_liftM _).bind fun _ => .check fun _ =>
    (keeps_liftM _).bind fun _ => (keeps_liftM _).bind fun _ => keeps_frame.bind fun _ =>
    .check fun _ => records_setFrame _

lemma records_endTry : Keeps SameRecords (endTry i) := by
  refine (keeps_liftM _).bind fun _ => .check fun _ => keeps_frame.bind fun f => ?_
  split
  · exact keeps_throw _
  · refine .check fun _ => ?_
    split
    · exact (records_setFrame _).bind fun _ => records_jumpTo _
    · exact (records_setFrame _).bind fun _ => records_jumpTo _

lemma records_endFinally : Keeps SameRecords (endFinally i) := by
  refine keeps_frame.bind fun f => ?_
  split
  · exact keeps_throw _
  · refine (records_setFrame _).bind fun _ => keeps_get.bind fun _ =>
      records_handleException.ite ?_
    split
    · exact records_jumpTo _
    · exact keeps_throw _

lemma records_variablesOf (kind : SlotKind) : Keeps SameRecords (variablesOf kind) := by
  cases kind with
  | static => exact keeps_world.bind fun _ => keeps_pure _
  | «local» | argument => exact keeps_frame.bind fun _ => keeps_pure _

lemma records_isTracked (kind : SlotKind) : Keeps SameRecords (isTracked kind) :=
  keeps_get.bind fun _ => keeps_pure _

/-- Locals and arguments are not kept in the world. -/
lemma records_setVariables {kind : SlotKind} (hkind : kind ≠ .static) (v : Variables) :
    Keeps SameRecords (setVariables kind v) := by
  cases kind with
  | static => exact absurd rfl hkind
  | «local» | argument => exact keeps_frame.bind fun _ => records_setFrame _

lemma records_allocateFrame : Keeps SameRecords (allocateFrame i) := by
  have hlocal : SlotKind.local ≠ .static := nofun
  have hargument : SlotKind.argument ≠ .static := nofun
  exact (keeps_liftM _).bind fun _ => (keeps_liftM _).bind fun _ => .check fun _ =>
    keeps_frame.bind fun _ => .check fun _ => .check fun _ =>
    (Local.popMany _).records.bind fun _ => (keeps_liftM _).bind fun _ =>
    (records_setVariables hlocal _).bind fun _ => (keeps_liftM _).bind fun _ =>
    records_setVariables hargument _

lemma accesses_load {kind : SlotKind} (hreads : ∀ index, reads (.slot kind index))
    (first : Opcode) : Keeps (Accesses reads writes) (load kind first i) :=
  (keeps_liftM _).bind fun index => (records_variablesOf kind).accesses.bind fun _ =>
    (keeps_liftM _).bind fun _ => (records_isTracked kind).accesses.bind fun _ =>
    ((accesses_recordRead (hreads index) _).bind fun _ => (records_push _).accesses).ite
      (records_push _).accesses

lemma accesses_store {kind : SlotKind} (hkind : kind ≠ .static)
    (hwrites : ∀ index, writes (.slot kind index)) (first : Opcode) :
    Keeps (Accesses reads writes) (store kind first i) :=
  (keeps_liftM _).bind fun index => records_pop.accesses.bind fun _ =>
    (records_variablesOf kind).accesses.bind fun _ => (keeps_liftM _).bind fun _ =>
    (records_setVariables hkind _).accesses.bind fun _ => (records_isTracked kind).accesses.bind
      fun _ => (accesses_recordWrite (hwrites index) _).ite (keeps_pure _)

end Semantics

end

namespace Handler

/-- A handler that does not initialize static fields, load or store variables, or call the host
leaves static fields, storage and the records of accesses alone. -/
theorem run_records {handler : Handler} (config : Config) (i : Instruction)
    (hallocate : handler ≠ .allocateStatics) (hload : ∀ kind, handler ≠ .load kind)
    (hstore : ∀ kind, handler ≠ .store kind) (hsyscall : handler ≠ .syscall) :
    Exec.Keeps State.SameRecords (handler.run config i) := by
  cases hlocal : handler.worksLocally with
  | true =>
    have hwork : Exec.Local (fun _ => True) (handler.run config i) fun _ => True :=
      run_local config hlocal fun _ _ _ _ _ => trivial
    exact hwork.records
  | false =>
    cases handler with
    | allocateStatics => exact absurd rfl hallocate
    | syscall => exact absurd rfl hsyscall
    | load kind => exact absurd rfl (hload kind)
    | store kind => exact absurd rfl (hstore kind)
    | allocateFrame => exact Semantics.records_allocateFrame i
    | jump => exact Semantics.records_jump i
    | jumpIf | jumpIfNot =>
      exact (Exec.Local.popBoolean _).records.bind fun _ =>
        (Semantics.records_jump i).ite (Exec.keeps_pure _)
    | jumpCompare => exact Semantics.records_jumpCompare i
    | call => exact (Exec.keeps_liftM _).bind fun _ => Exec.records_call config _
    | callPointer => exact Semantics.records_callPointer config i
    | abort => exact Exec.keeps_throw _
    | abortWithMessage =>
      exact Semantics.local_popMessage.records.bind fun _ => Exec.keeps_throw _
    | raise => exact Exec.records_pop.bind fun _ => Exec.records_raise _
    | beginTry => exact Semantics.records_beginTry i
    | endTry => exact Semantics.records_endTry i
    | endFinally => exact Semantics.records_endFinally i
    | ret => exact Exec.records_ret
    | _ => cases hlocal

/-- The variables that a handler can read. -/
def Reads (handler : Handler) (a : Access) : Prop :=
  ∃ kind index, handler = .load kind ∧ a = .slot kind index

/-- The variables that a handler can write. -/
def Writes (handler : Handler) (a : Access) : Prop :=
  ∃ kind index, handler = .store kind ∧ a = .slot kind index

/-- A handler that does not initialize or store static fields, and does not call the host, leaves
static fields and storage alone, and accesses variables of its own kind only. -/
theorem run_accesses {handler : Handler} (config : Config) (i : Instruction)
    (hallocate : handler ≠ .allocateStatics) (hstore : handler ≠ .store .static)
    (hsyscall : handler ≠ .syscall) :
    Exec.Keeps (State.Accesses handler.Reads handler.Writes) (handler.run config i) := by
  cases handler with
  | load kind => exact Semantics.accesses_load i (fun index => ⟨kind, index, rfl, rfl⟩) _
  | store kind =>
    have hkind : kind ≠ .static := by
      rintro rfl
      exact hstore rfl
    exact Semantics.accesses_store i hkind (fun index => ⟨kind, index, rfl, rfl⟩) _
  | _ => exact (run_records config i hallocate nofun nofun hsyscall).accesses

end Handler

end SymbolicScript
