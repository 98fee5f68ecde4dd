import SymbolicScript.Proofs.AccessFootprint
import SymbolicScript.Proofs.AccessTraces

/-!
# Which access an instruction makes

An instruction makes at most one access: it loads or stores a variable, or it reads, writes or
removes a storage key.  Which access that is can be told in front of the instruction, from its
opcode and operand and from the key that lies on the stack below the storage context
(`State.access?`).  The variables of a called routine do not count, since they are gone once it
returns.

This file proves that a handler records just that access if it succeeds, and nothing if it fails
(`JumpTable.dispatch_recorded`).  The order of its work matters for the second half: whatever can
fail comes before the record is made.
-/

namespace SymbolicScript

/-! ## The access of an instruction -/

/-- A storage key as it counts: a known one by its bytes, whichever item they come from. -/
def Heap.storageKey (heap : Heap) (x : Item) : Item :=
  match heap.bytesOf x with
  | .ok (some bytes) => .constant (.byteString bytes)
  | _ => x

/-- What a service does to the storage key it is given. -/
def StorageService.mode? : StorageService → Option AccessMode
  | .getContext | .getReadOnlyContext => none
  | .get => some .read
  | .put | .delete => some .write

/-- The access to the variable of a kind that an instruction names.  Static fields count in every
frame, locals and arguments in the entry frame only. -/
def State.slotAccess? (s : State) (mode : AccessMode) (kind : SlotKind) (first : Opcode)
    (i : Instruction) : Option AccessEvent :=
  match Semantics.variableIndex first i with
  | .ok index =>
    if kind = .static ∨ s.depth = 1 then some ⟨mode, .slot kind index, i.offset⟩ else none
  | .error _ => none

/-- The access to storage that the service with a hash makes.  The key lies below the storage
context. -/
def World.storageAccess? (w : World) (hash offset : Nat) : Option AccessEvent :=
  ((StorageService.ofHash? hash).bind StorageService.mode?).map fun mode =>
    ⟨mode, .storage (w.heap.storageKey (w.stack.view 1)), offset⟩

/-- The access that an instruction makes if it succeeds. -/
def State.access? (s : State) (i : Instruction) : Option AccessEvent :=
  match JumpTable.standard.handler i.opcode with
  | .load kind => s.slotAccess? .read kind (Handler.firstLoad kind) i
  | .store kind => s.slotAccess? .write kind (Handler.firstStore kind) i
  | .syscall =>
    match s.current?, i.unsignedToken 0 4 with
    | some (_, w), .ok hash => w.storageAccess? hash i.offset
    | _, _ => none
  | _ => none

/-- The accesses recorded in a world. -/
def World.record (w : World) : AccessTracker :=
  w.tracker.getD .empty

/-! ## States with one world -/

/-- There is no other world than the given one, and the current frame works in it. -/
structure State.WorksIn (s : State) (w : World) : Prop where
  /-- The world. -/
  worlds : s.worlds = #[w]
  /-- The current frame. -/
  frame : ∃ f rest, s.frames = f :: rest ∧ f.world = 0

variable {s : State} {w : World} {i : Instruction}

namespace State.WorksIn

lemma worldAt (h : s.WorksIn w) : s.worldAt 0 = w := by
  simp [State.worldAt, h.worlds]

/-- Where there is a frame, the depth is at most one exactly in the entry frame. -/
lemma depth_le_one (h : s.WorksIn w) : s.depth ≤ 1 ↔ s.depth = 1 := by
  obtain ⟨f, rest, hs, -⟩ := h.frame
  have hpositive : 0 < s.depth := by simp [State.depth, hs]
  omega

end State.WorksIn

namespace Exec

open State (WorksIn)

/-! ## Work that always succeeds -/

/-- The world can be looked at. -/
lemma world_of_worksIn (h : s.WorksIn w) : world s = .ok w s := by
  obtain ⟨f, rest, hs, hf⟩ := h.frame
  rw [world_eq hs, hf, h.worldAt]

/-- The world can be looked at and changed, and the frames are the same. -/
lemma exists_onWorld {α : Type} (h : s.WorksIn w) (change : World → α × World) :
    ∃ s', onWorld change s = .ok (change w).1 s' ∧ s'.WorksIn (change w).2 ∧
      s'.frames = s.frames := by
  obtain ⟨f, rest, hs, hf⟩ := h.frame
  refine ⟨{ s with worlds := #[(change w).2] }, ?_, ⟨rfl, f, rest, hs, hf⟩, rfl⟩
  simp [onWorld, hs, hf, h.worldAt, State.setWorld, h.worlds]

lemma exists_modifyWorld (h : s.WorksIn w) (change : World → World) :
    ∃ s', modifyWorld change s = .ok () s' ∧ s'.WorksIn (change w) ∧ s'.frames = s.frames :=
  exists_onWorld h fun w => ((), change w)

/-- An item can be pushed. -/
lemma exists_push (h : s.WorksIn w) (x : Item) :
    ∃ s', push x s = .ok () s' ∧ s'.WorksIn { w with stack := w.stack.push x.constant } ∧
      s'.frames = s.frames :=
  exists_onWorld h fun w => ((), { w with stack := w.stack.push x.constant })

/-- The top of the view can be popped. -/
lemma exists_pop (h : s.WorksIn w) :
    ∃ s', pop s = .ok (w.stack.view 0) s' ∧ s'.WorksIn { w with stack := w.stack.pop.2 } ∧
      s'.frames = s.frames := by
  have hpop := exists_onWorld h fun w => (w.stack.pop.1, { w with stack := w.stack.pop.2 })
  rwa [w.stack.pop_fst] at hpop

/-- A read can be recorded. -/
lemma exists_recordRead (h : s.WorksIn w) (a : Access) (offset : Nat) :
    ∃ s' w', recordRead a offset s = .ok () s' ∧ s'.WorksIn w' ∧
      w'.record = w.record.recordRead a offset := by
  obtain ⟨s', hrecord, h', -⟩ := exists_modifyWorld h fun w =>
    { w with tracker := some ((w.tracker.getD .empty).recordRead a offset) }
  exact ⟨s', _, hrecord, h', rfl⟩

/-- A write can be recorded. -/
lemma exists_recordWrite (h : s.WorksIn w) (a : Access) (offset : Nat) :
    ∃ s' w', recordWrite a offset s = .ok () s' ∧ s'.WorksIn w' ∧
      w'.record = w.record.recordWrite a offset := by
  obtain ⟨s', hrecord, h', -⟩ := exists_modifyWorld h fun w =>
    { w with tracker := some ((w.tracker.getD .empty).recordWrite a offset) }
  exact ⟨s', _, hrecord, h', rfl⟩

/-! ## Recorded accesses -/

variable {α : Type} {t : AccessTracker} {access : Option AccessEvent}

/-- In the first world the access has been recorded on top of the others if the outcome is a
success, and none if it is a failure. -/
def Recorded (t : AccessTracker) (access : Option AccessEvent) :
    EStateM.Result ExecutionError State α → Prop
  | .ok _ s => (s.worldAt 0).record = t.recordAll access.toList
  | .error _ s => (s.worldAt 0).record = t

lemma Recorded.ok {a : α} (h : s.WorksIn w) (hrecord : w.record = t.recordAll access.toList) :
    Recorded t access (.ok a s) := by
  rw [← h.worldAt] at hrecord
  exact hrecord

lemma Recorded.error {e : ExecutionError} (h : s.WorksIn w) (hrecord : w.record = t) :
    Recorded t access (.error e s : EStateM.Result ExecutionError State α) := by
  rw [← h.worldAt] at hrecord
  exact hrecord

/-- What leaves the records alone has recorded nothing. -/
lemma Keeps.recorded {x : Exec α} (hx : Keeps State.SameRecords x) (h : s.WorksIn w) :
    Recorded w.record none (x s) := by
  have hsame : ((x.after s).worldAt 0).record = w.record := by
    unfold World.record
    rw [(hx s 0).tracker, h.worldAt]
  unfold after at hsame
  cases houtcome : x s with
  | ok a s' =>
    rw [houtcome] at hsame
    exact hsame
  | error e s' =>
    rw [houtcome] at hsame
    exact hsame

/-- Whatever is pushed records nothing further. -/
lemma Recorded.push {x : Item} (h : s.WorksIn w)
    (hrecord : w.record = t.recordAll access.toList) : Recorded t access (push x s) := by
  obtain ⟨s', hpush, h', -⟩ := exists_push h x
  rw [hpush]
  exact .ok h' hrecord

end Exec

/-! ## Variables -/

namespace Semantics

open Exec

variable {kind : SlotKind} {first : Opcode}

/-- Variables can be looked at. -/
lemma exists_variablesOf (h : s.WorksIn w) (kind : SlotKind) :
    ∃ v, variablesOf kind s = .ok v s := by
  obtain ⟨f, rest, hs, -⟩ := h.frame
  cases kind with
  | static => exact ⟨_, bind_of_ok (world_eq hs)⟩
  | «local» | argument => exact ⟨_, bind_of_ok (frame_eq hs)⟩

/-- Variables can be replaced, which records nothing. -/
lemma exists_setVariables (h : s.WorksIn w) (kind : SlotKind) (v : Variables) :
    ∃ s' w', setVariables kind v s = .ok () s' ∧ s'.WorksIn w' ∧ w'.record = w.record ∧
      s'.depth = s.depth := by
  obtain ⟨f, rest, hs, hf⟩ := h.frame
  have hset (g : Frame) (hg : g.world = 0) : ∃ s' w', setFrame g s = .ok () s' ∧ s'.WorksIn w' ∧
      w'.record = w.record ∧ s'.depth = s.depth := by
    refine ⟨{ s with frames := g :: rest }, w, ?_, ⟨h.worlds, g, rest, rfl, hg⟩, rfl, ?_⟩
    · simp [setFrame, hs]
    · simp [State.depth, hs]
  cases kind with
  | static =>
    obtain ⟨s', hmodify, h', hframes⟩ := exists_modifyWorld h fun w => { w with statics := v }
    exact ⟨s', _, hmodify, h', rfl, congrArg List.length hframes⟩
  | «local» | argument =>
    unfold setVariables
    simp only [bind_of_ok (frame_eq hs)]
    exact hset _ hf

/-- Whether accesses to variables of a kind are recorded can be told. -/
lemma isTracked_of_worksIn (h : s.WorksIn w) (kind : SlotKind) :
    isTracked kind s = .ok (decide (kind = .static ∨ s.depth = 1)) s := by
  have htracked : isTracked kind s = .ok (decide (kind = .static) || decide (s.depth ≤ 1)) s := rfl
  rw [htracked, Bool.decide_or, decide_eq_decide.2 h.depth_le_one]

/-- A load records a read of its variable. -/
lemma load_recorded (h : s.WorksIn w) :
    Recorded w.record (s.slotAccess? .read kind first i) (load kind first i s) := by
  unfold load State.slotAccess?
  cases variableIndex first i with
  | error e => exact .error h rfl
  | ok index =>
    obtain ⟨v, hv⟩ := exists_variablesOf h kind
    rw [bind_of_ok (liftM_eq_ok.2 ⟨rfl, rfl⟩), bind_of_ok hv]
    cases v.load index with
    | error e => exact .error h rfl
    | ok x =>
      rw [bind_of_ok (liftM_eq_ok.2 ⟨rfl, rfl⟩), bind_of_ok (isTracked_of_worksIn h kind)]
      by_cases htracked : kind = .static ∨ s.depth = 1
      · obtain ⟨s', w', hrecord, h', hread⟩ := exists_recordRead h (.slot kind index) i.offset
        simp only [htracked, decide_true, if_true]
        rw [bind_of_ok hrecord]
        exact .push h' hread
      · simp only [htracked, decide_false, Bool.false_eq_true, if_false]
        exact .push h rfl

/-- A store records a write of its variable. -/
lemma store_recorded (h : s.WorksIn w) :
    Recorded w.record (s.slotAccess? .write kind first i) (store kind first i s) := by
  unfold store State.slotAccess?
  cases variableIndex first i with
  | error e => exact .error h rfl
  | ok index =>
    obtain ⟨s₁, hpop, h₁, hframes₁⟩ := exists_pop h
    have hdepth₁ : s₁.depth = s.depth := congrArg List.length hframes₁
    obtain ⟨v, hv⟩ := exists_variablesOf h₁ kind
    rw [bind_of_ok (liftM_eq_ok.2 ⟨rfl, rfl⟩), bind_of_ok hpop, bind_of_ok hv]
    cases v.store index (w.stack.view 0) with
    | error e => exact .error h₁ rfl
    | ok v' =>
      obtain ⟨s₂, w₂, hset, h₂, hsame₂, hdepth₂⟩ := exists_setVariables h₁ kind v'
      rw [bind_of_ok (liftM_eq_ok.2 ⟨rfl, rfl⟩), bind_of_ok hset,
        bind_of_ok (isTracked_of_worksIn h₂ kind), hdepth₂, hdepth₁]
      have hsame : w₂.record = w.record := hsame₂
      by_cases htracked : kind = .static ∨ s.depth = 1
      · obtain ⟨s', w', hrecord, h', hwrite⟩ := exists_recordWrite h₂ (.slot kind index) i.offset
        simp only [htracked, decide_true, if_true]
        rw [hrecord]
        rw [hsame] at hwrite
        exact .ok h' hwrite
      · simp only [htracked, decide_false, Bool.false_eq_true, if_false]
        exact .ok h₂ hsame

/-- Initializing static fields records nothing. -/
lemma allocateStatics_recorded (h : s.WorksIn w) :
    Recorded w.record none (allocateStatics i s) := by
  unfold allocateStatics
  cases i.unsignedToken 0 1 with
  | error e => exact .error h rfl
  | ok count =>
    rw [bind_of_ok (liftM_eq_ok.2 ⟨rfl, rfl⟩)]
    split
    · exact .error h rfl
    · obtain ⟨v, hv⟩ := exists_variablesOf h .static
      simp only
      rw [bind_of_ok hv]
      cases v.allocate count with
      | error e => exact .error h rfl
      | ok v' =>
        obtain ⟨s', w', hset, h', hsame, -⟩ := exists_setVariables h .static v'
        rw [bind_of_ok (liftM_eq_ok.2 ⟨rfl, rfl⟩), hset]
        exact .ok h' hsame

/-! ## Storage -/

/-- Popping a key leaves the records alone, and gives the key that counts if it succeeds. -/
lemma popKey_cases (h : s.WorksIn w) :
    ∃ s' w', s'.WorksIn w' ∧ w'.record = w.record ∧
      (popKey s = .ok (w.heap.storageKey (w.stack.view 0)) s' ∨ ∃ e, popKey s = .error e s') := by
  obtain ⟨s', hpop, h', -⟩ := exists_pop h
  refine ⟨s', _, h', rfl, ?_⟩
  unfold popKey Heap.storageKey heap
  rw [bind_of_ok hpop]
  simp only [bind_assoc, pure_bind]
  rw [bind_of_ok (world_of_worksIn h')]
  simp only
  cases w.heap.bytesOf (w.stack.view 0) with
  | error e => exact .inr ⟨e, rfl⟩
  | ok bytes? =>
    cases bytes? with
    | none => exact .inl rfl
    | some bytes => exact .inl rfl

/-- A service that works on a key records what its work on the key that counts records.  It finds
the key below the context, and records nothing if that cannot be a key. -/
lemma withKey_recorded {access : Option AccessEvent} {k : Item → Exec Unit} (h : s.WorksIn w)
    (hk : ∀ s' w', s'.WorksIn w' → w'.record = w.record →
      Recorded w.record access (k (w.heap.storageKey (w.stack.view 1)) s')) :
    Recorded w.record access ((pop >>= fun _ => popKey >>= k) s) := by
  obtain ⟨s₁, hpop, h₁, -⟩ := exists_pop h
  obtain ⟨s₂, w₂, h₂, hsame, hcases⟩ := popKey_cases h₁
  rw [w.stack.view_pop] at hcases
  rw [bind_of_ok hpop]
  rcases hcases with hkey | ⟨e, hfails⟩
  · rw [bind_of_ok hkey]
    exact hk s₂ w₂ h₂ hsame
  · have hfails' : (popKey >>= k) s₁ = .error e s₂ := by
      simp only [Bind.bind, EStateM.bind, hfails]
    rw [hfails']
    exact .error h₂ hsame

/-- Changing the view of storage records nothing further. -/
lemma exists_modifyStorage (h : s.WorksIn w) (change : StorageView → StorageView) :
    ∃ s' w', modifyStorage change s = .ok () s' ∧ s'.WorksIn w' ∧ w'.record = w.record := by
  obtain ⟨s', hmodify, h', -⟩ := exists_modifyWorld h fun w =>
    { w with storage := some (change (w.storage.getD .empty)) }
  exact ⟨s', _, hmodify, h', rfl⟩

/-- Reading storage records a read of the key. -/
lemma storageGet_recorded (h : s.WorksIn w) :
    Recorded w.record (some ⟨.read, .storage (w.heap.storageKey (w.stack.view 1)), i.offset⟩)
      (storageGet i s) := by
  refine withKey_recorded h fun s₁ w₁ h₁ hsame₁ => ?_
  obtain ⟨s₂, w₂, hrecord, h₂, hread⟩ :=
    exists_recordRead h₁ (.storage (w.heap.storageKey (w.stack.view 1))) i.offset
  obtain ⟨s₃, w₃, hmodify, h₃, hsame₃⟩ := exists_modifyStorage h₂ id
  have h₄ : State.WorksIn { s₃ with supply := s₃.supply + 1 } w₃ := ⟨h₃.worlds, h₃.frame⟩
  rw [hsame₁] at hread
  rw [bind_of_ok hrecord, bind_of_ok hmodify, bind_of_ok (world_of_worksIn h₃)]
  exact .push h₄ (hsame₃.trans hread)

/-- Writing storage records a write of the key. -/
lemma storagePut_recorded (h : s.WorksIn w) :
    Recorded w.record (some ⟨.write, .storage (w.heap.storageKey (w.stack.view 1)), i.offset⟩)
      (storagePut i s) := by
  refine withKey_recorded h fun s₁ w₁ h₁ hsame₁ => ?_
  obtain ⟨s₂, hpop, h₂, -⟩ := exists_pop h₁
  obtain ⟨s₃, w₃, hrecord, h₃, hwrite⟩ :=
    exists_recordWrite h₂ (.storage (w.heap.storageKey (w.stack.view 1))) i.offset
  obtain ⟨s₄, w₄, hmodify, h₄, hsame₄⟩ := exists_modifyStorage h₃
    (·.set (w.heap.storageKey (w.stack.view 1)) (some (w₁.stack.view 0)))
  have hwrite' : w₃.record = w₁.record.recordWrite
      (.storage (w.heap.storageKey (w.stack.view 1))) i.offset := hwrite
  rw [hsame₁] at hwrite'
  rw [bind_of_ok hpop, bind_of_ok hrecord, hmodify]
  exact .ok h₄ (hsame₄.trans hwrite')

/-- Removing a key from storage records a write of it. -/
lemma storageDelete_recorded (h : s.WorksIn w) :
    Recorded w.record (some ⟨.write, .storage (w.heap.storageKey (w.stack.view 1)), i.offset⟩)
      (storageDelete i s) := by
  refine withKey_recorded h fun s₁ w₁ h₁ hsame₁ => ?_
  obtain ⟨s₂, w₂, hrecord, h₂, hwrite⟩ :=
    exists_recordWrite h₁ (.storage (w.heap.storageKey (w.stack.view 1))) i.offset
  obtain ⟨s₃, w₃, hmodify, h₃, hsame₃⟩ :=
    exists_modifyStorage h₂ (·.set (w.heap.storageKey (w.stack.view 1)) none)
  rw [hsame₁] at hwrite
  rw [bind_of_ok hrecord, hmodify]
  exact .ok h₃ (hsame₃.trans hwrite)

/-- A call of the host records the access of the service. -/
lemma syscall_recorded (h : s.WorksIn w) {hash : Nat} (hhash : i.unsignedToken 0 4 = .ok hash) :
    Recorded w.record (w.storageAccess? hash i.offset) (syscall i s) := by
  unfold syscall World.storageAccess?
  rw [hhash, bind_of_ok (liftM_eq_ok.2 ⟨rfl, rfl⟩)]
  cases StorageService.ofHash? hash with
  | none => exact .error h rfl
  | some service =>
    cases service with
    | getContext | getReadOnlyContext =>
      have hkeeps : Keeps State.SameRecords (do push (← fresh .interopInterface)) :=
        (Local.fresh _).records.bind fun _ => records_push _
      exact hkeeps.recorded h
    | get => exact storageGet_recorded h
    | put => exact storagePut_recorded h
    | delete => exact storageDelete_recorded h

end Semantics

/-! ## All instructions -/

/-- An instruction records the access that it makes if it succeeds, and nothing if it fails. -/
theorem JumpTable.dispatch_recorded (config : Config) (h : s.WorksIn w) (i : Instruction) :
    Exec.Recorded w.record (s.access? i) (standard.dispatch config i s) := by
  unfold dispatch State.access?
  cases hhandler : standard.handler i.opcode with
  | load kind => exact Semantics.load_recorded h
  | store kind => exact Semantics.store_recorded h
  | syscall =>
    obtain ⟨f, rest, hs, hf⟩ := h.frame
    have hcurrent : s.current? = some (f, w) := by
      simp [State.current?, hs, hf, h.worldAt]
    rw [hcurrent]
    cases hhash : i.unsignedToken 0 4 with
    | ok hash => exact Semantics.syscall_recorded h hhash
    | error e =>
      unfold Handler.run Semantics.syscall
      rw [hhash]
      exact .error h rfl
  | allocateStatics => exact Semantics.allocateStatics_recorded h
  | _ => refine (Handler.run_records config i ?_ ?_ ?_ ?_).recorded h <;> exact nofun

end SymbolicScript
