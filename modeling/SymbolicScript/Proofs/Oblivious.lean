import SymbolicScript.Machine.Run
import SymbolicScript.Proofs.HandlerWork

/-!
# What instructions do not look at

Once an instruction has been decoded, its handler looks at the script no more, except for the
length, which bounds jumps and pointers.  Nor does it look at the mark of a jump, which it can only
set.  `State.disguise` replaces every script of a state by another one of the same length and may
mark a jump, and a computation is `Oblivious` to that if it does the same to the disguised state.
Every handler is (`Handler.run_oblivious`).
-/

namespace SymbolicScript

/-! ## Disguises -/

/-- The world with its script replaced. -/
def World.rescript (g : Script → Script) (w : World) : World :=
  { w with script := g w.script }

/-- The state with all scripts replaced, and with a jump marked if asked for. -/
def State.disguise (g : Script → Script) (mark : Bool) (s : State) : State :=
  { s with worlds := s.worlds.map (World.rescript g), jumping := s.jumping || mark }

/-- Scripts are replaced by scripts of the same length. -/
def KeepsLength (g : Script → Script) : Prop :=
  ∀ script, (g script).length = script.length

section

variable {g : Script → Script} {mark : Bool}

/-- The empty script is the only one of its length. -/
lemma KeepsLength.empty (hg : KeepsLength g) : g ⟨[]⟩ = ⟨[]⟩ := by
  have hlength : (g ⟨[]⟩).bytes = [] := List.eq_nil_of_length_eq_zero (hg ⟨[]⟩)
  cases hscript : g ⟨[]⟩ with
  | mk bytes =>
    rw [hscript] at hlength
    exact congrArg Script.mk hlength

namespace State

/-- A world of a disguised state. -/
lemma worldAt_disguise (hg : KeepsLength g) (s : State) (i : Nat) :
    (s.disguise g mark).worldAt i = (s.worldAt i).rescript g := by
  unfold worldAt disguise
  simp only [Array.getD_eq_getD_getElem?, Array.getElem?_map]
  cases s.worlds[i]? with
  | some w => rfl
  | none => simp [World.rescript, World.ofScript, hg.empty]

/-- A state may be disguised before or after one of its worlds is changed. -/
lemma setWorld_disguise (s : State) (i : Nat) (w : World) :
    (s.disguise g mark).setWorld i (w.rescript g) = (s.setWorld i w).disguise g mark := by
  unfold setWorld disguise
  rw [Array.map_setIfInBounds]

end State

/-- Only the length of a script decides whether a frame can be moved in it. -/
lemma Frame.seek_rescript (hg : KeepsLength g) (f : Frame) (script : Script) (target : Int) :
    f.seek (g script) target = f.seek script target := by
  unfold seek
  rw [hg script]

/-- Only the length of a script decides whether it can be entered. -/
lemma Frame.enter_rescript (hg : KeepsLength g) (script : Script) (world : Nat)
    (returnCount : Int) (offset : Nat) :
    enter (g script) world returnCount offset = enter script world returnCount offset := by
  unfold enter
  simp only [seek_rescript hg]

/-! ## Oblivious computations -/

namespace Exec

variable {α β : Type}

/-- The outcome with its state disguised. -/
def disguise (g : Script → Script) (mark : Bool) :
    EStateM.Result ExecutionError State α → EStateM.Result ExecutionError State α
  | .ok a s => .ok a (s.disguise g mark)
  | .error e s => .error e (s.disguise g mark)

/-- The computation does the same to a state and to the disguised one. -/
def Oblivious (g : Script → Script) (mark : Bool) (x : Exec α) : Prop :=
  ∀ s, x (s.disguise g mark) = disguise g mark (x s)

namespace Oblivious

lemma pure (a : α) : Oblivious g mark (Pure.pure a : Exec α) :=
  fun _ => rfl

lemma throw (e : ExecutionError) : Oblivious g mark (MonadExcept.throw e : Exec α) :=
  fun _ => rfl

/-- A sequence is oblivious if its second part is for every result that its first part can have. -/
lemma bind_of_ok {x : Exec α} {k : α → Exec β} (hx : Oblivious g mark x)
    (hk : ∀ s a s', x s = .ok a s' → Oblivious g mark (k a)) : Oblivious g mark (x >>= k) := by
  intro s
  simp only [Bind.bind, EStateM.bind]
  rw [hx s]
  cases hs : x s with
  | ok a s' => exact hk s a s' hs s'
  | error e s' => rfl

/-- A sequence of oblivious computations is oblivious. -/
lemma bind {x : Exec α} {k : α → Exec β} (hx : Oblivious g mark x)
    (hk : ∀ a, Oblivious g mark (k a)) : Oblivious g mark (x >>= k) :=
  hx.bind_of_ok fun _ a _ _ => hk a

lemma ite {c : Prop} [Decidable c] {x y : Exec α} (hx : Oblivious g mark x)
    (hy : Oblivious g mark y) : Oblivious g mark (if c then x else y) := by
  split
  · exact hx
  · exact hy

lemma check {c : Prop} [Decidable c] {e : ExecutionError} {k : Unit → Exec α}
    (hk : ∀ u, Oblivious g mark (k u)) :
    Oblivious g mark (if c then MonadExcept.throw e >>= k else k ()) :=
  ((throw e).bind hk).ite (hk ())

lemma lift (result : Except ExecutionError α) : Oblivious g mark (liftM result : Exec α) := by
  cases result with
  | ok a => exact pure a
  | error e => exact throw e

/-- A change of the state that the disguise does not get in the way of. -/
lemma modify {change : State → State}
    (h : ∀ s, change (s.disguise g mark) = (change s).disguise g mark) :
    Oblivious g mark (modify change : Exec Unit) := by
  intro s
  change EStateM.Result.ok () (change (s.disguise g mark)) = .ok () ((change s).disguise g mark)
  rw [h]

/-- The state may be read by what does not see the disguise. -/
lemma get_bind {k : State → Exec α} (hread : ∀ s, k (s.disguise g mark) = k s)
    (hk : ∀ s, Oblivious g mark (k s)) : Oblivious g mark (get >>= k) := by
  intro s
  change k (s.disguise g mark) (s.disguise g mark) = disguise g mark (k s s)
  rw [hread]
  exact hk s s

lemma frame : Oblivious g mark frame := by
  intro s
  cases hs : s.frames with
  | nil => simp [Exec.frame, State.disguise, disguise, hs]
  | cons f rest => simp [Exec.frame, State.disguise, disguise, hs]

lemma setFrame (f : Frame) : Oblivious g mark (setFrame f) := by
  intro s
  cases hs : s.frames with
  | nil => simp [Exec.setFrame, State.disguise, disguise, hs]
  | cons _ rest => simp [Exec.setFrame, State.disguise, disguise, hs]

lemma unloadFrame : Oblivious g mark unloadFrame := by
  intro s
  cases hs : s.frames with
  | nil => simp [Exec.unloadFrame, State.disguise, disguise, hs]
  | cons f rest => simp [Exec.unloadFrame, State.disguise, disguise, hs]

variable (hg : KeepsLength g)

include hg in
/-- The world of the current frame may be read by what does not look at its script. -/
lemma world_bind {k : World → Exec α} (hread : ∀ w : World, k (w.rescript g) = k w)
    (hk : ∀ w, Oblivious g mark (k w)) : Oblivious g mark (world >>= k) := by
  intro s
  cases hs : s.frames with
  | nil =>
    have hs' : (s.disguise g mark).frames = [] := hs
    simp [Bind.bind, EStateM.bind, world, hs, hs', disguise]
  | cons f rest =>
    have hs' : (s.disguise g mark).frames = f :: rest := hs
    rw [SymbolicScript.bind_of_ok (world_eq hs), SymbolicScript.bind_of_ok (world_eq hs'),
      State.worldAt_disguise hg, hread]
    exact hk _ s

include hg in
/-- The world of the current frame may be changed by what does not look at its script. -/
lemma onWorld {change : World → α × World}
    (h : ∀ w : World, change (w.rescript g) = ((change w).1, (change w).2.rescript g)) :
    Oblivious g mark (onWorld change) := by
  intro s
  cases hs : s.frames with
  | nil =>
    have hs' : (s.disguise g mark).frames = [] := hs
    simp [Exec.onWorld, hs, hs', disguise]
  | cons f rest =>
    have hs' : (s.disguise g mark).frames = f :: rest := hs
    simp only [Exec.onWorld, hs, hs', disguise, State.worldAt_disguise hg, h,
      State.setWorld_disguise]

include hg in
lemma modifyWorld {change : World → World}
    (h : ∀ w : World, change (w.rescript g) = (change w).rescript g) :
    Oblivious g mark (modifyWorld change) :=
  onWorld hg fun w => Prod.ext rfl (h w)

end Oblivious

variable (hg : KeepsLength g)

include hg in
/-- Work on stack and heap looks at most at the length of a script, and at no mark. -/
lemma Local.oblivious {x : Exec α} {Q : α → Prop} (h : Local (fun _ => True) x Q) :
    Oblivious g mark x := by
  induction h with
  | pure => exact .pure _
  | throw e => exact .throw e
  | @bind _ _ P _ x k hx _ ihx ihk =>
    refine ihx.bind_of_ok fun s a s' hok => ihk a ?_
    have hleaves := hx.maintains s s ⟨s.memoryInto_true, Std.Refl.refl s⟩
    rw [hok] at hleaves
    exact hleaves.2
  | onStack => exact .onWorld hg fun _ => rfl
  | heap => exact .world_bind hg (fun _ => rfl) fun _ => .pure _
  | setHeap => exact .modifyWorld hg fun _ => rfl
  | freshId => exact fun _ => rfl
  | @scriptLength _ _ k _ ih =>
    refine .world_bind hg (fun w => ?_) fun w => ih w.script.length
    rw [World.rescript, hg]

include hg in
lemma oblivious_push (x : Item) : Oblivious g mark (push x) :=
  (Local.push (L := fun _ => True) fun _ _ => trivial).oblivious hg

include hg in
lemma oblivious_pop : Oblivious g mark pop :=
  Local.pop.oblivious hg

include hg in
lemma oblivious_recordRead (a : Access) (offset : Nat) : Oblivious g mark (recordRead a offset) :=
  .modifyWorld hg fun _ => rfl

include hg in
lemma oblivious_recordWrite (a : Access) (offset : Nat) : Oblivious g mark (recordWrite a offset) :=
  .modifyWorld hg fun _ => rfl

/-! ## Transfers of control -/

include hg in
lemma oblivious_seek (target : Int) : Oblivious g mark (seek target) :=
  Oblivious.frame.bind fun f => .world_bind hg
    (fun w => by rw [World.rescript, Frame.seek_rescript hg])
    fun w => (Oblivious.lift _).bind fun _ => .setFrame _

lemma oblivious_markJump : Oblivious g mark markJump :=
  .modify fun _ => rfl

include hg in
lemma oblivious_jumpTo (target : Int) : Oblivious g mark (jumpTo target) :=
  .world_bind hg (fun w => by rw [World.rescript, hg])
    fun w => ((oblivious_seek hg target).bind fun _ => oblivious_markJump).ite (.throw _)

lemma oblivious_loadFrame (config : Config) (f : Frame) : Oblivious g mark (loadFrame config f) :=
  .get_bind (fun _ => rfl) fun _ => .check fun _ => .modify fun _ => rfl

include hg in
lemma oblivious_call (config : Config) (target : Int) : Oblivious g mark (call config target) :=
  Oblivious.frame.bind fun f => .world_bind hg
    (fun w => by
      have hlength : (g w.script).length = w.script.length := hg w.script
      simp only [World.rescript, Frame.cloneAt, Frame.enter_rescript hg, hlength])
    fun w => ((Oblivious.lift _).bind fun _ => oblivious_loadFrame config _).ite (.throw _)

include hg in
/-- Handing over a stack looks neither at scripts nor at the mark. -/
lemma handOver_disguise (source : Nat) (s : State) :
    handOver source (s.disguise g mark) = (handOver source s).disguise g mark := by
  have hstack (s : State) (i : Nat) (w : World) (stack : EvaluationStack) :
      (s.disguise g mark).setWorld i { w.rescript g with stack } =
        (s.setWorld i { w with stack }).disguise g mark := s.setWorld_disguise i { w with stack }
  unfold handOver
  simp only [State.worldAt_disguise hg]
  cases hs : s.frames with
  | nil =>
    have hs' : (s.disguise g mark).frames = [] := hs
    simp only [hs', hstack]
    rfl
  | cons caller rest =>
    have hs' : (s.disguise g mark).frames = caller :: rest := hs
    simp only [hs', hstack]
    rfl

include hg in
lemma oblivious_ret : Oblivious g mark ret := by
  have hrest : ∀ u : Unit, Oblivious g mark (do
      modify fun s => if s.frames.isEmpty then { s with status := .halted } else s
      markJump) := fun _ => by
    refine Oblivious.bind (.modify fun s => ?_) fun _ => oblivious_markJump
    change (if s.frames.isEmpty then _ else _) =
      State.disguise g mark (if s.frames.isEmpty then _ else _)
    split <;> rfl
  refine Oblivious.unloadFrame.bind fun f => .get_bind (fun s => ?_) fun s => ?_
  · simp only [State.worldAt_disguise hg]
    rfl
  · exact (hrest ()).ite (.check fun _ =>
      Oblivious.bind (.modify (handOver_disguise hg f.world)) fun _ => hrest ())

lemma oblivious_takeException : Oblivious g mark takeException :=
  fun _ => rfl

include hg in
lemma oblivious_handleException : Oblivious g mark handleException := by
  refine .get_bind (fun _ => rfl) fun s => ?_
  split
  · refine Oblivious.bind (.modify ?_) fun _ => .throw _
    exact fun _ => rfl
  · split
    · exact .throw _
    · refine Oblivious.bind (.modify ?_) fun _ => ?_
      · exact fun _ => rfl
      split
      · exact oblivious_takeException.bind fun _ => (oblivious_push hg _).bind fun _ =>
          (Oblivious.setFrame _).bind fun _ => (oblivious_seek hg _).bind fun _ =>
          oblivious_markJump
      · exact (Oblivious.setFrame _).bind fun _ => (oblivious_seek hg _).bind fun _ =>
          oblivious_markJump

include hg in
lemma oblivious_raise (exception : Item) : Oblivious g mark (raise exception) := by
  refine Oblivious.bind (.modify ?_) fun _ => oblivious_handleException hg
  exact fun _ => rfl

end Exec

/-! ## Handlers -/

namespace Semantics

open Exec

variable (hg : KeepsLength g) (config : Config) (i : Instruction)

include hg in
lemma oblivious_jump : Oblivious g mark (jump i) :=
  (Oblivious.lift _).bind fun _ => oblivious_jumpTo hg _

include hg in
lemma oblivious_jumpWhen (wanted : Bool) : Oblivious g mark (jumpWhen wanted i) :=
  ((Local.popBoolean _).oblivious hg).bind fun _ => (oblivious_jump hg i).ite (.pure _)

include hg in
lemma oblivious_jumpCompare : Oblivious g mark (jumpCompare i) := by
  refine ((Local.popInteger _).oblivious hg).bind fun _ => ((Local.popInteger _).oblivious hg).bind
    fun _ => ?_
  split
  · exact oblivious_jump hg i
  · exact .pure _
  · exact .throw _

include hg in
lemma oblivious_callPointer : Oblivious g mark (callPointer config i) := by
  refine (oblivious_pop hg).bind fun _ => ?_
  split
  · exact oblivious_call hg config _
  · exact .throw _
  · exact .throw _

lemma oblivious_beginTry : Oblivious g mark (beginTry i) :=
  (Oblivious.lift _).bind fun _ => (Oblivious.lift _).bind fun _ => .check fun _ =>
    (Oblivious.lift _).bind fun _ => (Oblivious.lift _).bind fun _ => Oblivious.frame.bind fun _ =>
    .check fun _ => .setFrame _

include hg in
lemma oblivious_endTry : Oblivious g mark (endTry i) := by
  refine (Oblivious.lift _).bind fun _ => .check fun _ => Oblivious.frame.bind fun f => ?_
  split
  · exact .throw _
  · refine .check fun _ => ?_
    split
    · exact (Oblivious.setFrame _).bind fun _ => oblivious_jumpTo hg _
    · exact (Oblivious.setFrame _).bind fun _ => oblivious_jumpTo hg _

include hg in
lemma oblivious_endFinally : Oblivious g mark (endFinally i) := by
  refine Oblivious.frame.bind fun f => ?_
  split
  · exact .throw _
  · refine (Oblivious.setFrame _).bind fun _ => .get_bind (fun _ => rfl) fun _ =>
      (oblivious_handleException hg).ite ?_
    split
    · exact oblivious_jumpTo hg _
    · exact .throw _

include hg in
lemma oblivious_variablesOf (kind : SlotKind) : Oblivious g mark (variablesOf kind) := by
  cases kind with
  | static => exact .world_bind hg (fun _ => rfl) fun _ => .pure _
  | «local» | argument => exact Oblivious.frame.bind fun _ => .pure _

include hg in
lemma oblivious_setVariables (kind : SlotKind) (v : Variables) :
    Oblivious g mark (setVariables kind v) := by
  cases kind with
  | static => exact .modifyWorld hg fun _ => rfl
  | «local» | argument => exact Oblivious.frame.bind fun _ => .setFrame _

lemma oblivious_isTracked (kind : SlotKind) : Oblivious g mark (isTracked kind) :=
  .get_bind (fun _ => rfl) fun _ => .pure _

include hg in
lemma oblivious_load (kind : SlotKind) (first : Opcode) : Oblivious g mark (load kind first i) :=
  (Oblivious.lift _).bind fun _ => (oblivious_variablesOf hg kind).bind fun _ =>
    (Oblivious.lift _).bind fun _ => (oblivious_isTracked kind).bind fun _ =>
    ((oblivious_recordRead hg _ _).bind fun _ => oblivious_push hg _).ite (oblivious_push hg _)

include hg in
lemma oblivious_store (kind : SlotKind) (first : Opcode) : Oblivious g mark (store kind first i) :=
  (Oblivious.lift _).bind fun _ => (oblivious_pop hg).bind fun _ =>
    (oblivious_variablesOf hg kind).bind fun _ => (Oblivious.lift _).bind fun _ =>
    (oblivious_setVariables hg kind _).bind fun _ =>
    (oblivious_isTracked kind).bind fun _ => (oblivious_recordWrite hg _ _).ite (.pure _)

include hg in
lemma oblivious_allocateStatics : Oblivious g mark (allocateStatics i) :=
  (Oblivious.lift _).bind fun _ => .check fun _ => (oblivious_variablesOf hg .static).bind fun _ =>
    (Oblivious.lift _).bind fun _ => oblivious_setVariables hg .static _

include hg in
lemma oblivious_allocateFrame : Oblivious g mark (allocateFrame i) :=
  (Oblivious.lift _).bind fun _ => (Oblivious.lift _).bind fun _ => .check fun _ =>
    Oblivious.frame.bind fun _ => .check fun _ => .check fun _ =>
    ((Local.popMany _).oblivious hg).bind fun _ => (Oblivious.lift _).bind fun _ =>
    (oblivious_setVariables hg .local _).bind fun _ => (Oblivious.lift _).bind fun _ =>
    oblivious_setVariables hg .argument _

include hg in
lemma oblivious_popKey : Oblivious g mark popKey :=
  local_popKey.oblivious hg

include hg in
lemma oblivious_modifyStorage (change : StorageView → StorageView) :
    Oblivious g mark (modifyStorage change) :=
  .modifyWorld hg fun _ => rfl

include hg in
lemma oblivious_storageGet : Oblivious g mark (storageGet i) :=
  (oblivious_pop hg).bind fun _ => (oblivious_popKey hg).bind fun _ =>
    (oblivious_recordRead hg _ _).bind fun _ => (oblivious_modifyStorage hg _).bind fun _ =>
    .world_bind hg (fun _ => rfl) fun _ => (Local.freshId.oblivious hg).bind fun _ =>
    oblivious_push hg _

include hg in
lemma oblivious_storagePut : Oblivious g mark (storagePut i) :=
  (oblivious_pop hg).bind fun _ => (oblivious_popKey hg).bind fun _ =>
    (oblivious_pop hg).bind fun _ => (oblivious_recordWrite hg _ _).bind fun _ =>
    oblivious_modifyStorage hg _

include hg in
lemma oblivious_storageDelete : Oblivious g mark (storageDelete i) :=
  (oblivious_pop hg).bind fun _ => (oblivious_popKey hg).bind fun _ =>
    (oblivious_recordWrite hg _ _).bind fun _ => oblivious_modifyStorage hg _

include hg in
lemma oblivious_syscall : Oblivious g mark (syscall i) := by
  refine (Oblivious.lift _).bind fun hash => ?_
  split
  · exact .throw _
  · exact ((Local.fresh _).oblivious hg).bind fun _ => oblivious_push hg _
  · exact ((Local.fresh _).oblivious hg).bind fun _ => oblivious_push hg _
  · exact oblivious_storageGet hg i
  · exact oblivious_storagePut hg i
  · exact oblivious_storageDelete hg i

end Semantics

/-- No handler looks at scripts, except for their lengths, and none looks at the mark of a jump. -/
theorem Handler.run_oblivious (hg : KeepsLength g) (handler : Handler) (config : Config)
    (i : Instruction) : Exec.Oblivious g mark (handler.run config i) := by
  cases hlocal : handler.worksLocally with
  | true =>
    have hwork : Exec.Local (fun _ => True) (handler.run config i) fun _ => True :=
      run_local config hlocal fun _ _ _ _ _ => trivial
    exact hwork.oblivious hg
  | false =>
    cases handler with
    | load kind => exact Semantics.oblivious_load hg i kind _
    | store kind => exact Semantics.oblivious_store hg i kind _
    | allocateStatics => exact Semantics.oblivious_allocateStatics hg i
    | allocateFrame => exact Semantics.oblivious_allocateFrame hg i
    | syscall => exact Semantics.oblivious_syscall hg i
    | jump => exact Semantics.oblivious_jump hg i
    | jumpIf | jumpIfNot => exact Semantics.oblivious_jumpWhen hg i _
    | jumpCompare => exact Semantics.oblivious_jumpCompare hg i
    | call => exact (Exec.Oblivious.lift _).bind fun _ => Exec.oblivious_call hg config _
    | callPointer => exact Semantics.oblivious_callPointer hg config i
    | abort => exact .throw _
    | abortWithMessage => exact (Semantics.local_popMessage.oblivious hg).bind fun _ => .throw _
    | raise => exact (Exec.oblivious_pop hg).bind fun _ => Exec.oblivious_raise hg _
    | beginTry => exact Semantics.oblivious_beginTry i
    | endTry => exact Semantics.oblivious_endTry hg i
    | endFinally => exact Semantics.oblivious_endFinally hg i
    | ret => exact Exec.oblivious_ret hg
    | _ => cases hlocal

end

end SymbolicScript
