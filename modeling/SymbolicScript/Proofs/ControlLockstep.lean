import SymbolicScript.Proofs.CompoundLockstep
import SymbolicScript.Proofs.InstructionSteps

/-!
# Transfers of control in lockstep

Where control goes is decided by known operands, by the try blocks that the frames have entered, and
by whether an exception is pending.  None of these depends on how much a machine knows, so the two
machines jump, call, return and unwind together.
-/

namespace SymbolicScript

variable {L : Link}

namespace Exec

/-! ## Moving the current frame -/

lemma tracks_markJump : Tracks L markJump markJump fun _ _ => True :=
  tracks_modify fun _ _ hst => { hst with jumping := rfl }

/-- Related frames can be moved to the same places. -/
lemma seek_linked {f g f' g' : Frame} {script : Script} {target : Int}
    (h : f.Linked L g) (hf : f.seek script target = .ok f')
    (hg : g.seek script target = .ok g') : f'.Linked L g' := by
  obtain ⟨rfl, -⟩ := Frame.seek_ok hf
  obtain ⟨rfl, -⟩ := Frame.seek_ok hg
  exact h.move _

lemma tracks_seek (target : Int) : Tracks L (seek target) (seek target) fun _ _ => True := by
  refine tracks_frame.bind fun f g hfg => tracks_world.bind fun w w' hw => ?_
  rw [hw.script]
  exact (tracks_lift (Q := Frame.Linked L) (g.seek_resolved _ _) fun _ _ hf hg =>
    seek_linked hfg hf hg).bind fun _ _ h => tracks_setFrame h

lemma accompanies_jumpTo (target : Int) : Accompanies L (jumpTo target) (jumpTo target) := by
  refine tracks_world.bind fun w w' hw => ?_
  rw [hw.script]
  exact .ite Iff.rfl (fun _ _ => (tracks_seek target).bind fun _ _ _ =>
    tracks_markJump.accompanies) fun _ _ => follows_throw

/-! ## Calls and returns -/

/-- Frames of routines that are called at the same offset are related. -/
lemma callee_linked {f g : Frame} (h : f.Linked L g) (offset : Nat) :
    (f.callee offset).Linked L (g.callee offset) where
  first := h.first
  world := h.world
  position := rfl
  returnCount := rfl
  locals := .of_untouched _
  arguments := .of_untouched _
  tries := rfl

lemma accompanies_call (config : Config) (target : Int) :
    Accompanies L (call config target) (call config target) := by
  refine tracks_frame.bind fun f g hfg => tracks_world.bind fun w w' hw => ?_
  rw [hw.script]
  have hcallee : Tracks L
      (ofExcept ((f.cloneAt w.script target.toNat).mapError Located.payload))
      (ofExcept ((g.cloneAt w.script target.toNat).mapError Located.payload))
      (Frame.Linked L) := by
    refine tracks_lift ((Frame.seek_resolved _ _ _).unlocate _) fun f' g' hf hg => ?_
    rw [Frame.cloneAt_eq_ok hf, Frame.cloneAt_eq_ok hg]
    exact callee_linked hfg _
  refine .ite Iff.rfl (fun _ _ => hcallee.bind fun f' g' h => ?_) fun _ _ => follows_throw
  refine tracks_get.bind fun s t hst => ?_
  rw [hst.depth]
  refine .check rfl fun _ _ => Follows.accompanies (tracks_modify ?_)
  exact fun _ _ hst => { hst with frames := .cons h hst.frames }

/-- Handing over all items uncovers what lies below them. -/
lemma moveTo_fst (s t : EvaluationStack) : (s.moveTo t none).1 = s.clear := by
  simp [EvaluationStack.moveTo, EvaluationStack.transferCount, EvaluationStack.length,
    EvaluationStack.extend_of_le, EvaluationStack.clear]

/-- The state behind the return of the last frame, which hands over its stack. -/
def afterLastReturn (f : Frame) (s : State) : State :=
  { handOver f.world { s with frames := [] } with status := .halted, jumping := true }

/-- The last frame returns if it has the announced number of values, and hands over its stack. -/
lemma ret_last {s : State} {f : Frame} (hs : s.frames = [f]) :
    ret s =
      if 0 ≤ f.returnCount ∧ f.returnCount ≠ (s.worldAt f.world).stack.length then
        .error (.returnCountMismatch f.returnCount (s.worldAt f.world).stack.length)
          { s with frames := [] }
      else .ok () (afterLastReturn f s) := by
  have hlast : ¬([] : List Frame).head?.any f.sharesWorld = true := Bool.false_ne_true
  rw [ret, bind_of_ok (unloadFrame_eq hs), bind_of_ok (get_eq _), if_neg hlast]
  split
  · next hcount => exact (if_pos hcount).symm
  · next hcount => exact (if_neg hcount).symm

/-- The last frames return in lockstep. -/
lemma afterLastReturn_linked {s t : State} {f g : Frame} (h : s.Linked L t)
    (hfg : f.Linked L g) : (afterLastReturn f s).Linked L (afterLastReturn g t) := by
  have hleft : World.Linked L
      { s.worldAt 0 with stack := ((s.worldAt 0).stack.moveTo s.result none).1 }
      { t.worldAt 0 with stack := ((t.worldAt 0).stack.moveTo t.result none).1 } := by
    rw [moveTo_fst, moveTo_fst]
    exact { h.world with stack := .clear _ _ fun _ _ => .of_symbolic rfl rfl }
  have hworlds := h.setWorld (le_refl L) rfl hleft
  unfold afterLastReturn handOver
  rw [hfg.world, hfg.first]
  exact { hworlds with frames := .nil, status := rfl, jumping := rfl }

lemma accompanies_ret : Accompanies L ret ret := by
  intro s t a s' hst hx
  have hframes := hst.frames
  refine ⟨Exec.ret_resolved t, fun b t' hy => ?_⟩
  generalize hs : s.frames = fs at hframes
  generalize ht : t.frames = gs at hframes
  cases hframes with
  | nil =>
    obtain ⟨_, _, hunload, -⟩ := bind_eq_ok.1 hx
    simp only [unloadFrame, hs] at hunload
    cases hunload
  | @cons f g rest rest' hfg hrest =>
    cases hrest with
    | nil =>
      rw [ret_last hs] at hx
      rw [ret_last ht] at hy
      split at hx
      · cases hx
      · split at hy
        · cases hy
        · cases hx
          cases hy
          exact ⟨L, le_refl L, afterLastReturn_linked hst hfg, trivial⟩
    | cons hcaller hrest =>
      rw [ret_eq hs (hfg.first.trans hcaller.first.symm)] at hx
      rw [ret_eq ht ((hfg.world.trans hfg.first).trans (hcaller.world.trans hcaller.first).symm)]
        at hy
      cases hx
      cases hy
      exact ⟨L, le_refl L, { hst with frames := .cons hcaller hrest, jumping := rfl }, trivial⟩

/-! ## Exceptions -/

/-- The pending exceptions are linked. -/
lemma tracks_takeException :
    Tracks L takeException takeException (Item.Linked L) := by
  rintro s t _ _ hst ⟨⟩
  constructor
  · rintro _ _ ⟨⟩
  rintro _ _ ⟨⟩
  have hexception := hst.exception
  refine ⟨L, le_refl L, { hst with exception := .none }, rfl, ?_⟩
  generalize s.exception = e at hexception
  generalize t.exception = e' at hexception
  cases hexception with
  | some h => exact h
  | none => exact .of_handle? rfl

/-- Frames that an exception passes are dropped in lockstep. -/
lemma dropWhile_frames {fs gs : List Frame} (h : List.Forall₂ (Frame.Linked L) fs gs) :
    List.Forall₂ (Frame.Linked L)
      (fs.dropWhile fun f => f.tries.all TryEntry.isSpent)
      (gs.dropWhile fun f => f.tries.all TryEntry.isSpent) := by
  induction h with
  | nil => exact .nil
  | cons hfg hrest ih =>
    rw [List.dropWhile_cons, List.dropWhile_cons, hfg.tries]
    split
    · exact ih
    · exact .cons hfg hrest

lemma accompanies_handleException : Accompanies L handleException handleException := by
  refine tracks_get.bind fun s t hst => ?_
  have hframes := dropWhile_frames hst.frames
  generalize s.frames.dropWhile _ = fs at hframes
  generalize t.frames.dropWhile _ = gs at hframes
  cases hframes with
  | nil =>
    intro s t a s' _ hx
    obtain ⟨_, _, -, hthrow⟩ := bind_eq_ok.1 hx
    cases hthrow
  | @cons f g rest rest' hfg hrest =>
    simp only
    rw [hfg.tries]
    cases f.tries.dropWhile TryEntry.isSpent with
    | nil => exact follows_throw
    | cons entry outer =>
      refine Tracks.bind (tracks_modify fun _ _ hst => ?_) fun _ _ _ => ?_
      · exact { hst with frames := .cons (hfg.withTries _) hrest }
      split
      · exact tracks_takeException.bind fun _ _ hxy => (tracks_push hxy).bind fun _ _ _ =>
          (tracks_setFrame (hfg.withTries _)).bind fun _ _ _ => (tracks_seek _).bind fun _ _ _ =>
          tracks_markJump.accompanies
      · exact (tracks_setFrame (hfg.withTries _)).bind fun _ _ _ =>
          (tracks_seek _).bind fun _ _ _ => tracks_markJump.accompanies

lemma accompanies_raise {x y : Item} (h : x.Linked L y) :
    Accompanies L (raise x) (raise y) :=
  Tracks.bind (tracks_modify fun _ _ hst => { hst with exception := .some h }) fun _ _ _ =>
    accompanies_handleException

end Exec

namespace Semantics

open Exec

variable (config : Config) (i : Instruction)

/-! ## Instructions that transfer control -/

lemma accompanies_jump : Accompanies L (jump i) (jump i) := by
  refine (tracks_same i.target_resolved).bind ?_
  rintro target _ rfl
  exact accompanies_jumpTo target

lemma accompanies_jumpWhen (wanted : Bool) :
    Accompanies L (jumpWhen wanted i) (jumpWhen wanted i) := by
  refine (tracks_popBoolean i.opcode).bind ?_
  rintro condition _ rfl
  exact .ite Iff.rfl (fun _ _ => accompanies_jump i) fun _ _ => accompanies_pure _ _

lemma accompanies_jumpCompare : Accompanies L (jumpCompare i) (jumpCompare i) := by
  refine (tracks_popInteger i.opcode).bind ?_
  rintro y _ rfl
  refine (tracks_popInteger i.opcode).bind ?_
  rintro x _ rfl
  cases comparison? i.opcode x y with
  | none => exact follows_throw
  | some taken =>
    cases taken with
    | true => exact accompanies_jump i
    | false => exact accompanies_pure _ _

lemma accompanies_directCall :
    Accompanies L (Semantics.call config i) (Semantics.call config i) := by
  refine (tracks_same i.target_resolved).bind ?_
  rintro target _ rfl
  exact accompanies_call config target

lemma accompanies_callPointer : Accompanies L (callPointer config i) (callPointer config i) := by
  refine tracks_pop.bind fun x y hxy => ?_
  cases hv : x.known? with
  | none => exact follows_throw
  | some v =>
    obtain ⟨w, hw, hvw⟩ := hxy.approximates v hv
    rw [hw]
    cases hvw with
    | pointer target => exact accompanies_call config target
    | _ => exact follows_throw

/-- Both machines pop a message, of which the lesser one may not know the text. -/
lemma accompanies_popMessage : Accompanies L popMessage popMessage := by
  refine tracks_pop.bind fun x y hxy => tracks_heap.bind fun a b hab => ?_
  split <;> split <;> exact accompanies_pure _ _

lemma accompanies_abortWithMessage : Accompanies L abortWithMessage abortWithMessage :=
  accompanies_popMessage.bind fun _ _ _ _ => follows_throw

/-- A condition is required in lockstep, whatever the messages are. -/
lemma accompanies_require (text text' : Option String) :
    Accompanies L (require text i) (require text' i) := by
  refine (tracks_popBoolean i.opcode).bind ?_
  rintro condition _ rfl
  exact .ite Iff.rfl (fun _ _ => accompanies_pure _ _) fun _ _ => follows_throw

lemma accompanies_assertWithMessage :
    Accompanies L (assertWithMessage i) (assertWithMessage i) :=
  accompanies_popMessage.bind fun _ text text' _ => accompanies_require i text text'

lemma accompanies_throw : Accompanies L Semantics.raise Semantics.raise :=
  tracks_pop.bind fun _ _ hxy => accompanies_raise hxy

lemma accompanies_beginTry : Accompanies L (beginTry i) (beginTry i) := by
  refine (tracks_same (i.signedToken_resolved 0 _)).bind ?_
  rintro catchOffset _ rfl
  refine (tracks_same (i.signedToken_resolved _ _)).bind ?_
  rintro finallyOffset _ rfl
  refine .check rfl fun _ _ => (tracks_same (handlerTarget_resolved i catchOffset)).bind ?_
  rintro catchTarget _ rfl
  refine (tracks_same (handlerTarget_resolved i finallyOffset)).bind ?_
  rintro finallyTarget _ rfl
  refine tracks_frame.bind fun f g hfg => ?_
  rw [hfg.tries]
  exact .check rfl fun _ _ => (tracks_setFrame (hfg.withTries _)).accompanies

lemma accompanies_endTry : Accompanies L (endTry i) (endTry i) := by
  refine (tracks_same i.target_resolved).bind ?_
  rintro target _ rfl
  refine .check rfl fun _ _ => tracks_frame.bind fun f g hfg => ?_
  rw [hfg.tries]
  cases f.tries with
  | nil => exact follows_throw
  | cons entry outer =>
    refine .check rfl fun _ _ => ?_
    split
    · exact (tracks_setFrame (hfg.withTries _)).bind fun _ _ _ => accompanies_jumpTo _
    · exact (tracks_setFrame (hfg.withTries _)).bind fun _ _ _ => accompanies_jumpTo _

lemma accompanies_endFinally : Accompanies L (endFinally i) (endFinally i) := by
  refine tracks_frame.bind fun f g hfg => ?_
  rw [hfg.tries]
  cases f.tries with
  | nil => exact follows_throw
  | cons entry outer =>
    refine (tracks_setFrame (hfg.withTries _)).bind fun _ _ _ =>
      tracks_get.bind fun s t hst => ?_
    refine .ite (by rw [hst.isSome_exception]) (fun _ _ => accompanies_handleException)
      fun _ _ => ?_
    cases entry.endTarget with
    | some target => exact accompanies_jumpTo target
    | none => exact follows_throw

end Semantics

end SymbolicScript
