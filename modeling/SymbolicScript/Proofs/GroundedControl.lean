import SymbolicScript.Proofs.GroundedHandlers

/-!
# Transfers of control on grounded states

Jumps, calls, returns and exceptions change frames and move items, but they create none.  Together
with the instructions on data they lead from grounded states to grounded ones
(`Handler.run_grounded`).  A frame may be moved anywhere and may enter and leave try blocks without
ceasing to be grounded, so nothing needs to be known of where control goes.
-/

namespace SymbolicScript

variable {g : Ground}

namespace Exec

lemma Still.markJump : Still g markJump fun _ => True :=
  .modify fun _ hs => { hs with }

/-- The current frame may be moved anywhere. -/
lemma Still.seek (target : Int) : Still g (seek target) fun _ => True := by
  refine Still.frame.bind fun f hf => Still.world.bind fun w _ =>
    (Still.lift (f.safe_seek w.script target)).bind ?_
  rintro _ rfl
  exact .setFrame { hf with }

lemma Still.jumpTo (target : Int) : Still g (jumpTo target) fun _ => True :=
  Still.world.bind fun _ _ => .ite (fun _ => (Still.seek target).bind fun _ _ => .markJump)
    fun _ => .throw rfl

lemma Still.call (config : Config) (target : Int) : Still g (call config target) fun _ => True := by
  refine Still.frame.bind fun f hf => Still.world.bind fun w _ =>
    .ite (fun _ => (Still.lift (f.safe_cloneAt w.script target.toNat)).bind ?_) fun _ => .throw rfl
  rintro _ rfl
  exact Still.get.bind fun _ _ => .check rfl fun _ _ => .modify fun s hs =>
    hs.setFrames (List.forall_mem_cons.2 ⟨hf.callee _, hs.frame⟩)

lemma Still.unloadFrame : Still g unloadFrame (Frame.Grounded g) := by
  intro s hs
  unfold Exec.unloadFrame
  cases hframes : s.frames with
  | nil => exact ⟨g, le_rfl, hs, rfl⟩
  | cons f rest =>
    have hframe := hs.frame
    rw [hframes] at hframe
    obtain ⟨hf, hrest⟩ := List.forall_mem_cons.1 hframe
    exact ⟨g, le_rfl, hs.setFrames hrest, rfl, hf⟩

/-- What a return ends with: without a frame the machine has halted, and a jump is marked. -/
lemma still_settle : Still g (do
    modify fun s => if s.frames.isEmpty then { s with status := .halted } else s
    markJump : Exec Unit) fun _ => True := by
  refine Still.bind (.modify fun s hs => ?_) fun _ _ => .markJump
  split
  · exact { hs with }
  · exact hs

lemma Still.ret : Still g ret fun _ => True := by
  refine Still.unloadFrame.bind fun f hf => Still.get.bind fun _ _ => .ite (fun _ => still_settle)
    fun _ => .check rfl fun _ _ => Still.bind (.modify fun s hs => ?_) fun _ _ => still_settle
  rw [hf.world]
  exact hs.handOver

/-- The pending exception, or null. -/
lemma Still.takeException : Still g takeException (Item.Grounded g) := by
  intro s hs
  refine ⟨g, le_rfl, { hs with exception := nofun }, rfl, ?_⟩
  cases hexception : s.exception with
  | none => exact .null
  | some x => exact hs.exception x hexception

lemma Still.handleException : Still g handleException fun _ => True := by
  refine Still.get.bind fun s hs => ?_
  split
  · refine (Still.modify fun s hs => hs.setFrames fun f hf => ?_).bind fun _ _ => .throw rfl
    obtain ⟨f', hf', rfl⟩ := List.mem_map.1 hf
    exact { hs.frame f' hf' with }
  · next f rest hfound =>
    have hframes : ∀ k ∈ f :: rest, k.Grounded g := fun k hk =>
      hs.frame k ((List.dropWhile_suffix _).subset (hfound ▸ hk))
    obtain ⟨hf, hrest⟩ := List.forall_mem_cons.1 hframes
    split
    · exact .throw rfl
    · refine Still.bind (.modify fun s hs => hs.setFrames
        (List.forall_mem_cons.2 ⟨{ hf with }, hrest⟩)) fun _ _ => ?_
      split
      · exact Still.takeException.bind fun _ hx => (Still.push hx).bind fun _ _ =>
          (Still.setTries hf _).bind fun _ _ => (Still.seek _).bind fun _ _ => .markJump
      · exact (Still.setTries hf _).bind fun _ _ => (Still.seek _).bind fun _ _ => .markJump

lemma Still.raise {exception : Item} (hx : exception.Grounded g) :
    Still g (raise exception) fun _ => True := by
  refine (Still.modify fun s hs => ?_).bind fun _ _ => .handleException
  exact { hs with
    exception := by
      rintro _ ⟨⟩
      exact hx }

end Exec

namespace Semantics

open Exec (Still)

variable (i : Instruction)

lemma grounded_jump : Still g (jump i) fun _ => True :=
  (Still.lift i.safe_target).bind fun _ _ => .jumpTo _

lemma grounded_jumpWhen (wanted : Bool) : Still g (jumpWhen wanted i) fun _ => True :=
  (Still.popBoolean _).bind fun _ _ => .ite (fun _ => grounded_jump i) fun _ => .pure trivial

lemma grounded_jumpCompare : Still g (jumpCompare i) fun _ => True := by
  refine (Still.popInteger _).bind fun _ _ => (Still.popInteger _).bind fun _ _ => ?_
  split
  · exact grounded_jump i
  · exact .pure trivial
  · exact .throw rfl

lemma grounded_callPointer (config : Config) : Still g (callPointer config i) fun _ => True := by
  refine Still.pop.bind fun pointer _ => ?_
  split
  · exact .call config _
  · exact .throw rfl
  · exact .throw rfl

lemma grounded_beginTry : Still g (beginTry i) fun _ => True :=
  (Still.lift (i.safe_signedToken _ _)).bind fun _ _ =>
    (Still.lift (i.safe_signedToken _ _)).bind fun _ _ => .check rfl fun _ _ =>
    (Still.lift (safe_handlerTarget i _)).bind fun _ _ =>
    (Still.lift (safe_handlerTarget i _)).bind fun _ _ => Still.frame.bind fun _ hf =>
    .check rfl fun _ _ => .setTries hf _

lemma grounded_endTry : Still g (endTry i) fun _ => True := by
  refine (Still.lift i.safe_target).bind fun _ _ => .check rfl fun _ _ =>
    Still.frame.bind fun _ hf => ?_
  split
  · exact .throw rfl
  · refine .check rfl fun _ _ => ?_
    split
    · exact (Still.setTries hf _).bind fun _ _ => .jumpTo _
    · exact (Still.setTries hf _).bind fun _ _ => .jumpTo _

lemma grounded_endFinally : Still g (endFinally i) fun _ => True := by
  refine Still.frame.bind fun _ hf => ?_
  split
  · exact .throw rfl
  · refine (Still.setTries hf _).bind fun _ _ => Still.get.bind fun _ _ =>
      .ite (fun _ => .handleException) fun _ => ?_
    split
    · exact .jumpTo _
    · exact .throw rfl

end Semantics

/-- Every handler leads from a grounded state to a grounded one, whether it succeeds or fails, and
does not fail because of a handle. -/
theorem Handler.run_grounded (config : Config) (handler : Handler) (i : Instruction) :
    Exec.Safe g (handler.run config i) fun _ _ => True := by
  cases handler with
  | pushInteger => exact (Exec.Still.push (.integer _)).any
  | pushBoolean => exact (Exec.Still.push (.boolean _)).any
  | pushPointer => exact (Semantics.grounded_pushPointer i).any
  | pushNull => exact (Exec.Still.push .null).any
  | pushData => exact (Semantics.grounded_pushData config i).any
  | pushSmall => exact (Exec.Still.push (.integer _)).any
  | nop => exact .pure _
  | jump => exact (Semantics.grounded_jump i).any
  | jumpIf | jumpIfNot => exact (Semantics.grounded_jumpWhen i _).any
  | jumpCompare => exact (Semantics.grounded_jumpCompare i).any
  | call =>
    exact ((Exec.Still.lift i.safe_target).bind fun _ _ => .call config _).any
  | callPointer => exact (Semantics.grounded_callPointer i config).any
  | abort => exact .throw rfl
  | abortWithMessage => exact Semantics.grounded_popMessage.before fun _ _ => .throw rfl
  | assert => exact (Semantics.grounded_require none i).any
  | assertWithMessage =>
    exact (Semantics.grounded_popMessage.bind fun text _ => Semantics.grounded_require text i).any
  | raise => exact (Exec.Still.pop.bind fun _ hx => .raise hx).any
  | beginTry => exact (Semantics.grounded_beginTry i).any
  | endTry => exact (Semantics.grounded_endTry i).any
  | endFinally => exact (Semantics.grounded_endFinally i).any
  | ret => exact Exec.Still.ret.any
  | syscall => exact (Semantics.grounded_syscall i).any
  | depth => exact (Exec.Still.push .stackDepth).any
  | drop => exact Exec.Still.pop.before fun _ _ => .pure _
  | nip => exact (Semantics.grounded_removeAt 1).any
  | xdrop =>
    exact ((Semantics.grounded_popDepth _).bind fun n _ => Semantics.grounded_removeAt n).any
  | clear => exact Semantics.grounded_clear.any
  | dup => exact (Semantics.grounded_copyFrom 0).any
  | dupSecond => exact (Semantics.grounded_copyFrom 1).any
  | pick =>
    exact ((Semantics.grounded_popDepth _).bind fun n _ => Semantics.grounded_copyFrom n).any
  | tuck => exact Semantics.grounded_tuck.any
  | swap => exact (Semantics.grounded_moveUp 1).any
  | rot => exact (Semantics.grounded_moveUp 2).any
  | roll =>
    exact (Semantics.grounded_popDepth _).before fun n _ =>
      .ite (fun _ => .pure _) fun _ => (Semantics.grounded_moveUp n).any
  | reverseFixed => exact (Semantics.grounded_reverse _).any
  | reverseCounted =>
    exact ((Semantics.grounded_popDepth _).bind fun n _ => Semantics.grounded_reverse n).any
  | allocateStatics => exact (Semantics.grounded_allocateStatics i).any
  | allocateFrame => exact (Semantics.grounded_allocateFrame i).any
  | load kind => exact (Semantics.grounded_load i kind _).any
  | store kind => exact (Semantics.grounded_store i kind _).any
  | newBuffer => exact Semantics.grounded_newBuffer config i
  | memcpy => exact (Semantics.grounded_memcpy i).any
  | concat => exact Semantics.grounded_concat config i
  | substring => exact Semantics.grounded_substring i
  | leftPart | rightPart => exact Semantics.grounded_takeEnd i _
  | unary => exact (Semantics.grounded_unary i).any
  | binary => exact (Semantics.grounded_binary i).any
  | ternary => exact (Semantics.grounded_ternary i).any
  | logicalNot => exact (Semantics.grounded_logicalNot i).any
  | logical => exact (Semantics.grounded_logical i).any
  | equal => exact (Semantics.grounded_equal i).any
  | isNull => exact Semantics.grounded_isNull.any
  | isType => exact (Semantics.grounded_isType i).any
  | convert => exact Semantics.grounded_convert i
  | pack => exact Semantics.grounded_pack i
  | unpack => exact (Semantics.grounded_unpack i).any
  | newEmpty => exact .pushCompound _ (List.forall_mem_nil _)
  | newSized => exact Semantics.grounded_newSized i
  | newTyped => exact Semantics.grounded_newTyped i
  | size => exact (Semantics.grounded_size i).any
  | pickItem => exact (Semantics.grounded_pickItem i).any
  | append => exact Semantics.grounded_append i
  | setItem => exact Semantics.grounded_setItem i
  | reverseItems => exact (Semantics.grounded_reverseItems i).any
  | remove => exact (Semantics.grounded_remove i).any
  | clearItems => exact (Semantics.grounded_clearItems i).any
  | popItem => exact (Semantics.grounded_popItem i).any
  | unimplemented | undefined => exact .throw rfl

end SymbolicScript
