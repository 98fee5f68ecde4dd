import SymbolicScript.Proofs.BoundedHandlers
import SymbolicScript.Proofs.Loading

/-!
# Steps within bounds

Jumps, calls, returns and exceptions change frames and move items, but they create none, and they
touch no heap.  Together with the instructions on data they lead from states within bounds to states
within bounds that keep the frozen objects (`Handler.run_evolves`), and so does a step of a machine,
however it ends (`Machine.step_evolves`).

The only instruction whose own operand becomes an integer unchecked is the push of an integer.  It
is left to the caller to say that the operand is within the bounds.
-/

namespace SymbolicScript

open Exec (Evolves)

variable {b : Bounds} {s₀ : State}

namespace Exec

lemma evolves_markJump : Evolves b s₀ markJump fun _ => True :=
  .modify fun _ hs => { hs with }

/-- The current frame may be moved anywhere. -/
lemma evolves_seek (target : Int) : Evolves b s₀ (seek target) fun _ => True := by
  refine evolves_frame.bind fun f hf => evolves_world.bind fun w _ => ?_
  have hmoved : Evolves b s₀ (liftM (f.seek w.script target) : Exec Frame) (Frame.Within b) :=
    .lift fun f' hseek => by
      obtain ⟨rfl, -⟩ := Frame.seek_ok hseek
      exact { hf with }
  exact hmoved.bind fun _ hf' => evolves_setFrame hf'

lemma evolves_jumpTo (target : Int) : Evolves b s₀ (jumpTo target) fun _ => True :=
  evolves_world.bind fun _ _ =>
    .ite (fun _ => (evolves_seek target).bind fun _ _ => evolves_markJump) fun _ => .throw _

lemma evolves_call (config : Config) (target : Int) :
    Evolves b s₀ (call config target) fun _ => True := by
  refine evolves_frame.bind fun f _ => evolves_world.bind fun w _ => .ite (fun _ => ?_)
    fun _ => .throw _
  have hcallee : Evolves b s₀
      (ofExcept ((f.cloneAt w.script target.toNat).mapError Located.payload)) (Frame.Within b) :=
    .lift fun callee hclone => by
      rw [Frame.cloneAt_eq_ok hclone]
      exact f.callee_within _
  exact hcallee.bind fun callee hcallee => Maintains.get.bind fun _ _ => .check fun _ _ =>
    .modify fun s hs => hs.setFrames (List.forall_mem_cons.2 ⟨hcallee, hs.frame⟩)

lemma evolves_unloadFrame : Evolves b s₀ unloadFrame fun _ => True := by
  intro s hs
  unfold Exec.unloadFrame
  cases hframes : s.frames with
  | nil => exact hs
  | cons f rest =>
    have hrest : ∀ k ∈ rest, k.Within b := fun k hk => hs.frame k (by simp [hframes, hk])
    exact ⟨hs.setFrames hrest, trivial⟩

/-- What a return ends with: without a frame the machine has halted, and a jump is marked. -/
lemma evolves_settle : Evolves b s₀ (do
    modify fun s => if s.frames.isEmpty then { s with status := .halted } else s
    markJump : Exec Unit) fun _ => True := by
  refine Maintains.bind (.modify fun s hs => ?_) fun _ _ => evolves_markJump
  split
  · exact { hs with }
  · exact hs

lemma evolves_ret : Evolves b s₀ ret fun _ => True :=
  evolves_unloadFrame.bind fun f _ => Maintains.get.bind fun _ _ =>
    .ite (fun _ => evolves_settle) fun _ => .check fun _ _ =>
    (Maintains.modify fun _ hs => hs.handOver f.world).bind fun _ _ => evolves_settle

/-- The pending exception, or null. -/
lemma evolves_takeException : Evolves b s₀ takeException (Item.Within b) := by
  intro s hs
  refine ⟨{ hs with exception := nofun }, ?_⟩
  cases hexception : s.exception with
  | none => exact .null
  | some x => exact hs.exception x hexception

lemma evolves_handleException : Evolves b s₀ handleException fun _ => True := by
  refine Maintains.get.bind fun s hs => ?_
  split
  · refine (Maintains.modify fun s hs => hs.setFrames fun f hf => ?_).bind fun _ _ => .throw _
    obtain ⟨f', hf', rfl⟩ := List.mem_map.1 hf
    exact { hs.frame f' hf' with }
  · next f rest hfound =>
    have hframes : ∀ k ∈ f :: rest, k.Within b := fun k hk =>
      hs.frame k ((List.dropWhile_suffix _).subset (hfound ▸ hk))
    obtain ⟨hf, hrest⟩ := List.forall_mem_cons.1 hframes
    split
    · exact .throw _
    · refine Maintains.bind (.modify fun s hs => hs.setFrames
        (List.forall_mem_cons.2 ⟨{ hf with }, hrest⟩)) fun _ _ => ?_
      split
      · exact evolves_takeException.bind fun _ hx => (evolves_push hx).bind fun _ _ =>
          (evolves_setTries hf _).bind fun _ _ => (evolves_seek _).bind fun _ _ =>
          evolves_markJump
      · exact (evolves_setTries hf _).bind fun _ _ => (evolves_seek _).bind fun _ _ =>
          evolves_markJump

lemma evolves_raise {exception : Item} (hx : exception.Within b) :
    Evolves b s₀ (raise exception) fun _ => True := by
  refine (Maintains.modify fun s hs => ?_).bind fun _ _ => evolves_handleException
  exact { hs with
    exception := by
      rintro _ ⟨⟩
      exact hx }

end Exec

namespace Semantics

open Exec (evolves_any)

variable {config : Config} (i : Instruction)

lemma evolves_jump : Evolves b s₀ (jump i) fun _ => True :=
  (evolves_any _).bind fun _ _ => Exec.evolves_jumpTo _

lemma evolves_jumpWhen (wanted : Bool) : Evolves b s₀ (jumpWhen wanted i) fun _ => True :=
  (Exec.evolves_popBoolean _).bind fun _ _ => .ite (fun _ => evolves_jump i) fun _ => .pure trivial

lemma evolves_jumpCompare (hb : b.Admits config) :
    Evolves b s₀ (jumpCompare i) fun _ => True := by
  refine (Exec.evolves_popInteger hb _).bind fun _ _ =>
    (Exec.evolves_popInteger hb _).bind fun _ _ => ?_
  split
  · exact evolves_jump i
  · exact .pure trivial
  · exact .throw _

lemma evolves_callPointer : Evolves b s₀ (callPointer config i) fun _ => True := by
  refine Exec.evolves_pop.bind fun pointer _ => ?_
  split
  · exact Exec.evolves_call config _
  · exact .throw _
  · exact .throw _

lemma evolves_beginTry : Evolves b s₀ (beginTry i) fun _ => True :=
  (evolves_any _).bind fun _ _ => (evolves_any _).bind fun _ _ => .check fun _ _ =>
    (evolves_any _).bind fun _ _ => (evolves_any _).bind fun _ _ =>
    Exec.evolves_frame.bind fun _ hf => .check fun _ _ => Exec.evolves_setTries hf _

lemma evolves_endTry : Evolves b s₀ (endTry i) fun _ => True := by
  refine (evolves_any _).bind fun _ _ => .check fun _ _ => Exec.evolves_frame.bind fun _ hf => ?_
  split
  · exact .throw _
  · refine .check fun _ _ => ?_
    split
    · exact (Exec.evolves_setTries hf _).bind fun _ _ => Exec.evolves_jumpTo _
    · exact (Exec.evolves_setTries hf _).bind fun _ _ => Exec.evolves_jumpTo _

lemma evolves_endFinally : Evolves b s₀ (endFinally i) fun _ => True := by
  refine Exec.evolves_frame.bind fun _ hf => ?_
  split
  · exact .throw _
  · refine (Exec.evolves_setTries hf _).bind fun _ _ => Exec.Maintains.get.bind fun _ _ =>
      .ite (fun _ => Exec.evolves_handleException) fun _ => ?_
    split
    · exact Exec.evolves_jumpTo _
    · exact .throw _

end Semantics

/-- The instruction does not push an integer that its operand puts outside of the bounds. -/
def Instruction.PushesWithin (b : Bounds) (table : JumpTable) (i : Instruction) : Prop :=
  table.handler i.opcode = .pushInteger → b.integer (TwosComplement.toInt i.operand)

/-- Every handler leads from a state within bounds to a state within bounds, whether it succeeds or
fails, and keeps the frozen objects. -/
theorem Handler.run_evolves {config : Config} (hb : b.Admits config) (handler : Handler)
    (i : Instruction)
    (hi : handler = .pushInteger → b.integer (TwosComplement.toInt i.operand)) :
    Evolves b s₀ (handler.run config i) fun _ => True := by
  cases handler with
  | pushInteger => exact Exec.evolves_push (.integer (hi rfl))
  | pushBoolean => exact Exec.evolves_push (.boolean _)
  | pushPointer => exact Semantics.evolves_pushPointer i
  | pushNull => exact Exec.evolves_push .null
  | pushData => exact Semantics.evolves_pushData i hb
  | pushSmall => exact Semantics.evolves_pushSmall i hb
  | nop => exact .pure trivial
  | jump => exact Semantics.evolves_jump i
  | jumpIf | jumpIfNot => exact Semantics.evolves_jumpWhen i _
  | jumpCompare => exact Semantics.evolves_jumpCompare i hb
  | call => exact (Exec.evolves_any _).bind fun _ _ => Exec.evolves_call config _
  | callPointer => exact Semantics.evolves_callPointer i
  | abort => exact .throw _
  | abortWithMessage => exact Semantics.evolves_popMessage.bind fun _ _ => .throw _
  | assert => exact Semantics.evolves_require none i
  | assertWithMessage =>
    exact Semantics.evolves_popMessage.bind fun text _ => Semantics.evolves_require text i
  | raise => exact Exec.evolves_pop.bind fun _ hx => Exec.evolves_raise hx
  | beginTry => exact Semantics.evolves_beginTry i
  | endTry => exact Semantics.evolves_endTry i
  | endFinally => exact Semantics.evolves_endFinally i
  | ret => exact Exec.evolves_ret
  | syscall => exact Semantics.evolves_syscall i hb
  | depth => exact Exec.evolves_push .stackDepth
  | drop => exact Exec.evolves_pop.bind fun _ _ => .pure trivial
  | nip => exact Semantics.evolves_removeAt 1
  | xdrop => exact (Semantics.evolves_popDepth hb _).bind fun n _ => Semantics.evolves_removeAt n
  | clear => exact Semantics.evolves_clear
  | dup => exact Semantics.evolves_copyFrom 0
  | dupSecond => exact Semantics.evolves_copyFrom 1
  | pick => exact (Semantics.evolves_popDepth hb _).bind fun n _ => Semantics.evolves_copyFrom n
  | tuck => exact Semantics.evolves_tuck
  | swap => exact Semantics.evolves_moveUp 1
  | rot => exact Semantics.evolves_moveUp 2
  | roll =>
    exact (Semantics.evolves_popDepth hb _).bind fun n _ =>
      .ite (fun _ => .pure trivial) fun _ => Semantics.evolves_moveUp n
  | reverseFixed => exact Semantics.evolves_reverse _
  | reverseCounted =>
    exact (Semantics.evolves_popDepth hb _).bind fun n _ => Semantics.evolves_reverse n
  | allocateStatics => exact Semantics.evolves_allocateStatics i
  | allocateFrame => exact Semantics.evolves_allocateFrame i
  | load kind => exact Semantics.evolves_load i kind _
  | store kind => exact Semantics.evolves_store i kind _
  | newBuffer => exact Semantics.evolves_newBuffer i hb
  | memcpy => exact Semantics.evolves_memcpy i hb
  | concat => exact Semantics.evolves_concat i hb
  | substring => exact Semantics.evolves_substring i hb
  | leftPart =>
    exact Semantics.evolves_takeEnd i hb fun count bytes => List.length_take_le' count bytes
  | rightPart =>
    exact Semantics.evolves_takeEnd i hb fun count bytes => by
      rw [List.length_drop]
      omega
  | unary => exact Semantics.evolves_unary hb.fits i
  | binary => exact Semantics.evolves_binary hb.fits i
  | ternary => exact Semantics.evolves_ternary hb.fits i
  | logicalNot => exact Semantics.evolves_logicalNot i
  | logical => exact Semantics.evolves_logical i
  | equal => exact Semantics.evolves_equal i
  | isNull => exact Semantics.evolves_isNull
  | isType => exact Semantics.evolves_isType i
  | convert => exact Semantics.evolves_convert i hb
  | pack => exact Semantics.evolves_pack i hb
  | unpack => exact Semantics.evolves_unpack i hb
  | newEmpty => exact Semantics.evolves_newEmpty i hb
  | newSized => exact Semantics.evolves_newSized i hb
  | newTyped => exact Semantics.evolves_newTyped i hb
  | size => exact Semantics.evolves_size i hb
  | pickItem => exact Semantics.evolves_pickItem i hb
  | append => exact Semantics.evolves_append i hb
  | setItem => exact Semantics.evolves_setItem i hb
  | reverseItems => exact Semantics.evolves_reverseItems i
  | remove => exact Semantics.evolves_remove i hb
  | clearItems => exact Semantics.evolves_clearItems i hb
  | popItem => exact Semantics.evolves_popItem i hb
  | unimplemented | undefined => exact .throw _

/-! ## Machines -/

namespace Machine

variable {config : Config} {table : JumpTable} {i : Instruction} {s : State}

/-- Advancing moves a frame at most. -/
lemma evolves_advance (below : Nat) (i : Instruction) :
    Evolves b s₀ (advance below i) fun _ => True := by
  intro s hs
  unfold advance
  split
  · exact ⟨hs, trivial⟩
  · simp only
    split
    · exact ⟨hs, trivial⟩
    · next f hf =>
      have hframe := hs.frame f (List.mem_of_getElem? hf)
      split
      · next f' hmoved =>
        obtain ⟨rfl, -⟩ := Frame.seek_ok hmoved
        refine ⟨hs.setFrames fun k hk => ?_, trivial⟩
        rcases List.mem_or_eq_of_mem_set hk with hold | rfl
        · exact hs.frame k hold
        · exact { hframe with }
      · exact hs

/-- However performing an instruction ends, the state evolves. -/
theorem Performs.evolves {outcome : Except ExecutionError Unit × State}
    (h : Performs config table i s outcome) (hb : b.Admits config) (hi : i.PushesWithin b table)
    (hs : s₀.EvolvesTo b s) : s₀.EvolvesTo b outcome.2 := by
  have hleaves := Handler.run_evolves hb (table.handler i.opcode) i hi s hs
  change Exec.Leaves _ _ (table.dispatch config i s) at hleaves
  cases h with
  | fails hdispatch _ =>
    rw [hdispatch] at hleaves
    exact { hleaves with }
  | jumps hdispatch _ =>
    rw [hdispatch] at hleaves
    exact { hleaves.1 with }
  | @advances s₁ s₂ hdispatch _ hadvance =>
    rw [hdispatch] at hleaves
    have hadvanced := evolves_advance (s.frames.length - 1) i { s₁ with jumping := false }
      { hleaves.1 with }
    rw [hadvance] at hadvanced
    exact hadvanced.1
  | @leaves e s₁ s₂ hdispatch _ hadvance =>
    rw [hdispatch] at hleaves
    have hadvanced := evolves_advance (s.frames.length - 1) i { s₁ with jumping := false }
      { hleaves.1 with }
    rw [hadvance] at hadvanced
    exact hadvanced

/-- Executing an instruction lets the state evolve, also if the budget or the watchdog does not
permit it. -/
theorem execute_evolves {m : Machine} (hb : b.Admits m.config) (hi : i.PushesWithin b m.table)
    (hs : s₀.EvolvesTo b m.state) : s₀.EvolvesTo b (m.execute i).2.state := by
  rcases execute_state m i with ⟨status, hstate⟩ | hstate
  · rw [hstate]
    exact { hs with }
  · rw [hstate]
    exact (performInstruction_performs m.config m.table i m.state).evolves hb hi hs

/-- A step leads from a state within bounds to one within bounds, whether it succeeds or fails, and
keeps the frozen objects. -/
theorem step_evolves {m : Machine} (hb : b.Admits m.config)
    (hi : ∀ i, m.next = .ok (some i) → i.PushesWithin b m.table) (hs : s₀.EvolvesTo b m.state) :
    s₀.EvolvesTo b m.step.2.state := by
  unfold step
  cases hnext : m.next with
  | error e => exact hs
  | ok next =>
    cases next with
    | none => exact { hs with }
    | some i => exact execute_evolves hb (hi i hnext) hs

end Machine

end SymbolicScript
