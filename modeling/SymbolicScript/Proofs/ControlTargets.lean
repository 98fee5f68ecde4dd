import SymbolicScript.Proofs.Guidance
import SymbolicScript.Proofs.InstructionSteps

/-!
# Where instructions send control

An instruction of the linear decode sends control only to its branch targets, to where a popped
pointer points, to the targets of try blocks, to the position of a caller, and behind itself.  In a
state that is guided by a set of offsets, all of these but the last one belong to the set.  So every
instruction that is no call maintains that the state is guided while it is executed
(`Handler.run_underway`), and a call puts one frame in the set on top (`Handler.run_called`).
-/

namespace SymbolicScript

variable {L : Nat → Prop}

/-! ## Targets -/

namespace Instruction.LeadsInto

variable {i : Instruction}

/-- The target of an instruction is one of its branch targets. -/
lemma of_target (hi : i.LeadsInto L) {t : Int} (h : i.target = .ok t) (hnonneg : 0 ≤ t)
    (hmax : t ≤ maxOffset) : L t.toNat := by
  obtain ⟨targets, htargets, hfirst⟩ := except_bind_eq_ok.1 h
  split at hfirst
  · cases hfirst
    exact hi.target _ htargets t List.mem_cons_self hnonneg hmax
  · cases hfirst

/-- The targets of a try block are branch targets of the instruction that enters it. -/
lemma of_handler (hi : i.LeadsInto L) {width : Nat} {first second relative : Int}
    (hform : Instruction.targetForm i.opcode = .handlers width)
    (hfirst : i.signedToken 0 width = .ok first)
    (hsecond : i.signedToken width width = .ok second) (hrelative : relative ∈ [first, second])
    {target : Option Nat} (htarget : Semantics.handlerTarget i relative = .ok target) :
    ∀ p, target = some p → L p := by
  rintro p rfl
  have hbranch : i.branchTargets =
      .ok (([first, second].filter (· ≠ 0)).map fun relative => i.offset + relative) := by
    unfold branchTargets
    rw [hform]
    exact except_bind_eq_ok.2 ⟨first, hfirst, except_bind_eq_ok.2 ⟨second, hsecond, rfl⟩⟩
  unfold Semantics.handlerTarget at htarget
  simp only at htarget
  split at htarget
  · cases htarget
  · next hne =>
    split at htarget
    · next hbounds =>
      cases htarget
      refine hi.target _ hbranch _ (List.mem_map_of_mem ?_) hbounds.1 hbounds.2
      exact List.mem_filter.2 ⟨hrelative, by simpa using hne⟩
    · cases htarget

/-- A return sends control nowhere on its own. -/
lemma of_ret (h : i.opcode = .ret) : i.LeadsInto L where
  target := by
    unfold branchTargets
    rw [h]
    rintro _ ⟨⟩
    nofun
  next _ hne := absurd h hne

end Instruction.LeadsInto

/-! ## Frames that have arrived -/

/-- A frame may get other try blocks that lead into the set. -/
lemma Frame.Guided.withTries {f : Frame} {tries : List TryEntry} (h : f.Guided L)
    (htries : ∀ t ∈ tries, t.LeadsInto L) : ({ f with tries } : Frame).Guided L :=
  { h with tries := htries }

/-- All try blocks may be left. -/
lemma State.Underway.leaveTries {script : Script} {below : Nat} {s : State}
    (h : s.Underway L script below) :
    ({ s with frames := s.frames.map fun f => { f with tries := [] } } : State).Underway L script
      below := by
  have hposition : ∀ frames : List Frame, (∀ f ∈ frames, L f.position) →
      ∀ f ∈ frames.map fun f => { f with tries := [] }, L f.position := by
    intro frames hframes g hg
    obtain ⟨f, hf, rfl⟩ := List.mem_map.1 hg
    exact hframes f hf
  refine { h with frame := ?_, caller := ?_, depth := ?_, settled := ?_ }
  · intro g hg
    obtain ⟨f, hf, rfl⟩ := List.mem_map.1 hg
    exact (h.frame f hf).withTries nofun
  · rw [← List.map_tail]
    exact hposition _ h.caller
  · rw [List.length_map]
    exact h.depth
  · rw [List.length_map]
    exact fun hout => hposition _ (h.settled hout)

/-- The state is guided, and all frames stand in the set, also the current one. -/
structure State.Arrived (L : Nat → Prop) (script : Script) (below : Nat) (s : State) : Prop
    extends s.Underway L script below where
  /-- The frames stand in the set. -/
  position : ∀ f ∈ s.frames, L f.position

namespace State.Arrived

variable {script : Script} {below : Nat} {s : State}

lemma setWorld {i : Nat} {w : World} (h : s.Arrived L script below) (hw : w.PointsInto L)
    (hscript : w.script = (s.worldAt i).script) : (s.setWorld i w).Arrived L script below :=
  { h.toUnderway.setWorld hw hscript with position := h.position }

/-- Taking the current frame away leaves its callers, which stand in the set. -/
lemma of_unload {f : Frame} {rest : List Frame} (h : s.Underway L script below)
    (hframes : s.frames = f :: rest) :
    ({ s with frames := rest } : State).Arrived L script below := by
  have hframe := h.frame
  have hcaller := h.caller
  have hdepth := h.depth
  rw [hframes] at hframe hcaller hdepth
  have hposition : ∀ g ∈ rest, L g.position := hcaller
  refine { h with
    frame := fun g hg => hframe g (List.mem_cons_of_mem _ hg)
    caller := fun g hg => hposition g (List.mem_of_mem_tail hg)
    depth := ?_
    settled := fun _ => hposition
    position := hposition }
  simp only [List.length_cons] at hdepth
  simp only
  omega

/-- Moving the current frame to an offset of the set. -/
lemma of_move {f : Frame} {rest : List Frame} {position : Nat} (h : s.Underway L script below)
    (hframes : s.frames = f :: rest) (hL : L position) :
    ({ s with frames := { f with position } :: rest } : State).Arrived L script below := by
  have hcaller := h.caller
  have hdepth := h.depth
  rw [hframes] at hcaller hdepth
  have hposition : ∀ g ∈ ({ f with position } : Frame) :: rest, L g.position :=
    List.forall_mem_cons.2 ⟨hL, hcaller⟩
  exact { h.toGuided.move hframes position with
    depth := hdepth
    settled := fun _ => hposition
    position := hposition }

/-- Handing over a stack moves no frame. -/
lemma handOver (h : s.Arrived L script below) (source : Nat) :
    (Exec.handOver source s).Arrived L script below := by
  have hsource := h.world source
  have hworld : ∀ {w : World} {stack : EvaluationStack}, w.PointsInto L → stack.PointsInto L →
      World.PointsInto L { w with stack } := fun hw hstack => { hw with stack := hstack }
  unfold Exec.handOver
  simp only
  split
  · next caller rest hframes =>
    have htarget := h.world caller.world
    obtain ⟨hleft, hmoved⟩ := hsource.stack.moveTo htarget.stack none
    refine (h.setWorld (hworld hsource hleft) rfl).setWorld (hworld htarget hmoved) ?_
    rw [State.worldAt_setWorld]
    split
    · next hi => rw [hi.1]
    · rfl
  · have hleft : ((s.worldAt source).stack.moveTo s.result none).1.PointsInto L :=
      fun x hx => hsource.stack.extend _ x (List.mem_of_mem_drop hx)
    have hgiven := h.setWorld (hworld hsource hleft) rfl
    exact { hgiven with }

/-- With all frames in the set a jump may be marked. -/
lemma jump (h : s.Arrived L script below) :
    ({ s with jumping := true } : State).Arrived L script below :=
  { h with settled := fun _ => h.position }

end State.Arrived

/-! ## Transfers of control -/

namespace Exec

variable {script : Script} {below : Nat}

/-- Where there is a current frame, it is moved if the target lies in its script. -/
lemma seek_eq {s : State} {f : Frame} {rest : List Frame} (hs : s.frames = f :: rest)
    (target : Int) : seek target s =
      match f.seek (s.worldAt f.world).script target with
      | .ok f => .ok () { s with frames := f :: rest }
      | .error e => .error e s := by
  rw [seek, bind_of_ok (frame_eq hs), bind_of_ok (world_eq hs)]
  cases f.seek (s.worldAt f.world).script target with
  | error e => rfl
  | ok f' =>
    change setFrame f' s = _
    simp [setFrame, hs]

/-- A jump to an offset of the set. -/
lemma maintains_goTo {target : Int} (hL : 0 ≤ target → target ≤ maxOffset → L target.toNat) :
    Maintains (State.Underway L script below) (seek target >>= fun _ => markJump)
      fun _ => True := by
  intro s hs
  cases hframes : s.frames with
  | nil =>
    have hfails : (seek target >>= fun _ => markJump) s = .error .noCurrentContext s := by
      simp [seek, frame, Bind.bind, EStateM.bind, hframes]
    rw [hfails]
    exact hs
  | cons f rest =>
    cases hseek : f.seek (s.worldAt f.world).script target with
    | error e =>
      have hfails : (seek target >>= fun _ => markJump) s = .error e s := by
        simp [Bind.bind, EStateM.bind, seek_eq hframes, hseek]
      rw [hfails]
      exact hs
    | ok f' =>
      obtain ⟨rfl, hnonneg, -, hmax⟩ := Frame.seek_ok hseek
      have hmoves : seek target s =
          .ok () { s with frames := { f with position := target.toNat } :: rest } := by
        rw [seek_eq hframes, hseek]
      rw [bind_of_ok hmoves]
      have harrived := State.Arrived.of_move hs hframes (hL hnonneg hmax)
      exact ⟨harrived.jump.toUnderway, trivial⟩

lemma maintains_jumpTo {target : Int} (hL : 0 ≤ target → target ≤ maxOffset → L target.toNat) :
    Maintains (State.Underway L script below) (jumpTo target) fun _ => True :=
  maintains_world.bind fun _ _ => .ite (fun _ => maintains_goTo hL) fun _ => .throw _

/-- A return leaves the callers, which stand in the set. -/
lemma maintains_ret : Maintains (State.Underway L script below) ret fun _ => True := by
  have hrest : Maintains (State.Arrived L script below) (do
      modify fun s => if s.frames.isEmpty then { s with status := .halted } else s
      markJump : Exec Unit) fun _ => True := by
    refine (Maintains.modify fun s hs => ?_).bind fun _ _ => .modify fun s hs => hs.jump
    split
    · exact { hs with }
    · exact hs
  intro s hs
  cases hframes : s.frames with
  | nil =>
    have hfails : ret s = .error .noCurrentContext s := by
      simp [ret, unloadFrame, Bind.bind, EStateM.bind, hframes]
    rw [hfails]
    exact hs
  | cons f rest =>
    rw [ret, bind_of_ok (unloadFrame_eq hframes)]
    have harrived := State.Arrived.of_unload hs hframes
    refine Leaves.mono (J := State.Arrived L script below) ?_ fun s hs => hs.toUnderway
    refine Maintains.bind .get (fun s hs => ?_) _ harrived
    exact .ite (fun _ => hrest) fun _ => .check fun _ _ =>
      (Maintains.modify fun s hs => hs.handOver f.world).bind fun _ _ => hrest

/-- A return that succeeds has marked a jump. -/
lemma ret_jumps {s s' : State} (h : ret s = .ok () s') : s'.jumping = true := by
  have hrest : ∀ {t t' : State}, (do
      modify fun s => if s.frames.isEmpty then { s with status := .halted } else s
      markJump : Exec Unit) t = .ok () t' → t'.jumping = true := by
    intro t t' hmarks
    obtain ⟨_, _, -, hmark⟩ := bind_eq_ok.1 hmarks
    cases hmark
    rfl
  obtain ⟨f, s₁, -, hunloaded⟩ := bind_eq_ok.1 h
  obtain ⟨s₂, s₃, -, hread⟩ := bind_eq_ok.1 hunloaded
  split at hread
  · exact hrest hread
  · obtain ⟨-, hchecked⟩ := check_eq_ok.1 hread
    obtain ⟨_, _, -, hhanded⟩ := bind_eq_ok.1 hchecked
    exact hrest hhanded

/-- The current frame goes on at an offset of the set, with other try blocks. -/
lemma leaves_resume {s : State} {f g : Frame} {rest : List Frame} {target : Nat}
    (hs : s.Underway L script below) (hframes : s.frames = f :: rest) (hg : g.Guided L)
    (hposition : g.position = f.position) (hL : L target) :
    Leaves (State.Underway L script below) (fun _ => True)
      ((setFrame g >>= fun _ => seek target >>= fun _ => markJump) s) :=
  (leaves_setFrame hs hframes hg hposition).bind fun _ _ => maintains_goTo fun _ _ => by
    rwa [Int.toNat_natCast]

/-- The current frame catches the pending exception: it is pushed, and the frame goes on at an
offset of the set. -/
lemma leaves_catch {s : State} {f g : Frame} {rest : List Frame} {target : Nat}
    (hs : s.Underway L script below) (hframes : s.frames = f :: rest) (hg : g.Guided L)
    (hposition : g.position = f.position) (hL : L target) :
    Leaves (State.Underway L script below) (fun _ => True)
      ((takeException >>= fun x => push x >>= fun _ => setFrame g >>= fun _ => seek target >>=
        fun _ => markJump) s) := by
  have hx : (s.exception.getD .null).PointsInto L := by
    cases hexception : s.exception with
    | none => exact .null
    | some x => exact hs.exception x hexception
  have htakes : takeException s =
      .ok (s.exception.getD .null) { s with exception := none } := rfl
  have hs₁ : ({ s with exception := none } : State).Underway L script below :=
    { hs with exception := nofun }
  rw [bind_of_ok htakes]
  have hpush : Maintains (fun s' => s'.Underway L script below ∧ s'.frames = s.frames ∧
      s'.jumping = s.jumping) (push (s.exception.getD .null)) fun _ => True :=
    (Local.push hx).maintains_control s.frames s.jumping
  refine (hpush _ ⟨hs₁, rfl, rfl⟩).bind_of (fun _ h => h.1) ?_
  rintro _ s' ⟨hs', hframes', -⟩ -
  exact leaves_resume hs' (hframes'.trans hframes) hg hposition hL

/-- An exception goes on in a try block that has been entered, if there is one. -/
lemma maintains_handleException (hzero : L 0) :
    Maintains (State.Underway L script below) handleException fun _ => True := by
  intro s hs
  rw [handleException, bind_of_ok (get_eq s)]
  generalize hfound : (s.frames.dropWhile fun f => f.tries.all TryEntry.isSpent) = found
  cases found with
  | nil =>
    -- All try blocks are left, and no frame moves.
    simp only
    rw [bind_of_ok (modify_eq _ s)]
    exact hs.leaveTries
  | cons f rest =>
    have hsuffix : f :: rest <:+ s.frames := by
      rw [← hfound]
      exact List.dropWhile_suffix _
    have hf : f.Guided L := hs.frame f (hsuffix.subset List.mem_cons_self)
    simp only
    generalize htries : f.tries.dropWhile TryEntry.isSpent = tries
    cases tries with
    | nil => exact hs
    | cons entry outer =>
      have hsubset : entry :: outer ⊆ f.tries := by
        rw [← htries]
        exact (List.dropWhile_suffix _).subset
      have hentry : entry.LeadsInto L := hf.tries entry (hsubset List.mem_cons_self)
      have hreplace : ∀ t : TryEntry, t.LeadsInto L →
          ({ f with tries := t :: outer } : Frame).Guided L := fun t ht =>
        hf.withTries (List.forall_mem_cons.2 ⟨ht, fun u hu =>
          hf.tries u (hsubset (List.mem_cons_of_mem _ hu))⟩)
      have hs₁ := hs.unwind hsuffix (hreplace entry hentry) rfl
      have hcleanup : L (entry.finallyTarget.getD 0) := by
        cases hfinally : entry.finallyTarget with
        | none => exact hzero
        | some target => exact hentry.finallyTarget target hfinally
      simp only
      rw [bind_of_ok (modify_eq _ s)]
      obtain ⟨catchTarget, finallyTarget, endTarget, phase⟩ := entry
      cases phase with
      | body =>
        cases catchTarget with
        | some target =>
          exact leaves_catch hs₁ rfl (hreplace _ { hentry with }) rfl
            (hentry.catchTarget target rfl)
        | none => exact leaves_resume hs₁ rfl (hreplace _ { hentry with }) rfl hcleanup
      | handler => exact leaves_resume hs₁ rfl (hreplace _ { hentry with }) rfl hcleanup
      | cleanup => exact leaves_resume hs₁ rfl (hreplace _ { hentry with }) rfl hcleanup

/-- A thrown exception points where the thrown item does. -/
lemma maintains_raise (hzero : L 0) {exception : Item} (hx : exception.PointsInto L) :
    Maintains (State.Underway L script below) (raise exception) fun _ => True := by
  refine (Maintains.modify fun s hs => ?_).bind fun _ _ => maintains_handleException hzero
  exact { hs with
    exception := by
      rintro _ ⟨⟩
      exact hx }

end Exec

/-! ## Instructions -/

namespace Semantics

open Exec

variable {script : Script} {below : Nat} {i : Instruction}

lemma maintains_jump (hi : i.LeadsInto L) :
    Maintains (State.Underway L script below) (jump i) fun _ => True :=
  (Maintains.lift (Q := fun target => i.target = .ok target) fun _ h => h).bind
    fun _ htarget => maintains_jumpTo (hi.of_target htarget)

lemma maintains_jumpWhen (hi : i.LeadsInto L) (wanted : Bool) :
    Maintains (State.Underway L script below) (jumpWhen wanted i) fun _ => True :=
  (Local.popBoolean _).maintains_underway.bind fun _ _ =>
    .ite (fun _ => maintains_jump hi) fun _ => .pure trivial

lemma maintains_jumpCompare (hi : i.LeadsInto L) :
    Maintains (State.Underway L script below) (jumpCompare i) fun _ => True := by
  refine (Local.popInteger _).maintains_underway.bind fun _ _ =>
    (Local.popInteger _).maintains_underway.bind fun _ _ => ?_
  split
  · exact maintains_jump hi
  · exact .pure trivial
  · exact .throw _

/-- A try block that is entered leads to branch targets of the instruction. -/
lemma maintains_beginTry (hi : i.LeadsInto L)
    (hform : Instruction.targetForm i.opcode =
      .handlers (if i.opcode = .beginTry then 1 else 4)) :
    Maintains (State.Underway L script below) (beginTry i) fun _ => True := by
  refine (Maintains.lift (Q := fun first => i.signedToken 0 _ = .ok first) fun _ h => h).bind
    fun first hfirst => ?_
  refine (Maintains.lift (Q := fun second => i.signedToken _ _ = .ok second) fun _ h => h).bind
    fun second hsecond => .check fun _ _ => ?_
  refine (Maintains.lift fun _ h => hi.of_handler hform hfirst hsecond (by simp) h).bind
    fun catchTarget hcatch => ?_
  refine (Maintains.lift fun _ h => hi.of_handler hform hfirst hsecond (by simp) h).bind
    fun finallyTarget hfinally => ?_
  refine maintains_frame_bind fun s f rest hs hframes hf => ?_
  split
  · exact hs
  · exact leaves_setFrame hs hframes
      (hf.withTries (List.forall_mem_cons.2 ⟨⟨hcatch, hfinally, nofun⟩, hf.tries⟩)) rfl

/-- A try block is left to its cleanup or to the branch target of the instruction. -/
lemma maintains_endTry (hi : i.LeadsInto L) :
    Maintains (State.Underway L script below) (endTry i) fun _ => True := by
  refine (Maintains.lift (Q := fun target => i.target = .ok target) fun _ h => h).bind
    fun target htarget => .check fun hbounds _ => ?_
  have hL : 0 ≤ target → target ≤ maxOffset → L target.toNat := hi.of_target htarget
  refine maintains_frame_bind fun s f rest hs hframes hf => ?_
  cases htries : f.tries with
  | nil =>
    simp only
    exact hs
  | cons entry outer =>
    have hentries := hf.tries
    rw [htries] at hentries
    obtain ⟨hentry, houter⟩ := List.forall_mem_cons.1 hentries
    simp only
    split
    · exact hs
    · cases hfinally : entry.finallyTarget with
      | some cleanup =>
        -- The target is not jumped to yet: it is kept in the block until the cleanup ends.
        have hend : ∀ p, some target.toNat = some p → L p := by
          rintro _ ⟨⟩
          exact hL (by omega) (by omega)
        have hsome := hentry.finallyTarget cleanup hfinally
        have hentry' : TryEntry.LeadsInto L
            { entry with phase := .cleanup, endTarget := some target.toNat } :=
          { hentry with endTarget := hend }
        simp only [← hfinally]
        refine (leaves_setFrame hs hframes (hf.withTries
          (List.forall_mem_cons.2 ⟨hentry', houter⟩)) rfl).bind fun _ _ => maintains_jumpTo ?_
        exact fun _ _ => by rwa [Int.toNat_natCast]
      | none =>
        simp only
        exact (leaves_setFrame hs hframes (hf.withTries houter) rfl).bind fun _ _ =>
          maintains_jumpTo hL

/-- The cleanup of a try block is left to where the block goes on, or with the exception. -/
lemma maintains_endFinally (hzero : L 0) :
    Maintains (State.Underway L script below) (endFinally i) fun _ => True := by
  refine maintains_frame_bind fun s f rest hs hframes hf => ?_
  cases htries : f.tries with
  | nil =>
    simp only
    exact hs
  | cons entry outer =>
    have hentries := hf.tries
    rw [htries] at hentries
    obtain ⟨hentry, houter⟩ := List.forall_mem_cons.1 hentries
    simp only
    refine (leaves_setFrame hs hframes (hf.withTries houter) rfl).bind fun _ _ => ?_
    refine Maintains.get.bind fun s' _ => .ite (fun _ => maintains_handleException hzero)
      fun _ => ?_
    cases hend : entry.endTarget with
    | none => exact .throw _
    | some target =>
      exact maintains_jumpTo fun _ _ => by
        rw [Int.toNat_natCast]
        exact hentry.endTarget target hend

end Semantics

/-- An instruction that is no call keeps the state guided: whether it succeeds or fails, the callers
stand in the set, and so does the current frame after a jump. -/
theorem Handler.run_underway {script : Script} {below : Nat} {i : Instruction} {handler : Handler}
    (config : Config) (hzero : L 0) (hi : i.LeadsInto L) (hcall : handler ≠ .call)
    (hpointer : handler ≠ .callPointer)
    (hform : handler = .beginTry → Instruction.targetForm i.opcode =
      .handlers (if i.opcode = .beginTry then 1 else 4)) :
    Exec.Maintains (State.Underway L script below) (handler.run config i) fun _ => True := by
  cases hlocal : handler.worksLocally with
  | true =>
    exact (run_local config hlocal fun _ _ => hi.of_target).maintains_underway
  | false =>
    cases handler with
    | call => exact absurd rfl hcall
    | callPointer => exact absurd rfl hpointer
    | load kind => exact Semantics.maintains_load i kind _
    | store kind => exact Semantics.maintains_store i kind _
    | allocateStatics => exact Semantics.maintains_allocateStatics i
    | allocateFrame => exact Semantics.maintains_allocateFrame i
    | syscall => exact Semantics.maintains_syscall i
    | jump => exact Semantics.maintains_jump hi
    | jumpIf | jumpIfNot => exact Semantics.maintains_jumpWhen hi _
    | jumpCompare => exact Semantics.maintains_jumpCompare hi
    | abort => exact .throw _
    | abortWithMessage =>
      exact Semantics.local_popMessage.maintains_underway.bind fun _ _ => .throw _
    | raise => exact Semantics.maintains_pop.bind fun _ hx => Exec.maintains_raise hzero hx
    | beginTry => exact Semantics.maintains_beginTry hi (hform rfl)
    | endTry => exact Semantics.maintains_endTry hi
    | endFinally => exact Semantics.maintains_endFinally hzero
    | ret => exact Exec.maintains_ret
    | _ => cases hlocal

/-! ## Calls -/

/-- How a call ends that is made in the frame `f` above `rest`: with the frame of a routine on top
which stands in the set, or with a failure that has put none there. -/
def State.Called (L : Nat → Prop) (script : Script) (below : Nat) (f : Frame) (rest : List Frame)
    (outcome : EStateM.Result ExecutionError State Unit) : Prop :=
  match outcome with
  | .ok _ s' => ∃ (s : State) (offset : Nat), s.Underway L script below ∧ s.frames = f :: rest ∧
      s.jumping = false ∧ L offset ∧ s' = { s with frames := f.callee offset :: f :: rest }
  | .error _ s' => s'.Underway L script below

namespace Exec

variable {script : Script} {below : Nat} {s : State} {f : Frame} {rest : List Frame}

/-- A call at an offset of the set. -/
lemma called_call (config : Config) {target : Int} (hs : s.Underway L script below)
    (hframes : s.frames = f :: rest) (hjumping : s.jumping = false)
    (hL : 0 ≤ target → target ≤ maxOffset → L target.toNat) :
    State.Called L script below f rest (call config target s) := by
  rcases call_cases config target hframes with ⟨hcallable, hcalls⟩ | ⟨e, hfails⟩
  · rw [hcalls]
    have htarget : L target.toNat := hL hcallable.nonneg hcallable.max
    exact ⟨s, target.toNat, hs, hframes, hjumping, htarget, by rw [hframes]⟩
  · rw [hfails]
    exact hs

/-- A call may be made behind work on stack and heap. -/
lemma called_bind {α : Type} {Q : α → Prop} {x : Exec α} {k : α → Exec Unit}
    (hx : Local L x Q) (hs : s.Underway L script below) (hframes : s.frames = f :: rest)
    (hjumping : s.jumping = false)
    (hk : ∀ a s', Q a → s'.Underway L script below → s'.frames = f :: rest →
      s'.jumping = false → State.Called L script below f rest (k a s')) :
    State.Called L script below f rest ((x >>= k) s) := by
  have hleaves := hx.maintains_control (f :: rest) false s ⟨hs, hframes, hjumping⟩
  simp only [Bind.bind, EStateM.bind]
  cases hresult : x s with
  | ok a s' =>
    rw [hresult] at hleaves
    obtain ⟨⟨hs', hframes', hjumping'⟩, ha⟩ := hleaves
    exact hk a s' ha hs' hframes' hjumping'
  | error e s' =>
    rw [hresult] at hleaves
    exact hleaves.1

end Exec

/-- An instruction that calls a routine leads to its branch target or to where a pointer points. -/
theorem Handler.run_called {script : Script} {below : Nat} {i : Instruction} {handler : Handler}
    {s : State} {f : Frame} {rest : List Frame} (config : Config) (hi : i.LeadsInto L)
    (hcall : handler = .call ∨ handler = .callPointer) (hs : s.Underway L script below)
    (hframes : s.frames = f :: rest) (hjumping : s.jumping = false) :
    State.Called L script below f rest (handler.run config i s) := by
  rcases hcall with rfl | rfl
  · have htarget : Exec.Local L (liftM i.target : Exec Int) fun target => i.target = .ok target :=
      .lift fun _ h => h
    refine Exec.called_bind htarget hs hframes hjumping ?_
    intro target s' htarget hs' hframes' hjumping'
    exact Exec.called_call config hs' hframes' hjumping' (hi.of_target htarget)
  · refine Exec.called_bind Exec.Local.pop hs hframes hjumping
      fun pointer s' hpointer hs' hframes' hjumping' => ?_
    cases hknown : pointer.known? with
    | none => exact hs'
    | some item =>
      cases item with
      | pointer target =>
        refine Exec.called_call config hs' hframes' hjumping' fun _ _ => ?_
        rw [Int.toNat_natCast]
        exact hpointer target hknown
      | _ => exact hs'

end SymbolicScript
