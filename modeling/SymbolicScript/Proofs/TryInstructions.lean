import SymbolicScript.Proofs.TryStacks

/-!
# What instructions do to try blocks and frames

Most handlers do not touch the frames at all.  Of those that transfer control, entering a block and
calling a routine add something, and all others unwind: jumps and the end of a block, returns, and
the routing of exceptions (`Handler.run_transferred`).  One that fails unwinds at most.

Hence every handler does one of the few things to try stacks that a `TryStep` describes, whether it
succeeds or fails (`Handler.run_tryStep`).
-/

namespace SymbolicScript

open State (Unwinds)

/-- Work on stack and heap does not touch the frames. -/
lemma State.Confined.unwinds {s s' : State} (h : s.Confined s') : s.Unwinds s' :=
  .of_frames h.frames fun index => (h.world index).script

namespace Exec

variable {α β : Type} {s s₀ : State}

/-! ## Rules -/

/-- What a computation leaves behind satisfies what its outcomes do. -/
lemma after_of_leaves {I : State → Prop} {Q : α → Prop} {x : Exec α} (h : Leaves I Q (x s)) :
    I (x.after s) := by
  unfold after
  cases hx : x s with
  | ok a s' =>
    rw [hx] at h
    exact h.1
  | error e s' =>
    rw [hx] at h
    exact h

/-- What is kept from each state to the next is maintained from a fixed state on. -/
lemma Keeps.maintains {R : State → State → Prop} [IsTrans State R] {x : Exec α} (h : Keeps R x)
    (s₀ : State) : Maintains (R s₀) x fun _ => True := by
  intro s hs
  have hkept := IsTrans.trans _ _ _ hs (h s)
  unfold after at hkept
  cases hx : x s with
  | ok a s' =>
    rw [hx] at hkept
    exact ⟨hkept, trivial⟩
  | error e s' =>
    rw [hx] at hkept
    exact hkept

section Pointwise

variable {I : State → Prop} {P : β → Prop}

/-- Behind a check the sequence goes on in the same state. -/
lemma leaves_check {c : Prop} [Decidable c] {e : ExecutionError} {k : Unit → Exec β} (hs : I s)
    (hk : ¬c → Leaves I P (k () s)) :
    Leaves I P ((if c then throw e >>= k else k ()) s) := by
  split
  · exact hs
  · next hc => exact hk hc

/-- The current frame is read together with the state. -/
lemma leaves_frame_bind {k : Frame → Exec β} (hs : I s)
    (hk : ∀ f rest, s.frames = f :: rest → Leaves I P (k f s)) :
    Leaves I P ((frame >>= k) s) := by
  cases hframes : s.frames with
  | nil =>
    have hfails : (frame >>= k) s = .error .noCurrentContext s := by
      simp [frame, Bind.bind, EStateM.bind, hframes]
    rw [hfails]
    exact hs
  | cons f rest =>
    rw [bind_of_ok (frame_eq hframes)]
    exact hk f rest hframes

end Pointwise

/-! ## Transfers of control -/

/-- Confined computations do not touch the frames. -/
lemma Keeps.unwinds {x : Exec α} (h : Keeps State.Confined x) : Keeps Unwinds x :=
  h.mono fun _ _ => State.Confined.unwinds

lemma unwinds_modify {change : State → State} (h : ∀ s, (change s).frames = s.frames)
    (hscript : ∀ s index, ((change s).worldAt index).script = (s.worldAt index).script) :
    Keeps Unwinds (modify change : Exec Unit) :=
  fun s => .of_frames (h s) (hscript s)

lemma unwinds_markJump : Keeps Unwinds markJump :=
  unwinds_modify (fun _ => rfl) fun _ _ => rfl

/-- The current frame is moved, and has the same try blocks. -/
lemma unwinds_seek (target : Int) : Keeps Unwinds (seek target) := by
  intro s
  unfold after
  cases hframes : s.frames with
  | nil =>
    have hfails : seek target s = .error .noCurrentContext s := by
      simp [seek, frame, Bind.bind, EStateM.bind, hframes]
    rw [hfails]
    exact Std.Refl.refl s
  | cons f rest =>
    rw [seek_eq hframes]
    cases hseek : f.seek (s.worldAt f.world).script target with
    | error e => exact Std.Refl.refl s
    | ok g =>
      obtain ⟨rfl, -, hlength, -⟩ := Frame.seek_ok hseek
      have hsuffix : f :: rest <:+ s.frames := hframes ▸ List.suffix_refl (f :: rest)
      have htarget : target.toNat ≤ (s.worldAt f.world).script.length := by omega
      exact .of_suffix hsuffix ⟨⟨rfl, rfl, rfl⟩, unwound_refl f.tries⟩ rfl fun _ => htarget

lemma unwinds_jumpTo (target : Int) : Keeps Unwinds (jumpTo target) :=
  keeps_world.bind fun _ =>
    ((unwinds_seek target).bind fun _ => unwinds_markJump).ite (keeps_throw _)

/-- The try blocks of the current frame may be unwound. -/
lemma leaves_setTries_unwinds {f : Frame} {rest : List Frame} {tries : List TryEntry}
    (hs : s₀.Unwinds s) (hframes : s.frames = f :: rest)
    (htries : Unwound TryEntry.Advances f.tries tries) :
    Leaves s₀.Unwinds (fun _ => True) (setFrame { f with tries } s) := by
  have hset : setFrame { f with tries } s =
      .ok () { s with frames := { f with tries } :: rest } := by
    simp [setFrame, hframes]
  rw [hset]
  have hsuffix : f :: rest <:+ s.frames := hframes ▸ List.suffix_refl (f :: rest)
  exact ⟨IsTrans.trans _ _ _ hs (.of_suffix hsuffix (.of_tries htries) rfl id), trivial⟩

/-- The current frame goes on elsewhere, with its try blocks unwound. -/
lemma leaves_resume_unwinds {f : Frame} {rest : List Frame} {tries : List TryEntry} {target : Int}
    (hs : s₀.Unwinds s) (hframes : s.frames = f :: rest)
    (htries : Unwound TryEntry.Advances f.tries tries) :
    Leaves s₀.Unwinds (fun _ => True)
      ((setFrame { f with tries } >>= fun _ => seek target >>= fun _ => markJump) s) :=
  (leaves_setTries_unwinds hs hframes htries).bind fun _ _ =>
    ((unwinds_seek target).bind fun _ => unwinds_markJump).maintains s₀

/-- The current frame catches the pending exception, and its try blocks are unwound. -/
lemma leaves_catch_unwinds {f : Frame} {rest : List Frame} {tries : List TryEntry} {target : Int}
    (hs : s₀.Unwinds s) (hframes : s.frames = f :: rest)
    (htries : Unwound TryEntry.Advances f.tries tries) :
    Leaves s₀.Unwinds (fun _ => True)
      ((takeException >>= fun x => push x >>= fun _ => setFrame { f with tries } >>= fun _ =>
        seek target >>= fun _ => markJump) s) := by
  have htakes : takeException s =
      .ok (s.exception.getD .null) { s with exception := none } := rfl
  rw [bind_of_ok htakes]
  have htaken : s.Unwinds { s with exception := none } := .of_frames rfl fun _ => rfl
  have hpush := (keeps_push (s.exception.getD .null)).maintains { s with exception := none }
    { s with exception := none } (Std.Refl.refl _)
  refine hpush.bind_of (fun s' hs' => ?_) fun _ s' hs' _ => ?_
  · exact IsTrans.trans _ _ _ hs (IsTrans.trans _ _ _ htaken hs'.unwinds)
  · exact leaves_resume_unwinds (IsTrans.trans _ _ _ hs (IsTrans.trans _ _ _ htaken hs'.unwinds))
      (hs'.frames.trans hframes) htries

/-- An exception leaves blocks without a part left for it, and advances the one it leads to. -/
lemma unwinds_handleException : Keeps Unwinds handleException := by
  intro s
  refine after_of_leaves (Q := fun _ => True) ?_
  have hs : s.Unwinds s := Std.Refl.refl s
  rw [handleException, bind_of_ok (get_eq s)]
  -- The frames in which all blocks are spent are dropped, and then those blocks of the first
  -- frame that are spent, so that the search ends at a block with a part that is left for it.
  generalize hfound : (s.frames.dropWhile fun f => f.tries.all TryEntry.isSpent) = found
  cases found with
  | nil =>
    simp only
    rw [bind_of_ok (modify_eq _ s)]
    exact Unwinds.leaveTries s
  | cons f rest =>
    have hsuffix : f :: rest <:+ s.frames := by
      rw [← hfound]
      exact List.dropWhile_suffix _
    simp only
    generalize htries : f.tries.dropWhile TryEntry.isSpent = tries
    cases tries with
    | nil => exact hs
    | cons entry outer =>
      have hleft : Unwound TryEntry.Advances f.tries (entry :: outer) :=
        .of_suffix .refl (htries ▸ List.dropWhile_suffix _)
      have hspent : entry.isSpent = false := TryEntry.isSpent_of_dropWhile htries
      have hs₁ : s.Unwinds { s with frames := { f with tries := entry :: outer } :: rest } :=
        .of_suffix hsuffix (.of_tries hleft) rfl id
      simp only
      rw [bind_of_ok (modify_eq _ s)]
      have hcleanup (hcatch : entry.phase = .body → entry.catchTarget = none) :
          Unwound TryEntry.Advances (entry :: outer) ({ entry with phase := .cleanup } :: outer) :=
        .cons .refl (TryEntry.advances_cleanup fun h =>
          TryEntry.finallyTarget_isSome h hspent hcatch) outer
      obtain ⟨catchTarget, finallyTarget, endTarget, phase⟩ := entry
      cases phase with
      | body =>
        cases catchTarget with
        | some target =>
          exact leaves_catch_unwinds (f := { f with tries := _ :: outer }) hs₁ rfl
            (.cons .refl (TryEntry.advances_handler rfl rfl) outer)
        | none =>
          exact leaves_resume_unwinds (f := { f with tries := _ :: outer }) hs₁ rfl
            (hcleanup fun _ => rfl)
      | handler =>
        have hphase : ¬TryPhase.handler = .body := by decide
        exact leaves_resume_unwinds (f := { f with tries := _ :: outer }) hs₁ rfl
          (hcleanup fun h => absurd h hphase)
      | cleanup => cases hspent

/-- A world may be replaced by one with the same script. -/
lemma script_setWorld {index : Nat} {w : World} (h : w.script = (s.worldAt index).script)
    (k : Nat) : ((s.setWorld index w).worldAt k).script = (s.worldAt k).script := by
  rw [State.worldAt_setWorld]
  split
  · next hk => rw [h, hk.1]
  · rfl

/-- Handing over a stack changes neither frames nor scripts. -/
lemma unwinds_handOver (source : Nat) (s : State) : s.Unwinds (handOver source s) := by
  have hsource (stack : EvaluationStack) (k : Nat) :
      ((s.setWorld source { s.worldAt source with stack }).worldAt k).script =
        (s.worldAt k).script := script_setWorld (w := { s.worldAt source with stack }) rfl k
  unfold handOver
  simp only
  split
  · next caller rest _ =>
    refine .of_frames rfl fun k => (script_setWorld ?_ k).trans (hsource _ k)
    exact (hsource _ caller.world).symm
  · exact .of_frames rfl fun k => hsource _ k

/-- A return takes the current frame away. -/
lemma unwinds_ret : Keeps Unwinds ret := by
  have hunload : Keeps Unwinds unloadFrame := by
    intro s
    unfold after unloadFrame
    cases hframes : s.frames with
    | nil => exact Std.Refl.refl s
    | cons f rest =>
      refine .of_rest ?_
      rw [hframes]
      exact List.suffix_cons f rest
  have hhandOver (source : Nat) : Keeps Unwinds (modify (handOver source) : Exec Unit) :=
    unwinds_handOver source
  have hhalt : Keeps Unwinds (do
      modify fun s => if s.frames.isEmpty then { s with status := .halted } else s
      markJump : Exec Unit) := by
    refine (unwinds_modify (fun s => ?_) fun s index => ?_).bind fun _ => unwinds_markJump
    · split <;> rfl
    · split <;> rfl
  exact hunload.bind fun f => keeps_get.bind fun s =>
    hhalt.ite (.check fun _ => (hhandOver f.world).bind fun _ => hhalt)

lemma unwinds_raise (x : Item) : Keeps Unwinds (raise x) := by
  have hpending : Keeps Unwinds (modify fun s => { s with exception := some x } : Exec Unit) :=
    unwinds_modify (fun _ => rfl) fun _ _ => rfl
  exact hpending.bind fun _ => unwinds_handleException

end Exec

/-! ## Transfers as a whole -/

/-- The handler puts a frame on top of the others if it succeeds. -/
def Handler.calls : Handler → Bool
  | call | callPointer => true
  | _ => false

/-- What a handler that transfers control may do to the frames if it succeeds. -/
inductive State.Transfer (config : Config) (handler : Handler) (s : State) : State → Prop
  /-- Frames are taken off the top, and the one below them goes on. -/
  | unwinds {s' : State} (h : s.Unwinds s') : Transfer config handler s s'
  /-- The current frame enters a block. -/
  | enters {s₁ : State} {f : Frame} {rest : List Frame} {catchTarget finallyTarget : Option Nat}
    (hconfined : s.Confined s₁) (hframes : s.frames = f :: rest)
    (htarget : catchTarget.isSome ∨ finallyTarget.isSome)
    (hroom : f.tries.length < Limits.tryNesting) :
    Transfer config handler s
      { s₁ with frames := { f with tries := .begin catchTarget finallyTarget :: f.tries } :: rest }
  /-- A routine is called. -/
  | calls {s₁ : State} {f : Frame} {rest : List Frame} {target : Int}
    (hcalls : handler.calls = true) (hconfined : s.Confined s₁) (hframes : s.frames = f :: rest)
    (hcallable : s₁.Callable config f target) :
    Transfer config handler s { s₁ with frames := f.callee target.toNat :: f :: rest }

/-- What it may do however it ends.  A failure only unwinds. -/
def State.Transferred {α : Type} (config : Config) (handler : Handler) (s : State) :
    EStateM.Result ExecutionError State α → Prop
  | .ok _ s' => s.Transfer config handler s'
  | .error _ s' => s.Unwinds s'

namespace State

variable {config : Config} {handler : Handler} {s s' : State}

/-- The try stacks step. -/
lemma Transfer.tryStep (h : s.Transfer config handler s') :
    TryStep s.tryStacks s'.tryStacks := by
  cases h with
  | unwinds h => exact .unwinds (Unwinds.tryStacks h)
  | enters _ hframes htarget hroom =>
    unfold tryStacks
    rw [hframes]
    exact .enters htarget hroom
  | calls _ _ hframes _ =>
    unfold tryStacks
    rw [hframes]
    exact .calls

/-- However the handler ends, the try stacks step. -/
lemma Transferred.tryStep {x : Exec Unit} (h : s.Transferred config handler (x s)) :
    TryStep s.tryStacks (x.after s).tryStacks := by
  cases hx : x s with
  | ok u s' =>
    rw [hx] at h
    rw [Exec.after_of_ok hx]
    exact Transfer.tryStep h
  | error e s' =>
    rw [hx] at h
    rw [Exec.after_of_error hx]
    exact .unwinds (Unwinds.tryStacks h)

end State

namespace Exec

variable {α : Type} {config : Config} {handler : Handler} {s s₁ : State}

/-- What unwinds the frames is one of the things that may be done to them. -/
lemma Keeps.transferred {x : Exec Unit} (h : Keeps Unwinds x) (s : State) :
    s.Transferred config handler (x s) := by
  have hunwinds := h s
  cases hx : x s with
  | ok u s' =>
    rw [after_of_ok hx] at hunwinds
    exact .unwinds hunwinds
  | error e s' =>
    rw [after_of_error hx] at hunwinds
    exact hunwinds

/-- Work on stack and heap may come first. -/
lemma transferred_bind {x : Exec α} {k : α → Exec Unit} (hs : s.Confined s₁)
    (hx : Keeps State.Confined x)
    (hk : ∀ a s₂, x s₁ = .ok a s₂ → s.Confined s₂ → s.Transferred config handler (k a s₂)) :
    s.Transferred config handler ((x >>= k) s₁) := by
  have hconfined := IsTrans.trans _ _ _ hs (hx s₁)
  cases hresult : x s₁ with
  | ok a s₂ =>
    rw [after_of_ok hresult] at hconfined
    rw [bind_of_ok hresult]
    exact hk a s₂ hresult hconfined
  | error e s₂ =>
    rw [after_of_error hresult] at hconfined
    have hfails : (x >>= k) s₁ = .error e s₂ := by
      simp only [Bind.bind, EStateM.bind, hresult]
    rw [hfails]
    exact hconfined.unwinds

/-- A call puts a frame on top of the others, or fails. -/
lemma transferred_call (hcalls : handler.calls = true) (target : Int) (hs : s.Confined s₁) :
    s.Transferred config handler (call config target s₁) := by
  cases hframes : s₁.frames with
  | nil =>
    have hfails : call config target s₁ = .error .noCurrentContext s₁ := by
      simp [call, frame, Bind.bind, EStateM.bind, hframes]
    rw [hfails]
    exact hs.unwinds
  | cons f rest =>
    rcases call_cases config target hframes with ⟨hcallable, hcalled⟩ | ⟨e, hfails⟩
    · rw [hcalled, hframes]
      exact .calls hcalls hs (hs.frames.symm.trans hframes) hcallable
    · rw [hfails]
      exact hs.unwinds

end Exec

/-! ## Instructions -/

namespace Semantics

open Exec

variable {i : Instruction}

lemma unwinds_jump : Keeps Unwinds (jump i) :=
  (keeps_liftM _).bind fun _ => unwinds_jumpTo _

lemma unwinds_jumpWhen (wanted : Bool) : Keeps Unwinds (jumpWhen wanted i) :=
  ((Local.popBoolean i.opcode).reworked.mono fun _ _ h => h.toConfined.unwinds).bind fun _ =>
    unwinds_jump.ite (keeps_pure _)

lemma unwinds_jumpCompare : Keeps Unwinds (jumpCompare i) := by
  have hpop : Keeps Unwinds (popInteger i.opcode) :=
    (Local.popInteger i.opcode).reworked.mono fun _ _ h => h.toConfined.unwinds
  refine hpop.bind fun _ => hpop.bind fun _ => ?_
  split
  · exact unwinds_jump
  · exact keeps_pure _
  · exact keeps_throw _

lemma unwinds_abortWithMessage : Keeps Unwinds abortWithMessage :=
  (local_popMessage.reworked.mono fun _ _ h => h.toConfined.unwinds).bind fun _ => keeps_throw _

lemma unwinds_raise : Keeps Unwinds raise :=
  keeps_pop.unwinds.bind fun x => Exec.unwinds_raise x

/-- A relative offset other than zero denotes an offset. -/
lemma isSome_of_handlerTarget {relative : Int} {target : Option Nat}
    (h : handlerTarget i relative = .ok target) (hne : relative ≠ 0) : target.isSome := by
  unfold handlerTarget at h
  simp only [if_neg hne] at h
  split at h
  · cases h
    rfl
  · cases h

/-- A block that is entered has a handler or a cleanup, and there was room for it. -/
lemma transferred_beginTry (config : Config) (s : State) :
    s.Transferred config .beginTry (beginTry i s) := by
  refine transferred_bind (Std.Refl.refl s) (keeps_liftM _) fun first s₁ _ hs => ?_
  refine transferred_bind hs (keeps_liftM _) fun second s₁ _ hs => ?_
  beta_reduce
  split
  · exact hs.unwinds
  · next hzero =>
    refine transferred_bind hs (keeps_liftM _) fun catchTarget s₁ hcatch hs => ?_
    refine transferred_bind hs (keeps_liftM _) fun finallyTarget s₁ hfinally hs => ?_
    refine transferred_bind hs keeps_frame fun f s₁ hread hs => ?_
    beta_reduce
    split
    · exact hs.unwinds
    · next hroom =>
      -- An offset of zero stands for no part, and not both of them are zero.
      have htarget : catchTarget.isSome ∨ finallyTarget.isSome := by
        by_cases hfirst : first = 0
        · refine .inr (isSome_of_handlerTarget (liftM_eq_ok.1 hfinally).1 fun hsecond => ?_)
          exact hzero ⟨hfirst, hsecond⟩
        · exact .inl (isSome_of_handlerTarget (liftM_eq_ok.1 hcatch).1 hfirst)
      obtain ⟨rest, hframes⟩ := frame_eq_ok hread
      have hset : setFrame { f with tries := .begin catchTarget finallyTarget :: f.tries } s₁ =
          .ok () { s₁ with frames :=
            { f with tries := .begin catchTarget finallyTarget :: f.tries } :: rest } := by
        simp [setFrame, hframes]
      rw [hset]
      exact .enters hs (hs.frames.symm.trans hframes) htarget (Nat.lt_of_not_le hroom)

/-- A block is left, or goes on to its cleanup. -/
lemma unwinds_endTry : Keeps Unwinds (endTry i) := by
  intro s
  refine after_of_leaves (Q := fun _ => True) ?_
  have hs : s.Unwinds s := Std.Refl.refl s
  refine leaves_lift_bind hs fun target _ => leaves_check hs fun _ =>
    leaves_frame_bind hs fun f rest hframes => ?_
  cases htries : f.tries with
  | nil =>
    simp only
    exact hs
  | cons entry outer =>
    simp only
    refine leaves_check hs fun hphase => ?_
    cases hfinally : entry.finallyTarget with
    | some cleanup =>
      have hadvances : Unwound TryEntry.Advances f.tries
          ({ entry with phase := .cleanup, endTarget := some target.toNat } :: outer) := by
        rw [htries]
        exact .cons .refl (TryEntry.advances_cleanup fun _ => by simp [hfinally]) outer
      simp only [← hfinally]
      exact (leaves_setTries_unwinds hs hframes hadvances).bind fun _ _ =>
        (unwinds_jumpTo _).maintains s
    | none =>
      have hleft : Unwound TryEntry.Advances f.tries outer :=
        .of_suffix .refl (htries ▸ List.suffix_cons entry outer)
      exact (leaves_setTries_unwinds hs hframes hleft).bind fun _ _ =>
        (unwinds_jumpTo _).maintains s

/-- A block is left behind its cleanup. -/
lemma unwinds_endFinally : Keeps Unwinds (endFinally i) := by
  intro s
  refine after_of_leaves (Q := fun _ => True) ?_
  have hs : s.Unwinds s := Std.Refl.refl s
  refine leaves_frame_bind hs fun f rest hframes => ?_
  cases htries : f.tries with
  | nil =>
    simp only
    exact hs
  | cons entry outer =>
    have hleft : Unwound TryEntry.Advances f.tries outer :=
      .of_suffix .refl (htries ▸ List.suffix_cons entry outer)
    simp only
    refine (leaves_setTries_unwinds hs hframes hleft).bind fun _ _ => ?_
    refine (keeps_get.bind fun s' => unwinds_handleException.ite ?_).maintains s
    cases entry.endTarget with
    | none => exact keeps_throw _
    | some target => exact unwinds_jumpTo _

/-- A call through a pointer puts a frame on top of the others, or fails. -/
lemma transferred_callPointer (config : Config) (s : State) :
    s.Transferred config .callPointer (callPointer config i s) := by
  refine transferred_bind (Std.Refl.refl s) keeps_pop fun x s₁ _ hs => ?_
  cases x.known? with
  | none => exact hs.unwinds
  | some known =>
    cases known with
    | pointer target => exact transferred_call rfl _ hs
    | _ => exact hs.unwinds

end Semantics

/-- States with the same skeleton have the same try stacks. -/
lemma State.SameSkeleton.tryStacks {s s' : State} (h : s.SameSkeleton s') :
    s'.tryStacks = s.tryStacks := by
  unfold State.tryStacks
  cases hframes : s.frames with
  | nil =>
    have hdepth := h.depth
    unfold State.depth at hdepth
    rw [hframes, List.length_nil] at hdepth
    rw [List.eq_nil_of_length_eq_zero hdepth]
  | cons f rest =>
    obtain ⟨f', hframes', hskeleton⟩ := h.frames_eq hframes
    have htries : f'.tries = f.tries := by
      change f'.skeleton.tries = f.skeleton.tries
      rw [hskeleton]
    rw [hframes', List.map_cons, List.map_cons, htries]

/-- A handler that transfers control unwinds the frames, enters a block or calls a routine, and if
it fails, it unwinds them at most. -/
theorem Handler.run_transferred (config : Config) {handler : Handler} (i : Instruction) (s : State)
    (htransfers : handler.transfers = true) :
    s.Transferred config handler (handler.run config i s) := by
  cases handler with
  | jump => exact Semantics.unwinds_jump.transferred s
  | jumpIf | jumpIfNot => exact (Semantics.unwinds_jumpWhen _).transferred s
  | jumpCompare => exact Semantics.unwinds_jumpCompare.transferred s
  | call =>
    exact Exec.transferred_bind (Std.Refl.refl s) (Exec.keeps_liftM _) fun target s₁ _ hs =>
      Exec.transferred_call rfl target hs
  | callPointer => exact Semantics.transferred_callPointer config s
  | abort => exact Std.Refl.refl (r := State.Unwinds) s
  | abortWithMessage => exact Semantics.unwinds_abortWithMessage.transferred s
  | raise => exact Semantics.unwinds_raise.transferred s
  | beginTry => exact Semantics.transferred_beginTry config s
  | endTry => exact Semantics.unwinds_endTry.transferred s
  | endFinally => exact Semantics.unwinds_endFinally.transferred s
  | ret => exact Exec.unwinds_ret.transferred s
  | _ => cases htransfers

/-- What any handler does to the try stacks. -/
theorem Handler.run_tryStep (config : Config) (handler : Handler) (i : Instruction) (s : State) :
    TryStep s.tryStacks ((handler.run config i).after s).tryStacks := by
  cases htransfers : handler.transfers with
  | false =>
    rw [(run_sameSkeleton config i htransfers s).tryStacks]
    exact .refl _
  | true => exact (run_transferred config i s htransfers).tryStep

end SymbolicScript
