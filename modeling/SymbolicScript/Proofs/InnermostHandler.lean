import Mathlib.Data.List.TakeWhile
import SymbolicScript.Proofs.TryInstructions

/-!
# Exceptions reach the innermost live handler

An exception that is pending looks for a try block with a part left for it, from the current frame
outwards and in each frame from the innermost block outwards.  The search pops as it goes, frames
as well as try blocks, so that it matters where it stops and what it takes along.

`State.Awaits` describes the place at which an exception has to arrive: in front of it all blocks
are spent.  There is such a place exactly if not all blocks are spent (`State.exists_awaits`), and
`Exec.handleException_innermost` says what the routing of a pending exception does in every state:
it goes on at that place in the handler or in the cleanup of the block, or it fails because there
is no such place, and then the exception is still pending.
-/

namespace SymbolicScript

/-! ## Where an exception has to arrive -/

/-- The block `t` of the frame `f` is the innermost one with a part left for an exception. -/
structure State.Awaits (s : State) (above : List Frame) (f : Frame) (below : List Frame)
    (inner : List TryEntry) (t : TryEntry) (outer : List TryEntry) : Prop where
  /-- The frame lies on the invocation stack, with frames above and below it. -/
  frames : s.frames = above ++ f :: below
  /-- All blocks of the frames above are spent. -/
  above : ∀ g ∈ above, ∀ u ∈ g.tries, u.isSpent
  /-- The block has been entered in the frame, between inner and outer ones. -/
  tries : f.tries = inner ++ t :: outer
  /-- All inner blocks are spent. -/
  inner : ∀ u ∈ inner, u.isSpent
  /-- The block itself is not. -/
  live : t.isSpent = false

/-- A list in which a property fails has a first element at which it does. -/
lemma exists_first_false {α : Type} {p : α → Bool} {l : List α} (h : l.all p = false) :
    ∃ front a back, l = front ++ a :: back ∧ (∀ b ∈ front, p b) ∧ p a = false := by
  obtain ⟨a, ha, hfalse⟩ := List.all_eq_false.1 h
  have hfound : (l.find? fun a => !p a).isSome := by
    rw [List.find?_isSome]
    exact ⟨a, ha, by simpa using hfalse⟩
  obtain ⟨b, hb⟩ := Option.isSome_iff_exists.1 hfound
  obtain ⟨hlast, front, back, rfl, hfront⟩ := List.find?_eq_some_iff_append.1 hb
  exact ⟨front, b, back, rfl, by simpa using hfront, by simpa using hlast⟩

namespace State

variable {s : State} {above below : List Frame} {f : Frame} {inner outer : List TryEntry}
  {t : TryEntry}

/-- If some block has a part left, then there is an innermost one. -/
lemma exists_awaits (h : ∃ f ∈ s.frames, ∃ t ∈ f.tries, t.isSpent = false) :
    ∃ above f below inner t outer, s.Awaits above f below inner t outer := by
  have hframe : s.frames.all (fun f => f.tries.all TryEntry.isSpent) = false := by
    obtain ⟨f, hf, t, ht, hlive⟩ := h
    have htries : f.tries.all TryEntry.isSpent = false :=
      List.all_eq_false.2 ⟨t, ht, by simp [hlive]⟩
    exact List.all_eq_false.2 ⟨f, hf, by simp [htries]⟩
  obtain ⟨above, f, below, hframes, habove, hf⟩ := exists_first_false hframe
  obtain ⟨inner, t, outer, htries, hinner, hlive⟩ := exists_first_false hf
  exact ⟨above, f, below, inner, t, outer,
    hframes, fun g hg => List.all_eq_true.1 (habove g hg), htries, hinner, hlive⟩

namespace Awaits

/-- The frames above are those that the search drops. -/
lemma dropWhile_frames (h : s.Awaits above f below inner t outer) :
    (s.frames.dropWhile fun f => f.tries.all TryEntry.isSpent) = f :: below := by
  have hf : f.tries.all TryEntry.isSpent = false := by
    rw [h.tries]
    simp [h.live]
  rw [h.frames, List.dropWhile_append_of_pos fun g hg => List.all_eq_true.2 (h.above g hg),
    List.dropWhile_cons, hf]
  rfl

/-- The inner blocks are those that the search pops. -/
lemma dropWhile_tries (h : s.Awaits above f below inner t outer) :
    f.tries.dropWhile TryEntry.isSpent = t :: outer := by
  rw [h.tries, List.dropWhile_append_of_pos h.inner,
    List.dropWhile_cons_of_neg (by simp [h.live])]

/-- The block that an exception has to reach has a cleanup, unless its handler comes first. -/
lemma exists_finallyTarget (h : s.Awaits above f below inner t outer)
    (hpart : t.catchTarget.isSome ∨ t.finallyTarget.isSome)
    (hcatch : ¬(t.phase = .body ∧ t.catchTarget.isSome)) :
    ∃ target, t.finallyTarget = some target := by
  have hlive := h.live
  unfold TryEntry.isSpent at hlive
  cases hphase : t.phase with
  | body =>
    have hnone : ¬t.catchTarget.isSome := fun hsome => hcatch ⟨hphase, hsome⟩
    exact Option.isSome_iff_exists.1 (hpart.resolve_left hnone)
  | handler =>
    rw [hphase] at hlive
    exact Option.isSome_iff_exists.1 (by simpa using hlive)
  | cleanup =>
    rw [hphase] at hlive
    cases hlive

end Awaits

/-! ## How execution goes on there -/

/-- Execution goes on in the frame `f` at an offset, if its script reaches that far.  Offsets are
numbers of 32 bits. -/
def resume (s : State) (f : Frame) (below : List Frame) (target : Nat) :
    EStateM.Result ExecutionError State Unit :=
  let length := (s.worldAt f.world).script.length
  if target ≤ length ∧ target ≤ maxOffset then
    .ok () { s with frames := { f with position := target } :: below, jumping := true }
  else
    .error (.instructionPointerOutOfBounds target length) { s with frames := f :: below }

/-- A pending exception is handed to the evaluation stack of a world. -/
def deliver (s : State) (index : Nat) (x : Item) : State :=
  let w := s.worldAt index
  { s.setWorld index { w with stack := w.stack.push x.constant } with exception := none }

end State

namespace Exec

variable {s : State} {above below : List Frame} {f : Frame} {inner outer : List TryEntry}
  {t : TryEntry}

/-- The current frame is replaced and goes on at an offset. -/
lemma setFrame_seek_eq {g : Frame} (hs : s.frames = g :: below) (f : Frame) (target : Nat) :
    (do setFrame f; seek target; markJump : Exec Unit) s = s.resume f below target := by
  have hset : setFrame f s = .ok () { s with frames := f :: below } := by
    simp [setFrame, hs]
  have hworld : ({ s with frames := f :: below } : State).worldAt f.world = s.worldAt f.world := rfl
  rw [bind_of_ok hset, State.resume]
  simp only [Bind.bind, EStateM.bind]
  rw [seek_eq rfl, hworld]
  by_cases hin : target ≤ (s.worldAt f.world).script.length ∧ target ≤ maxOffset
  · rw [f.seek_of_le hin.1 hin.2, if_pos hin]
    rfl
  · have hseek : f.seek (s.worldAt f.world).script target =
        .error (.instructionPointerOutOfBounds target (s.worldAt f.world).script.length) := by
      refine if_neg ?_
      omega
    rw [hseek, if_neg hin]

/-- In the guarded part of a block with a handler, an exception is caught. -/
lemma handleException_of_catch {x : Item} (h : s.Awaits above f below inner t outer)
    (hpending : s.exception = some x) {target : Nat} (hphase : t.phase = .body)
    (hcatch : t.catchTarget = some target) :
    handleException s =
      (s.deliver f.world x).resume { f with tries := { t with phase := .handler } :: outer } below
        target := by
  rw [handleException, bind_of_ok (get_eq s), h.dropWhile_frames]
  simp only
  rw [h.dropWhile_tries]
  simp only
  obtain ⟨catchTarget, finallyTarget, endTarget, phase⟩ := t
  subst hphase hcatch
  -- The exception is taken and pushed while the frames above are gone already.
  have htake (s' : State) : takeException s' =
      .ok (s'.exception.getD .null) { s' with exception := none } := rfl
  have hpush : push x { s with
      frames := { f with tries := ⟨some target, finallyTarget, endTarget, .body⟩ :: outer } :: below
      exception := none } =
    .ok () { s.deliver f.world x with
      frames := { f with tries := ⟨some target, finallyTarget, endTarget, .body⟩ :: outer } ::
        below } := rfl
  rw [bind_of_ok (modify_eq _ s)]
  simp only
  rw [bind_of_ok (htake _), hpending]
  simp only [Option.getD_some]
  rw [bind_of_ok hpush]
  exact setFrame_seek_eq rfl _ target

/-- Elsewhere, an exception that has a block to reach is left pending, and the cleanup of the block
is entered. -/
lemma handleException_of_cleanup (h : s.Awaits above f below inner t outer)
    (hcatch : ¬(t.phase = .body ∧ t.catchTarget.isSome)) {target : Nat}
    (hfinally : t.finallyTarget = some target) :
    handleException s =
      s.resume { f with tries := { t with phase := .cleanup } :: outer } below target := by
  rw [handleException, bind_of_ok (get_eq s), h.dropWhile_frames]
  simp only
  rw [h.dropWhile_tries]
  simp only
  rw [bind_of_ok (modify_eq _ s)]
  obtain ⟨catchTarget, finallyTarget, endTarget, phase⟩ := t
  subst hfinally
  cases phase with
  | body =>
    cases catchTarget with
    | some other => exact absurd ⟨rfl, rfl⟩ hcatch
    | none => exact setFrame_seek_eq rfl _ target
  | handler => exact setFrame_seek_eq rfl _ target
  | cleanup => exact setFrame_seek_eq rfl _ target

/-- What becomes of an exception that has a block to reach. -/
lemma handleException_of_awaits {x : Item} (h : s.Awaits above f below inner t outer)
    (hpending : s.exception = some x) (hpart : t.catchTarget.isSome ∨ t.finallyTarget.isSome) :
    (∀ target, t.phase = .body → t.catchTarget = some target →
      handleException s =
        (s.deliver f.world x).resume { f with tries := { t with phase := .handler } :: outer } below
          target) ∧
    (¬(t.phase = .body ∧ t.catchTarget.isSome) → ∃ target, t.finallyTarget = some target ∧
      handleException s =
        s.resume { f with tries := { t with phase := .cleanup } :: outer } below target) := by
  refine ⟨fun target => handleException_of_catch h hpending, fun hcatch => ?_⟩
  obtain ⟨target, htarget⟩ := h.exists_finallyTarget hpart hcatch
  exact ⟨target, htarget, handleException_of_cleanup h hcatch htarget⟩

/-- If all blocks are spent, all of them are left, and nothing else is changed. -/
lemma handleException_of_spent (h : ∀ f ∈ s.frames, ∀ t ∈ f.tries, t.isSpent) :
    handleException s = .error .unhandledException
      { s with frames := s.frames.map fun f => { f with tries := [] } } := by
  have hnone : (s.frames.dropWhile fun f => f.tries.all TryEntry.isSpent) = [] :=
    List.dropWhile_eq_nil_iff.2 fun f hf => List.all_eq_true.2 (h f hf)
  rw [handleException, bind_of_ok (get_eq s), hnone]
  rfl

/-- An exception that has a block to reach is not unhandled, also if execution cannot go on
there. -/
lemma handleException_ne_unhandled {x : Item} (h : s.Awaits above f below inner t outer)
    (hpending : s.exception = some x) (hpart : t.catchTarget.isSome ∨ t.finallyTarget.isSome)
    (s' : State) : handleException s ≠ .error .unhandledException s' := by
  have hresume (s₁ : State) (g : Frame) (target : Nat) :
      s₁.resume g below target ≠ .error .unhandledException s' := by
    unfold State.resume
    simp only
    split <;> nofun
  obtain ⟨hhandler, hcleanup⟩ := handleException_of_awaits h hpending hpart
  by_cases hcatch : t.phase = .body ∧ t.catchTarget.isSome
  · obtain ⟨hphase, hsome⟩ := hcatch
    obtain ⟨target, htarget⟩ := Option.isSome_iff_exists.1 hsome
    rw [hhandler target hphase htarget]
    exact hresume _ _ target
  · obtain ⟨target, -, hroute⟩ := hcleanup hcatch
    rw [hroute]
    exact hresume _ _ target

end Exec

/-- Exceptions reach exactly the innermost block with a part left for them, if every block has a
handler or a cleanup.  A block whose guarded part is being executed catches the exception if it
has a handler; any other enters its cleanup and leaves the exception pending.  If there is no such
block, the exception is unhandled and stays pending. -/
theorem Exec.handleException_innermost {s : State} {x : Item} (hpending : s.exception = some x)
    (hparts : ∀ f ∈ s.frames, ∀ t ∈ f.tries, t.catchTarget.isSome ∨ t.finallyTarget.isSome) :
    ((∃ s', handleException s = .error .unhandledException s') ↔
      ∀ f ∈ s.frames, ∀ t ∈ f.tries, t.isSpent) ∧
    (∀ s', handleException s = .error .unhandledException s' →
      s' = { s with frames := s.frames.map fun f => { f with tries := [] }, exception := some x }) ∧
    ((∃ f ∈ s.frames, ∃ t ∈ f.tries, t.isSpent = false) →
      ∃ above f below inner t outer, s.Awaits above f below inner t outer) ∧
    ∀ above f below inner t outer, s.Awaits above f below inner t outer →
      (∀ target, t.phase = .body → t.catchTarget = some target →
        handleException s =
          (s.deliver f.world x).resume { f with tries := { t with phase := .handler } :: outer }
            below target) ∧
      (¬(t.phase = .body ∧ t.catchTarget.isSome) → ∃ target, t.finallyTarget = some target ∧
        handleException s =
          s.resume { f with tries := { t with phase := .cleanup } :: outer } below target) := by
  have hpart {above f below inner t outer} (h : s.Awaits above f below inner t outer) :
      t.catchTarget.isSome ∨ t.finallyTarget.isSome :=
    hparts f (by simp [h.frames]) t (by simp [h.tries])
  have hspent (s' : State) (herror : handleException s = .error .unhandledException s') :
      ∀ f ∈ s.frames, ∀ t ∈ f.tries, t.isSpent := by
    by_contra hlive
    push Not at hlive
    obtain ⟨above, f, below, inner, t, outer, h⟩ := State.exists_awaits (by simpa using hlive)
    exact handleException_ne_unhandled h hpending (hpart h) s' herror
  refine ⟨⟨fun ⟨s', herror⟩ => hspent s' herror, fun h => ⟨_, handleException_of_spent h⟩⟩, ?_,
    State.exists_awaits, fun above f below inner t outer h =>
      handleException_of_awaits h hpending (hpart h)⟩
  intro s' herror
  rw [handleException_of_spent (hspent s' herror)] at herror
  cases herror
  rw [← hpending]

/-- A frame of the first world at its beginning, with try blocks that have been entered. -/
def Frame.guarded (tries : List TryEntry) : Frame :=
  { world := 0, position := 0, returnCount := -1, locals := .untouched .local,
    arguments := .untouched .argument, tries }

/-- Three frames with an exception pending.  The block of the current frame is in its cleanup, the
inner block of the next frame is in its handler and has no cleanup, and the outer one has a handler
at the end of the script. -/
def State.unwinding : State :=
  { State.initial 0 with
    worlds := #[.ofScript ⟨[0x21, 0x21, 0x21]⟩]
    frames := [.guarded [⟨none, some 1, none, .cleanup⟩],
      .guarded [⟨some 1, none, none, .handler⟩, ⟨some 3, some 1, none, .body⟩],
      .guarded [⟨some 2, none, none, .body⟩]]
    exception := some .null }

/-- The exception is caught in the second of the three frames, by its outer block. -/
theorem Exec.handleException_unwinding :
    State.unwinding.exception = some .null ∧
    (∀ f ∈ State.unwinding.frames, ∀ t ∈ f.tries,
      t.catchTarget.isSome ∨ t.finallyTarget.isSome) ∧
    handleException State.unwinding = .ok ()
      { State.unwinding with
        worlds := #[{ World.ofScript ⟨[0x21, 0x21, 0x21]⟩ with
          stack := EvaluationStack.empty.push Item.null.constant }]
        frames := [{ Frame.guarded [⟨some 3, some 1, none, .handler⟩] with position := 3 },
          .guarded [⟨some 2, none, none, .body⟩]]
        exception := none
        jumping := true } := by
  have hpending : State.unwinding.exception = some .null := rfl
  have hparts : ∀ f ∈ State.unwinding.frames, ∀ t ∈ f.tries,
      t.catchTarget.isSome ∨ t.finallyTarget.isSome := by decide
  have hplace : State.unwinding.Awaits [.guarded [⟨none, some 1, none, .cleanup⟩]]
      (.guarded [⟨some 1, none, none, .handler⟩, ⟨some 3, some 1, none, .body⟩])
      [.guarded [⟨some 2, none, none, .body⟩]]
      [⟨some 1, none, none, .handler⟩] ⟨some 3, some 1, none, .body⟩ [] :=
    ⟨rfl, by decide, rfl, by decide, rfl⟩
  have hroute := ((handleException_innermost hpending hparts).2.2.2 _ _ _ _ _ _ hplace).1 3 rfl rfl
  exact ⟨hpending, hparts, hroute⟩

end SymbolicScript
