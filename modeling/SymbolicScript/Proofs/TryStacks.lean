import SymbolicScript.Proofs.ControlTargets

/-!
# What becomes of try blocks and frames

A try block that has been entered lies on the try stack of its frame until it is left.  Four
instructions work on it, and so does whatever unwinds the invocation stack in search of a handler.
This file says once what they can do to the try stacks of all frames (`TryStep`): take frames and
blocks off the top, and advance the blocks that stay from the guarded part to the handler to the
cleanup; enter one more block; or call a routine, whose frame has entered none.

Everything that is to be known of try stacks follows from this: that blocks stay well formed
(`TryStep.wellFormed`), and that a block which is still there is as far as before or further
(`TryStep.advances`).

Unwinding is a matter of whole frames (`State.UnwindsBy`).  Those that are left are the same
activations as before, and of them only the one that is now current may have moved, inside its
script.  What happens to the try stacks is one part of it (`State.Unwinds.tryStacks`).
-/

namespace SymbolicScript

/-! ## Unwinding -/

/-- Elements are taken off the front of a list, and each of the others becomes a related one.
Places are counted from the end, so that an element keeps its place. -/
structure Unwound {α : Type} (R : α → α → Prop) (a b : List α) : Prop where
  /-- No element is added. -/
  length_le : b.length ≤ a.length
  /-- Every element is related to the one that was in its place. -/
  related : ∀ (place : Nat) (x y : α),
    a.reverse[place]? = some x → b.reverse[place]? = some y → R x y

/-- What is left of a list at its end is in its place. -/
lemma getElem?_reverse_of_suffix {α : Type} {a b : List α} (h : b <:+ a) {place : Nat} {x : α}
    (hx : b.reverse[place]? = some x) : a.reverse[place]? = some x := by
  obtain ⟨front, rfl⟩ := h
  obtain ⟨hplace, -⟩ := List.getElem?_eq_some_iff.1 hx
  rwa [List.reverse_append, List.getElem?_append_left hplace]

namespace Unwound

variable {α β : Type} {R : α → α → Prop} {a b c : List α}

/-- What is left was in its place before. -/
lemma exists_of_place (h : Unwound R a b) {place : Nat} {y : α}
    (hy : b.reverse[place]? = some y) : ∃ x, a.reverse[place]? = some x ∧ R x y := by
  obtain ⟨hplace, -⟩ := List.getElem?_eq_some_iff.1 hy
  have hlt : place < a.reverse.length := by
    have hle := h.length_le
    simp only [List.length_reverse] at hplace ⊢
    omega
  exact ⟨_, List.getElem?_eq_getElem hlt, h.related place _ _ (List.getElem?_eq_getElem hlt) hy⟩

lemma of_suffix (hR : ∀ x, R x x) (h : b <:+ a) : Unwound R a b where
  length_le := h.length_le
  related := by
    intro place x y hx hy
    rw [getElem?_reverse_of_suffix h hy] at hx
    cases hx
    exact hR _

lemma refl (hR : ∀ x, R x x) (a : List α) : Unwound R a a :=
  of_suffix hR (List.suffix_refl a)

lemma trans (hR : ∀ x y z, R x y → R y z → R x z) (hab : Unwound R a b) (hbc : Unwound R b c) :
    Unwound R a c where
  length_le := Nat.le_trans hbc.length_le hab.length_le
  related := by
    intro place x z hx hz
    obtain ⟨y, hy, hyz⟩ := hbc.exists_of_place hz
    exact hR x y z (hab.related place x y hx hy) hyz

/-- The first element becomes a related one. -/
lemma cons (hR : ∀ x, R x x) {x y : α} (hxy : R x y) (l : List α) :
    Unwound R (x :: l) (y :: l) where
  length_le := Nat.le_refl _
  related := by
    intro place u v hu hv
    rw [List.reverse_cons] at hu hv
    -- Counted from the end, the first element has the last place.
    rcases Nat.lt_or_ge place l.reverse.length with hlt | hge
    · rw [List.getElem?_append_left hlt] at hu hv
      rw [hu] at hv
      cases hv
      exact hR u
    · rw [List.getElem?_append_right hge, List.getElem?_singleton] at hu hv
      split at hu
      · next hplace =>
        rw [if_pos hplace] at hv
        cases hu
        cases hv
        exact hxy
      · cases hu

/-- Every element becomes a related one. -/
lemma map {f g : β → α} (h : ∀ x, R (f x) (g x)) (l : List β) : Unwound R (l.map f) (l.map g) where
  length_le := by simp
  related := by
    intro place u v hu hv
    rw [← List.map_reverse, List.getElem?_map] at hu hv
    obtain ⟨x, hx, rfl⟩ := Option.map_eq_some_iff.1 hu
    rw [hx] at hv
    cases hv
    exact h x

/-- What the related elements inherit holds of all that is left. -/
lemma forall_mem {p : α → Prop} (h : Unwound R a b) (hR : ∀ x y, R x y → p x → p y)
    (ha : ∀ x ∈ a, p x) : ∀ y ∈ b, p y := by
  intro y hy
  obtain ⟨place, hplace, hget⟩ := List.getElem_of_mem (List.mem_reverse.2 hy)
  obtain ⟨x, hx, hxy⟩ := h.exists_of_place (List.getElem?_eq_some_iff.2 ⟨hplace, hget⟩)
  exact hR x y hxy (ha x (List.mem_reverse.1 (List.mem_of_getElem? hx)))

end Unwound

/-! ## Try blocks -/

/-- The parts of a try block in the order in which they are executed. -/
def TryPhase.rank : TryPhase → Nat
  | .body => 0
  | .handler => 1
  | .cleanup => 2

/-- What holds of every try block that has been entered. -/
structure TryEntry.WellFormed (t : TryEntry) : Prop where
  /-- There is a handler or a cleanup. -/
  target : t.catchTarget.isSome ∨ t.finallyTarget.isSome
  /-- In the handler there is one. -/
  handler : t.phase = .handler → t.catchTarget.isSome
  /-- In the cleanup there is one. -/
  cleanup : t.phase = .cleanup → t.finallyTarget.isSome
  /-- Where to go on behind the cleanup is known in the cleanup only. -/
  ending : t.endTarget.isSome → t.phase = .cleanup

/-- A try block becomes another one by going on to a later part, or not at all. -/
structure TryEntry.Advances (t u : TryEntry) : Prop where
  /-- The handler is the same. -/
  catchTarget : u.catchTarget = t.catchTarget
  /-- The cleanup is the same. -/
  finallyTarget : u.finallyTarget = t.finallyTarget
  /-- The part is the same, or a later one. -/
  rank_le : t.phase.rank ≤ u.phase.rank
  /-- The block stays well formed. -/
  wellFormed : t.WellFormed → u.WellFormed

namespace TryEntry

lemma Advances.refl (t : TryEntry) : t.Advances t :=
  ⟨rfl, rfl, Nat.le_refl _, id⟩

lemma Advances.trans {t u v : TryEntry} (htu : t.Advances u) (huv : u.Advances v) :
    t.Advances v where
  catchTarget := huv.catchTarget.trans htu.catchTarget
  finallyTarget := huv.finallyTarget.trans htu.finallyTarget
  rank_le := Nat.le_trans htu.rank_le huv.rank_le
  wellFormed := huv.wellFormed ∘ htu.wellFormed

lemma rank_le_cleanup (phase : TryPhase) : phase.rank ≤ TryPhase.cleanup.rank := by
  cases phase <;> decide

/-- A block goes on from its guarded part to its handler. -/
lemma advances_handler {t : TryEntry} {target : Nat} (hphase : t.phase = .body)
    (hcatch : t.catchTarget = some target) : t.Advances { t with phase := .handler } where
  catchTarget := rfl
  finallyTarget := rfl
  rank_le := by
    rw [hphase]
    exact Nat.zero_le _
  wellFormed := by
    intro h
    refine ⟨h.target, fun _ => by simp [hcatch], nofun, fun hend => ?_⟩
    have hcleanup := h.ending hend
    rw [hphase] at hcleanup
    cases hcleanup

/-- A block goes on to its cleanup. -/
lemma advances_cleanup {t : TryEntry} {ending : Option Nat}
    (hfinally : t.WellFormed → t.finallyTarget.isSome) :
    t.Advances { t with phase := .cleanup, endTarget := ending } where
  catchTarget := rfl
  finallyTarget := rfl
  rank_le := rank_le_cleanup _
  wellFormed h := ⟨h.target, nofun, fun _ => hfinally h, fun _ => rfl⟩

/-- The first block that is left once spent ones are dropped is not spent. -/
lemma isSpent_of_dropWhile {tries outer : List TryEntry} {t : TryEntry}
    (h : tries.dropWhile isSpent = t :: outer) : t.isSpent = false := by
  have hne : tries.dropWhile isSpent ≠ [] := by simp [h]
  have hhead := List.head_dropWhile_not isSpent hne
  simpa [h] using hhead

/-- A well-formed block to which an exception may lead has a cleanup, unless its handler comes
first. -/
lemma finallyTarget_isSome {t : TryEntry} (h : t.WellFormed) (hspent : t.isSpent = false)
    (hcatch : t.phase = .body → t.catchTarget = none) : t.finallyTarget.isSome := by
  cases hphase : t.phase with
  | body =>
    rcases h.target with hsome | hsome
    · simp [hcatch hphase] at hsome
    · exact hsome
  | handler =>
    simp only [isSpent, hphase] at hspent
    rwa [← Option.not_isNone, Bool.not_eq_true']
  | cleanup =>
    simp only [isSpent, hphase] at hspent
    cases hspent

/-- A block at its beginning is well formed if it has a handler or a cleanup. -/
lemma begin_wellFormed {catchTarget finallyTarget : Option Nat}
    (h : catchTarget.isSome ∨ finallyTarget.isSome) :
    (TryEntry.begin catchTarget finallyTarget).WellFormed :=
  ⟨h, nofun, nofun, nofun⟩

end TryEntry

/-! ## Try stacks -/

/-- The try blocks that every frame has entered, innermost first. -/
def State.tryStacks (s : State) : List (List TryEntry) :=
  s.frames.map Frame.tries

/-- Every try stack is bounded, and its blocks are well formed. -/
def WellFormedTries (tryStacks : List (List TryEntry)) : Prop :=
  ∀ tries ∈ tryStacks, tries.length ≤ Limits.tryNesting ∧ ∀ t ∈ tries, t.WellFormed

/-- Try stacks are unwound if frames and blocks are taken off the top and other blocks advance. -/
def UnwoundTries : List (List TryEntry) → List (List TryEntry) → Prop :=
  Unwound (Unwound TryEntry.Advances)

/-- What an instruction may do to the try stacks of all frames. -/
inductive TryStep : List (List TryEntry) → List (List TryEntry) → Prop
  /-- Frames and blocks are taken off the top, and other blocks advance. -/
  | unwinds {before after : List (List TryEntry)} (h : UnwoundTries before after) :
    TryStep before after
  /-- The current frame enters a block. -/
  | enters {tries : List TryEntry} {rest : List (List TryEntry)}
    {catchTarget finallyTarget : Option Nat}
    (htarget : catchTarget.isSome ∨ finallyTarget.isSome)
    (hroom : tries.length < Limits.tryNesting) :
    TryStep (tries :: rest) ((.begin catchTarget finallyTarget :: tries) :: rest)
  /-- A routine is called. -/
  | calls {before : List (List TryEntry)} : TryStep before ([] :: before)

/-- The tries of one frame are unwound to themselves. -/
lemma unwound_refl (tries : List TryEntry) : Unwound TryEntry.Advances tries tries :=
  .refl .refl tries

namespace TryStep

variable {before after : List (List TryEntry)}

/-- Nothing has to happen. -/
lemma refl (tryStacks : List (List TryEntry)) : TryStep tryStacks tryStacks :=
  .unwinds (.refl unwound_refl tryStacks)

/-- Try stacks stay well formed. -/
theorem wellFormed (h : TryStep before after) (hbefore : WellFormedTries before) :
    WellFormedTries after := by
  cases h with
  | unwinds h =>
    refine h.forall_mem (fun tries tries' hunwound htries => ?_) hbefore
    exact ⟨Nat.le_trans hunwound.length_le htries.1,
      hunwound.forall_mem (fun t u htu ht => htu.wellFormed ht) htries.2⟩
  | enters htarget hroom =>
    obtain ⟨htries, hrest⟩ := List.forall_mem_cons.1 hbefore
    refine List.forall_mem_cons.2 ⟨⟨hroom, ?_⟩, hrest⟩
    exact List.forall_mem_cons.2 ⟨TryEntry.begin_wellFormed htarget, htries.2⟩
  | calls => exact List.forall_mem_cons.2 ⟨⟨Nat.zero_le _, nofun⟩, hbefore⟩

/-- A block that is in the same place of the same frame as before has advanced, or stayed the
same. -/
theorem advances (h : TryStep before after) {frame place : Nat} {tries tries' : List TryEntry}
    {t u : TryEntry} (htries : before.reverse[frame]? = some tries)
    (htries' : after.reverse[frame]? = some tries') (ht : tries.reverse[place]? = some t)
    (hu : tries'.reverse[place]? = some u) : t.Advances u := by
  cases h with
  | unwinds h => exact (h.related frame tries tries' htries htries').related place t u ht hu
  | @enters inner rest catchTarget finallyTarget _ _ =>
    -- Only the blocks below the new one are in places that were taken before.
    have hsuffix : tries <:+ tries' := by
      have hcurrent : Unwound (fun a b : List TryEntry => a <:+ b) (inner :: rest)
          ((.begin catchTarget finallyTarget :: inner) :: rest) :=
        .cons List.suffix_refl (List.suffix_cons _ _) rest
      exact hcurrent.related frame tries tries' htries htries'
    rw [getElem?_reverse_of_suffix hsuffix ht] at hu
    cases hu
    exact .refl t
  | calls =>
    rw [getElem?_reverse_of_suffix (List.suffix_cons [] before) htries] at htries'
    cases htries'
    rw [ht] at hu
    cases hu
    exact .refl t

end TryStep

/-! ## Unwinding the invocation stack -/

/-- A frame remains: it is the same activation, which may stand elsewhere and may have entered or
left try blocks. -/
structure Frame.Remains (f g : Frame) : Prop where
  /-- The world is the same. -/
  world : g.world = f.world
  /-- The local variables are the same. -/
  locals : g.locals = f.locals
  /-- The arguments are the same. -/
  arguments : g.arguments = f.arguments

/-- A frame goes on: it remains, and at most it has left try blocks or gone on to later parts of
them. -/
structure Frame.Resumes (f g : Frame) : Prop extends f.Remains g where
  /-- Blocks are taken off the top of the try stack, and other blocks advance. -/
  tries : Unwound TryEntry.Advances f.tries g.tries

/-- A frame stays where it is. -/
def Frame.Waits (f g : Frame) : Prop :=
  g.position = f.position

namespace Frame

instance : Std.Refl Remains where
  refl _ := ⟨rfl, rfl, rfl⟩

instance : IsTrans Frame Remains where
  trans _ _ _ hfg hgk :=
    { world := hgk.world.trans hfg.world
      locals := hgk.locals.trans hfg.locals
      arguments := hgk.arguments.trans hfg.arguments }

instance : Std.Refl Resumes where
  refl f := ⟨Std.Refl.refl f, unwound_refl f.tries⟩

instance : IsTrans Frame Resumes where
  trans _ _ _ hfg hgk :=
    { IsTrans.trans _ _ _ hfg.toRemains hgk.toRemains with
      tries := .trans (fun _ _ _ => TryEntry.Advances.trans) hfg.tries hgk.tries }

instance : Std.Refl Waits where
  refl _ := rfl

instance : IsTrans Frame Waits where
  trans _ _ _ hfg hgk := Eq.trans hgk hfg

/-- Leaving blocks, or going on to later parts of them, changes nothing else. -/
lemma Resumes.of_tries {f : Frame} {tries : List TryEntry}
    (h : Unwound TryEntry.Advances f.tries tries) : f.Resumes { f with tries } :=
  ⟨⟨rfl, rfl, rfl⟩, h⟩

end Frame

/-- Every frame stands inside its script, or at the end of it. -/
def State.Inside (s : State) : Prop :=
  ∀ f ∈ s.frames, f.position ≤ (s.worldAt f.world).script.length

/-- The frames of the first state are unwound to those of the second: frames are taken off the top,
the others are related to what they were, and only the one that is now current may have moved. -/
structure State.UnwindsBy (R : Frame → Frame → Prop) (s s' : State) : Prop where
  /-- Every frame that is left is related to the one that was in its place. -/
  frames : Unwound R s.frames s'.frames
  /-- A frame below the current one stays where it is. -/
  callers : Unwound Frame.Waits s.frames.tail s'.frames.tail
  /-- The scripts are the same. -/
  script : ∀ index, (s'.worldAt index).script = (s.worldAt index).script
  /-- No frame leaves its script. -/
  inside : s.Inside → s'.Inside

/-- The frames that are left go on. -/
abbrev State.Unwinds (s s' : State) : Prop :=
  s.UnwindsBy Frame.Resumes s'

/-- Behind the first element of a part at its end, a list has the rest of that part at its end. -/
lemma tail_suffix_tail {α : Type} {a : List α} {x : α} {l : List α} (h : x :: l <:+ a) :
    l <:+ a.tail := by
  cases a with
  | nil => cases List.suffix_nil.1 h
  | cons y rest =>
    rcases List.suffix_cons_iff.1 h with heq | hsuffix
    · cases heq
      exact List.suffix_refl l
    · exact (List.suffix_cons x l).trans hsuffix

namespace State

variable {R : Frame → Frame → Prop} {s s' s₀ : State}

instance [Std.Refl R] : Std.Refl (UnwindsBy R) where
  refl _ := ⟨.refl Std.Refl.refl _, .refl Std.Refl.refl _, fun _ => rfl, id⟩

instance [IsTrans Frame R] : IsTrans State (UnwindsBy R) where
  trans _ _ _ hst htu :=
    { frames := .trans IsTrans.trans hst.frames htu.frames
      callers := .trans IsTrans.trans hst.callers htu.callers
      script := fun index => (htu.script index).trans (hst.script index)
      inside := htu.inside ∘ hst.inside }

/-- Frames that have not moved stand inside their scripts, if those are the same. -/
lemma Inside.of_frames (h : s.Inside) (hframes : s'.frames = s.frames)
    (hscript : ∀ index, (s'.worldAt index).script = (s.worldAt index).script) : s'.Inside := by
  intro f hf
  rw [hscript]
  exact h f (hframes ▸ hf)

namespace UnwindsBy

/-- A weaker relation between the frames holds as well. -/
lemma mono {R' : Frame → Frame → Prop} (h : s.UnwindsBy R s') (hR : ∀ f g, R f g → R' f g) :
    s.UnwindsBy R' s' :=
  { h with frames := ⟨h.frames.length_le, fun place f g hf hg =>
      hR f g (h.frames.related place f g hf hg)⟩ }

/-- Where the frames and the scripts are the same, nothing is unwound. -/
lemma of_frames [Std.Refl R] (hframes : s'.frames = s.frames)
    (hscript : ∀ index, (s'.worldAt index).script = (s.worldAt index).script) :
    s.UnwindsBy R s' where
  frames := by
    rw [hframes]
    exact .refl Std.Refl.refl _
  callers := by
    rw [hframes]
    exact .refl Std.Refl.refl _
  script := hscript
  inside h := h.of_frames hframes hscript

/-- Frames are taken off the top. -/
lemma of_rest [Std.Refl R] {rest : List Frame} (hframes : rest <:+ s.frames) :
    s.UnwindsBy R { s with frames := rest } where
  frames := .of_suffix Std.Refl.refl hframes
  callers := by
    cases rest with
    | nil => exact .of_suffix Std.Refl.refl List.nil_suffix
    | cons g rest => exact .of_suffix Std.Refl.refl (tail_suffix_tail hframes)
  script _ := rfl
  inside h f hf := h f (hframes.subset hf)

/-- Frames are taken off the top, and the one below them is replaced by a related one, inside its
script. -/
lemma of_suffix [Std.Refl R] [IsTrans Frame R] {f g : Frame} {rest : List Frame}
    (hframes : f :: rest <:+ s.frames) (hR : R f g) (hworld : g.world = f.world)
    (hinside : f.position ≤ (s.worldAt f.world).script.length →
      g.position ≤ (s.worldAt f.world).script.length) :
    s.UnwindsBy R { s with frames := g :: rest } where
  frames := .trans IsTrans.trans (.of_suffix Std.Refl.refl hframes) (.cons Std.Refl.refl hR rest)
  callers := .of_suffix Std.Refl.refl (tail_suffix_tail hframes)
  script _ := rfl
  inside h := by
    refine List.forall_mem_cons.2 ⟨?_, fun k hk => h k (hframes.subset (List.mem_cons_of_mem f hk))⟩
    change g.position ≤ (s.worldAt g.world).script.length
    rw [hworld]
    exact hinside (h f (hframes.subset List.mem_cons_self))

end UnwindsBy

/-- All try blocks are left. -/
lemma Unwinds.leaveTries (s : State) :
    s.Unwinds { s with frames := s.frames.map fun f => { f with tries := [] } } where
  frames := by
    have hmap := Unwound.map (R := Frame.Resumes) (f := id)
      (fun f => .of_tries (.of_suffix .refl List.nil_suffix)) s.frames
    rwa [List.map_id] at hmap
  callers := by
    have hmap := Unwound.map (R := Frame.Waits) (f := id)
      (g := fun f => { f with tries := [] }) (fun _ => rfl) s.frames.tail
    rw [List.map_id] at hmap
    rwa [← List.map_tail]
  script _ := rfl
  inside h := by
    intro f hf
    obtain ⟨f', hf', rfl⟩ := List.mem_map.1 hf
    exact h f' hf'

/-- Where frames are unwound, so are the try stacks. -/
lemma Unwinds.tryStacks (h : s.Unwinds s') : UnwoundTries s.tryStacks s'.tryStacks where
  length_le := by
    unfold State.tryStacks
    rw [List.length_map, List.length_map]
    exact h.frames.length_le
  related := by
    intro place tries tries' htries htries'
    rw [State.tryStacks, ← List.map_reverse, List.getElem?_map] at htries htries'
    obtain ⟨f, hf, rfl⟩ := Option.map_eq_some_iff.1 htries
    obtain ⟨g, hg, rfl⟩ := Option.map_eq_some_iff.1 htries'
    exact (h.frames.related place f g hf hg).tries

end State

end SymbolicScript
