import SymbolicScript.Proofs.LinkedHeaps
import SymbolicScript.Proofs.StateSimulation

/-!
# Linked states

This file extends the relation between linked items and heaps to all that instructions work on, as
`State.Simulates` does for the knowledge of known items alone.  Items are linked at every depth of
the evaluation stacks, in variables, in compounds that are counterparts, and in pending exceptions.
-/

namespace SymbolicScript

variable {L L' : Link}

/-! ## Evaluation stacks and variables -/

/-- At every depth the items are linked. -/
abbrev EvaluationStack.Linked (L : Link) (s t : EvaluationStack) : Prop :=
  s.Related (Item.Linked L) t

namespace Variables

/-- Variables from which linked items are loaded. -/
structure Linked (L : Link) (u v : Variables) : Prop where
  /-- The second variables know more. -/
  approximates : u.Approximates L.counterparts v
  /-- What is loaded from the second variables shows what is loaded from the first ones. -/
  denotes : ∀ i x y, u.load i = .ok x → v.load i = .ok y → x.Denotes L y

namespace Linked

variable {u v u' v' : Variables}

lemma mono (h : u.Linked L v) (hle : L ≤ L') : u.Linked L' v where
  approximates := h.approximates.mono (Link.counterparts_le hle)
  denotes i x y hx hy := (h.denotes i x y hx hy).mono hle

/-- Variables that nothing has been stored to on either side. -/
lemma of_untouched (kind : SlotKind) : (untouched kind).Linked L (untouched kind) where
  approximates := .of_untouched kind _
  denotes i x y _ hy := by
    simp only [Variables.load, untouched, SortedMap.find?_empty, Option.getD_none] at hy
    cases hy
    exact .of_symbolic rfl x

/-- If no values are traced, variables are linked if the first ones approximate the second ones. -/
lemma of_approximates {ρ : Renaming} (h : u.Approximates ρ v) : u.Linked (.ofRenaming ρ) v where
  approximates := h
  denotes _ _ _ _ _ htraces := htraces.elim

/-- Items loaded from the same variable are linked. -/
lemma load {i : Nat} {x y : Item} (h : u.Linked L v) (hx : u.load i = .ok x)
    (hy : v.load i = .ok y) : x.Linked L y :=
  ⟨h.approximates.load hx hy, h.denotes i x y hx hy⟩

/-- Storing linked items keeps the relation. -/
lemma store {i : Nat} {x y : Item} (h : u.Linked L v) (hxy : x.Linked L y)
    (hu : u.store i x = .ok u') (hv : v.store i y = .ok v') : u'.Linked L v' where
  approximates := h.approximates.store hxy.approximates hu hv
  denotes j z w hz hw := by
    rw [load_store hu] at hz
    rw [load_store hv] at hw
    split at hz
    · next hj =>
      rw [if_pos hj] at hw
      cases hz
      cases hw
      exact hxy.denotes
    · next hj =>
      rw [if_neg hj] at hw
      exact h.denotes j z w hz hw

/-- Variables that are initialized with linked values are linked. -/
lemma allocateWith {xs ys : List Item} (hxy : List.Forall₂ (Item.Linked L) xs ys)
    (hu : u.allocateWith xs = .ok u') (hv : v.allocateWith ys = .ok v') : u'.Linked L v' where
  approximates := .allocateWith (hxy.imp fun _ _ h => h.approximates) hu hv
  denotes i x y hx hy := by
    rw [load_allocateWith hu] at hx
    rw [load_allocateWith hv] at hy
    obtain ⟨hi, rfl⟩ := List.getElem?_eq_some_iff.1 hx
    obtain ⟨hi', rfl⟩ := List.getElem?_eq_some_iff.1 hy
    exact (hxy.get hi hi').denotes

end Linked

end Variables

/-! ## Worlds, frames and states -/

/-- The worlds of two linked machines. -/
structure World.Linked (L : Link) (w w' : World) : Prop where
  /-- The worlds have the same script. -/
  script : w'.script = w.script
  /-- The evaluation stacks are linked. -/
  stack : w.stack.Linked L w'.stack
  /-- The static fields are linked. -/
  statics : w.statics.Linked L w'.statics
  /-- The heaps are linked. -/
  heap : w.heap.Linked L w'.heap

/-- Frames of the first world at the same place, with linked variables. -/
structure Frame.Linked (L : Link) (f g : Frame) : Prop where
  /-- The frame belongs to the first world. -/
  first : f.world = 0
  /-- The frames belong to worlds of the same index. -/
  world : g.world = f.world
  /-- The frames stand at the same offset. -/
  position : g.position = f.position
  /-- The frames return as many values. -/
  returnCount : g.returnCount = f.returnCount
  /-- The local variables are linked. -/
  locals : f.locals.Linked L g.locals
  /-- The arguments are linked. -/
  arguments : f.arguments.Linked L g.arguments
  /-- The frames are inside the same try blocks. -/
  tries : g.tries = f.tries

/-- The states of two linked machines, of which the second one knows more.  There is one world on
either side. -/
structure State.Linked (L : Link) (s t : State) : Prop where
  /-- The first state has one world. -/
  size : s.worlds.size = 1
  /-- The second state has one world. -/
  size' : t.worlds.size = 1
  /-- The worlds are linked. -/
  world : (s.worldAt 0).Linked L (t.worldAt 0)
  /-- The frames are linked one by one. -/
  frames : List.Forall₂ (Frame.Linked L) s.frames t.frames
  /-- The machines have come as far. -/
  status : t.status = s.status
  /-- A jump is marked on both sides or on neither. -/
  jumping : t.jumping = s.jumping
  /-- An exception is pending on both sides or on neither. -/
  exception : Option.Rel (Item.Linked L) s.exception t.exception
  /-- The identities that the link knows to be used up are used up. -/
  supply : L.supply ≤ s.supply

namespace Frame.Linked

variable {f g : Frame}

lemma mono (h : f.Linked L g) (hle : L ≤ L') : f.Linked L' g :=
  { h with locals := h.locals.mono hle, arguments := h.arguments.mono hle }

/-- Linked frames may be moved to the same offset. -/
lemma move (h : f.Linked L g) (offset : Nat) :
    Frame.Linked L { f with position := offset } { g with position := offset } :=
  { h with position := rfl }

/-- Linked frames may enter and leave the same try blocks. -/
lemma withTries (h : f.Linked L g) (tries : List TryEntry) :
    Frame.Linked L { f with tries } { g with tries } :=
  { h with tries := rfl }

lemma approximates (h : f.Linked L g) : f.Approximates L.counterparts g :=
  { h with locals := h.locals.approximates, arguments := h.arguments.approximates }

end Frame.Linked

/-- The heaps of linked worlds may change in a related way, and the link may grow with them. -/
lemma World.Linked.withHeap {w w' : World} {a b : Heap} (h : w.Linked L w') (hle : L ≤ L')
    (hheap : a.Linked L' b) : World.Linked L' { w with heap := a } { w' with heap := b } where
  script := h.script
  stack := EvaluationStack.Related.mono h.stack fun _ _ hxy => hxy.mono hle
  statics := h.statics.mono hle
  heap := hheap

lemma World.Linked.simulates {w w' : World} (h : w.Linked L w') :
    w.Simulates L.counterparts w' where
  script := h.script
  stack i := (h.stack i).approximates
  statics := h.statics.approximates
  heap := h.heap.toSimulates

namespace State.Linked

variable {s t : State}

/-- The state of a machine knows less than one that it is linked to. -/
lemma simulates (h : s.Linked L t) : s.Simulates L.counterparts t where
  size := h.size
  size' := h.size'
  world := h.world.simulates
  frames := h.frames.imp fun _ _ hfg => hfg.approximates
  status := h.status
  jumping := h.jumping
  exception := by
    have hexception := h.exception
    generalize s.exception = e at hexception
    generalize t.exception = e' at hexception
    cases hexception with
    | some hxy => exact .some hxy.approximates
    | none => exact .none

/-- If no values are traced, states are linked if the first one knows less. -/
lemma of_simulates {ρ : Renaming} (h : s.Simulates ρ t) : s.Linked (.ofRenaming ρ) t where
  size := h.size
  size' := h.size'
  world :=
    { script := h.world.script
      stack := fun i => .of_approximates (h.world.stack i)
      statics := .of_approximates h.world.statics
      heap := .of_simulates h.world.heap }
  frames := h.frames.imp fun _ _ hfg =>
    { hfg with
      locals := .of_approximates hfg.locals
      arguments := .of_approximates hfg.arguments }
  status := h.status
  jumping := h.jumping
  exception := by
    have hexception := h.exception
    generalize s.exception = e at hexception
    generalize t.exception = e' at hexception
    cases hexception with
    | some hxy => exact .some (.of_approximates hxy)
    | none => exact .none
  supply := Nat.zero_le _

/-- The frames of the machine that knows more belong to its only world. -/
lemma frame_world {g : Frame} {rest : List Frame} (h : s.Linked L t) (ht : t.frames = g :: rest) :
    g.world = 0 := by
  have hframes := h.frames
  rw [ht] at hframes
  obtain ⟨f, fs, hfg, -, -⟩ := List.forall₂_cons_right_iff.1 hframes
  exact hfg.world.trans hfg.first

/-- Where the lesser machine has a frame, the other one has a frame that it is linked to. -/
lemma frames_cons {f : Frame} {rest : List Frame} (h : s.Linked L t) (hs : s.frames = f :: rest) :
    ∃ g rest', t.frames = g :: rest' ∧ f.Linked L g ∧ List.Forall₂ (Frame.Linked L) rest rest' := by
  have hframes := h.frames
  rw [hs, List.forall₂_cons_left_iff] at hframes
  obtain ⟨g, rest', hfg, hrest, ht⟩ := hframes
  exact ⟨g, rest', ht, hfg, hrest⟩

/-- There are as many frames on either side. -/
lemma depth (h : s.Linked L t) : t.depth = s.depth :=
  h.frames.length_eq.symm

/-- An exception is pending on both sides or on neither. -/
lemma isSome_exception (h : s.Linked L t) : t.exception.isSome = s.exception.isSome := by
  have hexception := h.exception
  generalize s.exception = e at hexception
  generalize t.exception = e' at hexception
  cases hexception with
  | some _ => rfl
  | none => rfl

/-- Pending exceptions stay linked. -/
lemma exception_mono {e e' : Option Item} (h : Option.Rel (Item.Linked L) e e') (hle : L ≤ L') :
    Option.Rel (Item.Linked L') e e' := by
  cases h with
  | some hxy => exact .some (hxy.mono hle)
  | none => exact .none

/-- The link may grow if it knows of no further identities. -/
lemma mono (h : s.Linked L t) (hle : L ≤ L') (hworld : (s.worldAt 0).Linked L' (t.worldAt 0))
    (hsupply : L'.supply ≤ s.supply) : s.Linked L' t where
  size := h.size
  size' := h.size'
  world := hworld
  frames := h.frames.imp fun _ _ hfg => hfg.mono hle
  status := h.status
  jumping := h.jumping
  exception := exception_mono h.exception hle
  supply := hsupply

/-- More identities may be used up by the lesser machine, and any number by the other one. -/
lemma withSupply (h : s.Linked L t) {n : Nat} (hn : s.supply ≤ n) (n' : Nat) :
    Linked L { s with supply := n } { t with supply := n' } :=
  ⟨h.size, h.size', h.world, h.frames, h.status, h.jumping, h.exception, Nat.le_trans h.supply hn⟩

/-- The lesser machine may use up an identity. -/
lemma introduce (h : s.Linked L t) (id : Nat) (hid : id < s.supply) :
    s.Linked (L.introduce id) t :=
  have hle := L.le_introduce id
  h.mono hle (h.world.withHeap hle (h.world.heap.revalue hle rfl rfl))
    (Nat.max_le.2 ⟨h.supply, hid⟩)

/-- An unknown that has been introduced may get a value. -/
lemma assign {id : Nat} (h : s.Linked L t) (hid : id < L.supply)
    (hnone : L.valuation (.fresh id) = none) (v : Value) : s.Linked (L.assign id v hid) t :=
  have hle := Link.le_assign hid hnone v
  h.mono hle (h.world.withHeap hle (h.world.heap.revalue hle rfl rfl)) h.supply

/-- The worlds may change in a related way, and the link may grow with them. -/
lemma setWorld {w w' : World} (h : s.Linked L t) (hle : L ≤ L') (hsupply : L'.supply = L.supply)
    (hw : w.Linked L' w') : (s.setWorld 0 w).Linked L' (t.setWorld 0 w') where
  size := (s.size_setWorld 0 w).trans h.size
  size' := (t.size_setWorld 0 w').trans h.size'
  world := by
    rw [worldAt_setWorld, worldAt_setWorld, if_pos ⟨rfl, by simp [h.size]⟩,
      if_pos ⟨rfl, by simp [h.size']⟩]
    exact hw
  frames := h.frames.imp fun _ _ hfg => hfg.mono hle
  status := h.status
  jumping := h.jumping
  exception := exception_mono h.exception hle
  supply := Nat.le_trans (Nat.le_of_eq hsupply) h.supply

/-- The world of the machine that knows more may change on its own, and the link may grow with
it. -/
lemma setWorld_right {w' : World} (h : s.Linked L t) (hle : L ≤ L')
    (hsupply : L'.supply = L.supply) (hw : (s.worldAt 0).Linked L' w') :
    s.Linked L' (t.setWorld 0 w') where
  size := h.size
  size' := (t.size_setWorld 0 w').trans h.size'
  world := by
    rw [worldAt_setWorld, if_pos ⟨rfl, by simp [h.size']⟩]
    exact hw
  frames := h.frames.imp fun _ _ hfg => hfg.mono hle
  status := h.status
  jumping := h.jumping
  exception := exception_mono h.exception hle
  supply := Nat.le_trans (Nat.le_of_eq hsupply) h.supply

end State.Linked

end SymbolicScript
