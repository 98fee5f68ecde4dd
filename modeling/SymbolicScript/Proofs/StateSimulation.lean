import SymbolicScript.Proofs.Footprint
import SymbolicScript.Proofs.HeapSimulation

/-!
# States of which one knows less

This file extends the relation between items and heaps to all that instructions work on.  Evaluation
stacks are compared through their views, so that it does not matter which items are present, and
variables through what is loaded from them, so that it does not matter whether they have been stored
to.  The control state agrees: the frames stand at the same positions in the same try blocks, and a
jump or an exception is pending on both sides or on neither (`State.Simulates`).

What is recorded about accesses and storage, the values returned by entry frames, and the supply of
fresh identities are left out, since no instruction but a call of the host depends on them.
-/

namespace SymbolicScript

variable {ρ ρ' : Renaming}

/-! ## Related lists -/

section Lists

variable {α : Type} {R : α → α → Prop} {xs ys : List α}

/-- Lists stay related when related members are put in the same place. -/
lemma forall₂_set (h : List.Forall₂ R xs ys) {x y : α} (hxy : R x y) (n : Nat) :
    List.Forall₂ R (xs.set n x) (ys.set n y) := by
  induction h generalizing n with
  | nil => exact .nil
  | cons hzz hrest ih =>
    cases n with
    | zero => exact .cons hxy hrest
    | succ n => exact .cons hzz (ih n)

/-- Lists stay related when members in the same place are removed. -/
lemma forall₂_eraseIdx (h : List.Forall₂ R xs ys) (n : Nat) :
    List.Forall₂ R (xs.eraseIdx n) (ys.eraseIdx n) := by
  induction h generalizing n with
  | nil => exact .nil
  | cons hzz hrest ih =>
    cases n with
    | zero => exact hrest
    | succ n => exact .cons hzz (ih n)

/-- Lists stay related without their last members. -/
lemma forall₂_dropLast (h : List.Forall₂ R xs ys) :
    List.Forall₂ R xs.dropLast ys.dropLast := by
  rw [List.dropLast_eq_take, List.dropLast_eq_take, h.length_eq]
  exact List.forall₂_take _ h

/-- The last members of related lists are related. -/
lemma forall₂_getLastD (h : List.Forall₂ R xs ys) {x y : α} (hxy : R x y) :
    R (xs.getLastD x) (ys.getLastD y) := by
  induction h generalizing x y with
  | nil => exact hxy
  | cons hzz _ ih =>
    rw [List.getLastD_cons, List.getLastD_cons]
    exact ih hzz

/-- Members in the same place of related lists are related. -/
lemma forall₂_getD (h : List.Forall₂ R xs ys) {x y : α} (hxy : R x y) (n : Nat) :
    R (xs.getD n x) (ys.getD n y) := by
  induction h generalizing n with
  | nil => exact hxy
  | cons hzz _ ih =>
    cases n with
    | zero => exact hzz
    | succ n => exact ih n

/-- Members in the same place of related lists are there on both sides or on neither. -/
lemma forall₂_getElem? (h : List.Forall₂ R xs ys) (n : Nat) : Option.Rel R xs[n]? ys[n]? := by
  induction h generalizing n with
  | nil => exact .none
  | cons hxy _ ih =>
    cases n with
    | zero => exact .some hxy
    | succ n => exact ih n

/-- A list of members that are related to themselves is related to itself. -/
lemma forall₂_replicate {x : α} (hx : R x x) (n : Nat) :
    List.Forall₂ R (List.replicate n x) (List.replicate n x) :=
  List.forall₂_same.2 fun _ hy => List.eq_of_mem_replicate hy ▸ hx

end Lists

/-! ## Evaluation stacks -/

/-- At every depth the item of the first stack is related to the item of the second one. -/
def EvaluationStack.Related (R : Item → Item → Prop) (s t : EvaluationStack) : Prop :=
  ∀ i, R (s.view i) (t.view i)

/-- At every depth the item of the first stack approximates the item of the second one. -/
def EvaluationStack.Approximates (ρ : Renaming) (s t : EvaluationStack) : Prop :=
  ∀ i, (s.view i).Approximates ρ (t.view i)

namespace EvaluationStack.Related

variable {R R' : Item → Item → Prop} {s t : EvaluationStack}

lemma mono (h : s.Related R t) (hR : ∀ x y, R x y → R' x y) : s.Related R' t :=
  fun i => hR _ _ (h i)

lemma push {x y : Item} (h : s.Related R t) (hxy : R x y) : (s.push x).Related R (t.push y) := by
  intro i
  cases i with
  | zero => simpa using hxy
  | succ i => simpa using h i

lemma pushAll {xs ys : List Item} (h : s.Related R t) (hxy : List.Forall₂ R xs ys) :
    (s.pushAll xs).Related R (t.pushAll ys) := by
  intro i
  rw [view_pushAll, view_pushAll]
  have hlength := hxy.length_eq
  by_cases hi : i < xs.length
  · rw [dif_pos hi, dif_pos (hlength ▸ hi)]
    exact hxy.get hi (hlength ▸ hi)
  · rw [dif_neg hi, dif_neg (hlength ▸ hi), hlength]
    exact h _

lemma pop (h : s.Related R t) : s.pop.2.Related R t.pop.2 := by
  intro i
  rw [view_pop, view_pop]
  exact h _

lemma peek (h : s.Related R t) (n : Nat) : (s.peek n).2.Related R (t.peek n).2 := by
  intro i
  rw [view_peek, view_peek]
  exact h i

lemma removeAt (h : s.Related R t) (n : Nat) : (s.removeAt n).2.Related R (t.removeAt n).2 := by
  intro i
  rw [view_removeAt, view_removeAt]
  split
  · exact h _
  · exact h _

lemma popMany_fst (h : s.Related R t) (count : Nat) :
    List.Forall₂ R (s.popMany count).1 (t.popMany count).1 := by
  rw [EvaluationStack.popMany_fst, EvaluationStack.popMany_fst, List.forall₂_map_left_iff,
    List.forall₂_map_right_iff, List.forall₂_same]
  exact fun i _ => h i

lemma popMany (h : s.Related R t) (count : Nat) :
    (s.popMany count).2.Related R (t.popMany count).2 := by
  intro i
  rw [view_popMany, view_popMany]
  exact h _

lemma insertAt {x y : Item} (h : s.Related R t) (hxy : R x y) (n : Nat) :
    (s.insertAt n x).Related R (t.insertAt n y) := by
  intro i
  rw [view_insertAt, view_insertAt]
  split
  · exact h _
  · split
    · exact hxy
    · exact h _

lemma reverse (h : s.Related R t) (n : Nat) : (s.reverse n).Related R (t.reverse n) := by
  intro i
  rw [view_reverse, view_reverse]
  split
  · exact h _
  · exact h _

/-- Cleared stacks are related, since all that is left of them is unknown on both sides. -/
lemma clear (s t : EvaluationStack) (hR : ∀ i j, R (extension i) (extension j)) :
    s.clear.Related R t.clear := by
  intro i
  rw [view_clear, view_clear, view_of_le (Nat.le_add_right _ _), view_of_le (Nat.le_add_right _ _)]
  exact hR _ _

end EvaluationStack.Related

/-! ## Variables -/

/-- Where a known item is loaded from the first variables, an item that it approximates is loaded
from the second ones. -/
def Variables.Approximates (ρ : Renaming) (u v : Variables) : Prop :=
  ∀ i x, u.load i = .ok x → x.known? ≠ none → ∃ y, v.load i = .ok y ∧ x.Approximates ρ y

namespace Variables

/-- Storing to a variable changes what is loaded from it, and from no other variable. -/
lemma load_store {v v' : Variables} {i j : Nat} {x : Item} (h : v.store i x = .ok v') :
    v'.load j = if j = i then .ok x else v.load j := by
  obtain ⟨kind, state⟩ := v
  cases state with
  | uninitialized stored =>
    cases h
    simp only [load, SortedMap.find?_insert]
    split <;> simp
  | initialized items =>
    obtain ⟨slot, hslot, hreturn⟩ := except_bind_eq_ok.1 h
    cases hreturn
    unfold Slot.store at hslot
    split at hslot
    · next hi =>
      cases hslot
      simp only [load, Slot.load, Slot.outOfRange, Slot.length] at hi ⊢
      by_cases hj : j = i
      · subst hj
        simp [hi]
      · simp [hj, Ne.symm hj]
    · cases hslot

/-- The variables that are initialized hold the given values. -/
lemma load_allocateWith {v v' : Variables} {items : List Item} {i : Nat} {x : Item}
    (h : v.allocateWith items = .ok v') : v'.load i = .ok x ↔ items[i]? = some x := by
  unfold allocateWith at h
  split at h
  · cases h
  · cases h
    simp only [load, Slot.load]
    split <;> simp_all

namespace Approximates

variable {u v u' v' : Variables}

lemma mono (h : u.Approximates ρ v) (hρ : ρ ≤ ρ') : u.Approximates ρ' v := by
  intro i x hx hknown
  obtain ⟨y, hy, hxy⟩ := h i x hx hknown
  exact ⟨y, hy, hxy.mono hρ⟩

/-- Variables that nothing has been stored to approximate all variables. -/
lemma of_untouched (kind : SlotKind) (v : Variables) : (untouched kind).Approximates ρ v := by
  intro i x hx hknown
  simp only [load, untouched, SortedMap.find?_empty, Option.getD_none] at hx
  cases hx
  exact absurd rfl hknown

/-- Items loaded from the same variable approximate each other. -/
lemma load {i : Nat} {x y : Item} (h : u.Approximates ρ v) (hx : u.load i = .ok x)
    (hy : v.load i = .ok y) : x.Approximates ρ y := by
  by_cases hknown : x.known? = none
  · exact .of_symbolic hknown y
  · obtain ⟨_, hy', hxy⟩ := h i x hx hknown
    cases hy.symm.trans hy'
    exact hxy

/-- Storing items of which the first approximates the second keeps the relation. -/
lemma store {i : Nat} {x y : Item} (h : u.Approximates ρ v) (hxy : x.Approximates ρ y)
    (hu : u.store i x = .ok u') (hv : v.store i y = .ok v') : u'.Approximates ρ v' := by
  intro j z hz hknown
  rw [load_store hu] at hz
  rw [load_store hv]
  split at hz
  · next hj =>
    cases hz
    exact ⟨y, by rw [if_pos hj], hxy⟩
  · next hj =>
    rw [if_neg hj]
    exact h j z hz hknown

/-- Variables that are initialized with related values are related. -/
lemma allocateWith {xs ys : List Item} (hxy : List.Forall₂ (Item.Approximates ρ) xs ys)
    (hu : u.allocateWith xs = .ok u') (hv : v.allocateWith ys = .ok v') :
    u'.Approximates ρ v' := by
  intro i x hx _
  rw [load_allocateWith hu] at hx
  obtain ⟨hi, rfl⟩ := List.getElem?_eq_some_iff.1 hx
  have hi' : i < ys.length := hxy.length_eq ▸ hi
  exact ⟨ys[i], (load_allocateWith hv).2 (List.getElem?_eq_getElem hi'), hxy.get hi hi'⟩

end Approximates

end Variables

/-! ## Worlds, frames and states -/

/-- The world of a machine that knows less, and that of the machine that knows more. -/
structure World.Simulates (ρ : Renaming) (w w' : World) : Prop where
  /-- The worlds have the same script. -/
  script : w'.script = w.script
  /-- The evaluation stacks are related. -/
  stack : w.stack.Approximates ρ w'.stack
  /-- The static fields are related. -/
  statics : w.statics.Approximates ρ w'.statics
  /-- The heaps are related. -/
  heap : w.heap.Simulates ρ w'.heap

/-- Frames of the first world at the same place. -/
structure Frame.Approximates (ρ : Renaming) (f g : Frame) : Prop where
  /-- The frame belongs to the first world. -/
  first : f.world = 0
  /-- The frames belong to worlds of the same index. -/
  world : g.world = f.world
  /-- The frames stand at the same offset. -/
  position : g.position = f.position
  /-- The frames return as many values. -/
  returnCount : g.returnCount = f.returnCount
  /-- The local variables are related. -/
  locals : f.locals.Approximates ρ g.locals
  /-- The arguments are related. -/
  arguments : f.arguments.Approximates ρ g.arguments
  /-- The frames are inside the same try blocks. -/
  tries : g.tries = f.tries

/-- The state of a machine that knows less, and that of the machine that knows more.  There is one
world on either side. -/
structure State.Simulates (ρ : Renaming) (s t : State) : Prop where
  /-- The first state has one world. -/
  size : s.worlds.size = 1
  /-- The second state has one world. -/
  size' : t.worlds.size = 1
  /-- The worlds are related. -/
  world : (s.worldAt 0).Simulates ρ (t.worldAt 0)
  /-- The frames are related one by one. -/
  frames : List.Forall₂ (Frame.Approximates ρ) s.frames t.frames
  /-- The machines have come as far. -/
  status : t.status = s.status
  /-- A jump is marked on both sides or on neither. -/
  jumping : t.jumping = s.jumping
  /-- An exception is pending on both sides or on neither. -/
  exception : Option.Rel (Item.Approximates ρ) s.exception t.exception

namespace State.Simulates

variable {s t : State}

/-- There are as many frames on either side. -/
lemma depth (h : s.Simulates ρ t) : t.depth = s.depth :=
  h.frames.length_eq.symm

/-- The frames stand at the same offsets. -/
lemma positions (h : s.Simulates ρ t) :
    t.frames.map Frame.position = s.frames.map Frame.position := by
  have hframes := h.frames
  generalize s.frames = fs at hframes
  generalize t.frames = gs at hframes
  induction hframes with
  | nil => rfl
  | cons hfg _ ih => rw [List.map_cons, List.map_cons, hfg.position, ih]

end State.Simulates

end SymbolicScript
