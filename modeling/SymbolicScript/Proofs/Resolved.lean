import Mathlib.Tactic.Common
import SymbolicScript.Heap.Conversion
import SymbolicScript.Heap.Equality
import SymbolicScript.Semantics.Control

/-!
# Computations that are never unresolved

A failure is unresolved if it says that an outcome is not known statically.  Only few computations
can fail in this way: those that demand a known operand, and opcodes or services without semantics.
This file collects the others.  `Resolved` is the property for results and `Exec.Resolved` for
computations on the state; both compose along `do` blocks.
-/

namespace SymbolicScript

variable {α β : Type}

/-- If the result is a failure, it is not an unresolved one. -/
def Resolved (result : Except ExecutionError α) : Prop :=
  ∀ e, result = .error e → e.isUnresolved = false

namespace Resolved

@[simp] lemma ok (a : α) : Resolved (.ok a) := by
  rintro e ⟨⟩

lemma error {e : ExecutionError} (h : e.isUnresolved = false) :
    Resolved (.error e : Except ExecutionError α) := by
  rintro _ ⟨⟩
  exact h

/-- A sequence is resolved if its parts are. -/
lemma bind {x : Except ExecutionError α} {k : α → Except ExecutionError β} (hx : Resolved x)
    (hk : ∀ a, x = .ok a → Resolved (k a)) : Resolved (x >>= k) := by
  cases x with
  | ok a => exact hk a rfl
  | error e => exact error (hx e rfl)

lemma map {x : Except ExecutionError α} (f : α → β) (hx : Resolved x) : Resolved (x.map f) := by
  cases x with
  | ok a => exact ok _
  | error e => exact error (hx e rfl)

lemma ite {c : Prop} [Decidable c] {x y : Except ExecutionError α} (hx : c → Resolved x)
    (hy : ¬c → Resolved y) : Resolved (if c then x else y) := by
  split
  · next h => exact hx h
  · next h => exact hy h

end Resolved

/-! ## Operands of instructions -/

namespace Instruction

variable (i : Instruction)

lemma token_resolved (start width : Nat) : Resolved (i.token start width) :=
  .ite (fun _ => .ok _) fun _ => .error rfl

lemma signedToken_resolved (start width : Nat) : Resolved (i.signedToken start width) :=
  (i.token_resolved start width).map _

lemma unsignedToken_resolved (start width : Nat) : Resolved (i.unsignedToken start width) :=
  (i.token_resolved start width).map _

lemma branchTargets_resolved : Resolved i.branchTargets := by
  unfold branchTargets
  split
  · exact .ok _
  · exact (i.signedToken_resolved _ _).bind fun _ _ => .ok _
  · exact (i.signedToken_resolved _ _).bind fun _ _ =>
      (i.signedToken_resolved _ _).bind fun _ _ => .ok _

lemma target_resolved : Resolved i.target := by
  refine i.branchTargets_resolved.bind fun targets _ => ?_
  cases targets with
  | nil => exact .error rfl
  | cons target _ => exact .ok _

end Instruction

/-! ## Items and the heap -/

namespace Item

lemma toBoolean?_resolved (x : Item) : Resolved x.toBoolean? := by
  unfold toBoolean?
  split
  case h_5 => exact .ite (fun _ => .ok _) fun _ => .error rfl
  all_goals exact .ok _

lemma toInteger?_resolved (x : Item) : Resolved x.toInteger? := by
  unfold toInteger?
  split
  case h_4 => exact .ite (fun _ => .ok _) fun _ => .error rfl
  case h_5 => exact .error rfl
  all_goals exact .ok _

end Item

namespace Heap

variable (heap : Heap)

lemma object_resolved (handle : Nat) : Resolved (heap.object handle) := by
  unfold object
  split
  · exact .ok _
  · exact .error rfl

lemma items_resolved (handle : Nat) : Resolved (heap.items handle) := by
  refine (heap.object_resolved handle).bind fun object _ => ?_
  cases object with
  | buffer _ => exact .error rfl
  | compound _ _ _ => exact .ok _

lemma bytes_resolved (handle : Nat) : Resolved (heap.bytes handle) := by
  refine (heap.object_resolved handle).bind fun object _ => ?_
  cases object with
  | buffer _ => exact .ok _
  | compound _ _ _ => exact .error rfl

lemma bytesOf_resolved (x : Item) : Resolved (heap.bytesOf x) := by
  unfold bytesOf
  split
  case h_3 => exact (heap.bytes_resolved _).map _
  case h_6 => exact .error rfl
  all_goals exact .ok _

lemma bufferInteger_resolved (bytes : Bytes) : Resolved (bufferInteger bytes) :=
  .ite (fun _ => .ok _) fun _ => .error rfl

lemma convertKnown_resolved (value : Item) (target : ItemType) :
    Resolved (heap.convertKnown value target) := by
  unfold convertKnown
  split
  · exact .error rfl
  · exact (Item.toBoolean?_resolved _).bind fun _ _ => .ok _
  · exact (Item.toInteger?_resolved _).bind fun _ _ => .ok _
  · exact (Item.toInteger?_resolved _).bind fun _ _ => .ok _
  · exact (Item.toInteger?_resolved _).bind fun _ _ => .ok _
  · exact (heap.bytes_resolved _).bind fun _ _ => (bufferInteger_resolved _).bind fun _ _ => .ok _
  case h_14 => exact (heap.items_resolved _).bind fun _ _ => .ok _
  case h_15 => exact (heap.items_resolved _).bind fun _ _ => .ok _
  case h_16 => exact .error rfl
  all_goals exact (heap.bytesOf_resolved _).bind fun _ _ => .ok _

lemma convert_resolved (id : Nat) (x : Item) (target : ItemType) :
    Resolved (heap.convert id x target) := by
  unfold convert
  split
  · exact .ok _
  · exact .ite (fun _ => .ok _) fun _ => heap.convertKnown_resolved _ _

lemma comparePairs_resolved (seen : List (Nat × Nat)) (uncertain : Bool)
    (pending : List (Nat × Nat)) : Resolved (heap.comparePairs seen uncertain pending) := by
  fun_induction comparePairs heap seen uncertain pending with
  | case1 => exact .ok _
  | case2 _ _ _ _ _ _ ih => exact ih
  | case3 _ _ _ _ _ _ e hx => exact .error (heap.items_resolved _ e hx)
  | case4 _ _ _ _ _ _ _ e _ hy => exact .error (heap.items_resolved _ e hy)
  | case5 => exact .ok _
  | case6 => exact .ok _
  | case7 _ _ _ _ _ _ _ _ _ _ _ _ _ _ ih => exact ih

lemma equals_resolved (a b : Item) : Resolved (heap.equals a b) := by
  unfold equals
  split
  · exact heap.comparePairs_resolved _ _ _
  · exact .ok _
  · exact .ok _

end Heap

namespace Variables

variable (v : Variables)

lemma load_resolved (index : Nat) : Resolved (v.load index) := by
  unfold load
  split
  · exact .ok _
  · unfold Slot.load
    split
    · exact .ok _
    · exact .error rfl

lemma store_resolved (index : Nat) (x : Item) : Resolved (v.store index x) := by
  unfold store
  split
  · exact .ok _
  · exact Resolved.bind (.ite (fun _ => .ok _) fun _ => .error rfl) fun _ _ => .ok _

lemma allocateWith_resolved (items : List Item) : Resolved (v.allocateWith items) :=
  .ite (fun _ => .error rfl) fun _ => .ok _

end Variables

lemma Frame.seek_resolved (f : Frame) (script : Script) (target : Int) :
    Resolved (f.seek script target) :=
  .ite (fun _ => .ok _) fun _ => .error rfl

lemma Semantics.handlerTarget_resolved (i : Instruction) (relative : Int) :
    Resolved (handlerTarget i relative) :=
  .ite (fun _ => .ok _) fun _ => .ite (fun _ => .ok _) fun _ => .error rfl

/-- Attaching an offset to a failure and dropping it again changes nothing. -/
lemma Resolved.unlocate {x : Except ExecutionError α} (hx : Resolved x) (offset : Nat) :
    Resolved ((locate offset x).mapError Located.payload) := by
  cases x with
  | ok a => exact .ok a
  | error e => exact .error (hx e rfl)

/-! ## Computations on the state -/

namespace Exec

/-- If the computation fails, it is not unresolved. -/
def Resolved {σ : Type} (x : EStateM ExecutionError σ α) : Prop :=
  ∀ s e s', x s = .error e s' → e.isUnresolved = false

namespace Resolved

section

variable {σ : Type}

lemma pure (a : α) : Resolved (Pure.pure a : EStateM ExecutionError σ α) := by
  rintro s e s' ⟨⟩

/-- Reading the state never fails. -/
lemma get : Resolved (MonadState.get : EStateM ExecutionError σ σ) := by
  rintro s e s' ⟨⟩

/-- Changing the state never fails. -/
lemma modify (change : σ → σ) : Resolved (modify change : EStateM ExecutionError σ Unit) := by
  rintro s e s' ⟨⟩

lemma throw {e : ExecutionError} (h : e.isUnresolved = false) :
    Resolved (MonadExcept.throw e : EStateM ExecutionError σ α) := by
  rintro s _ _ ⟨⟩
  exact h

/-- A sequence is resolved if its parts are. -/
lemma bind {x : EStateM ExecutionError σ α} {k : α → EStateM ExecutionError σ β}
    (hx : Resolved x) (hk : ∀ a, Resolved (k a)) : Resolved (x >>= k) := by
  intro s e s' h
  simp only [Bind.bind, EStateM.bind] at h
  cases hs : x s with
  | ok a s₁ =>
    rw [hs] at h
    exact hk a s₁ e s' h
  | error e₁ s₁ =>
    rw [hs] at h
    cases h
    exact hx s _ _ hs

lemma ite {c : Prop} [Decidable c] {x y : EStateM ExecutionError σ α} (hx : Resolved x)
    (hy : Resolved y) : Resolved (if c then x else y) := by
  split
  · exact hx
  · exact hy

/-- A check that fails for a resolved reason leaves the rest resolved. -/
lemma check {c : Prop} [Decidable c] {e : ExecutionError}
    {k : Unit → EStateM ExecutionError σ α} (he : e.isUnresolved = false)
    (hk : ∀ u, Resolved (k u)) : Resolved (if c then MonadExcept.throw e >>= k else k ()) :=
  ((throw he).bind hk).ite (hk ())

end

lemma lift {x : Except ExecutionError α} (hx : SymbolicScript.Resolved x) :
    Resolved (liftM x : Exec α) := by
  rintro s e s' h
  cases x with
  | ok a => cases h
  | error e' =>
    cases h
    exact hx _ rfl

/-- A computation that only looks at the current frame fails at most for the lack of one. -/
lemma onWorld (change : World → α × World) : Resolved (Exec.onWorld change) := by
  intro s e s' h
  unfold Exec.onWorld at h
  cases hs : s.frames with
  | nil =>
    rw [hs] at h
    cases h
    rfl
  | cons f rest =>
    rw [hs] at h
    cases h

lemma setHeap (heap : Heap) : Resolved (Exec.setHeap heap) :=
  onWorld fun w => ((), { w with heap })

lemma world : Resolved Exec.world := by
  intro s e s' h
  unfold Exec.world at h
  cases hs : s.frames with
  | nil =>
    rw [hs] at h
    cases h
    rfl
  | cons f rest =>
    rw [hs] at h
    cases h

lemma frame : Resolved Exec.frame := by
  intro s e s' h
  unfold Exec.frame at h
  cases hs : s.frames with
  | nil =>
    rw [hs] at h
    cases h
    rfl
  | cons f rest =>
    rw [hs] at h
    cases h

lemma setFrame (f : Frame) : Resolved (Exec.setFrame f) := by
  intro s e s' h
  unfold Exec.setFrame at h
  cases hs : s.frames with
  | nil =>
    rw [hs] at h
    cases h
    rfl
  | cons f rest =>
    rw [hs] at h
    cases h

lemma unloadFrame : Resolved Exec.unloadFrame := by
  intro s e s' h
  unfold Exec.unloadFrame at h
  cases hs : s.frames with
  | nil =>
    rw [hs] at h
    cases h
    rfl
  | cons f rest =>
    rw [hs] at h
    cases h

end Resolved

lemma loadFrame_resolved (config : Config) (f : Frame) : Resolved (loadFrame config f) :=
  .bind .get fun _ => .check rfl fun _ => .modify _

lemma call_resolved (config : Config) (target : Int) : Resolved (call config target) := by
  refine .bind .frame fun _ => .bind .world fun _ =>
    .ite (.bind (.lift ?_) fun _ => ?_) (.throw rfl)
  · exact (Frame.seek_resolved _ _ _).unlocate _
  · exact loadFrame_resolved _ _

lemma ret_resolved : Resolved ret := by
  refine .bind .unloadFrame fun _ => .bind .get fun _ => ?_
  have hrest : ∀ u : Unit, Resolved (do
      modify fun s => if s.frames.isEmpty then { s with status := .halted } else s
      markJump) := fun _ => .bind (.modify _) fun _ => .modify _
  exact .ite (hrest ()) (.check rfl fun _ => .bind (.modify _) fun _ => hrest ())

end Exec

/-! ## Copies -/

namespace Heap

lemma lookUp_resolved {find : Heap → Except ExecutionError α} (h : ∀ heap, Resolved (find heap)) :
    Exec.Resolved (lookUp find) := by
  intro s e s' herror
  unfold lookUp at herror
  cases hfind : find s.heap with
  | ok a =>
    rw [hfind] at herror
    cases herror
  | error e' =>
    rw [hfind] at herror
    cases herror
    exact h _ _ hfind

lemma onHeap_resolved {change : Heap → Except ExecutionError Heap}
    (h : ∀ heap, Resolved (change heap)) : Exec.Resolved (onHeap change) := by
  intro s e s' herror
  unfold onHeap at herror
  cases hchange : change s.heap with
  | ok a =>
    rw [hchange] at herror
    cases herror
  | error e' =>
    rw [hchange] at herror
    cases herror
    exact h _ _ hchange

lemma modifyItems_resolved (heap : Heap) (handle : Nat)
    {change : List Item → Except ExecutionError (List Item)}
    (h : ∀ items, Resolved (change items)) :
    Resolved (heap.modifyItems handle change) := by
  refine (heap.object_resolved handle).bind fun object _ => ?_
  cases object with
  | buffer _ => exact .error rfl
  | compound kind items readOnly =>
    cases readOnly with
    | true => exact .error rfl
    | false => exact (h items).bind fun _ _ => .ok _

lemma freeze_resolved (heap : Heap) (handle : Nat) : Resolved (heap.freeze handle) :=
  (heap.object_resolved handle).bind fun _ _ => .ok _

lemma itemFor_resolved (heap : Heap) (handle : Nat) : Resolved (heap.itemFor handle) :=
  (heap.object_resolved handle).bind fun _ _ => .ok _

/-- Beginning a copy never fails. -/
lemma beginCopy_resolved (source : Nat) (kind : CompoundKind) :
    Exec.Resolved (beginCopy source kind) := by
  rintro s e s' ⟨⟩

/-- Copying elements is never unresolved if copying sources is not. -/
lemma copyItems_resolved {freeze : Bool} {fuel : Nat}
    (hrec : ∀ source, Exec.Resolved (copyObject freeze fuel source)) (items : List Item) :
    Exec.Resolved (copyItems freeze fuel items) := by
  induction items with
  | nil =>
    rw [copyItems]
    exact .pure _
  | cons x rest ih =>
    rw [copyItems]
    cases x.structHandle? with
    | none => exact .bind (.pure _) fun _ => .bind ih fun _ => .pure _
    | some nested => exact .bind (hrec nested) fun _ => .bind ih fun _ => .pure _

/-- A copy is never unresolved. -/
lemma copyObject_resolved (freeze : Bool) (fuel source : Nat) :
    Exec.Resolved (copyObject freeze fuel source) := by
  induction fuel generalizing source with
  | zero =>
    rw [copyObject]
    exact .throw rfl
  | succ fuel ih =>
    rw [copyObject]
    refine .bind .get fun s => ?_
    cases s.copies.find? source with
    | some copy => exact lookUp_resolved fun heap => heap.itemFor_resolved copy
    | none =>
      refine .bind (lookUp_resolved fun heap => heap.object_resolved source) fun object => ?_
      cases object with
      | buffer _ => exact .pure _
      | compound kind items readOnly =>
        refine .bind (beginCopy_resolved source kind) fun copy => ?_
        refine .bind (copyItems_resolved ih items) fun copied => ?_
        refine .bind (onHeap_resolved fun heap => modifyItems_resolved heap copy fun _ => .ok _)
          fun _ => ?_
        cases freeze with
        | true =>
          exact .bind (onHeap_resolved fun heap => heap.freeze_resolved copy) fun _ => .pure _
        | false => exact .pure _

/-- What is stored in a compound is never unresolved. -/
lemma cloneStruct_resolved (heap : Heap) (x : Item) : Resolved (heap.cloneStruct x).1 := by
  unfold cloneStruct
  cases hx : x.structHandle? with
  | none => exact .ok _
  | some handle =>
    have hcopy : Exec.Resolved (deepCopy false x) := by
      unfold deepCopy
      split
      · exact .bind .get fun _ => copyObject_resolved _ _ _
      · exact .bind .get fun _ => copyObject_resolved _ _ _
      · exact .pure _
    simp only
    split
    · exact .ok _
    · next herror => exact .error (hcopy _ _ _ herror)

end Heap

/-- A direct call is never unresolved. -/
lemma Semantics.call_resolved (config : Config) (i : Instruction) :
    Exec.Resolved (Semantics.call config i) :=
  .bind (.lift i.target_resolved) fun _ => Exec.call_resolved config _

end SymbolicScript
