import SymbolicScript.Heap.Copy
import SymbolicScript.Proofs.HeapAccess
import SymbolicScript.Proofs.Maintained

/-!
# What copying maintains

A deep copy changes a heap in three ways only: it allocates an empty compound, it stores copied
elements in a compound that it has allocated itself, and it freezes such a compound.  An invariant
of heaps that survives these three survives the copy, whether the copy succeeds or fails half-way
(`Heap.CopyInvariant.copyObject`).  Nothing is assumed of the sources that are already copied: even
if they are remembered wrongly, copies are only stored where they have been allocated.
-/

namespace SymbolicScript

namespace Heap

open Exec (Maintains)

/-- An invariant of heaps that survives what a copy does, together with what is known of items and
of the lengths of compounds.  The copy allocates nothing below the handle `least`. -/
structure CopyInvariant (least : Nat) (I : Heap → Prop) (P : Item → Prop) (N : Nat → Prop) :
    Prop where
  /-- The number of elements of a compound, and the elements. -/
  elements : ∀ {heap : Heap} {handle : Nat} {kind : CompoundKind} {items : List Item}
    {readOnly : Bool}, I heap → heap.objects[handle]? = some (.compound kind items readOnly) →
      N items.length ∧ ∀ x ∈ items, P x
  /-- The items that refer to objects. -/
  item : ∀ (object : HeapObject) (handle : Nat), P (object.item handle)
  /-- Allocations are not below `least`. -/
  size : ∀ {heap : Heap}, I heap → least ≤ heap.size
  /-- Allocating an empty compound. -/
  allocate : ∀ {heap : Heap} (kind : CompoundKind), I heap → I (heap.add (.compound kind [] false))
  /-- Storing the elements of a copy. -/
  store : ∀ {heap heap' : Heap} {copy : Nat} {copied : List Item}, I heap → least ≤ copy →
    N copied.length → (∀ x ∈ copied, P x) →
      heap.modifyItems copy (fun _ => .ok copied) = .ok heap' → I heap'
  /-- Freezing a copy. -/
  freeze : ∀ {heap heap' : Heap} {copy : Nat}, I heap → least ≤ copy →
    heap.freeze copy = .ok heap' → I heap'

namespace CopyInvariant

variable {least : Nat} {I : Heap → Prop} {P : Item → Prop} {N : Nat → Prop}

/-- Looking something up changes nothing. -/
lemma maintains_lookUp {α : Type} {find : Heap → Except ExecutionError α} {Q : α → Prop}
    (h : ∀ heap a, I heap → find heap = .ok a → Q a) :
    Maintains (fun s : CopyState => I s.heap) (lookUp find) Q := by
  intro s hs
  unfold lookUp
  cases hfind : find s.heap with
  | ok a => exact ⟨hs, h _ a hs hfind⟩
  | error e => exact hs

/-- Changing the heap has to maintain the invariant where it succeeds. -/
lemma maintains_onHeap {change : Heap → Except ExecutionError Heap}
    (h : ∀ heap heap', I heap → change heap = .ok heap' → I heap') :
    Maintains (fun s : CopyState => I s.heap) (onHeap change) fun _ => True := by
  intro s hs
  unfold onHeap
  cases hchange : change s.heap with
  | ok heap => exact ⟨h _ heap hs hchange, trivial⟩
  | error e => exact hs

/-- Copying elements maintains the invariant if copying sources does, and gives as many elements. -/
lemma maintains_copyItems {freeze : Bool} {fuel : Nat}
    (hrec : ∀ source, Maintains (fun s : CopyState => I s.heap) (copyObject freeze fuel source) P)
    {items : List Item} (hitems : ∀ x ∈ items, P x) :
    Maintains (fun s : CopyState => I s.heap) (copyItems freeze fuel items)
      fun copied => copied.length = items.length ∧ ∀ x ∈ copied, P x := by
  induction items with
  | nil =>
    rw [copyItems]
    exact .pure ⟨rfl, List.forall_mem_nil _⟩
  | cons x rest ih =>
    obtain ⟨hx, hrest⟩ := List.forall_mem_cons.1 hitems
    have hcons : ∀ y : Item, P y → Maintains (fun s : CopyState => I s.heap)
        (do return y :: (← copyItems freeze fuel rest)) fun copied =>
          copied.length = (x :: rest).length ∧ ∀ x ∈ copied, P x := fun y hy =>
      (ih hrest).bind fun ys hys =>
        .pure ⟨congrArg (· + 1) hys.1, List.forall_mem_cons.2 ⟨hy, hys.2⟩⟩
    rw [copyItems]
    cases x.structHandle? with
    | none => exact (Maintains.pure hx).bind hcons
    | some nested => exact (hrec nested).bind hcons

variable (h : CopyInvariant least I P N)
include h

/-- A copy is begun where nothing has been allocated before. -/
lemma beginCopy (source : Nat) (kind : CompoundKind) :
    Maintains (fun s : CopyState => I s.heap) (Heap.beginCopy source kind) (least ≤ ·) :=
  fun _ hs => ⟨h.allocate kind hs, h.size hs⟩

/-- The item of an object that is there. -/
lemma itemFor (handle : Nat) :
    Maintains (fun s : CopyState => I s.heap) (lookUp (·.itemFor handle)) P :=
  maintains_lookUp fun _ _ _ hitem => by
    obtain ⟨object, -, hobject⟩ := except_bind_eq_ok.1 hitem
    cases hobject
    exact h.item object handle

/-- Storing the elements of a copy, and freezing it if asked to, maintains the invariant. -/
lemma finish (freeze : Bool) {copy : Nat} {copied : List Item} (hcopy : least ≤ copy)
    (hlength : N copied.length) (hcopied : ∀ x ∈ copied, P x) {x : Item} (hx : P x) :
    Maintains (fun s : CopyState => I s.heap) (do
      onHeap (·.modifyItems copy fun _ => .ok copied)
      if freeze then onHeap (Heap.freeze · copy)
      return x) P := by
  have hstore : Maintains (fun s : CopyState => I s.heap)
      (onHeap (·.modifyItems copy fun _ => .ok copied)) fun _ => True :=
    maintains_onHeap fun _ _ hheap => h.store hheap hcopy hlength hcopied
  refine hstore.bind fun _ _ => ?_
  cases freeze with
  | false => exact .pure hx
  | true =>
    have hfreeze : Maintains (fun s : CopyState => I s.heap) (onHeap (Heap.freeze · copy))
        fun _ => True := maintains_onHeap fun _ _ hheap => h.freeze hheap hcopy
    exact hfreeze.bind fun _ _ => .pure hx

/-- Copying an object maintains the invariant, whatever has been copied before. -/
theorem copyObject (freeze : Bool) (fuel source : Nat) :
    Maintains (fun s : CopyState => I s.heap) (Heap.copyObject freeze fuel source) P := by
  induction fuel generalizing source with
  | zero =>
    rw [Heap.copyObject]
    exact .throw _
  | succ fuel ih =>
    rw [Heap.copyObject]
    refine Maintains.get.bind fun s _ => ?_
    cases s.copies.find? source with
    | some copy => exact h.itemFor copy
    | none =>
      have hobject : Maintains (fun s : CopyState => I s.heap) (lookUp (·.object source))
          fun object => ∀ kind items readOnly, object = .compound kind items readOnly →
            N items.length ∧ ∀ x ∈ items, P x :=
        maintains_lookUp fun heap object hheap hfound kind items readOnly hcompound =>
          h.elements hheap (hcompound ▸ object_eq_ok.1 hfound)
      refine hobject.bind fun object hobject => ?_
      cases object with
      | buffer bytes => exact .pure (h.item (.buffer bytes) source)
      | compound kind items readOnly =>
        obtain ⟨hlength, hitems⟩ := hobject kind items readOnly rfl
        refine (h.beginCopy source kind).bind fun copy hcopy =>
          (maintains_copyItems ih hitems).bind fun copied hcopied => ?_
        exact h.finish freeze hcopy (hcopied.1 ▸ hlength) hcopied.2
          (h.item (.compound kind items readOnly) copy)

/-- A deep copy maintains the invariant. -/
theorem deepCopy (freeze : Bool) {x : Item} (hx : P x) :
    Maintains (fun s : CopyState => I s.heap) (Heap.deepCopy freeze x) P := by
  unfold Heap.deepCopy
  split
  · exact Maintains.get.bind fun _ _ => h.copyObject _ _ _
  · exact Maintains.get.bind fun _ _ => h.copyObject _ _ _
  · exact .pure hx

/-- So does what is stored when an item is put into a compound, also if the copy fails. -/
theorem cloneStruct {heap : Heap} (hheap : I heap) {x : Item} (hx : P x) :
    I (heap.cloneStruct x).2 ∧ ∀ y, (heap.cloneStruct x).1 = .ok y → P y := by
  unfold Heap.cloneStruct
  cases x.structHandle? with
  | none =>
    refine ⟨hheap, ?_⟩
    rintro _ ⟨⟩
    exact hx
  | some handle =>
    have hleaves := h.deepCopy false hx ⟨heap, .empty⟩ hheap
    simp only [EStateM.run]
    cases hrun : Heap.deepCopy false x ⟨heap, .empty⟩ with
    | ok y s =>
      rw [hrun] at hleaves
      refine ⟨hleaves.1, ?_⟩
      rintro _ ⟨⟩
      exact hleaves.2
    | error e s =>
      rw [hrun] at hleaves
      exact ⟨hleaves, nofun⟩

end CopyInvariant

end Heap

end SymbolicScript
