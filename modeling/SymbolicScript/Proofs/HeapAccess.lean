import SymbolicScript.Heap.Equality
import SymbolicScript.Proofs.Outcomes

/-!
# Access to the heap

The operations of the heap in terms of the objects behind its handles: what allocating and replacing
an object does to every handle, and when reading and changing an object succeeds.
-/

namespace SymbolicScript

namespace Heap

variable {heap heap' : Heap} {handle : Nat}

/-! ## Handles -/

/-- A handle that refers to an object lies below the size. -/
lemma lt_size_of_object {object : HeapObject} (h : heap.objects[handle]? = some object) :
    handle < heap.size := by
  by_contra hle
  rw [Array.getElem?_eq_none (Nat.le_of_not_lt hle)] at h
  cases h

/-- Allocating makes room for one object. -/
@[simp] lemma size_add (heap : Heap) (object : HeapObject) :
    (heap.add object).size = heap.size + 1 := by
  simp [add, size]

/-- Allocating gives the former size a meaning and changes no other handle. -/
lemma getElem?_add (heap : Heap) (object : HeapObject) (k : Nat) :
    (heap.add object).objects[k]? = if k = heap.size then some object else heap.objects[k]? := by
  unfold add size
  exact Array.getElem?_push

/-- Allocating does not change what an existing handle refers to. -/
lemma getElem?_add_of_lt {object : HeapObject} {k : Nat} (h : k < heap.size) :
    (heap.add object).objects[k]? = heap.objects[k]? := by
  rw [getElem?_add, if_neg (by omega)]

/-- Replacing an object allocates nothing. -/
@[simp] lemma size_put (heap : Heap) (handle : Nat) (object : HeapObject) :
    (heap.put handle object).size = heap.size := by
  simp [put, size]

/-- Replacing an object changes what its handle refers to. -/
lemma getElem?_put_self {object : HeapObject} (h : handle < heap.size) :
    (heap.put handle object).objects[handle]? = some object := by
  unfold size at h
  simp [put, h]

/-- Replacing an object changes no other handle. -/
lemma getElem?_put_of_ne {object : HeapObject} {k : Nat} (h : k ≠ handle) :
    (heap.put handle object).objects[k]? = heap.objects[k]? := by
  simp [put, Ne.symm h]

/-- What is known of all objects is known of all objects behind an allocation, if it is known of the
new one. -/
lemma forall_objects_add {P : HeapObject → Prop} {object : HeapObject}
    (h : ∀ (k : Nat) (old : HeapObject), heap.objects[k]? = some old → P old) (hobject : P object) :
    ∀ (k : Nat) (old : HeapObject), (heap.add object).objects[k]? = some old → P old := by
  intro k old hk
  rw [getElem?_add] at hk
  split at hk
  · cases hk
    exact hobject
  · exact h k old hk

/-- What is known of all objects is known of all objects behind a replacement, if it is known of the
one put in. -/
lemma forall_objects_put {P : HeapObject → Prop} {object : HeapObject}
    (h : ∀ (k : Nat) (old : HeapObject), heap.objects[k]? = some old → P old) (hobject : P object) :
    ∀ (k : Nat) (old : HeapObject), (heap.put handle object).objects[k]? = some old → P old := by
  intro k old hk
  by_cases heq : k = handle
  · subst heq
    have hlt := lt_size_of_object hk
    rw [size_put] at hlt
    rw [getElem?_put_self hlt] at hk
    cases hk
    exact hobject
  · rw [getElem?_put_of_ne heq] at hk
    exact h k old hk

/-! ## Reading -/

/-- An object can be read where its handle refers to it. -/
lemma object_eq_ok {object : HeapObject} :
    heap.object handle = .ok object ↔ heap.objects[handle]? = some object := by
  unfold Heap.object
  cases heap.objects[handle]? <;> simp

/-- The elements of a compound can be read. -/
lemma items_eq_ok {items : List Item} :
    heap.items handle = .ok items ↔
      ∃ kind readOnly, heap.objects[handle]? = some (.compound kind items readOnly) := by
  unfold Heap.items
  rw [except_bind_eq_ok]
  constructor
  · rintro ⟨object, hobject, hitems⟩
    cases object with
    | buffer _ => cases hitems
    | compound kind items' readOnly =>
      cases hitems
      exact ⟨kind, readOnly, object_eq_ok.1 hobject⟩
  · rintro ⟨kind, readOnly, hobject⟩
    exact ⟨_, object_eq_ok.2 hobject, rfl⟩

/-- The bytes of a buffer can be read. -/
lemma bytes_eq_ok {bytes : Bytes} :
    heap.bytes handle = .ok bytes ↔ heap.objects[handle]? = some (.buffer bytes) := by
  unfold Heap.bytes
  rw [except_bind_eq_ok]
  constructor
  · rintro ⟨object, hobject, hbytes⟩
    cases object with
    | buffer _ =>
      cases hbytes
      exact object_eq_ok.1 hobject
    | compound _ _ _ => cases hbytes
  · intro hobject
    exact ⟨_, object_eq_ok.2 hobject, rfl⟩

/-! ## Changing -/

/-- The elements of a compound that is not frozen can be changed. -/
lemma modifyItems_eq_ok {change : List Item → Except ExecutionError (List Item)} :
    heap.modifyItems handle change = .ok heap' ↔
      ∃ kind items changed, heap.objects[handle]? = some (.compound kind items false) ∧
        change items = .ok changed ∧ heap' = heap.put handle (.compound kind changed false) := by
  unfold Heap.modifyItems
  rw [except_bind_eq_ok]
  constructor
  · rintro ⟨object, hobject, hchange⟩
    rw [object_eq_ok] at hobject
    split at hchange
    · cases hchange
    · obtain ⟨changed, hchanged, hheap⟩ := except_bind_eq_ok.1 hchange
      cases hheap
      exact ⟨_, _, changed, hobject, hchanged, rfl⟩
    · cases hchange
  · rintro ⟨kind, items, changed, hobject, hchanged, rfl⟩
    exact ⟨_, object_eq_ok.2 hobject, except_bind_eq_ok.2 ⟨changed, hchanged, rfl⟩⟩

/-- The bytes of a buffer can be changed. -/
lemma modifyBytes_eq_ok {change : Bytes → Except ExecutionError Bytes} :
    heap.modifyBytes handle change = .ok heap' ↔
      ∃ bytes changed, heap.objects[handle]? = some (.buffer bytes) ∧
        change bytes = .ok changed ∧ heap' = heap.put handle (.buffer changed) := by
  unfold Heap.modifyBytes
  rw [except_bind_eq_ok]
  constructor
  · rintro ⟨bytes, hbytes, hchange⟩
    obtain ⟨changed, hchanged, hheap⟩ := except_bind_eq_ok.1 hchange
    cases hheap
    exact ⟨bytes, changed, bytes_eq_ok.1 hbytes, hchanged, rfl⟩
  · rintro ⟨bytes, changed, hbytes, hchanged, rfl⟩
    exact ⟨bytes, bytes_eq_ok.2 hbytes, except_bind_eq_ok.2 ⟨changed, hchanged, rfl⟩⟩

/-- Every object can be frozen. -/
lemma freeze_eq_ok :
    heap.freeze handle = .ok heap' ↔
      ∃ object, heap.objects[handle]? = some object ∧ heap' = heap.put handle object.frozen := by
  unfold Heap.freeze
  rw [except_bind_eq_ok]
  constructor
  · rintro ⟨object, hobject, hheap⟩
    cases hheap
    exact ⟨object, object_eq_ok.1 hobject, rfl⟩
  · rintro ⟨object, hobject, rfl⟩
    exact ⟨object, object_eq_ok.2 hobject, rfl⟩

/-- A known item has bytes if it can be taken as a byte string. -/
lemma exists_of_bytesOf {heap : Heap} {x v : Item} {bytes? : Option Bytes}
    (hv : x.known? = some v) (h : heap.bytesOf x = .ok bytes?) : ∃ bytes, bytes? = some bytes := by
  unfold bytesOf at h
  rw [hv] at h
  split at h
  · next hnone => cases hnone
  · cases h
    exact ⟨_, rfl⟩
  · obtain ⟨bytes, -, rfl⟩ := except_map_eq_ok.1 h
    exact ⟨bytes, rfl⟩
  · cases h
    exact ⟨_, rfl⟩
  · cases h
    exact ⟨_, rfl⟩
  · cases h

end Heap

end SymbolicScript
