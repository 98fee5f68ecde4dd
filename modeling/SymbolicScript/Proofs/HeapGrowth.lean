import SymbolicScript.Heap.Conversion
import SymbolicScript.Heap.Copy
import SymbolicScript.Proofs.HeapAccess

/-!
# Heaps that grow

Objects are never removed from a heap.  A later heap may still have other objects behind old
handles, since elements and bytes can be changed, and so what is kept has to be said: all objects
(`Heap.Extends`), or those that are frozen (`Heap.KeepsFrozen`).  Both are cases of one relation,
with a predicate for the objects that are kept (`Heap.Keeps`).

Allocating keeps everything.  The operations that change an object in its place fail for a frozen
one, and freezing it again makes no difference to it.
-/

namespace SymbolicScript

namespace Heap

/-- The objects of a heap that satisfy the predicate are still the same in a later one. -/
def Keeps (p : HeapObject → Prop) (base heap : Heap) : Prop :=
  ∀ (handle : Nat) (object : HeapObject), base.objects[handle]? = some object → p object →
    heap.objects[handle]? = some object

/-- All objects are still the same. -/
def Extends (base heap : Heap) : Prop :=
  base.Keeps (fun _ => True) heap

/-- All frozen objects are still the same. -/
def KeepsFrozen (base heap : Heap) : Prop :=
  base.Keeps (fun object => object.isReadOnly = true) heap

variable {p q : HeapObject → Prop} {base heap heap' : Heap} {handle : Nat}

namespace Keeps

lemma refl (heap : Heap) : heap.Keeps p heap :=
  fun _ _ hobject _ => hobject

lemma trans (h : base.Keeps p heap) (h' : heap.Keeps p heap') : base.Keeps p heap' :=
  fun handle object hobject hp => h' handle object (h handle object hobject hp) hp

/-- Fewer objects may be asked for. -/
lemma of_imp (h : base.Keeps p heap) (hqp : ∀ object, q object → p object) : base.Keeps q heap :=
  fun handle object hobject hq => h handle object hobject (hqp object hq)

/-- Allocating keeps what has been there. -/
lemma add (h : base.Keeps p heap) (object : HeapObject) : base.Keeps p (heap.add object) := by
  intro k old hold hp
  have hkept := h k old hold hp
  rw [getElem?_add_of_lt (lt_size_of_object hkept)]
  exact hkept

/-- Replacing an object that need not be kept. -/
lemma put (h : base.Keeps p heap) {object : HeapObject}
    (hnew : ∀ old, base.objects[handle]? = some old → ¬p old) :
    base.Keeps p (heap.put handle object) := by
  intro k old hold hp
  have hne : k ≠ handle := by
    rintro rfl
    exact hnew old hold hp
  rw [getElem?_put_of_ne hne]
  exact h k old hold hp

end Keeps

namespace Extends

lemma refl (heap : Heap) : heap.Extends heap :=
  Keeps.refl heap

/-- An object that is there stays there. -/
lemma getElem? (h : base.Extends heap) {object : HeapObject}
    (hobject : base.objects[handle]? = some object) : heap.objects[handle]? = some object :=
  h handle object hobject trivial

/-- Where everything is kept, the frozen objects are. -/
lemma keepsFrozen (h : base.Extends heap) : base.KeepsFrozen heap :=
  h.of_imp fun _ _ => trivial

lemma add (h : base.Extends heap) (object : HeapObject) : base.Extends (heap.add object) :=
  Keeps.add h object

/-- No object has been lost. -/
lemma size_le (h : base.Extends heap) : base.size ≤ heap.size := by
  by_contra hle
  have hlt : heap.size < base.objects.size := Nat.lt_of_not_le hle
  exact Nat.lt_irrefl _ (lt_size_of_object (h.getElem? (Array.getElem?_eq_getElem hlt)))

/-- Replacing an object that has been allocated since. -/
lemma put (h : base.Extends heap) (hfresh : base.size ≤ handle) (object : HeapObject) :
    base.Extends (heap.put handle object) :=
  Keeps.put h fun _ hold => absurd (lt_size_of_object hold) (Nat.not_lt.2 hfresh)

/-- Changing the elements of a compound that has been allocated since. -/
lemma modifyItems {change : List Item → Except ExecutionError (List Item)}
    (h : base.Extends heap) (hfresh : base.size ≤ handle)
    (hheap : heap.modifyItems handle change = .ok heap') : base.Extends heap' := by
  obtain ⟨kind, items, changed, -, -, rfl⟩ := modifyItems_eq_ok.1 hheap
  exact h.put hfresh _

/-- Freezing an object that has been allocated since. -/
lemma freeze (h : base.Extends heap) (hfresh : base.size ≤ handle)
    (hheap : heap.freeze handle = .ok heap') : base.Extends heap' := by
  obtain ⟨object, -, rfl⟩ := freeze_eq_ok.1 hheap
  exact h.put hfresh _

end Extends

/-! ## Conversions -/

/-- What converting a plain value to another type can give: a primitive value on the same heap, or a
new object with the bytes or elements that the value has. -/
inductive Converted (heap : Heap) (value : Item) : Item × Heap → Prop
  /-- A truth value. -/
  | boolean (truth : Bool) : Converted heap value (.constant (.boolean truth), heap)
  /-- The integer that the value counts as. -/
  | integer {number : Option Int} (hnumber : value.toInteger? = .ok number) :
    Converted heap value (.constant (.integer (number.getD 0)), heap)
  /-- The integer that the bytes of a buffer denote. -/
  | bufferInteger {bytes : Bytes} (hlength : bytes.length ≤ Limits.integerBytes) :
    Converted heap value (.constant (.integer (TwosComplement.toInt bytes)), heap)
  /-- The bytes of the value. -/
  | byteString {bytes : Option Bytes} (hbytes : heap.bytesOf value = .ok bytes) :
    Converted heap value (.constant (.byteString (bytes.getD [])), heap)
  /-- A new buffer with the bytes of the value. -/
  | buffer {bytes : Option Bytes} (hbytes : heap.bytesOf value = .ok bytes) :
    Converted heap value (heap.newBuffer (bytes.getD []))
  /-- A new compound with the elements of another one. -/
  | compound (kind : CompoundKind) {handle : Nat} {items : List Item}
    (hitems : heap.items handle = .ok items) : Converted heap value (heap.newCompound kind items)

lemma converted_of_convertKnown {value : Item} {type : ItemType} {produced : Item × Heap}
    (h : heap.convertKnown value type = .ok produced) : heap.Converted value produced := by
  unfold convertKnown at h
  -- The cases are those of the definition, grouped by what is produced.
  split at h
  case h_1 | h_16 => cases h
  case h_2 =>
    obtain ⟨truth, -, hproduced⟩ := except_bind_eq_ok.1 h
    cases hproduced
    exact .boolean _
  case h_3 | h_4 | h_5 =>
    obtain ⟨number, hnumber, hproduced⟩ := except_bind_eq_ok.1 h
    cases hproduced
    exact .integer hnumber
  case h_6 =>
    obtain ⟨bytes, -, hrest⟩ := except_bind_eq_ok.1 h
    obtain ⟨number, hnumber, hproduced⟩ := except_bind_eq_ok.1 hrest
    cases hproduced
    unfold bufferInteger at hnumber
    split at hnumber
    · next hlength =>
      cases hnumber
      exact .bufferInteger hlength
    · cases hnumber
  case h_7 | h_8 | h_9 | h_10 =>
    obtain ⟨bytes, hbytes, hproduced⟩ := except_bind_eq_ok.1 h
    cases hproduced
    exact .byteString hbytes
  case h_11 | h_12 | h_13 =>
    obtain ⟨bytes, hbytes, hproduced⟩ := except_bind_eq_ok.1 h
    cases hproduced
    exact .buffer hbytes
  case h_14 | h_15 =>
    obtain ⟨items, hitems, hproduced⟩ := except_bind_eq_ok.1 h
    cases hproduced
    exact .compound _ hitems

/-- A conversion changes no object. -/
lemma Converted.extends {value : Item} {produced : Item × Heap}
    (h : heap.Converted value produced) : heap.Extends produced.2 := by
  cases h with
  | boolean | integer | bufferInteger | byteString => exact .refl heap
  | buffer | compound => exact (Extends.refl heap).add _

/-- Converting an item gives the item, an unknown or what converting its value gives. -/
lemma convert_eq_ok {id : Nat} {x : Item} {type : ItemType} {produced : Item × Heap}
    (h : heap.convert id x type = .ok produced) :
    produced = (x, heap) ∨ produced = (.unknown type (.fresh id), heap) ∨
      ∃ value, x.known? = some value ∧ heap.Converted value produced := by
  unfold convert at h
  split at h
  · cases h
    exact .inr (.inl rfl)
  · next value hknown =>
    split at h
    · cases h
      exact .inl rfl
    · exact .inr (.inr ⟨value, hknown, converted_of_convertKnown h⟩)

/-- Converting an item changes no object. -/
lemma extends_of_convert {id : Nat} {x : Item} {type : ItemType} {produced : Item × Heap}
    (h : heap.convert id x type = .ok produced) : heap.Extends produced.2 := by
  rcases convert_eq_ok h with rfl | rfl | ⟨value, -, hconverted⟩
  · exact .refl heap
  · exact .refl heap
  · exact hconverted.extends

/-! ## Frozen objects -/

lemma KeepsFrozen.refl (heap : Heap) : heap.KeepsFrozen heap :=
  Keeps.refl heap

/-- Elements are changed in a compound only that is not frozen. -/
lemma keepsFrozen_of_modifyItems {change : List Item → Except ExecutionError (List Item)}
    (h : heap.modifyItems handle change = .ok heap') : heap.KeepsFrozen heap' := by
  obtain ⟨kind, items, changed, hobject, -, rfl⟩ := modifyItems_eq_ok.1 h
  refine (Keeps.refl heap).put fun old hold => ?_
  rw [hobject] at hold
  cases hold
  exact Bool.false_ne_true

/-- Bytes are changed in a buffer only, which is never frozen. -/
lemma keepsFrozen_of_modifyBytes {change : Bytes → Except ExecutionError Bytes}
    (h : heap.modifyBytes handle change = .ok heap') : heap.KeepsFrozen heap' := by
  obtain ⟨bytes, changed, hobject, -, rfl⟩ := modifyBytes_eq_ok.1 h
  refine (Keeps.refl heap).put fun old hold => ?_
  rw [hobject] at hold
  cases hold
  exact Bool.false_ne_true

/-- A frozen object stays the same when it is frozen again. -/
lemma frozen_of_isReadOnly {object : HeapObject} (h : object.isReadOnly = true) :
    object.frozen = object := by
  cases object with
  | buffer bytes => rfl
  | compound kind items readOnly =>
    have hreadOnly : readOnly = true := h
    rw [hreadOnly]
    rfl

/-- Freezing an object makes no difference to those that are frozen. -/
lemma keepsFrozen_of_freeze (h : heap.freeze handle = .ok heap') : heap.KeepsFrozen heap' := by
  obtain ⟨object, hobject, rfl⟩ := freeze_eq_ok.1 h
  intro k old hold hfrozen
  by_cases heq : k = handle
  · subst heq
    rw [hobject] at hold
    cases hold
    rw [getElem?_put_self (lt_size_of_object hobject), frozen_of_isReadOnly hfrozen]
  · rw [getElem?_put_of_ne heq]
    exact hold

end Heap

end SymbolicScript
