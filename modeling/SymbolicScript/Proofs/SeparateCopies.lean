import SymbolicScript.Proofs.HeapSimulation
import SymbolicScript.Proofs.Maintained
import SymbolicScript.Proofs.StructCopies

/-!
# Stored structs share no struct with what was there

A struct that is put into a compound is stored as a copy.  This file shows that the copy is separate
(`Heap.StoresCopy`): all structs that are reached from it through struct fields have been allocated
with it.  So whatever is done later to objects that were there before does not show in the stored
struct, and whatever is done to the structs of the stored struct does not show in any object that
was there before.

The reason is that a copy never stores a struct element that it has not made itself
(`Heap.CopyState.Apart`).  Nothing is assumed of the heap.  Handles may dangle, and may come to
refer to a copy while it is made.  Where all handles are valid the stored struct is moreover an
exact copy.
-/

namespace SymbolicScript

/-- If the item is a struct, its handle is not below `least`. -/
def Item.StructFrom (least : Nat) (x : Item) : Prop :=
  ∀ handle, x.structHandle? = some handle → least ≤ handle

namespace Item

variable {least handle : Nat} {x : Item}

lemma structFrom_of_none (h : x.structHandle? = none) : x.StructFrom least := by
  intro handle hhandle
  rw [h] at hhandle
  cases hhandle

/-- The item of an object has the handle of the object, if it is a struct at all. -/
lemma structFrom_object (object : HeapObject) (h : least ≤ handle) :
    (object.item handle).StructFrom least := by
  cases object with
  | buffer bytes => exact structFrom_of_none rfl
  | compound kind items readOnly =>
    cases kind with
    | array => exact structFrom_of_none rfl
    | struct =>
      rintro _ ⟨⟩
      exact h

end Item

namespace Heap

open Exec (Leaves Maintains)

variable {heap grown heap' later : Heap} {least root k : Nat} {x stored : Item}

/-! ## What a copy stores -/

/-- The elements of the objects from `least` on are structs from `least` on, or no structs. -/
def Apart (heap : Heap) (least : Nat) : Prop :=
  ∀ (k : Nat) (kind : CompoundKind) (items : List Item) (readOnly : Bool), least ≤ k →
    heap.objects[k]? = some (.compound kind items readOnly) → ∀ x ∈ items, x.StructFrom least

/-- Nothing is demanded of a heap that ends there. -/
lemma apart_size (heap : Heap) : heap.Apart heap.size := by
  intro k kind items readOnly hle hobject
  exact absurd (lt_size_of_object hobject) (Nat.not_lt.2 hle)

/-- An empty compound may be allocated. -/
lemma Apart.add_empty (h : heap.Apart least) (kind : CompoundKind) :
    (heap.add (.compound kind [] false)).Apart least := by
  intro k kind' items readOnly hle hobject
  rw [getElem?_add] at hobject
  split at hobject
  · cases hobject
    exact List.forall_mem_nil _
  · exact h k kind' items readOnly hle hobject

/-- An object may be replaced, if its new elements are such structs or the object is an old one. -/
lemma Apart.put (h : heap.Apart least) {handle : Nat} {object : HeapObject}
    (hobject : least ≤ handle → ∀ kind items readOnly, object = .compound kind items readOnly →
      ∀ x ∈ items, x.StructFrom least) : (heap.put handle object).Apart least := by
  intro k kind items readOnly hle hfound
  by_cases heq : k = handle
  · subst heq
    have hlt := lt_size_of_object hfound
    rw [size_put] at hlt
    rw [getElem?_put_self hlt] at hfound
    exact hobject hle kind items readOnly (Option.some.inj hfound)
  · rw [getElem?_put_of_ne heq] at hfound
    exact h k kind items readOnly hle hfound

/-- What has been copied so far lies from `least` on, and apart from what lies below. -/
structure CopyState.Apart (least : Nat) (s : CopyState) : Prop where
  /-- Copies are allocated from `least` on. -/
  size : least ≤ s.heap.size
  /-- The copies that are remembered are there. -/
  copies : ∀ source copy, s.copies.find? source = some copy → least ≤ copy
  /-- The elements of the copies are apart. -/
  elements : s.heap.Apart least

/-- A copy is allocated from `least` on. -/
lemma apart_beginCopy (source : Nat) (kind : CompoundKind) :
    Maintains (CopyState.Apart least) (beginCopy source kind) (least ≤ ·) := by
  intro s hs
  refine ⟨⟨?_, fun source' copy hcopy => ?_, hs.elements.add_empty kind⟩, hs.size⟩
  · exact hs.size.trans (by rw [size_add]; omega)
  · simp only [SortedMap.find?_insert] at hcopy
    split at hcopy
    · cases hcopy
      exact hs.size
    · exact hs.copies source' copy hcopy

/-- Storing such elements keeps the copies apart. -/
lemma apart_store (copy : Nat) {copied : List Item} (hcopied : ∀ x ∈ copied, x.StructFrom least) :
    Maintains (CopyState.Apart least) (onHeap (·.modifyItems copy fun _ => .ok copied))
      fun _ => True := by
  intro s hs
  unfold onHeap
  beta_reduce
  cases hmodify : s.heap.modifyItems copy fun _ => .ok copied with
  | error e => exact hs
  | ok heap =>
    obtain ⟨kind, items, _, hobject, ⟨⟩, rfl⟩ := modifyItems_eq_ok.1 hmodify
    refine ⟨⟨?_, hs.copies, hs.elements.put ?_⟩, trivial⟩
    · rw [size_put]
      exact hs.size
    · rintro - _ _ _ ⟨⟩
      exact hcopied

/-- Looking something up changes nothing. -/
lemma apart_lookUp {α : Type} {find : Heap → Except ExecutionError α} {Q : α → Prop}
    (h : ∀ heap a, find heap = .ok a → Q a) :
    Maintains (CopyState.Apart least) (lookUp find) Q := by
  intro s hs
  unfold lookUp
  cases hfind : find s.heap with
  | ok a => exact ⟨hs, h _ a hfind⟩
  | error e => exact hs

/-- Copied elements are structs from `least` on, if the copies of sources are. -/
lemma apart_copyItems {freeze : Bool} {fuel : Nat}
    (hrec : ∀ source, Maintains (CopyState.Apart least) (copyObject freeze fuel source)
      (Item.StructFrom least)) (items : List Item) :
    Maintains (CopyState.Apart least) (copyItems freeze fuel items)
      fun copied => ∀ x ∈ copied, x.StructFrom least := by
  induction items with
  | nil =>
    rw [copyItems]
    exact .pure (List.forall_mem_nil _)
  | cons x rest ih =>
    have hcons (y : Item) (hy : y.StructFrom least) : Maintains (CopyState.Apart least)
        (do return y :: (← copyItems freeze fuel rest))
        fun copied => ∀ x ∈ copied, x.StructFrom least :=
      ih.bind fun ys hys => .pure (List.forall_mem_cons.2 ⟨hy, hys⟩)
    rw [copyItems]
    cases hx : x.structHandle? with
    | none => exact (Maintains.pure (Item.structFrom_of_none hx)).bind hcons
    | some nested => exact (hrec nested).bind hcons

/-- Copying an object keeps the copies apart, and gives one of them or no struct. -/
lemma apart_copyObject (fuel source : Nat) :
    Maintains (CopyState.Apart least) (copyObject false fuel source) (Item.StructFrom least) := by
  induction fuel generalizing source with
  | zero =>
    rw [copyObject]
    exact .throw _
  | succ fuel ih =>
    rw [copyObject]
    refine Maintains.get.bind fun s hs => ?_
    cases hfind : s.copies.find? source with
    | some copy =>
      refine apart_lookUp fun heap y hitem => ?_
      obtain ⟨object, -, hobject⟩ := except_bind_eq_ok.1 hitem
      cases hobject
      exact Item.structFrom_object object (hs.copies source copy hfind)
    | none =>
      refine (apart_lookUp (Q := fun _ => True) fun _ _ _ => trivial).bind fun object _ => ?_
      cases object with
      | buffer bytes => exact .pure (Item.structFrom_of_none rfl)
      | compound kind items readOnly =>
        exact (apart_beginCopy source kind).bind fun copy hcopy =>
          (apart_copyItems ih items).bind fun copied hcopied =>
            (apart_store copy hcopied).bind fun _ _ =>
              .pure (Item.structFrom_object (.compound kind items readOnly) hcopy)

/-- What is stored for a struct is a struct that has been allocated with it, or no struct. -/
lemma apart_of_cloneStruct (h : heap.cloneStruct x = (.ok stored, grown))
    (hx : x.structHandle? ≠ none) : grown.Apart heap.size ∧ stored.StructFrom heap.size := by
  rcases Simulates.cloneStruct_cases h with ⟨hnone, -⟩ | ⟨root, fuel, s, -, hcopy, rfl⟩
  · exact absurd hnone hx
  · have hstart : CopyState.Apart heap.size ⟨heap, .empty⟩ :=
      { size := Nat.le_refl _, copies := fun _ _ h => by simp at h, elements := heap.apart_size }
    have hleaves := apart_copyObject fuel root ⟨heap, .empty⟩ hstart
    rw [hcopy] at hleaves
    exact ⟨hleaves.1.elements, hleaves.2⟩

/-! ## The structs of an item -/

/-- The structs that are reached from an item through struct fields, itself included if it is one.
-/
def StructsOf (heap : Heap) (x : Item) (k : Nat) : Prop :=
  ∃ root, x.structHandle? = some root ∧ heap.StructWithin root k

/-- From structs apart only such structs are reached. -/
lemma Apart.le_of_structWithin (h : heap.Apart least) (hroot : least ≤ root)
    (hk : heap.StructWithin root k) : least ≤ k := by
  induction hk with
  | root => exact hroot
  | field _ hitems hx hnested ih =>
    obtain ⟨kind, readOnly, hobject⟩ := items_eq_ok.1 hitems
    exact h _ kind _ readOnly ih hobject _ hx _ hnested

lemma Apart.le_of_structsOf (h : heap.Apart least) (hx : x.StructFrom least)
    (hk : heap.StructsOf x k) : least ≤ k := by
  obtain ⟨root, hroot, hwithin⟩ := hk
  exact h.le_of_structWithin (hx root hroot) hwithin

/-- The same structs are reached in a heap that has the same objects from `least` on. -/
lemma Apart.structWithin_of_eq (h : heap.Apart least) (hroot : least ≤ root)
    (hlater : ∀ k, least ≤ k → later.objects[k]? = heap.objects[k]?)
    (hk : heap.StructWithin root k) : later.StructWithin root k := by
  induction hk with
  | root => exact .root
  | field path hitems hx hnested ih =>
    obtain ⟨kind, readOnly, hobject⟩ := items_eq_ok.1 hitems
    rw [← hlater _ (h.le_of_structWithin hroot path)] at hobject
    exact .field ih (items_eq_ok.2 ⟨kind, readOnly, hobject⟩) hx hnested

/-- Such a heap is apart as well. -/
lemma Apart.of_eq (h : heap.Apart least)
    (hlater : ∀ k, least ≤ k → later.objects[k]? = heap.objects[k]?) : later.Apart least := by
  intro k kind items readOnly hle hobject
  rw [hlater k hle] at hobject
  exact h k kind items readOnly hle hobject

lemma Apart.structsOf_iff (h : heap.Apart least) (hx : x.StructFrom least)
    (hlater : ∀ k, least ≤ k → later.objects[k]? = heap.objects[k]?) :
    later.StructsOf x k ↔ heap.StructsOf x k := by
  constructor
  · rintro ⟨root, hroot, hwithin⟩
    exact ⟨root, hroot, (h.of_eq hlater).structWithin_of_eq (hx root hroot)
      (fun k hle => (hlater k hle).symm) hwithin⟩
  · rintro ⟨root, hroot, hwithin⟩
    exact ⟨root, hroot, h.structWithin_of_eq (hx root hroot) hlater hwithin⟩

/-! ## Stored structs -/

/-- The struct `x` of the heap has been stored as a copy of its own, for which the heap has grown
and then changed.  -/
structure StoresCopy (heap grown heap' : Heap) (x stored : Item) : Prop where
  /-- The heap has grown. -/
  extends_grown : heap.Extends grown
  /-- If handles are valid, then by an exact copy of the struct. -/
  exact_copy : heap.All (Item.Valid heap) → x.Valid heap → ∃ root f,
    x.structHandle? = some root ∧ heap.StructCopy grown root false f ∧ stored = .struct (f root)
  /-- All structs that are reached from the stored one are new. -/
  fresh : ∀ k, heap'.StructsOf stored k → heap.size ≤ k
  /-- What is done to objects that were there before does not show in the stored struct. -/
  unaffected : ∀ later : Heap,
    (∀ k, heap.size ≤ k → later.objects[k]? = heap'.objects[k]?) → ∀ k,
      (later.StructsOf stored k ↔ heap'.StructsOf stored k) ∧
        (heap'.StructsOf stored k → later.objects[k]? = heap'.objects[k]?)
  /-- What is done to the structs of the stored one does not show in these objects. -/
  unaffecting : ∀ later : Heap,
    (∀ k, ¬heap'.StructsOf stored k → later.objects[k]? = heap'.objects[k]?) →
      ∀ k < heap.size, later.objects[k]? = heap'.objects[k]?

/-- On a heap with valid handles the stored struct is an exact copy. -/
lemma structCopy_of_cloneStruct (h : heap.cloneStruct x = (.ok stored, grown))
    (hheap : heap.All (Item.Valid heap)) (hvalid : x.Valid heap)
    (hx : x.structHandle? = some root) :
    ∃ f, heap.StructCopy grown root false f ∧ stored = .struct (f root) := by
  obtain ⟨items, readOnly, hobject⟩ := exists_struct_of_valid hvalid hx
  rcases Simulates.cloneStruct_cases h with ⟨hnone, -⟩ | ⟨root', fuel, s, hroot, hcopy, rfl⟩
  · rw [hx] at hnone
    cases hnone
  · rw [hx] at hroot
    cases hroot
    obtain ⟨hs, hstep, hstored⟩ := copyObject_spec (consistent_start heap) hcopy
    have hof := hstored (lt_size_of_object hobject)
    exact ⟨s.copyOf, hstep.structCopy hheap hvalid hx hof hs, (hof.eq_struct hobject).2⟩

/-- A struct is stored as a copy of its own, if the heap is only changed in one place, where it gets
no other structs than there were and the stored one. -/
lemma storesCopy_of_cloneStruct (h : heap.cloneStruct x = (.ok stored, grown))
    (hx : x.structHandle? ≠ none) (hgrown : heap.Extends grown) {handle : Nat}
    {object object' : HeapObject} (hobject : grown.objects[handle]? = some object)
    (hobject' : ∀ kind' items' readOnly', object' = .compound kind' items' readOnly' →
      ∃ kind items readOnly, object = .compound kind items readOnly ∧
        ∀ y ∈ items', y ∈ items ∨ y = stored) :
    heap.StoresCopy grown (grown.put handle object') x stored := by
  obtain ⟨hapart, hstored⟩ := apart_of_cloneStruct h hx
  have hput : (grown.put handle object').Apart heap.size := by
    refine hapart.put fun hle kind' items' readOnly' heq y hy => ?_
    obtain ⟨kind, items, readOnly, rfl, hitems⟩ := hobject' kind' items' readOnly' heq
    rcases hitems y hy with hold | rfl
    · exact hapart handle kind items readOnly hle hobject y hold
    · exact hstored
  have hfresh : ∀ k, (grown.put handle object').StructsOf stored k → heap.size ≤ k :=
    fun k hk => hput.le_of_structsOf hstored hk
  refine ⟨hgrown, fun hheap hvalid => ?_, hfresh,
    fun later hlater k => ⟨hput.structsOf_iff hstored hlater, fun hk => hlater k (hfresh k hk)⟩,
    fun later hlater k hk => hlater k fun hwithin => ?_⟩
  · cases hroot : x.structHandle? with
    | none => exact absurd hroot hx
    | some root =>
      obtain ⟨f, hcopy, rfl⟩ := structCopy_of_cloneStruct h hheap hvalid hroot
      exact ⟨root, f, rfl, hcopy, rfl⟩
  · exact absurd hk (Nat.not_lt.2 (hfresh k hwithin))

end Heap

end SymbolicScript
