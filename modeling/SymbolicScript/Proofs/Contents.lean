import SymbolicScript.Access
import SymbolicScript.Proofs.HeapAccess
import SymbolicScript.Proofs.StackView
import SymbolicScript.StorageView
import SymbolicScript.Variables

/-!
# What containers contain

Stacks, heaps, variables and records hold items, and their operations move items around.  Whatever
is known of every item in a container is therefore known of every item that an operation takes out
of it, and goes on being known of the container if it is known of what is put in.  The only items
that come from elsewhere are unknowns below a stack, variables that nothing has been stored to, and
nulls.

This file says so for an arbitrary predicate on items.
-/

namespace SymbolicScript

variable {P : Item → Prop}

/-! ## The evaluation stack -/

namespace EvaluationStack

/-- All items that are present satisfy the predicate. -/
def All (P : Item → Prop) (s : EvaluationStack) : Prop :=
  ∀ x ∈ s.items, P x

namespace All

variable {s target : EvaluationStack} {x : Item}

lemma empty : EvaluationStack.empty.All P := nofun

lemma push (h : s.All P) (hx : P x) : (s.push x).All P :=
  List.forall_mem_cons.2 ⟨hx, h⟩

lemma pushAll {xs : List Item} (h : s.All P) (hxs : ∀ x ∈ xs, P x) : (s.pushAll xs).All P :=
  List.forall_mem_append.2 ⟨hxs, h⟩

lemma clear (s : EvaluationStack) : s.clear.All P := nofun

/-- More may be known of the items. -/
lemma imp {Q : Item → Prop} (h : s.All P) (hPQ : ∀ x, P x → Q x) : s.All Q :=
  fun x hx => hPQ x (h x hx)

section Extending

variable (hP : ∀ index, P (extension index))
include hP

/-- The predicate holds of whatever the stack shows. -/
lemma view (h : s.All P) (index : Nat) : P (s.view index) := by
  by_cases hlt : index < s.items.length
  · rw [view_of_lt hlt]
    exact h _ (List.getElem_mem hlt)
  · rw [view_of_le (Nat.le_of_not_lt hlt)]
    exact hP _

lemma extend (h : s.All P) (count : Nat) : (s.extend count).All P := by
  intro x hx
  obtain ⟨index, hlt, rfl⟩ := List.getElem_of_mem hx
  rw [getElem_extend hlt]
  exact h.view hP index

lemma peek (h : s.All P) (index : Nat) : P (s.peek index).1 ∧ (s.peek index).2.All P := by
  rw [peek_fst]
  exact ⟨h.view hP index, h.extend hP _⟩

lemma removeAt (h : s.All P) (index : Nat) :
    P (s.removeAt index).1 ∧ (s.removeAt index).2.All P := by
  rw [removeAt_fst]
  exact ⟨h.view hP index, fun x hx => h.extend hP _ x (List.mem_of_mem_eraseIdx hx)⟩

lemma popMany (h : s.All P) (count : Nat) :
    (∀ x ∈ (s.popMany count).1, P x) ∧ (s.popMany count).2.All P :=
  ⟨fun x hx => h.extend hP _ x (List.mem_of_mem_take hx),
    fun x hx => h.extend hP _ x (List.mem_of_mem_drop hx)⟩

lemma insertAt (h : s.All P) (hx : P x) (index : Nat) : (s.insertAt index x).All P := by
  intro y hy
  rcases (List.mem_insertIdx (s.le_length_extend index)).1 hy with rfl | hold
  · exact hx
  · exact h.extend hP _ y hold

lemma reverse (h : s.All P) (count : Nat) : (s.reverse count).All P := by
  intro x hx
  rcases List.mem_append.1 hx with htop | hbelow
  · exact h.extend hP _ x (List.mem_of_mem_take (List.mem_reverse.1 htop))
  · exact h.extend hP _ x (List.mem_of_mem_drop hbelow)

/-- Moving items from one stack onto another. -/
lemma moveTo (h : s.All P) (htarget : target.All P) (count : Option Nat) :
    (s.moveTo target count).1.All P ∧ (s.moveTo target count).2.All P :=
  ⟨fun x hx => h.extend hP _ x (List.mem_of_mem_drop hx),
    htarget.pushAll fun x hx => h.extend hP _ x (List.mem_of_mem_take hx)⟩

end Extending

end All

end EvaluationStack

/-! ## The heap -/

/-- All elements of the object satisfy the predicate. -/
def HeapObject.All (P : Item → Prop) : HeapObject → Prop
  | .buffer _ => True
  | .compound _ items _ => ∀ x ∈ items, P x

instance (P : Item → Prop) [DecidablePred P] : DecidablePred (HeapObject.All P)
  | .buffer _ => inferInstanceAs (Decidable True)
  | .compound _ items _ => inferInstanceAs (Decidable (∀ x ∈ items, P x))

namespace Heap

/-- All elements of all objects satisfy the predicate. -/
def All (P : Item → Prop) (heap : Heap) : Prop :=
  ∀ (handle : Nat) (object : HeapObject), heap.objects[handle]? = some object → object.All P

/-- The handles do not matter, only the objects that the heap lists. -/
lemma all_iff {heap : Heap} : heap.All P ↔ ∀ object ∈ heap.objects.toList, object.All P := by
  constructor
  · intro h object hobject
    obtain ⟨handle, hhandle⟩ := List.mem_iff_getElem?.1 hobject
    exact h handle object (by rwa [← Array.getElem?_toList])
  · intro h handle object hobject
    rw [← Array.getElem?_toList] at hobject
    exact h object (List.mem_of_getElem? hobject)

instance (P : Item → Prop) [DecidablePred P] : DecidablePred (Heap.All P) :=
  fun _ => decidable_of_iff' _ all_iff

namespace All

variable {heap heap' : Heap} {handle : Nat}

lemma empty : Heap.empty.All P := nofun

/-- More may be known of the elements. -/
lemma imp {Q : Item → Prop} (h : heap.All P) (hPQ : ∀ x, P x → Q x) : heap.All Q := by
  intro handle object hobject
  have hall := h handle object hobject
  cases object with
  | buffer bytes => trivial
  | compound kind items readOnly => exact fun x hx => hPQ x (hall x hx)

lemma add {object : HeapObject} (h : heap.All P) (hobject : object.All P) :
    (heap.add object).All P :=
  forall_objects_add h hobject

lemma put {object : HeapObject} (h : heap.All P) (hobject : object.All P) :
    (heap.put handle object).All P :=
  forall_objects_put h hobject

lemma items {items : List Item} (h : heap.All P) (hitems : heap.items handle = .ok items) :
    ∀ x ∈ items, P x := by
  obtain ⟨kind, readOnly, hobject⟩ := items_eq_ok.1 hitems
  exact h handle _ hobject

lemma modifyItems {change : List Item → Except ExecutionError (List Item)} (h : heap.All P)
    (hchange : ∀ items changed, (∀ x ∈ items, P x) → change items = .ok changed →
      ∀ x ∈ changed, P x)
    (hheap : heap.modifyItems handle change = .ok heap') : heap'.All P := by
  obtain ⟨kind, items, changed, hobject, hchanged, rfl⟩ := modifyItems_eq_ok.1 hheap
  exact h.put (hchange items changed (h handle _ hobject) hchanged)

lemma modifyBytes {change : Bytes → Except ExecutionError Bytes} (h : heap.All P)
    (hheap : heap.modifyBytes handle change = .ok heap') : heap'.All P := by
  obtain ⟨bytes, changed, -, -, rfl⟩ := modifyBytes_eq_ok.1 hheap
  exact h.put trivial

lemma freeze (h : heap.All P) (hheap : heap.freeze handle = .ok heap') : heap'.All P := by
  obtain ⟨object, hobject, rfl⟩ := freeze_eq_ok.1 hheap
  have hall := h handle object hobject
  cases object with
  | buffer bytes => exact h.put trivial
  | compound kind items readOnly => exact h.put hall

end All

end Heap

/-! ## Maps -/

/-- What is known of all bindings is known of all bindings behind an insertion, if it is known of
the new one. -/
lemma SortedMap.forall_find?_insert {κ ν : Type} [Ord κ] [Std.LawfulEqOrd κ] [DecidableEq κ]
    {Q : κ → ν → Prop} {m : SortedMap κ ν} {key : κ} {value : ν}
    (h : ∀ k v, m.find? k = some v → Q k v) (hnew : Q key value) :
    ∀ k v, (m.insert key value).find? k = some v → Q k v := by
  intro k v hfind
  rw [find?_insert] at hfind
  split at hfind
  · next heq =>
    cases hfind
    rwa [heq]
  · exact h k v hfind

/-! ## Variables -/

/-- All values that the variables have been given satisfy the predicate. -/
def VariableState.All (P : Item → Prop) : VariableState → Prop
  | .uninitialized stored => ∀ index x, stored.find? index = some x → P x
  | .initialized items => ∀ x ∈ items, P x

namespace Variables

/-- All values that the variables have been given satisfy the predicate. -/
def All (P : Item → Prop) (v : Variables) : Prop :=
  v.state.All P

namespace All

variable {v v' : Variables} {index : Nat} {x : Item}

lemma untouched (kind : SlotKind) : (Variables.untouched kind).All P := nofun

/-- What holds of all items holds of those in variables. -/
lemma of_forall (h : ∀ x, P x) (v : Variables) : v.All P := by
  unfold All
  cases v.state with
  | uninitialized stored => exact fun _ x _ => h x
  | initialized items => exact fun x _ => h x

/-- More may be known of the values. -/
lemma imp {Q : Item → Prop} (h : v.All P) (hPQ : ∀ x, P x → Q x) : v.All Q := by
  obtain ⟨kind, state⟩ := v
  cases state with
  | uninitialized stored => exact fun index x hx => hPQ x (h index x hx)
  | initialized items => exact fun x hx => hPQ x (h x hx)

/-- A variable has a value that it was given, or stands for the one it had before. -/
lemma load (h : v.All P) (hslot : P (.slot v.kind index)) (hload : v.load index = .ok x) : P x := by
  obtain ⟨kind, state⟩ := v
  cases state with
  | uninitialized stored =>
    cases hload
    cases hfind : stored.find? index with
    | none => exact hslot
    | some y => exact h index y hfind
  | initialized items =>
    simp only [Variables.load, Slot.load] at hload
    split at hload
    · next y hy =>
      cases hload
      exact h _ (List.mem_of_getElem? hy)
    · cases hload

lemma store (h : v.All P) (hx : P x) (hstore : v.store index x = .ok v') : v'.All P := by
  obtain ⟨kind, state⟩ := v
  cases state with
  | uninitialized stored =>
    cases hstore
    exact SortedMap.forall_find?_insert (Q := fun _ y => P y) h hx
  | initialized items =>
    obtain ⟨slot, hslot, hresult⟩ := except_bind_eq_ok.1 hstore
    cases hresult
    unfold Slot.store at hslot
    split at hslot
    · cases hslot
      intro y hy
      rcases List.mem_or_eq_of_mem_set hy with hold | rfl
      · exact h y hold
      · exact hx
    · cases hslot

lemma allocateWith {items : List Item} (hitems : ∀ x ∈ items, P x)
    (hallocate : v.allocateWith items = .ok v') : v'.All P := by
  unfold Variables.allocateWith at hallocate
  split at hallocate
  · cases hallocate
  · cases hallocate
    exact hitems

lemma allocate {size : Nat} (hnull : P .null) (hallocate : v.allocate size = .ok v') : v'.All P :=
  allocateWith (fun x hx => by rwa [List.eq_of_mem_replicate hx]) hallocate

end All

end Variables

/-! ## Storage and accesses -/

namespace StorageView

/-- All keys and values written to storage satisfy the predicate. -/
def All (P : Item → Prop) (view : StorageView) : Prop :=
  ∀ key value, view.values.find? key = some value → P key ∧ ∀ x, value = some x → P x

namespace All

variable {view : StorageView} {key : Item}

lemma empty : StorageView.empty.All P := nofun

lemma set (h : view.All P) (hkey : P key) {value : Option Item}
    (hvalue : ∀ x, value = some x → P x) : (view.set key value).All P :=
  SortedMap.forall_find?_insert (Q := fun key value => P key ∧ ∀ x, value = some x → P x) h
    ⟨hkey, hvalue⟩

/-- A value read from storage has been written before, or stands for the one under the key. -/
lemma get (h : view.All P) {id : Nat} (hstorage : P (.storage key)) (hnull : P .null)
    (hunknown : P (.unknown .any (.fresh id))) : P (view.get id key) := by
  unfold StorageView.get
  split
  · next value hfind => exact (h key (some value) hfind).2 value rfl
  · exact hnull
  · split
    · exact hunknown
    · exact hstorage

end All

end StorageView

namespace AccessTracker

/-- All locations in the records satisfy the predicate. -/
structure All (P : Item → Prop) (t : AccessTracker) : Prop where
  /-- The locations read. -/
  reads : ∀ a offset, t.reads.find? a = some offset → P a.item
  /-- The locations written. -/
  writes : ∀ a offset, t.writes.find? a = some offset → P a.item

namespace All

variable {t : AccessTracker} {a : Access}

lemma empty : AccessTracker.empty.All P := ⟨nofun, nofun⟩

/-- One more location is recorded. -/
lemma forall_find?_insert {records : SortedMap Access Nat} {offset : Nat}
    (h : ∀ b offset, records.find? b = some offset → P b.item) (ha : P a.item) :
    ∀ b offset', (records.insert a offset).find? b = some offset' → P b.item :=
  SortedMap.forall_find?_insert (Q := fun (b : Access) (_ : Nat) => P b.item) h ha

lemma recordRead (h : t.All P) (ha : P a.item) (offset : Nat) : (t.recordRead a offset).All P := by
  unfold AccessTracker.recordRead
  split
  · exact h
  · exact { h with reads := forall_find?_insert h.reads ha }

lemma recordWrite (h : t.All P) (ha : P a.item) (offset : Nat) : (t.recordWrite a offset).All P :=
  { h with writes := forall_find?_insert h.writes ha }

end All

end AccessTracker

end SymbolicScript
