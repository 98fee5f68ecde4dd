import Mathlib.Order.Defs.PartialOrder
import SymbolicScript.Proofs.Approximation
import SymbolicScript.Proofs.Contents

/-!
# Items that refer to something

A buffer, an array or a struct is an item with a handle, and a pointer is an item with an offset.
None of them says whether there is an object of that type behind the handle, or whether the script
reaches up to the offset.  What there is to refer to is a `Ground`: the length of a script, and the
types of the objects of a heap.  An item is grounded if everything that occurs in it refers to
something, also what occurs in the operands of derived variables and in the keys of storage
variables.

Grounds are ordered by growth.  Objects are never removed and never change their type, so a grounded
item stays grounded, and what is said here of items carries over to heaps, which contain items
themselves.
-/

namespace SymbolicScript

/-! ## Grounds -/

/-- What items can refer to. -/
structure Ground where
  /-- The number of bytes of the script. -/
  length : Nat
  /-- The type of the object behind a handle, if there is one. -/
  type? : Nat → Option ItemType

namespace Ground

/-- A ground grows if objects are added. -/
instance : Preorder Ground where
  le g g' := g.length = g'.length ∧ ∀ handle type, g.type? handle = some type →
    g'.type? handle = some type
  le_refl _ := ⟨rfl, fun _ _ h => h⟩
  le_trans _ _ _ h h' :=
    ⟨h.1.trans h'.1, fun handle type ht => h'.2 handle type (h.2 handle type ht)⟩

variable {g g' : Ground} {handle : Nat}

/-- The script stays the same. -/
lemma length_eq (h : g ≤ g') : g'.length = g.length :=
  h.1.symm

/-- What a handle refers to stays the same. -/
lemma type?_eq (h : g ≤ g') {type : ItemType} (ht : g.type? handle = some type) :
    g'.type? handle = some type :=
  h.2 handle type ht

/-- A handle that refers to something goes on doing so. -/
lemma isSome_mono (h : g ≤ g') (hhandle : (g.type? handle).isSome) : (g'.type? handle).isSome := by
  obtain ⟨type, ht⟩ := Option.isSome_iff_exists.1 hhandle
  exact Option.isSome_iff_exists.2 ⟨type, type?_eq h ht⟩

end Ground

/-! ## Items -/

namespace Item

/-- An item occurs in another one: it is the item itself, or occurs in what is wrapped, in a key or
in an operand. -/
inductive OccursIn (x : Item) : Item → Prop
  /-- The item itself. -/
  | self : OccursIn x x
  /-- A wrapped value. -/
  | const {inner : Item} (h : OccursIn x inner) : OccursIn x (.const inner)
  /-- The key of a storage variable. -/
  | key {key : Item} (h : OccursIn x key) : OccursIn x (.storage key)
  /-- An operand of a derived variable. -/
  | operand {y : Item} {opcode : Opcode} {operands : List Item} (hy : y ∈ operands)
    (h : OccursIn x y) : OccursIn x (.derived opcode operands)

lemma OccursIn.trans {x y z : Item} (hxy : x.OccursIn y) (hyz : y.OccursIn z) : x.OccursIn z := by
  induction hyz with
  | self => exact hxy
  | const _ ih => exact .const ih
  | key _ ih => exact .key ih
  | operand hy _ ih => exact .operand hy ih

/-- The known value of an item occurs in it. -/
lemma occursIn_of_known {x v : Item} (h : x.known? = some v) : v.OccursIn x := by
  fun_induction known? x with
  | case1 inner ih => exact .const (ih h)
  | case2 | case3 | case4 | case5 | case6 => cases h
  | case7 plain =>
    cases h
    exact .self

/-- What the item refers to on its own is there. -/
def Anchored (g : Ground) : Item → Prop
  | pointer target => target ≤ g.length ∧ target ≤ maxOffset
  | buffer handle => g.type? handle = some .buffer
  | array handle => g.type? handle = some .array
  | struct handle => g.type? handle = some .struct
  | _ => True

/-- Everything that occurs in the item refers to something. -/
def Grounded (g : Ground) (x : Item) : Prop :=
  ∀ y : Item, y.OccursIn x → y.Anchored g

namespace Grounded

variable {g g' : Ground} {x : Item}

/-- A grounded item refers to something itself. -/
lemma anchored (h : x.Grounded g) : x.Anchored g :=
  h x .self

/-- A grounded item stays grounded when the ground grows. -/
lemma mono (h : x.Grounded g) (hle : g ≤ g') : x.Grounded g' := by
  intro y hy
  have hanchored := h y hy
  cases y with
  | pointer target =>
    rw [Anchored, Ground.length_eq hle]
    exact hanchored
  | buffer handle | array handle | struct handle => exact Ground.type?_eq hle hanchored
  | _ => trivial

/-- The known value of a grounded item is grounded. -/
lemma known {v : Item} (h : x.Grounded g) (hv : x.known? = some v) : v.Grounded g :=
  fun _ hy => h _ (hy.trans (occursIn_of_known hv))

/-! ### Items without parts -/

lemma null : Item.null.Grounded g := by
  rintro _ ⟨⟩
  trivial

lemma boolean (value : Bool) : (Item.boolean value).Grounded g := by
  rintro _ ⟨⟩
  trivial

lemma integer (value : Int) : (Item.integer value).Grounded g := by
  rintro _ ⟨⟩
  trivial

lemma byteString (bytes : Bytes) : (Item.byteString bytes).Grounded g := by
  rintro _ ⟨⟩
  trivial

lemma unknown (type : ItemType) (origin : UnknownOrigin) :
    (Item.unknown type origin).Grounded g := by
  rintro _ ⟨⟩
  trivial

lemma slot (kind : SlotKind) (index : Nat) : (Item.slot kind index).Grounded g := by
  rintro _ ⟨⟩
  trivial

lemma stackDepth : Item.stackDepth.Grounded g := by
  rintro _ ⟨⟩
  trivial

lemma pointer {target : Nat} (hlength : target ≤ g.length) (hmax : target ≤ maxOffset) :
    (Item.pointer target).Grounded g := by
  rintro _ ⟨⟩
  exact ⟨hlength, hmax⟩

lemma buffer {handle : Nat} (h : g.type? handle = some .buffer) :
    (Item.buffer handle).Grounded g := by
  rintro _ ⟨⟩
  exact h

lemma compound {kind : CompoundKind} {handle : Nat} (h : g.type? handle = some kind.type) :
    (kind.item handle).Grounded g := by
  cases kind <;>
  · rintro _ ⟨⟩
    exact h

/-! ### Items with parts -/

lemma const (h : x.Grounded g) : (Item.const x).Grounded g := by
  intro y hy
  cases hy with
  | self => trivial
  | const hy => exact h y hy

lemma constant (h : x.Grounded g) : x.constant.Grounded g := by
  cases x with
  | unknown | const | slot | storage | derived | stackDepth => exact h
  | _ => exact h.const

lemma storage (h : x.Grounded g) : (Item.storage x).Grounded g := by
  intro y hy
  cases hy with
  | self => trivial
  | key hy => exact h y hy

lemma derived {opcode : Opcode} {operands : List Item} (h : ∀ x ∈ operands, x.Grounded g) :
    (Item.derived opcode operands).Grounded g := by
  intro y hy
  cases hy with
  | self => trivial
  | operand hz hy => exact h _ hz y hy

/-- The element of a list, or null, at an index. -/
lemma getD {items : List Item} (h : ∀ x ∈ items, x.Grounded g) (index : Nat) :
    (items.getD index .null).Grounded g := by
  rw [List.getD_eq_getElem?_getD]
  cases hitem : items[index]? with
  | none => exact null
  | some x => exact h x (List.mem_of_getElem? hitem)

/-- The last element of a list, or null. -/
lemma getLastD {items : List Item} (h : ∀ x ∈ items, x.Grounded g) :
    (items.getLastD .null).Grounded g := by
  have hlast : items.getLastD .null ∈ Item.null :: items := List.getLastD_mem_cons
  rcases List.mem_cons.1 hlast with hnull | hmem
  · rw [hnull]
    exact null
  · exact h _ hmem

/-- The handle of a grounded struct refers to a struct. -/
lemma type?_of_struct {handle : Nat} (h : x.Grounded g) (hx : x.structHandle? = some handle) :
    g.type? handle = some .struct :=
  (h.known (structHandle?_eq_some.1 hx)).anchored

end Grounded

end Item

variable {g g' : Ground}

/-- The unknowns that a stack adds are grounded. -/
lemma EvaluationStack.extension_grounded (index : Nat) : (extension index).Grounded g :=
  .unknown _ _

/-! ## Heaps -/

namespace Heap

/-- The type of the object behind a handle. -/
def type? (heap : Heap) (handle : Nat) : Option ItemType :=
  heap.objects[handle]?.map HeapObject.type

/-- The heap offers what the ground says, and its elements are grounded in it. -/
structure Grounded (g : Ground) (heap : Heap) : Prop where
  /-- The types of the objects. -/
  types : heap.type? = g.type?
  /-- The elements of the objects. -/
  elements : heap.All (Item.Grounded g)

/-- The heap has an object of the type behind the handle. -/
lemma type?_eq_some {heap : Heap} {handle : Nat} {type : ItemType} :
    heap.type? handle = some type ↔
      ∃ object, heap.objects[handle]? = some object ∧ object.type = type :=
  Option.map_eq_some_iff

/-- Allocating adds one type. -/
lemma type?_add (heap : Heap) (object : HeapObject) (k : Nat) :
    (heap.add object).type? k = if k = heap.size then some object.type else heap.type? k := by
  unfold type?
  rw [getElem?_add]
  split <;> rfl

/-- Replacing an object by one of its type changes no type. -/
lemma type?_put {heap : Heap} {handle : Nat} {object object' : HeapObject}
    (hobject : heap.objects[handle]? = some object) (htype : object'.type = object.type) :
    (heap.put handle object').type? = heap.type? := by
  funext k
  unfold type?
  by_cases heq : k = handle
  · subst heq
    rw [getElem?_put_self (lt_size_of_object hobject), hobject]
    exact congrArg some htype
  · rw [getElem?_put_of_ne heq]

/-- The last handle refers to nothing yet. -/
lemma type?_size (heap : Heap) : heap.type? heap.size = none := by
  unfold type? size
  simp

/-- An item and a heap that have been produced together are grounded in a ground that has grown. -/
def Produces (g : Ground) (produced : Item × Heap) : Prop :=
  ∃ g', g ≤ g' ∧ produced.1.Grounded g' ∧ produced.2.Grounded g'

namespace Grounded

variable {heap heap' : Heap} {handle : Nat}

lemma empty (length : Nat) : Heap.empty.Grounded ⟨length, fun _ => none⟩ where
  types := rfl
  elements := .empty

/-- The ground says what lies behind a handle. -/
lemma object_of_type (h : heap.Grounded g) {type : ItemType} (htype : g.type? handle = some type) :
    ∃ object, heap.objects[handle]? = some object ∧ object.type = type := by
  rw [← h.types] at htype
  exact type?_eq_some.1 htype

/-- A grounded heap may be looked at from a ground that has the types of another heap. -/
lemma of_le (h : heap.All (Item.Grounded g)) (hle : g ≤ g') (htypes : heap.type? = g'.type?) :
    heap.Grounded g' :=
  ⟨htypes, h.imp fun _ hx => hx.mono hle⟩

/-- Allocating an object whose elements are grounded. -/
lemma add (h : heap.Grounded g) (object : HeapObject) (hobject : object.All (Item.Grounded g)) :
    Produces g (object.item heap.size, heap.add object) := by
  have hle : g ≤ { g with type? := (heap.add object).type? } := by
    refine ⟨rfl, fun k type hk => ?_⟩
    have hne : k ≠ heap.size := by
      rintro rfl
      rw [← h.types, type?_size] at hk
      cases hk
    rw [← h.types] at hk
    simp only [type?_add, if_neg hne, hk]
  have hnew : (heap.add object).type? heap.size = some object.type := by
    rw [type?_add, if_pos rfl]
  refine ⟨_, hle, ?_, .of_le (h.elements.add hobject) hle rfl⟩
  cases object with
  | buffer bytes => exact .buffer hnew
  | compound kind items readOnly => exact .compound hnew

/-- Changing elements into grounded ones. -/
lemma modifyItems {change : List Item → Except ExecutionError (List Item)} (h : heap.Grounded g)
    (hchange : ∀ items changed, (∀ x ∈ items, x.Grounded g) → change items = .ok changed →
      ∀ x ∈ changed, x.Grounded g)
    (hheap : heap.modifyItems handle change = .ok heap') : heap'.Grounded g := by
  refine ⟨?_, h.elements.modifyItems hchange hheap⟩
  obtain ⟨kind, items, changed, hobject, -, rfl⟩ := modifyItems_eq_ok.1 hheap
  refine Eq.trans (type?_put hobject ?_) h.types
  rfl

lemma modifyBytes {change : Bytes → Except ExecutionError Bytes} (h : heap.Grounded g)
    (hheap : heap.modifyBytes handle change = .ok heap') : heap'.Grounded g := by
  refine ⟨?_, h.elements.modifyBytes hheap⟩
  obtain ⟨bytes, changed, hobject, -, rfl⟩ := modifyBytes_eq_ok.1 hheap
  refine Eq.trans (type?_put hobject ?_) h.types
  rfl

end Grounded

end Heap

/-! ## Storage and accesses -/

/-- All keys and values written to storage are grounded. -/
def StorageView.Grounded (g : Ground) (view : StorageView) : Prop :=
  ∀ key value, view.values.find? key = some value →
    key.Grounded g ∧ ∀ x, value = some x → x.Grounded g

namespace StorageView.Grounded

variable {view : StorageView} {key : Item}

lemma empty : StorageView.empty.Grounded g := nofun

lemma mono (h : view.Grounded g) (hle : g ≤ g') : view.Grounded g' := by
  intro key value hfind
  obtain ⟨hkey, hvalue⟩ := h key value hfind
  exact ⟨hkey.mono hle, fun x hx => (hvalue x hx).mono hle⟩

lemma set (h : view.Grounded g) (hkey : key.Grounded g) {value : Option Item}
    (hvalue : ∀ x, value = some x → x.Grounded g) : (view.set key value).Grounded g :=
  StorageView.All.set h hkey hvalue

/-- A value read from storage has been written before, or stands for the one under the key. -/
lemma get (h : view.Grounded g) (hkey : key.Grounded g) (id : Nat) :
    (view.get id key).Grounded g :=
  StorageView.All.get h hkey.storage .null (.unknown _ _)

end StorageView.Grounded

/-- All locations in the records are grounded. -/
structure AccessTracker.Grounded (g : Ground) (t : AccessTracker) : Prop where
  /-- The locations read. -/
  reads : ∀ a offset, t.reads.find? a = some offset → a.item.Grounded g
  /-- The locations written. -/
  writes : ∀ a offset, t.writes.find? a = some offset → a.item.Grounded g

namespace AccessTracker.Grounded

variable {t : AccessTracker} {a : Access}

lemma empty : AccessTracker.empty.Grounded g := ⟨nofun, nofun⟩

lemma mono (h : t.Grounded g) (hle : g ≤ g') : t.Grounded g' where
  reads a offset hfind := (h.reads a offset hfind).mono hle
  writes a offset hfind := (h.writes a offset hfind).mono hle

lemma recordRead (h : t.Grounded g) (ha : a.item.Grounded g) (offset : Nat) :
    (t.recordRead a offset).Grounded g :=
  have hall := AccessTracker.All.recordRead ⟨h.reads, h.writes⟩ ha offset
  ⟨hall.reads, hall.writes⟩

lemma recordWrite (h : t.Grounded g) (ha : a.item.Grounded g) (offset : Nat) :
    (t.recordWrite a offset).Grounded g :=
  have hall := AccessTracker.All.recordWrite ⟨h.reads, h.writes⟩ ha offset
  ⟨hall.reads, hall.writes⟩

end AccessTracker.Grounded

end SymbolicScript
