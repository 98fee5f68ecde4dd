import SymbolicScript.Proofs.GroundedItems
import SymbolicScript.Proofs.IntegerEncoding

/-!
# Bounded items

An integer of a script is meant to have at most 256 bits, but the integers themselves are unbounded,
and some instructions push one without looking at its size: the operand of a push, the length of a
byte string or of a compound, the smaller of two integers.  They rely on the bounds of what they
got.  This file says what it means that all integers, and all lengths that can become integers, are
within given bounds (`Bounds`), for items and for heaps.  Byte strings and compounds have bounds of
their own, since it is different instructions that look at their sizes.

The bounds are a parameter, since everything that is said of them below holds of all bounds, also of
those that admit everything.  What an instruction needs is that the bounds admit what it creates on
its own (`Bounds.Admits`).
-/

namespace SymbolicScript

/-! ## Bounds -/

/-- What is demanded of integers, and of the lengths of byte strings, buffers and compounds. -/
structure Bounds where
  /-- The integers that are within the bounds. -/
  integer : Int → Prop
  /-- The lengths of byte strings and buffers that are within the bounds. -/
  length : Nat → Prop
  /-- The numbers of elements of a compound that are within the bounds. -/
  count : Nat → Prop

namespace Bounds

/-- The bounds that demand nothing. -/
def none : Bounds where
  integer _ := True
  length _ := True
  count _ := True

/-- The bounds admit what a machine with the configuration creates. -/
structure Admits (b : Bounds) (config : Config) : Prop where
  /-- Integers whose size is checked. -/
  fits : ∀ value, TwosComplement.Fits Limits.integerBytes value → b.integer value
  /-- Lengths that become integers. -/
  size : ∀ n, b.length n → b.integer n
  /-- Numbers of elements that become integers. -/
  sizeOfCompound : ∀ n, b.count n → b.integer n
  /-- Byte strings that integers become. -/
  minimal : ∀ value, b.integer value → b.length (TwosComplement.minimal value).length
  /-- Parts of byte strings and buffers. -/
  part : ∀ m n, m ≤ n → b.length n → b.length m
  /-- Byte strings and buffers whose size is checked. -/
  item : ∀ n, n ≤ config.maxItemSize → b.length n
  /-- Compounds that lose elements. -/
  fewer : ∀ m n, m ≤ n → b.count n → b.count m
  /-- Compounds whose size is checked. -/
  elements : ∀ n, n ≤ Limits.stackSize → b.count n

/-- The bounds that demand nothing admit everything. -/
lemma none_admits (config : Config) : none.Admits config where
  fits _ _ := trivial
  size _ _ := trivial
  sizeOfCompound _ _ := trivial
  minimal _ _ := trivial
  part _ _ _ _ := trivial
  item _ _ := trivial
  fewer _ _ _ _ := trivial
  elements _ _ := trivial

end Bounds

variable {b : Bounds}

/-! ## Items -/

namespace Item

/-- The item itself is within the bounds. -/
def Bounded (b : Bounds) : Item → Prop
  | integer value => b.integer value
  | byteString bytes => b.length bytes.length
  | _ => True

/-- Everything that occurs in the item is within the bounds. -/
def Within (b : Bounds) (x : Item) : Prop :=
  ∀ y : Item, y.OccursIn x → y.Bounded b

namespace Within

variable {x : Item}

/-- The item itself is within the bounds. -/
lemma bounded (h : x.Within b) : x.Bounded b :=
  h x .self

/-- The known value of an item is within the bounds that the item is within. -/
lemma known {v : Item} (h : x.Within b) (hv : x.known? = some v) : v.Within b :=
  fun _ hy => h _ (hy.trans (occursIn_of_known hv))

/-! ### Items without parts -/

lemma null : Item.null.Within b := by
  rintro _ ⟨⟩
  trivial

lemma boolean (value : Bool) : (Item.boolean value).Within b := by
  rintro _ ⟨⟩
  trivial

lemma integer {value : Int} (h : b.integer value) : (Item.integer value).Within b := by
  rintro _ ⟨⟩
  exact h

lemma byteString {bytes : Bytes} (h : b.length bytes.length) :
    (Item.byteString bytes).Within b := by
  rintro _ ⟨⟩
  exact h

lemma pointer (target : Nat) : (Item.pointer target).Within b := by
  rintro _ ⟨⟩
  trivial

lemma unknown (type : ItemType) (origin : UnknownOrigin) :
    (Item.unknown type origin).Within b := by
  rintro _ ⟨⟩
  trivial

lemma slot (kind : SlotKind) (index : Nat) : (Item.slot kind index).Within b := by
  rintro _ ⟨⟩
  trivial

lemma stackDepth : Item.stackDepth.Within b := by
  rintro _ ⟨⟩
  trivial

/-- The item of an object refers to it, whatever it contains. -/
lemma object (object : HeapObject) (handle : Nat) : (object.item handle).Within b := by
  cases object with
  | buffer bytes =>
    rintro _ ⟨⟩
    trivial
  | compound kind items readOnly =>
    cases kind <;>
    · rintro _ ⟨⟩
      trivial

/-! ### Items with parts -/

lemma const (h : x.Within b) : (Item.const x).Within b := by
  intro y hy
  cases hy with
  | self => trivial
  | const hy => exact h y hy

lemma constant (h : x.Within b) : x.constant.Within b := by
  cases x with
  | unknown | const | slot | storage | derived | stackDepth => exact h
  | _ => exact h.const

lemma storage (h : x.Within b) : (Item.storage x).Within b := by
  intro y hy
  cases hy with
  | self => trivial
  | key hy => exact h y hy

lemma derived {opcode : Opcode} {operands : List Item} (h : ∀ x ∈ operands, x.Within b) :
    (Item.derived opcode operands).Within b := by
  intro y hy
  cases hy with
  | self => trivial
  | operand hz hy => exact h _ hz y hy

/-- The element of a list, or null, at an index. -/
lemma getD {items : List Item} (h : ∀ x ∈ items, x.Within b) (index : Nat) :
    (items.getD index .null).Within b := by
  rw [List.getD_eq_getElem?_getD]
  cases hitem : items[index]? with
  | none => exact null
  | some x => exact h x (List.mem_of_getElem? hitem)

/-- The last element of a list, or null. -/
lemma getLastD {items : List Item} (h : ∀ x ∈ items, x.Within b) :
    (items.getLastD .null).Within b := by
  have hlast : items.getLastD .null ∈ Item.null :: items := List.getLastD_mem_cons
  rcases List.mem_cons.1 hlast with hnull | hmem
  · rw [hnull]
    exact null
  · exact h _ hmem

end Within

/-- Every item is within the bounds that demand nothing. -/
lemma within_none (x : Item) : x.Within .none := by
  intro y _
  cases y <;> trivial

end Item

/-- The unknowns that a stack adds contain no integers. -/
lemma EvaluationStack.extension_within (index : Nat) : (extension index).Within b :=
  .unknown _ _

/-! ## Heaps -/

/-- The number of bytes or elements of the object is within the bounds for objects of its kind. -/
def HeapObject.Sized (b : Bounds) : HeapObject → Prop
  | buffer bytes => b.length bytes.length
  | compound _ items _ => b.count items.length

/-- The length of the object and all of its elements are within the bounds. -/
structure HeapObject.Within (b : Bounds) (object : HeapObject) : Prop where
  /-- The number of bytes or elements. -/
  length : object.Sized b
  /-- The elements. -/
  elements : object.All (Item.Within b)

namespace HeapObject.Within

variable {kind : CompoundKind} {items : List Item} {readOnly : Bool}

lemma buffer {bytes : Bytes} (h : b.length bytes.length) : (HeapObject.buffer bytes).Within b :=
  ⟨h, trivial⟩

lemma compound (hlength : b.count items.length) (hitems : ∀ x ∈ items, x.Within b) :
    (HeapObject.compound kind items readOnly).Within b :=
  ⟨hlength, hitems⟩

/-- Freezing changes neither length nor elements. -/
lemma frozen {object : HeapObject} (h : object.Within b) : object.frozen.Within b := by
  cases object with
  | buffer bytes => exact h
  | compound kind items readOnly => exact ⟨h.length, h.elements⟩

end HeapObject.Within

namespace Heap

/-- All objects of the heap are within the bounds. -/
def Within (b : Bounds) (heap : Heap) : Prop :=
  ∀ (handle : Nat) (object : HeapObject), heap.objects[handle]? = some object → object.Within b

/-- Every heap is within the bounds that demand nothing. -/
lemma within_none (heap : Heap) : heap.Within .none := by
  intro handle object _
  cases object with
  | buffer bytes => exact .buffer trivial
  | compound kind items readOnly => exact .compound trivial fun x _ => x.within_none

namespace Within

variable {heap heap' : Heap} {handle : Nat}

lemma empty : Heap.empty.Within b := nofun

lemma add {object : HeapObject} (h : heap.Within b) (hobject : object.Within b) :
    (heap.add object).Within b :=
  forall_objects_add h hobject

lemma put {object : HeapObject} (h : heap.Within b) (hobject : object.Within b) :
    (heap.put handle object).Within b :=
  forall_objects_put h hobject

/-- The elements of a compound, and their number. -/
lemma items {items : List Item} (h : heap.Within b) (hitems : heap.items handle = .ok items) :
    b.count items.length ∧ ∀ x ∈ items, x.Within b := by
  obtain ⟨kind, readOnly, hobject⟩ := items_eq_ok.1 hitems
  have hwithin := h handle _ hobject
  exact ⟨hwithin.length, hwithin.elements⟩

/-- The number of bytes of a buffer. -/
lemma bytes {bytes : Bytes} (h : heap.Within b) (hbytes : heap.bytes handle = .ok bytes) :
    b.length bytes.length :=
  (h handle _ (bytes_eq_ok.1 hbytes)).length

lemma modifyItems {change : List Item → Except ExecutionError (List Item)} (h : heap.Within b)
    (hchange : ∀ items changed, b.count items.length → (∀ x ∈ items, x.Within b) →
      change items = .ok changed → b.count changed.length ∧ ∀ x ∈ changed, x.Within b)
    (hheap : heap.modifyItems handle change = .ok heap') : heap'.Within b := by
  obtain ⟨kind, items, changed, hobject, hchanged, rfl⟩ := modifyItems_eq_ok.1 hheap
  have hwithin := h handle _ hobject
  obtain ⟨hlength, hitems⟩ := hchange items changed hwithin.length hwithin.elements hchanged
  exact h.put (.compound hlength hitems)

lemma modifyBytes {change : Bytes → Except ExecutionError Bytes} (h : heap.Within b)
    (hchange : ∀ bytes changed, change bytes = .ok changed → changed.length = bytes.length)
    (hheap : heap.modifyBytes handle change = .ok heap') : heap'.Within b := by
  obtain ⟨bytes, changed, hobject, hchanged, rfl⟩ := modifyBytes_eq_ok.1 hheap
  refine h.put (.buffer ?_)
  rw [hchange bytes changed hchanged]
  exact (h handle _ hobject).length

lemma freeze (h : heap.Within b) (hheap : heap.freeze handle = .ok heap') : heap'.Within b := by
  obtain ⟨object, hobject, rfl⟩ := freeze_eq_ok.1 hheap
  exact h.put (h handle object hobject).frozen

end Within

end Heap

end SymbolicScript
