import SymbolicScript.Proofs.Approximation
import SymbolicScript.Proofs.Contents
import SymbolicScript.Proofs.CopyInvariants

/-!
# Where pointers point

A pointer is an item that an instruction pushes and that may be called later, after it has been
moved on the stack, put into compounds and stored in variables.  No operation on items makes a
pointer out of anything else.  So if all pointers that are pushed point to offsets of a set, then
all pointers found anywhere do.  This file says for the stack, the heap and the variables what it
means that they hold no other pointers, and that their operations preserve it.
-/

namespace SymbolicScript

variable {L : Nat → Prop}

/-! ## Items -/

/-- The item is no pointer, or points to an offset of the set. -/
def Item.PointsInto (L : Nat → Prop) (x : Item) : Prop :=
  ∀ target, x.known? = some (.pointer target) → L target

namespace Item.PointsInto

/-- A symbolic item is no pointer. -/
lemma symbolic {x : Item} (h : x.known? = none) : x.PointsInto L := by
  intro target htarget
  rw [h] at htarget
  cases htarget

/-- Wrapping does not change where an item points. -/
lemma constant {x : Item} (h : x.PointsInto L) : x.constant.PointsInto L := by
  intro target htarget
  rw [Item.known?_constant] at htarget
  exact h target htarget

lemma null : Item.null.PointsInto L := nofun

lemma boolean (value : Bool) : (Item.boolean value).PointsInto L := nofun

lemma integer (value : Int) : (Item.integer value).PointsInto L := nofun

lemma byteString (bytes : Bytes) : (Item.byteString bytes).PointsInto L := nofun

lemma buffer (handle : Nat) : (Item.buffer handle).PointsInto L := nofun

lemma compound (kind : CompoundKind) (handle : Nat) : (kind.item handle).PointsInto L := by
  cases kind <;> nofun

lemma pointer {target : Nat} (h : L target) : (Item.pointer target).PointsInto L := by
  rintro _ ⟨⟩
  exact h

/-- The element of a list, or a default, at an index. -/
lemma getD {items : List Item} (h : ∀ x ∈ items, x.PointsInto L) {d : Item}
    (hd : d.PointsInto L) (index : Nat) : (items.getD index d).PointsInto L := by
  rw [List.getD_eq_getElem?_getD]
  cases hitem : items[index]? with
  | none => exact hd
  | some x => exact h x (List.mem_of_getElem? hitem)

end Item.PointsInto

/-! ## The evaluation stack -/

/-- All items that are present on the stack point into the set. -/
def EvaluationStack.PointsInto (L : Nat → Prop) (s : EvaluationStack) : Prop :=
  ∀ x ∈ s.items, x.PointsInto L

namespace EvaluationStack.PointsInto

variable {s : EvaluationStack}

/-- The unknowns that a stack adds are no pointers. -/
lemma extension (index : Nat) : (EvaluationStack.extension index).PointsInto L :=
  .symbolic rfl

lemma empty : EvaluationStack.empty.PointsInto L :=
  All.empty

lemma extend (h : s.PointsInto L) (count : Nat) : (s.extend count).PointsInto L :=
  All.extend extension h count

lemma push {x : Item} (h : s.PointsInto L) (hx : x.PointsInto L) : (s.push x).PointsInto L :=
  All.push h hx

lemma pushAll {xs : List Item} (h : s.PointsInto L) (hxs : ∀ x ∈ xs, x.PointsInto L) :
    (s.pushAll xs).PointsInto L :=
  All.pushAll h hxs

lemma peek (h : s.PointsInto L) (index : Nat) :
    (s.peek index).1.PointsInto L ∧ (s.peek index).2.PointsInto L :=
  All.peek extension h index

lemma removeAt (h : s.PointsInto L) (index : Nat) :
    (s.removeAt index).1.PointsInto L ∧ (s.removeAt index).2.PointsInto L :=
  All.removeAt extension h index

lemma popMany (h : s.PointsInto L) (count : Nat) :
    (∀ x ∈ (s.popMany count).1, x.PointsInto L) ∧ (s.popMany count).2.PointsInto L :=
  All.popMany extension h count

lemma insertAt {x : Item} (h : s.PointsInto L) (hx : x.PointsInto L) (index : Nat) :
    (s.insertAt index x).PointsInto L :=
  All.insertAt extension h hx index

lemma reverse (h : s.PointsInto L) (count : Nat) : (s.reverse count).PointsInto L :=
  All.reverse extension h count

lemma clear (s : EvaluationStack) : s.clear.PointsInto L :=
  All.clear s

/-- Moving items from one stack onto another. -/
lemma moveTo {target : EvaluationStack} (h : s.PointsInto L) (htarget : target.PointsInto L)
    (count : Option Nat) :
    (s.moveTo target count).1.PointsInto L ∧ (s.moveTo target count).2.PointsInto L :=
  All.moveTo extension h htarget count

end EvaluationStack.PointsInto

/-! ## The heap -/

/-- All elements of the object point into the set. -/
def HeapObject.PointsInto (L : Nat → Prop) : HeapObject → Prop
  | .buffer _ => True
  | .compound _ items _ => ∀ x ∈ items, x.PointsInto L

/-- All elements of all objects point into the set. -/
def Heap.PointsInto (L : Nat → Prop) (heap : Heap) : Prop :=
  ∀ (handle : Nat) (object : HeapObject), heap.objects[handle]? = some object →
    object.PointsInto L

namespace Heap.PointsInto

variable {heap heap' : Heap} {handle : Nat}

lemma empty : Heap.empty.PointsInto L := nofun

lemma add {object : HeapObject} (h : heap.PointsInto L) (hobject : object.PointsInto L) :
    (heap.add object).PointsInto L :=
  All.add (P := Item.PointsInto L) h hobject

lemma items {items : List Item} (h : heap.PointsInto L) (hitems : heap.items handle = .ok items) :
    ∀ x ∈ items, x.PointsInto L :=
  All.items (P := Item.PointsInto L) h hitems

lemma modifyItems {change : List Item → Except ExecutionError (List Item)} (h : heap.PointsInto L)
    (hchange : ∀ items changed, (∀ x ∈ items, x.PointsInto L) → change items = .ok changed →
      ∀ x ∈ changed, x.PointsInto L)
    (hheap : heap.modifyItems handle change = .ok heap') : heap'.PointsInto L :=
  All.modifyItems (P := Item.PointsInto L) h hchange hheap

lemma modifyBytes {change : Bytes → Except ExecutionError Bytes} (h : heap.PointsInto L)
    (hheap : heap.modifyBytes handle change = .ok heap') : heap'.PointsInto L :=
  All.modifyBytes (P := Item.PointsInto L) h hheap

lemma freeze (h : heap.PointsInto L) (hheap : heap.freeze handle = .ok heap') :
    heap'.PointsInto L :=
  All.freeze (P := Item.PointsInto L) h hheap

lemma newBuffer (h : heap.PointsInto L) (bytes : Bytes) :
    (heap.newBuffer bytes).1.PointsInto L ∧ (heap.newBuffer bytes).2.PointsInto L :=
  ⟨.buffer _, h.add trivial⟩

lemma newCompound {items : List Item} (h : heap.PointsInto L) (kind : CompoundKind)
    (hitems : ∀ x ∈ items, x.PointsInto L) :
    (heap.newCompound kind items).1.PointsInto L ∧
      (heap.newCompound kind items).2.PointsInto L :=
  ⟨.compound kind _, h.add hitems⟩

/-! ### Conversion -/

/-- What a conversion makes out of something found. -/
lemma converted {α : Type} {found : Except ExecutionError α} {result : α → Item × Heap} {y : Item}
    (hresult : ∀ a, found = .ok a → (result a).1.PointsInto L ∧ (result a).2.PointsInto L)
    (hconvert : (do return result (← found)) = .ok (y, heap')) :
    y.PointsInto L ∧ heap'.PointsInto L := by
  obtain ⟨a, hfound, hpure⟩ := except_bind_eq_ok.1 hconvert
  have hy := hresult a hfound
  rw [Except.ok.inj hpure] at hy
  exact hy

/-- Converting a value to another type does not give a pointer. -/
lemma convertKnown {value y : Item} {target : ItemType} (h : heap.PointsInto L)
    (hconvert : heap.convertKnown value target = .ok (y, heap')) :
    y.PointsInto L ∧ heap'.PointsInto L := by
  unfold Heap.convertKnown at hconvert
  split at hconvert
  case h_1 | h_16 => cases hconvert
  case h_2 => exact converted (fun _ _ => ⟨.constant (.boolean _), h⟩) hconvert
  case h_3 | h_4 | h_5 => exact converted (fun _ _ => ⟨.constant (.integer _), h⟩) hconvert
  case h_6 =>
    obtain ⟨bytes, -, hafter⟩ := except_bind_eq_ok.1 hconvert
    exact converted (fun _ _ => ⟨.constant (.integer _), h⟩) hafter
  case h_7 | h_8 | h_9 | h_10 =>
    exact converted (fun _ _ => ⟨.constant (.byteString _), h⟩) hconvert
  case h_11 | h_12 | h_13 => exact converted (fun _ _ => h.newBuffer _) hconvert
  case h_14 | h_15 =>
    exact converted (fun _ hitems => h.newCompound _ (h.items hitems)) hconvert

/-- Converting an item gives the item itself or no pointer. -/
lemma convert {id : Nat} {x y : Item} {target : ItemType} (h : heap.PointsInto L)
    (hx : x.PointsInto L) (hconvert : heap.convert id x target = .ok (y, heap')) :
    y.PointsInto L ∧ heap'.PointsInto L := by
  unfold Heap.convert at hconvert
  split at hconvert
  · cases hconvert
    exact ⟨.symbolic rfl, h⟩
  · split at hconvert
    · cases hconvert
      exact ⟨hx, h⟩
    · exact h.convertKnown hconvert

end Heap.PointsInto

/-! ### Copies -/

namespace Heap

/-- A copy is no pointer, and nothing else comes into the heap by copying. -/
lemma copyInvariant_pointsInto :
    CopyInvariant 0 (Heap.PointsInto L) (Item.PointsInto L) fun _ => True where
  elements hheap hobject := ⟨trivial, hheap _ _ hobject⟩
  item object handle := by
    cases object with
    | buffer bytes => exact .buffer handle
    | compound kind items readOnly => exact .compound kind handle
  size _ := Nat.zero_le _
  allocate _ hheap := hheap.add nofun
  store hheap _ _ hcopied hmodify := hheap.modifyItems (by
    rintro _ _ - ⟨⟩
    exact hcopied) hmodify
  freeze hheap _ hfreeze := hheap.freeze hfreeze

/-- What is stored when an item is put into a compound points where the item does, and nothing else
comes into the heap, also if the copy fails. -/
lemma PointsInto.cloneStruct {heap : Heap} {x : Item} (h : heap.PointsInto L)
    (hx : x.PointsInto L) :
    (heap.cloneStruct x).2.PointsInto L ∧
      ∀ y, (heap.cloneStruct x).1 = .ok y → y.PointsInto L :=
  copyInvariant_pointsInto.cloneStruct h hx

end Heap

end SymbolicScript
