import SymbolicScript.Item.Basic

/-!
# Order and equality of items

Items have a total order, so that reports about them are deterministic: first by the form of the
item, then by its contents. The order is lawful, that is two items compare as equal only if they
are equal, and equality of items is decided by it.
-/

namespace SymbolicScript

/-- Types compare by the bytes that encode them. -/
instance : Ord ItemType := ⟨fun a b => compare a.byte b.byte⟩

/-- The place of a kind of slot among the kinds. -/
def SlotKind.rank : SlotKind → Nat
  | .static => 0
  | .local => 1
  | .argument => 2

/-- Static fields come first and arguments last. -/
instance : Ord SlotKind := ⟨fun a b => compare a.rank b.rank⟩

/-- Extensions come before fresh unknowns. -/
instance : Ord UnknownOrigin where
  compare
    | .extension i, .extension j => compare i j
    | .extension _, .fresh _ => .lt
    | .fresh _, .extension _ => .gt
    | .fresh i, .fresh j => compare i j

theorem ItemType.eq_of_compare {a b : ItemType} (h : compare a b = .eq) : a = b := by
  have hb : a.byte = b.byte := Std.LawfulEqOrd.eq_of_compare h
  have ha := ItemType.ofByte?_byte a
  rw [hb, ItemType.ofByte?_byte b] at ha
  exact (Option.some.inj ha).symm

theorem SlotKind.eq_of_compare {a b : SlotKind} (h : compare a b = .eq) : a = b := by
  have hr : a.rank = b.rank := Std.LawfulEqOrd.eq_of_compare h
  cases a <;> cases b <;> first | rfl | exact absurd hr (by decide)

theorem UnknownOrigin.eq_of_compare {a b : UnknownOrigin} (h : compare a b = .eq) : a = b := by
  cases a <;> cases b
  · exact congrArg _ (Std.LawfulEqOrd.eq_of_compare (α := Nat) h)
  · exact nomatch (show Ordering.lt = .eq from h)
  · exact nomatch (show Ordering.gt = .eq from h)
  · exact congrArg _ (Std.LawfulEqOrd.eq_of_compare (α := Nat) h)

theorem Opcode.eq_of_compare {a b : Opcode} (h : compare a b = .eq) : a = b :=
  Opcode.byte_injective (Std.LawfulEqOrd.eq_of_compare (α := UInt8) h)

instance : Std.LawfulEqOrd ItemType where
  compare_self := Std.ReflOrd.compare_self (α := UInt8)
  eq_of_compare := ItemType.eq_of_compare

instance : Std.LawfulEqOrd SlotKind where
  compare_self := Std.ReflOrd.compare_self (α := Nat)
  eq_of_compare := SlotKind.eq_of_compare

instance : Std.LawfulEqOrd UnknownOrigin where
  compare_self := by
    intro a
    cases a <;> exact Std.ReflOrd.compare_self (α := Nat)
  eq_of_compare := UnknownOrigin.eq_of_compare

instance : Std.LawfulEqOrd Opcode where
  compare_self := Std.ReflOrd.compare_self (α := UInt8)
  eq_of_compare := Opcode.eq_of_compare

namespace Item

/-- The place of the form of an item among the forms. -/
def rank : Item → Nat
  | null => 0
  | boolean _ => 1
  | integer _ => 2
  | byteString _ => 3
  | pointer _ => 4
  | buffer _ => 5
  | array _ => 6
  | struct _ => 7
  | unknown _ _ => 8
  | const _ => 9
  | slot _ _ => 10
  | storage _ => 11
  | derived _ _ => 12
  | stackDepth => 13

mutual

/-- The order of items: by form, then by contents. -/
def order : Item → Item → Ordering
  | boolean a, boolean b => compare a b
  | integer a, integer b => compare a b
  | byteString a, byteString b => compare a b
  | pointer a, pointer b => compare a b
  | buffer a, buffer b => compare a b
  | array a, array b => compare a b
  | struct a, struct b => compare a b
  | unknown t a, unknown u b => (compare t u).then (compare a b)
  | const a, const b => order a b
  | slot k a, slot l b => (compare k l).then (compare a b)
  | storage a, storage b => order a b
  | derived f as, derived g bs => (compare f g).then (orderList as bs)
  | a, b => compare a.rank b.rank

/-- The lexicographic order of lists of items. -/
def orderList : List Item → List Item → Ordering
  | [], [] => .eq
  | [], _ :: _ => .lt
  | _ :: _, [] => .gt
  | a :: as, b :: bs => (order a b).then (orderList as bs)

end

instance : Ord Item := ⟨order⟩

mutual

theorem order_self : (a : Item) → order a a = .eq
  | null => rfl
  | boolean _ => by simp [order]
  | integer _ => by simp [order]
  | byteString _ => by simp [order]
  | pointer _ => by simp [order]
  | buffer _ => by simp [order]
  | array _ => by simp [order]
  | struct _ => by simp [order]
  | unknown _ _ => by simp [order]
  | const a => by simpa [order] using order_self a
  | slot _ _ => by simp [order]
  | storage a => by simpa [order] using order_self a
  | derived _ as => by simpa [order] using orderList_self as
  | stackDepth => rfl

theorem orderList_self : (as : List Item) → orderList as as = .eq
  | [] => rfl
  | a :: as => by simp [orderList, order_self a, orderList_self as]

end

/-- Items of different forms never compare as equal. -/
theorem rank_eq_of_order {a b : Item} (h : order a b = .eq) : a.rank = b.rank := by
  unfold order at h
  split at h <;>
    first
    | rfl
    | exact Std.LawfulEqOrd.eq_of_compare h

mutual

theorem eq_of_order : {a b : Item} → order a b = .eq → a = b
  | null, b, h => by
    have hr := rank_eq_of_order h
    cases b <;> simp_all [rank]
  | boolean _, b, h => by
    have hr := rank_eq_of_order h
    cases b <;> simp_all [rank, order]
  | integer _, b, h => by
    have hr := rank_eq_of_order h
    cases b <;> simp_all [rank, order]
  | byteString _, b, h => by
    have hr := rank_eq_of_order h
    cases b <;> simp_all [rank, order]
  | pointer _, b, h => by
    have hr := rank_eq_of_order h
    cases b <;> simp_all [rank, order]
  | buffer _, b, h => by
    have hr := rank_eq_of_order h
    cases b <;> simp_all [rank, order]
  | array _, b, h => by
    have hr := rank_eq_of_order h
    cases b <;> simp_all [rank, order]
  | struct _, b, h => by
    have hr := rank_eq_of_order h
    cases b <;> simp_all [rank, order]
  | unknown _ _, b, h => by
    have hr := rank_eq_of_order h
    cases b <;> simp_all [rank, order]
  | const a, b, h => by
    have hr := rank_eq_of_order h
    cases b <;> simp_all only [rank, order, reduceCtorEq, Nat.reduceEqDiff]
    exact congrArg const (eq_of_order h)
  | slot _ _, b, h => by
    have hr := rank_eq_of_order h
    cases b <;> simp_all [rank, order]
  | storage a, b, h => by
    have hr := rank_eq_of_order h
    cases b <;> simp_all only [rank, order, reduceCtorEq, Nat.reduceEqDiff]
    exact congrArg storage (eq_of_order h)
  | derived f as, b, h => by
    have hr := rank_eq_of_order h
    cases b <;> simp_all only [rank, order, reduceCtorEq, Nat.reduceEqDiff]
    simp only [Ordering.then_eq_eq, Std.LawfulEqOrd.compare_eq_iff_eq] at h
    rw [h.1, eq_of_orderList h.2]
  | stackDepth, b, h => by
    have hr := rank_eq_of_order h
    cases b <;> simp_all [rank]

theorem eq_of_orderList : {as bs : List Item} → orderList as bs = .eq → as = bs
  | [], [], _ => rfl
  | [], _ :: _, h => by simp [orderList] at h
  | _ :: _, [], h => by simp [orderList] at h
  | a :: as, b :: bs, h => by
    simp only [orderList, Ordering.then_eq_eq] at h
    rw [eq_of_order h.1, eq_of_orderList h.2]

end

instance : Std.LawfulEqOrd Item where
  compare_self := order_self _
  eq_of_compare := eq_of_order

instance : DecidableEq Item := fun a b =>
  decidable_of_iff (order a b = .eq) ⟨eq_of_order, fun h => h ▸ order_self a⟩

end Item

end SymbolicScript
