import SymbolicScript.Heap.Basic

/-!
# Equality of items

Items are equal by type and value, and arrays and buffers by identity. Structs are equal if their
fields are, and cyclic structs are compared by assuming equal every pair that is already being
compared. The answer is three-valued: it is open when it depends on a symbolic item.
-/

namespace SymbolicScript

namespace Heap

/-- The pairs of handles of a heap that are not among `seen`. -/
def unseenPairs (heap : Heap) (seen : List (Nat × Nat)) : Nat :=
  ((List.range heap.size).flatMap fun x => (List.range heap.size).map fun y => (x, y)).countP
    fun pair => !seen.contains pair

/-- What comparing the fields of two structs shows: a definite difference, or else the pairs of
nested structs that are left to compare, last first, and whether some field is symbolic. -/
inductive FieldComparison where
  | different
  | remaining (pairs : List (Nat × Nat)) (uncertain : Bool)

/-- Compares the fields of two structs in order, adding to what is left to compare. -/
def compareFields (pairs : List (Nat × Nat)) (uncertain : Bool) :
    List (Item × Item) → FieldComparison
  | [] => .remaining pairs uncertain
  | (a, b) :: rest =>
    match a.known?, b.known? with
    | some (.struct p), some (.struct q) => compareFields ((p, q) :: pairs) uncertain rest
    | some x, some y => if x = y then compareFields pairs uncertain rest else .different
    | _, _ => compareFields pairs true rest

theorem mem_size_of_items {heap : Heap} {handle : Nat} {found : List Item}
    (h : heap.items handle = .ok found) : handle < heap.size := by
  by_cases hlt : handle < heap.size
  · exact hlt
  · have hnone : heap.objects[handle]? = none := by
      simpa [size] using hlt
    simp [items, object, hnone, bind, Except.bind] at h

/-- A predicate that implies another, and fails where the other holds, counts fewer elements. -/
theorem countP_lt_of_imp {α : Type} {p q : α → Bool} {l : List α} {a : α}
    (himp : ∀ b, p b = true → q b = true) (ha : a ∈ l) (hp : p a = false) (hq : q a = true) :
    l.countP p < l.countP q := by
  induction l with
  | nil => cases ha
  | cons b rest ih =>
    have hmono : rest.countP p ≤ rest.countP q := List.countP_mono_left fun b _ => himp b
    rcases List.mem_cons.1 ha with rfl | hrest
    · simp only [List.countP_cons, hp, hq, if_true, Bool.false_eq_true, if_false]
      omega
    · have hlt := ih hrest
      simp only [List.countP_cons]
      cases hpb : p b
      · simp only [Bool.false_eq_true, if_false]
        omega
      · simp only [himp b hpb, if_true]
        omega

theorem unseenPairs_cons_lt {heap : Heap} {x y : Nat} {seen : List (Nat × Nat)}
    (hx : x < heap.size) (hy : y < heap.size) (hnew : (x, y) ∉ seen) :
    heap.unseenPairs ((x, y) :: seen) < heap.unseenPairs seen := by
  apply countP_lt_of_imp (a := (x, y))
  · intro pair h
    simp only [List.contains_cons, Bool.not_or, Bool.and_eq_true] at h
    exact h.2
  · simp [hx, hy]
  · simp
  · simpa using hnew

/-- Compares structs pair by pair until a difference shows or no pair is left. `seen` holds the
pairs compared so far and `uncertain` tells whether a symbolic field has been met. -/
def comparePairs (heap : Heap) (seen : List (Nat × Nat)) (uncertain : Bool) :
    List (Nat × Nat) → Except ExecutionError (Option Bool)
  | [] => .ok (if uncertain then none else some true)
  | (x, y) :: pending =>
    if x = y ∨ (x, y) ∈ seen then
      comparePairs heap seen uncertain pending
    else
      match _hx : heap.items x, _hy : heap.items y with
      | .error e, _ => .error e
      | .ok _, .error e => .error e
      | .ok left, .ok right =>
        if left.length ≠ right.length then
          .ok (some false)
        else
          match compareFields pending uncertain (left.zip right) with
          | .different => .ok (some false)
          | .remaining pairs uncertain => comparePairs heap ((x, y) :: seen) uncertain pairs
termination_by pending => (heap.unseenPairs seen, pending.length)
decreasing_by
  · exact Prod.Lex.right _ (by simp)
  · apply Prod.Lex.left
    apply unseenPairs_cons_lt
    · exact mem_size_of_items _hx
    · exact mem_size_of_items _hy
    · intro hmem
      simp_all

/-- Whether two items are equal, if that can be told. -/
def equals (heap : Heap) (a b : Item) : Except ExecutionError (Option Bool) :=
  match a.known?, b.known? with
  | some (.struct x), some (.struct y) => heap.comparePairs [] false [(x, y)]
  | some x, some y => .ok (some (x = y))
  | _, _ => .ok none

end Heap

end SymbolicScript
