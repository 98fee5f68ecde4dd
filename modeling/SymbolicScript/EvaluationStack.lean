import SymbolicScript.Item.Order

/-!
# The evaluation stack

A script may be entered with any number of items on its stack, of which nothing is known. The
evaluation stack therefore has no bottom: whenever an operation reaches below the items that are
present, the stack extends itself by unknowns, numbered in the order in which they lie. Every
operation is total, and reading an item again gives the same unknown.
-/

namespace SymbolicScript

/-- The items that are present, top first, and how many unknowns have been added below them. -/
structure EvaluationStack where
  /-- The items, top first. -/
  items : List Item
  /-- The number of unknowns added so far. -/
  extensions : Nat
  deriving DecidableEq, Repr

namespace EvaluationStack

/-- The stack on which no item is present. -/
def empty : EvaluationStack := ⟨[], 0⟩

/-- The number of items that are present. -/
def length (s : EvaluationStack) : Nat := s.items.length

/-- The unknown that the stack adds as number `index`. -/
def extension (index : Nat) : Item := .unknown .any (.extension index)

/-- How many items a list lacks to have `count` of them, found without walking further than that
into the list. -/
def shortfall : (count : Nat) → List Item → Nat
  | 0, _ => 0
  | count + 1, [] => count + 1
  | count + 1, _ :: rest => shortfall count rest

theorem shortfall_eq (count : Nat) (items : List Item) :
    shortfall count items = count - items.length := by
  induction items generalizing count with
  | nil => cases count <;> rfl
  | cons x rest ih =>
    cases count with
    | zero => simp [shortfall]
    | succ count => simp only [shortfall, ih, List.length_cons]; omega

/-- The stack with at least `count` items present. -/
def extend (s : EvaluationStack) (count : Nat) : EvaluationStack :=
  let missing := shortfall count s.items
  if missing = 0 then s
  else
    ⟨s.items ++ (List.range missing).map fun i => extension (s.extensions + i),
      s.extensions + missing⟩

/-- A stack with enough items stays as it is. -/
theorem extend_of_le {s : EvaluationStack} {count : Nat} (h : count ≤ s.items.length) :
    s.extend count = s := by
  simp [extend, shortfall_eq, Nat.sub_eq_zero_of_le h]

/-- A stack with too few items gets the missing ones at the bottom. -/
theorem extend_of_lt {s : EvaluationStack} {count : Nat} (h : s.items.length < count) :
    s.extend count = ⟨s.items ++ (List.range (count - s.items.length)).map fun i =>
      extension (s.extensions + i), s.extensions + (count - s.items.length)⟩ := by
  have hne : count - s.items.length ≠ 0 := by omega
  simp [extend, shortfall_eq, hne]

/-- Puts an item on top. -/
def push (s : EvaluationStack) (x : Item) : EvaluationStack :=
  { s with items := x :: s.items }

/-- Puts items on top one after the other, so that the first of the list ends up on top. -/
def pushAll (s : EvaluationStack) (xs : List Item) : EvaluationStack :=
  { s with items := xs ++ s.items }

/-- The item `index` places below the top. -/
def peek (s : EvaluationStack) (index : Nat) : Item × EvaluationStack :=
  let s := s.extend (index + 1)
  (s.items.getD index .null, s)

/-- Takes out the item `index` places below the top. -/
def removeAt (s : EvaluationStack) (index : Nat) : Item × EvaluationStack :=
  let s := s.extend (index + 1)
  (s.items.getD index .null, { s with items := s.items.eraseIdx index })

/-- Takes the item off the top. -/
def pop (s : EvaluationStack) : Item × EvaluationStack :=
  s.removeAt 0

/-- Takes `count` items off the top, topmost first. -/
def popMany (s : EvaluationStack) (count : Nat) : List Item × EvaluationStack :=
  let s := s.extend count
  (s.items.take count, { s with items := s.items.drop count })

/-- Puts an item in below `index` items. -/
def insertAt (s : EvaluationStack) (index : Nat) (x : Item) : EvaluationStack :=
  let s := s.extend index
  { s with items := s.items.insertIdx index x }

/-- Reverses the order of the topmost `count` items. -/
def reverse (s : EvaluationStack) (count : Nat) : EvaluationStack :=
  let s := s.extend count
  { s with items := (s.items.take count).reverse ++ s.items.drop count }

/-- The number of items that a transfer takes: all that are present unless a count is given. -/
def transferCount (s : EvaluationStack) (count : Option Nat) : Nat :=
  count.getD s.length

/-- Copies the topmost items, or all that are present, onto another stack in the same order. Gives
the source and the destination. -/
def copyTo (s target : EvaluationStack) (count : Option Nat) :
    EvaluationStack × EvaluationStack :=
  let n := s.transferCount count
  let s := s.extend n
  (s, target.pushAll (s.items.take n))

/-- Moves the topmost items, or all that are present, onto another stack in the same order. Gives
the source and the destination. -/
def moveTo (s target : EvaluationStack) (count : Option Nat) :
    EvaluationStack × EvaluationStack :=
  let n := s.transferCount count
  let s := s.extend n
  ({ s with items := s.items.drop n }, target.pushAll (s.items.take n))

/-- Drops the items that are present. What lies below them stays unknown in the same order. -/
def clear (s : EvaluationStack) : EvaluationStack :=
  { s with items := [] }

/-- The item `index` places below the top, whether it is present or still to be added. -/
def view (s : EvaluationStack) (index : Nat) : Item :=
  if h : index < s.items.length then s.items[index]
  else extension (s.extensions + (index - s.items.length))

/-- Adding unknowns in advance does not change what lies where. -/
theorem view_extend (s : EvaluationStack) (count : Nat) : (s.extend count).view = s.view := by
  by_cases hle : count ≤ s.items.length
  · rw [extend_of_le hle]
  rw [extend_of_lt (Nat.lt_of_not_le hle)]
  funext i
  simp only [view, List.length_append, List.length_map, List.length_range]
  by_cases h1 : i < s.items.length
  · have h2 : i < s.items.length + (count - s.items.length) := by omega
    simp [h1, h2, List.getElem_append_left]
  · by_cases h2 : i < s.items.length + (count - s.items.length)
    · simp [h1, h2, List.getElem_append_right (Nat.le_of_not_lt h1)]
    · simp only [h1, h2, dif_neg, not_false_eq_true]
      congr 1
      omega

end EvaluationStack

end SymbolicScript
