import SymbolicScript.Item.Order
import SymbolicScript.SortedMap

/-!
# Variables

A slot is a fixed number of variables of one kind. Before a script has initialized a slot, its
variables are open: a variable that has been stored to has the stored value, and any other stands
for the value that it had before the script touched it.
-/

namespace SymbolicScript

/-- A fixed number of variables of one kind. -/
structure Slot where
  /-- The kind of the variables. -/
  kind : SlotKind
  /-- The values of the variables. -/
  items : List Item
  deriving DecidableEq, Repr

namespace Slot

/-- A slot of `size` variables that are null. -/
def ofSize (kind : SlotKind) (size : Nat) : Slot :=
  ⟨kind, List.replicate size .null⟩

/-- The number of variables. -/
def length (s : Slot) : Nat := s.items.length

/-- The error for an index that is too large. -/
def outOfRange (s : Slot) (index : Nat) : ExecutionError :=
  .slotIndexOutOfRange s.kind index s.length

/-- The value of a variable. -/
def load (s : Slot) (index : Nat) : Except ExecutionError Item :=
  match s.items[index]? with
  | some x => .ok x
  | none => .error (s.outOfRange index)

/-- Gives a variable another value. -/
def store (s : Slot) (index : Nat) (x : Item) : Except ExecutionError Slot :=
  if index < s.length then .ok { s with items := s.items.set index x }
  else .error (s.outOfRange index)

end Slot

/-- The state of the variables of one kind. -/
inductive VariableState where
  /-- Not initialized; the stored values are given by index. -/
  | uninitialized (stored : SortedMap Nat Item)
  /-- Initialized to a fixed number of variables. -/
  | initialized (items : List Item)
  deriving DecidableEq, Repr

/-- The variables of one kind. -/
structure Variables where
  /-- The kind of the variables. -/
  kind : SlotKind
  /-- Whether the variables are initialized, and their values. -/
  state : VariableState
  deriving DecidableEq, Repr

namespace Variables

/-- Variables that nothing has been stored to. -/
def untouched (kind : SlotKind) : Variables :=
  ⟨kind, .uninitialized .empty⟩

/-- Whether the variables are initialized. -/
def isInitialized (v : Variables) : Bool :=
  match v.state with
  | .uninitialized _ => false
  | .initialized _ => true

/-- The slot of initialized variables. -/
def slot? (v : Variables) : Option Slot :=
  match v.state with
  | .uninitialized _ => none
  | .initialized items => some ⟨v.kind, items⟩

/-- The value of a variable. -/
def load (v : Variables) (index : Nat) : Except ExecutionError Item :=
  match v.state with
  | .uninitialized stored => .ok ((stored.find? index).getD (.slot v.kind index))
  | .initialized items => Slot.load ⟨v.kind, items⟩ index

/-- Gives a variable another value. -/
def store (v : Variables) (index : Nat) (x : Item) : Except ExecutionError Variables :=
  match v.state with
  | .uninitialized stored => .ok { v with state := .uninitialized (stored.insert index x) }
  | .initialized items => do
    let slot ← Slot.store ⟨v.kind, items⟩ index x
    return { v with state := .initialized slot.items }

/-- Initializes the variables with the given values, which is possible once. -/
def allocateWith (v : Variables) (items : List Item) : Except ExecutionError Variables :=
  if v.isInitialized then .error (.slotAlreadyInitialized v.kind)
  else .ok { v with state := .initialized items }

/-- Initializes `size` variables to null. -/
def allocate (v : Variables) (size : Nat) : Except ExecutionError Variables :=
  v.allocateWith (List.replicate size .null)

end Variables

end SymbolicScript
