import SymbolicScript.Item.Order
import SymbolicScript.Item.Text
import SymbolicScript.SortedMap

/-!
# Accesses to persistent locations

The tracker records which variables and storage keys a run reads and writes. A location counts as
read only if its first access is a read, since otherwise the value read is the run's own; the
offset kept is that of the first such read. For a written location it is that of the last write.
-/

namespace SymbolicScript

/-- A location that an instruction reads or writes. -/
inductive Access where
  /-- A variable. -/
  | slot (kind : SlotKind) (index : Nat)
  /-- A storage key. -/
  | storage (key : Item)
  deriving DecidableEq, Repr

namespace Access

/-- The item that stands for the value the location had before the run. -/
def item : Access → Item
  | slot kind index => .slot kind index
  | storage key => .storage key

/-- Variables come before storage keys, and each in the order of items. -/
instance : Ord Access := ⟨fun a b => compare a.item b.item⟩

theorem item_injective {a b : Access} (h : a.item = b.item) : a = b := by
  cases a <;> cases b <;> simp_all [item]

instance : Std.LawfulEqOrd Access where
  compare_self := Std.ReflOrd.compare_self (α := Item)
  eq_of_compare h := item_injective (Std.LawfulEqOrd.eq_of_compare (α := Item) h)

/-- The text of a location, where `name` names the fresh unknowns in it. -/
def text (name : Nat → String) (a : Access) : String :=
  a.item.text name

end Access

/-- The locations read before they were written, and the locations written, with offsets. -/
structure AccessTracker where
  /-- The offset of the first read of every location read before any write. -/
  reads : SortedMap Access Nat
  /-- The offset of the last write of every location written. -/
  writes : SortedMap Access Nat
  deriving DecidableEq, Repr

namespace AccessTracker

/-- The tracker without accesses. -/
def empty : AccessTracker := ⟨.empty, .empty⟩

/-- Whether a location has been written. -/
def written (t : AccessTracker) (a : Access) : Bool := t.writes.contains a

/-- Records a read; it counts only where the location has not been written. -/
def recordRead (t : AccessTracker) (a : Access) (offset : Nat) : AccessTracker :=
  if t.written a || t.reads.contains a then t
  else { t with reads := t.reads.insert a offset }

/-- Records a write. -/
def recordWrite (t : AccessTracker) (a : Access) (offset : Nat) : AccessTracker :=
  { t with writes := t.writes.insert a offset }

/-- The locations read before they were written, in order. -/
def readSet (t : AccessTracker) : List Access := t.reads.keys

/-- The locations written, in order. -/
def writeSet (t : AccessTracker) : List Access := t.writes.keys

end AccessTracker

end SymbolicScript
