import SymbolicScript.Item.Order
import SymbolicScript.SortedMap

/-!
# The view of storage

Within a run, storage is known as far as the run itself has written it. A write under a symbolic
key may have changed the value of any key, so from then on a key that has not been written itself
has an unknown value.
-/

namespace SymbolicScript

/-- The writes of a run. -/
structure StorageView where
  /-- The last value written under every key, none for a removal. -/
  values : SortedMap Item (Option Item)
  /-- Whether a write under a symbolic key has occurred. -/
  clobbered : Bool
  deriving DecidableEq, Repr

namespace StorageView

/-- The view before any write. -/
def empty : StorageView := ⟨.empty, false⟩

/-- The value of a key. The identity `id` is used if the value is a fresh unknown. -/
def get (view : StorageView) (id : Nat) (key : Item) : Item :=
  match view.values.find? key with
  | some (some value) => value
  | some none => .null
  | none => if view.clobbered then .unknown .any (.fresh id) else .storage key

/-- Writes a value under a key, or removes the key. -/
def set (view : StorageView) (key : Item) (value : Option Item) : StorageView :=
  { values := view.values.insert key value, clobbered := view.clobbered || key.isSymbolic }

end StorageView

end SymbolicScript
