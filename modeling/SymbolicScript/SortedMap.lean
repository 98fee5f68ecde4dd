/-!
# Finite maps in key order

A sorted map lists its bindings in the order of their keys, so that reports list them
deterministically. Insertion replaces the binding of a key that is already bound and keeps the
order otherwise. `find?_insert` describes the map as a function of its keys.
-/

namespace SymbolicScript

/-- Bindings of keys to values, in the order of the keys. -/
structure SortedMap (κ ν : Type) where
  /-- The bindings. -/
  entries : List (κ × ν)
  deriving DecidableEq, Repr

namespace SortedMap

variable {κ ν : Type}

/-- The map without bindings. -/
def empty : SortedMap κ ν := ⟨[]⟩

/-- The bound keys, in order. -/
def keys (m : SortedMap κ ν) : List κ := m.entries.map (·.1)

section

variable [Ord κ]

/-- The value of the first binding of `key` in a list of bindings. -/
def lookup (key : κ) : List (κ × ν) → Option ν
  | [] => none
  | (k, v) :: rest => if compare key k = .eq then some v else lookup key rest

/-- The value of a key. -/
def find? (m : SortedMap κ ν) (key : κ) : Option ν := lookup key m.entries

/-- Whether a key is bound. -/
def contains (m : SortedMap κ ν) (key : κ) : Bool := (m.find? key).isSome

/-- A list of bindings with `key` bound to `value`, in front of the first greater key. -/
def place (key : κ) (value : ν) : List (κ × ν) → List (κ × ν)
  | [] => [(key, value)]
  | (k, v) :: rest =>
    match compare key k with
    | .lt => (key, value) :: (k, v) :: rest
    | .eq => (key, value) :: rest
    | .gt => (k, v) :: place key value rest

/-- Binds a key, replacing its earlier binding. -/
def insert (m : SortedMap κ ν) (key : κ) (value : ν) : SortedMap κ ν :=
  ⟨place key value m.entries⟩

@[simp] theorem find?_empty (key : κ) : (empty : SortedMap κ ν).find? key = none := rfl

variable [Std.LawfulEqOrd κ]

theorem lookup_place (key key' : κ) (value : ν) (bindings : List (κ × ν)) :
    lookup key' (place key value bindings)
      = if compare key' key = .eq then some value else lookup key' bindings := by
  induction bindings with
  | nil => simp [place, lookup]
  | cons binding rest ih =>
    obtain ⟨k, v⟩ := binding
    simp only [place]
    split
    · simp [lookup]
    · next h =>
      have hk := Std.LawfulEqOrd.eq_of_compare h
      subst hk
      by_cases he : compare key' key = .eq <;> simp [lookup, he]
    · next h =>
      by_cases he : compare key' key = .eq
      · have hk := Std.LawfulEqOrd.eq_of_compare he
        subst hk
        simp [lookup, h, ih]
      · simp [lookup, ih, he]

/-- Insertion changes the value of the inserted key and of no other. -/
theorem find?_insert [DecidableEq κ] (m : SortedMap κ ν) (key key' : κ) (value : ν) :
    (m.insert key value).find? key' = if key' = key then some value else m.find? key' := by
  simp [find?, insert, lookup_place]

end

end SortedMap

end SymbolicScript
