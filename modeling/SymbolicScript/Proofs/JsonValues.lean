import SymbolicScript.Json.Document
import SymbolicScript.Proofs.SortedBindings

/-!
# JSON values up to the order of members

A value that is read from a text lists the members of its objects in the order of their keys, each
key once.  A value that is written may list them in another order.  Both say the same if they are
the same once they have been put in order (`Json.canonical`).  Values that have been read are in
order already (`Document.canonical_of_value?`).
-/

namespace SymbolicScript

namespace Json

mutual

/-- The value with the members of all objects in the order of their keys.  Of members with the same
key the last one counts, as it does for a value that is read from a text. -/
def canonical : Json → Json
  | null => null
  | bool value => bool value
  | number value => number value
  | string value => string value
  | array elements => array (canonicalElements elements)
  | object members => object (SortedMap.ofList (canonicalMembers members)).entries

/-- The elements with their members in order. -/
def canonicalElements : List Json → List Json
  | [] => []
  | x :: xs => x.canonical :: canonicalElements xs

/-- The members, with the members inside their values in order. -/
def canonicalMembers : List (String × Json) → List (String × Json)
  | [] => []
  | (key, x) :: xs => (key, x.canonical) :: canonicalMembers xs

end

lemma canonicalElements_eq_map (xs : List Json) : canonicalElements xs = xs.map canonical := by
  induction xs with
  | nil => rfl
  | cons x xs ih => rw [canonicalElements, ih, List.map_cons]

lemma canonicalMembers_eq_map (members : List (String × Json)) :
    canonicalMembers members = members.map fun b => (b.1, b.2.canonical) := by
  induction members with
  | nil => rfl
  | cons b members ih => rw [canonicalMembers, ih, List.map_cons]

/-- Members as they are read: in the order of their keys, with values that are in order. -/
structure ReadMembers (found : SortedMap String Json) : Prop where
  /-- The keys are in order. -/
  ascending : found.Ascending
  /-- The values are in order. -/
  values : ∀ key x, found.find? key = some x → x.canonical = x

namespace ReadMembers

variable {found : SortedMap String Json}

lemma empty : ReadMembers .empty :=
  ⟨SortedMap.ascending_empty, nofun⟩

lemma insert (h : ReadMembers found) (key : String) {x : Json} (hx : x.canonical = x) :
    ReadMembers (found.insert key x) where
  ascending := h.ascending.insert key x
  values k y hfind := by
    rw [SortedMap.find?_insert] at hfind
    split at hfind
    · cases hfind
      exact hx
    · exact h.values k y hfind

/-- Nothing changes when their values are put in order. -/
lemma canonicalMembers_eq (h : ReadMembers found) :
    canonicalMembers found.entries = found.entries := by
  rw [canonicalMembers_eq_map]
  refine (List.map_congr_left fun b hb => ?_).trans (List.map_id _)
  rw [h.values b.1 b.2 (h.ascending.find?_eq_some_iff.2 hb)]
  rfl

end ReadMembers

/-- A value whose elements have been changed, each according to its place in the array. -/
def mapElements (change : Nat → Json → Json) : Json → Json
  | array elements => array (elements.mapIdx change)
  | x => x

/-- A value whose members have been changed, each according to its key in the object. -/
def mapMembers (change : String → Json → Json) : Json → Json
  | object members => object (members.map fun b => (b.1, change b.1 b.2))
  | x => x

/-- Nothing changes where no element does. -/
lemma mapElements_id (j : Json) : j.mapElements (fun _ x => x) = j := by
  cases j with
  | array elements => exact congrArg array (List.ext_getElem? (by simp))
  | _ => rfl

/-- Nothing changes where no member does. -/
lemma mapMembers_id (j : Json) : j.mapMembers (fun _ x => x) = j := by
  cases j with
  | object members => exact congrArg object (List.map_id _)
  | _ => rfl

/-- A value in which the member of a key has been changed. -/
def modify (key : String) (change : Json → Json) : Json → Json :=
  mapMembers fun k x => if k = key then change x else x

end Json

namespace Document

mutual

/-- A value that has been read is in order. -/
lemma canonical_of_value? {depth : Nat} (x : Document) {j : Json} (h : x.value? depth = some j) :
    j.canonical = j := by
  cases x with
  | null | bool _ =>
    cases h
    rfl
  | number numeral =>
    obtain ⟨value, -, rfl⟩ := Option.map_eq_some_iff.1 h
    rfl
  | string codes =>
    obtain ⟨value, -, rfl⟩ := Option.map_eq_some_iff.1 h
    rfl
  | array elements =>
    rw [value?] at h
    split at h
    · obtain ⟨values, hvalues, rfl⟩ := Option.map_eq_some_iff.1 h
      rw [Json.canonical, canonicalElements_of_values? elements hvalues]
    · cases h
  | object members =>
    rw [value?] at h
    split at h
    · obtain ⟨found, hfound, rfl⟩ := Option.map_eq_some_iff.1 h
      have hread := readMembers_of_values? members hfound .empty
      rw [Json.canonical, hread.canonicalMembers_eq, hread.ascending.ofList_entries]
    · cases h

/-- Elements that have been read are in order. -/
lemma canonicalElements_of_values? {depth : Nat} (xs : List Document) {values : List Json}
    (h : elementValues? depth xs = some values) : Json.canonicalElements values = values := by
  cases xs with
  | nil =>
    cases h
    rfl
  | cons x xs =>
    simp only [elementValues?, Option.bind_eq_bind, Option.bind_eq_some_iff] at h
    obtain ⟨value, hvalue, values, hvalues, hsome⟩ := h
    cases hsome
    rw [Json.canonicalElements, canonical_of_value? x hvalue,
      canonicalElements_of_values? xs hvalues]

/-- Members that have been read are in order. -/
lemma readMembers_of_values? {depth : Nat} (members : List (List Nat × Document))
    {found found' : SortedMap String Json} (h : memberValues? depth found members = some found')
    (hfound : Json.ReadMembers found) : Json.ReadMembers found' := by
  cases members with
  | nil =>
    cases h
    exact hfound
  | cons b members =>
    obtain ⟨codes, x⟩ := b
    simp only [memberValues?, Option.bind_eq_bind, Option.bind_eq_some_iff] at h
    obtain ⟨key, -, value, hvalue, hrest⟩ := h
    exact readMembers_of_values? members hrest (hfound.insert key (canonical_of_value? x hvalue))

end

end Document

end SymbolicScript
