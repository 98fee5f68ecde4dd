import Mathlib.Data.List.Forall2
import Mathlib.Order.Basic
import SymbolicScript.Proofs.HeapAccess
import SymbolicScript.Proofs.Resolved

/-!
# Knowing less

Two machines can execute the same instructions while one of them knows less than the other.  Where
it knows an item, the other one knows the same item; where it holds a symbolic item, the other one
may hold anything.  Handles need not agree, since the machine that knows more may allocate objects
that the other one does not: they are related by a `Renaming`.

This file defines the relation for items (`Item.Approximates`) and heaps (`Heap.Simulates`) and
proves that whatever the lesser machine finds out about an item (its truth value, its integer, its
bytes) the other machine finds out as well.
-/

namespace SymbolicScript

/-- A relation between the handles of two heaps. -/
abbrev Renaming := Nat → Nat → Prop

variable {ρ ρ' : Renaming}

/-! ## Items -/

namespace Item

/-- Plain values that are the same up to the renaming of handles. -/
inductive Alike (ρ : Renaming) : Item → Item → Prop
  | null : Alike ρ .null .null
  | boolean (value : Bool) : Alike ρ (.boolean value) (.boolean value)
  | integer (value : Int) : Alike ρ (.integer value) (.integer value)
  | byteString (bytes : Bytes) : Alike ρ (.byteString bytes) (.byteString bytes)
  | pointer (target : Nat) : Alike ρ (.pointer target) (.pointer target)
  | buffer {k l : Nat} (h : ρ k l) : Alike ρ (.buffer k) (.buffer l)
  | array {k l : Nat} (h : ρ k l) : Alike ρ (.array k) (.array l)
  | struct {k l : Nat} (h : ρ k l) : Alike ρ (.struct k) (.struct l)

/-- Where the first item is known, the second one is the same up to wrappers and the renaming of
handles. -/
def Approximates (ρ : Renaming) (x y : Item) : Prop :=
  ∀ v, x.known? = some v → ∃ w, y.known? = some w ∧ v.Alike ρ w

/-- Values that are alike stay so when more handles are related. -/
lemma Alike.mono {v w : Item} (h : v.Alike ρ w) (hρ : ρ ≤ ρ') : v.Alike ρ' w := by
  cases h with
  | null => exact .null
  | boolean value => exact .boolean value
  | integer value => exact .integer value
  | byteString bytes => exact .byteString bytes
  | pointer target => exact .pointer target
  | buffer h => exact .buffer (hρ _ _ h)
  | array h => exact .array (hρ _ _ h)
  | struct h => exact .struct (hρ _ _ h)

/-- Values that are alike are of the same type. -/
lemma Alike.type_eq {v w : Item} (h : v.Alike ρ w) : w.type = v.type := by
  cases h <;> rfl

/-- Values that are alike are known. -/
lemma Alike.known_left {v w : Item} (h : v.Alike ρ w) : v.known? = some v := by
  cases h <;> rfl

/-- Values that are alike are known. -/
lemma Alike.known_right {v w : Item} (h : v.Alike ρ w) : w.known? = some w := by
  cases h <;> rfl

/-- Values that are alike are null together. -/
lemma Alike.isNull_eq {v w : Item} (h : v.Alike ρ w) : w.isNull = v.isNull := by
  cases h <;> rfl

/-- Values that are alike are equal to values that are alike together, if the renaming is one to
one. -/
lemma Alike.eq_iff {v w v' w' : Item} (h : v.Alike ρ w) (h' : v'.Alike ρ w')
    (hfunctional : ∀ k l l', ρ k l → ρ k l' → l = l')
    (hinjective : ∀ k k' l, ρ k l → ρ k' l → k = k') : v = v' ↔ w = w' := by
  constructor
  · rintro rfl
    cases h <;> cases h' <;> first | rfl | (congr 1; apply hfunctional <;> assumption)
  · rintro rfl
    cases h <;> cases h' <;> first | rfl | (congr 1; apply hinjective <;> assumption)

/-- Wrapping does not change what is known. -/
@[simp] lemma known?_constant (x : Item) : x.constant.known? = x.known? := by
  cases x <;> rfl

/-- The handle of a struct is that of its known value. -/
lemma structHandle?_eq_some {x : Item} {handle : Nat} :
    x.structHandle? = some handle ↔ x.known? = some (.struct handle) := by
  unfold structHandle?
  split <;> simp_all

/-- A known value without a handle is alike to itself. -/
lemma alike_self {x v : Item} (h : x.known? = some v) (hx : x.handle? = none) : v.Alike ρ v := by
  fun_induction known? x with
  | case1 inner ih => exact ih h hx
  | case2 | case3 | case4 | case5 | case6 => cases h
  | case7 plain =>
    cases h
    cases v with
    | null => exact .null
    | boolean value => exact .boolean value
    | integer value => exact .integer value
    | byteString bytes => exact .byteString bytes
    | pointer target => exact .pointer target
    | buffer _ | array _ | struct _ => cases hx
    | _ => simp_all

namespace Approximates

/-- A symbolic item approximates every item. -/
lemma of_symbolic {x : Item} (hx : x.known? = none) (y : Item) : x.Approximates ρ y := by
  intro v hv
  rw [hx] at hv
  cases hv

/-- Values that are alike approximate each other. -/
lemma of_alike {v w : Item} (h : v.Alike ρ w) : v.Approximates ρ w := by
  intro v' hv'
  rw [h.known_left] at hv'
  cases hv'
  exact ⟨w, h.known_right, h⟩

/-- An item without a handle approximates itself. -/
lemma of_handle? {x : Item} (hx : x.handle? = none) : x.Approximates ρ x :=
  fun v hv => ⟨v, hv, alike_self hv hx⟩

lemma mono {x y : Item} (h : x.Approximates ρ y) (hρ : ρ ≤ ρ') :
    x.Approximates ρ' y := by
  intro v hv
  obtain ⟨w, hw, halike⟩ := h v hv
  exact ⟨w, hw, halike.mono hρ⟩

/-- Wrapping keeps the approximation. -/
lemma constant {x y : Item} (h : x.Approximates ρ y) :
    x.constant.Approximates ρ y.constant := by
  intro v hv
  rw [known?_constant] at hv ⊢
  exact h v hv

/-- What is symbolic for the machine that knows more is symbolic for the other one. -/
lemma symbolic {x y : Item} (h : x.Approximates ρ y) (hy : y.known? = none) : x.known? = none := by
  cases hx : x.known? with
  | none => rfl
  | some v =>
    obtain ⟨w, hw, -⟩ := h v hx
    rw [hy] at hw
    cases hw

/-- A truth value that is found out is found out by the machine that knows more. -/
lemma toBoolean?_some {x y : Item} {value : Bool} (h : x.Approximates ρ y)
    (hx : x.toBoolean? = .ok (some value)) : y.toBoolean? = .ok (some value) := by
  unfold toBoolean? at hx ⊢
  cases hv : x.known? with
  | none =>
    rw [hv] at hx
    cases hx
  | some v =>
    obtain ⟨w, hw, halike⟩ := h v hv
    rw [hv] at hx
    rw [hw]
    cases halike <;> exact hx

/-- An integer that is found out is found out by the machine that knows more. -/
lemma toInteger?_some {x y : Item} {value : Int} (h : x.Approximates ρ y)
    (hx : x.toInteger? = .ok (some value)) : y.toInteger? = .ok (some value) := by
  unfold toInteger? at hx ⊢
  cases hv : x.known? with
  | none =>
    rw [hv] at hx
    cases hx
  | some v =>
    obtain ⟨w, hw, halike⟩ := h v hv
    rw [hv] at hx
    rw [hw]
    cases halike <;> exact hx

/-- What is known to be null is null for the machine that knows more. -/
lemma isNull {x y : Item} (h : x.Approximates ρ y) (hx : x.isNull = true) : y.isNull = true := by
  unfold Item.isNull at hx ⊢
  split at hx
  · next hv =>
    obtain ⟨w, hw, halike⟩ := h _ hv
    cases halike
    rw [hw]
  · cases hx

/-- What is known is known for the machine that knows more. -/
lemma isSymbolic {x y : Item} (h : x.Approximates ρ y) (hx : x.isSymbolic = false) :
    y.isSymbolic = false := by
  unfold Item.isSymbolic at hx ⊢
  cases hy : y.known? with
  | none => rwa [h.symbolic hy] at hx
  | some w => rfl

end Approximates

/-- An item without an integer is symbolic. -/
lemma isSymbolic_of_toInteger? {x : Item} (h : x.toInteger? = .ok none) : x.isSymbolic = true := by
  unfold toInteger? at h
  unfold isSymbolic
  split at h
  case h_1 hx => rw [hx, Option.isNone_none]
  case h_4 =>
    split at h
    · cases h
    · cases h
  all_goals cases h

/-- A symbolic item is read without a failure, but not as an integer. -/
lemma toInteger?_of_isSymbolic {x : Item} (h : x.isSymbolic = true) : x.toInteger? = .ok none := by
  unfold toInteger?
  rw [Option.isNone_iff_eq_none.1 h]

/-- A symbolic item is not known to be null. -/
lemma isNull_of_isSymbolic {x : Item} (h : x.isSymbolic = true) : x.isNull = false := by
  unfold isNull
  rw [Option.isNone_iff_eq_none.1 h]

/-- An item that is not symbolic has a known value. -/
lemma exists_known?_of_isSymbolic {x : Item} (h : x.isSymbolic = false) :
    ∃ v, x.known? = some v := by
  unfold isSymbolic at h
  cases hx : x.known? with
  | none =>
    rw [hx] at h
    cases h
  | some v => exact ⟨v, rfl⟩

/-- An integer is not null. -/
lemma isNull_of_toInteger? {x : Item} {value : Int} (h : x.toInteger? = .ok (some value)) :
    x.isNull = false := by
  unfold toInteger? at h
  unfold isNull
  split
  · next hv =>
    rw [hv] at h
    cases h
  · rfl

end Item

/-! ## Heaps -/

/-- Objects of the same form whose elements approximate each other. -/
inductive HeapObject.Approximates (ρ : Renaming) : HeapObject → HeapObject → Prop
  | buffer (bytes : Bytes) : Approximates ρ (.buffer bytes) (.buffer bytes)
  | compound (kind : CompoundKind) (readOnly : Bool) {xs ys : List Item}
    (h : List.Forall₂ (Item.Approximates ρ) xs ys) :
    Approximates ρ (.compound kind xs readOnly) (.compound kind ys readOnly)

/-- Objects of which the first approximates the second are of the same length. -/
lemma HeapObject.Approximates.length_eq {a b : HeapObject} (h : a.Approximates ρ b) :
    b.length = a.length := by
  cases h with
  | buffer bytes => rfl
  | compound kind readOnly h => exact h.length_eq.symm

lemma HeapObject.Approximates.mono {a b : HeapObject} (h : a.Approximates ρ b)
    (hρ : ρ ≤ ρ') : a.Approximates ρ' b := by
  cases h with
  | buffer bytes => exact .buffer bytes
  | compound kind readOnly h => exact .compound kind readOnly (h.imp fun _ _ hxy => hxy.mono hρ)

/-- Every object of the first heap has one counterpart in the second, which it approximates.  The
second heap may have further objects. -/
structure Heap.Simulates (ρ : Renaming) (a b : Heap) : Prop where
  /-- Every handle has a counterpart. -/
  total : ∀ k < a.size, ∃ l, ρ k l
  /-- Counterparts are handles. -/
  bounded : ∀ k l, ρ k l → k < a.size ∧ l < b.size
  /-- A handle has one counterpart. -/
  functional : ∀ k l l', ρ k l → ρ k l' → l = l'
  /-- Different handles have different counterparts. -/
  injective : ∀ k k' l, ρ k l → ρ k' l → k = k'
  /-- Objects approximate their counterparts. -/
  objects : ∀ k l, ρ k l → ∃ o o', a.objects[k]? = some o ∧ b.objects[l]? = some o' ∧
    o.Approximates ρ o'

namespace Heap.Simulates

variable {a b : Heap}

/-- The empty heap has no handles. -/
lemma empty (b : Heap) : Simulates (fun _ _ => False) .empty b where
  total k hk := absurd hk (Nat.not_lt_zero k)
  bounded _ _ h := h.elim
  functional _ _ _ h := h.elim
  injective _ _ _ h := h.elim
  objects _ _ h := h.elim

/-- The counterpart of an object. -/
lemma object_of {k l : Nat} {o : HeapObject} (h : a.Simulates ρ b) (hkl : ρ k l)
    (ho : a.objects[k]? = some o) : ∃ o', b.objects[l]? = some o' ∧ o.Approximates ρ o' := by
  obtain ⟨o₁, o', ho₁, ho', happrox⟩ := h.objects k l hkl
  rw [ho] at ho₁
  cases ho₁
  exact ⟨o', ho', happrox⟩

/-- The elements of a compound approximate those of its counterpart. -/
lemma items {k l : Nat} {xs : List Item} (h : a.Simulates ρ b) (hkl : ρ k l)
    (hxs : a.items k = .ok xs) :
    ∃ ys, b.items l = .ok ys ∧ List.Forall₂ (Item.Approximates ρ) xs ys := by
  obtain ⟨kind, readOnly, ho⟩ := items_eq_ok.1 hxs
  obtain ⟨o', ho', happrox⟩ := h.object_of hkl ho
  cases happrox with
  | compound _ _ hys => exact ⟨_, items_eq_ok.2 ⟨kind, readOnly, ho'⟩, hys⟩

/-- A buffer and its counterpart have the same bytes. -/
lemma bytes {k l : Nat} {bs : Bytes} (h : a.Simulates ρ b) (hkl : ρ k l)
    (hbs : a.bytes k = .ok bs) : b.bytes l = .ok bs := by
  obtain ⟨o', ho', happrox⟩ := h.object_of hkl (bytes_eq_ok.1 hbs)
  cases happrox with
  | buffer => exact bytes_eq_ok.2 ho'

/-- Bytes that are found out are found out by the machine that knows more. -/
lemma bytesOf_some {x y : Item} {bs : Bytes} (h : a.Simulates ρ b) (hxy : x.Approximates ρ y)
    (hx : a.bytesOf x = .ok (some bs)) : b.bytesOf y = .ok (some bs) := by
  unfold bytesOf at hx ⊢
  cases hv : x.known? with
  | none =>
    rw [hv] at hx
    cases hx
  | some v =>
    obtain ⟨w, hw, halike⟩ := hxy v hv
    rw [hv] at hx
    rw [hw]
    cases halike with
    | @buffer k l hkl =>
      simp only [Except.map] at hx ⊢
      cases hbytes : a.bytes k with
      | error e =>
        rw [hbytes] at hx
        cases hx
      | ok bs' =>
        rw [hbytes] at hx
        cases hx
        rw [h.bytes hkl hbytes]
    | _ => exact hx

/-! ### Changing both heaps -/

/-- The machine that knows more may allocate on its own. -/
lemma grow_right {b' : Heap} (h : a.Simulates ρ b) (hsize : b.size ≤ b'.size)
    (hold : ∀ k < b.size, b'.objects[k]? = b.objects[k]?) : a.Simulates ρ b' where
  total := h.total
  bounded k l hkl := ⟨(h.bounded k l hkl).1, Nat.lt_of_lt_of_le (h.bounded k l hkl).2 hsize⟩
  functional := h.functional
  injective := h.injective
  objects k l hkl := by
    obtain ⟨o, o', ho, ho', happrox⟩ := h.objects k l hkl
    exact ⟨o, o', ho, (hold l (h.bounded k l hkl).2).trans ho', happrox⟩

end Heap.Simulates

/-- The renaming that relates one more pair of handles. -/
def Renaming.extend (ρ : Renaming) (k l : Nat) : Renaming :=
  fun k' l' => ρ k' l' ∨ (k' = k ∧ l' = l)

lemma Renaming.le_extend (ρ : Renaming) (k l : Nat) : ρ ≤ ρ.extend k l :=
  fun _ _ h => .inl h

lemma Renaming.extend_self (ρ : Renaming) (k l : Nat) : ρ.extend k l k l := .inr ⟨rfl, rfl⟩

namespace Heap.Simulates

variable {a b : Heap}

/-- Both machines may allocate objects of which the first approximates the second. -/
lemma add {o o' : HeapObject} (h : a.Simulates ρ b)
    (ho : o.Approximates (ρ.extend a.size b.size) o') :
    (a.add o).Simulates (ρ.extend a.size b.size) (b.add o') where
  total k hk := by
    rw [size_add] at hk
    by_cases heq : k = a.size
    · exact ⟨b.size, .inr ⟨heq, rfl⟩⟩
    · obtain ⟨l, hl⟩ := h.total k (by omega)
      exact ⟨l, .inl hl⟩
  bounded k l hkl := by
    rw [size_add, size_add]
    rcases hkl with hkl | ⟨rfl, rfl⟩
    · have hlt := h.bounded k l hkl
      omega
    · omega
  functional k l l' hkl hkl' := by
    -- The new objects lie behind all that the renaming knows.
    rcases hkl with hkl | ⟨hk, hl⟩ <;> rcases hkl' with hkl' | ⟨hk', hl'⟩
    · exact h.functional k l l' hkl hkl'
    · exact absurd hk' (Nat.ne_of_lt (h.bounded k l hkl).1)
    · exact absurd hk (Nat.ne_of_lt (h.bounded k l' hkl').1)
    · rw [hl, hl']
  injective k k' l hkl hkl' := by
    rcases hkl with hkl | ⟨hk, hl⟩ <;> rcases hkl' with hkl' | ⟨hk', hl'⟩
    · exact h.injective k k' l hkl hkl'
    · exact absurd hl' (Nat.ne_of_lt (h.bounded k l hkl).2)
    · exact absurd hl (Nat.ne_of_lt (h.bounded k' l hkl').2)
    · rw [hk, hk']
  objects k l hkl := by
    rcases hkl with hkl | ⟨rfl, rfl⟩
    · obtain ⟨o₁, o₁', ho₁, ho₁', happrox⟩ := h.objects k l hkl
      have hlt := h.bounded k l hkl
      refine ⟨o₁, o₁', ?_, ?_, happrox.mono fun _ _ => .inl⟩
      · rw [getElem?_add_of_lt hlt.1, ho₁]
      · rw [getElem?_add_of_lt hlt.2, ho₁']
    · exact ⟨o, o', by rw [getElem?_add, if_pos rfl], by rw [getElem?_add, if_pos rfl], ho⟩

/-- Both machines may replace counterparts. -/
lemma put {k l : Nat} {o o' : HeapObject} (h : a.Simulates ρ b) (hkl : ρ k l)
    (ho : o.Approximates ρ o') : (a.put k o).Simulates ρ (b.put l o') where
  total := by simpa only [size_put] using h.total
  bounded := by simpa only [size_put] using h.bounded
  functional := h.functional
  injective := h.injective
  objects k' l' hkl' := by
    obtain ⟨hk, hl⟩ := h.bounded k l hkl
    by_cases hk' : k' = k
    · subst hk'
      have hl' := h.functional _ _ _ hkl hkl'
      subst hl'
      exact ⟨o, o', getElem?_put_self hk, getElem?_put_self hl, ho⟩
    · have hl' : l' ≠ l := by
        rintro rfl
        exact hk' (h.injective _ _ _ hkl' hkl)
      rw [getElem?_put_of_ne hk', getElem?_put_of_ne hl']
      exact h.objects k' l' hkl'

end Heap.Simulates

end SymbolicScript
