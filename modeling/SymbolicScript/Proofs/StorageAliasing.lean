import Mathlib.Algebra.Order.BigOperators.Group.List
import Mathlib.Algebra.Order.Ring.Nat
import Mathlib.Data.List.Induction
import Mathlib.Logic.Function.Basic
import Mathlib.Tactic.Common
import SymbolicScript.StorageView

/-!
# Keys that may be the same

The view of storage remembers the last value written under every key, and tells keys apart by how
they are written down.  At run time a symbolic key has some bytes, and these may be the bytes of any
other key.  So a value that the view remembers for one key may have been replaced by a later write
under another one.

This file compares the view with a concrete store, a map from bytes that performs the same writes
under the bytes that the keys have (`StorageView.concrete`).  A known value that is read from the
view is the value in the store, whatever bytes the symbolic keys have, exactly if every key that may
be the same and that has been written since holds the same value
(`StorageView.get_eq_concrete_iff`).  Of the writes under a symbolic key the view notices only that
there was one, and so it goes on answering for a key that was written before
(`StorageView.get_stale`).
-/

namespace SymbolicScript

namespace StorageView

/-! ## Keys and writes -/

/-- A key of storage. -/
inductive Key where
  /-- A key that is known counts by its bytes. -/
  | known (bytes : Bytes)
  /-- A key that is not known. -/
  | symbolic (x : Item) (hx : x.isSymbolic = true)
  deriving DecidableEq

namespace Key

/-- The item that stands for the key. -/
def item : Key → Item
  | known bytes => .constant (.byteString bytes)
  | symbolic x _ => x

/-- The bytes of the key, where the assignment gives the bytes of symbolic keys. -/
def bytes (assignment : Item → Bytes) : Key → Bytes
  | known bytes => bytes
  | symbolic x _ => assignment x

/-- Two keys may be the same if some assignment gives them the same bytes. -/
def MayAlias (k l : Key) : Prop :=
  ∃ assignment, k.bytes assignment = l.bytes assignment

/-- Different keys are written down differently. -/
lemma item_injective {k l : Key} (h : k.item = l.item) : k = l := by
  cases k with
  | known bytes =>
    cases l with
    | known bytes' =>
      cases h
      rfl
    | symbolic y hy =>
      cases h
      cases hy
  | symbolic x hx =>
    cases l with
    | known bytes' =>
      cases h
      cases hx
    | symbolic y hy =>
      cases h
      rfl

/-- Known keys are the same only if they are equal. -/
lemma eq_of_mayAlias_known {bytes bytes' : Bytes} (h : (known bytes).MayAlias (known bytes')) :
    known bytes = known bytes' := by
  obtain ⟨assignment, hbytes⟩ := h
  exact congrArg known hbytes

end Key

/-- A write under a key: of a value, or a removal. -/
structure Write where
  /-- The key. -/
  key : Key
  /-- The value, none for a removal. -/
  value : Option Item

/-- The view after writes, in order. -/
def perform (view : StorageView) (writes : List Write) : StorageView :=
  writes.foldl (fun view w => view.set w.key.item w.value) view

/-- The store after the same writes under the bytes of their keys.  What is removed reads as
null. -/
def concrete (assignment : Item → Bytes) (store : Bytes → Item) (writes : List Write) :
    Bytes → Item :=
  writes.foldl (fun store w => Function.update store (w.key.bytes assignment)
    (w.value.getD .null)) store

/-! ## The last write under a key -/

variable {view : StorageView} {store : Bytes → Item} {assignment : Item → Bytes} {key : Key}
  {value : Option Item} {before after writes : List Write} {w : Write}

/-- Writes under other keys do not change what the view remembers. -/
lemma find?_perform_of_ne (h : ∀ w ∈ writes, w.key ≠ key) :
    (view.perform writes).values.find? key.item = view.values.find? key.item := by
  induction writes generalizing view with
  | nil => rfl
  | cons w rest ih =>
    obtain ⟨hw, hrest⟩ := List.forall_mem_cons.1 h
    have hset : (view.set w.key.item w.value).values.find? key.item =
        view.values.find? key.item := by
      simp only [set, SortedMap.find?_insert]
      rw [if_neg fun heq => hw (Key.item_injective heq.symm)]
    exact (ih hrest).trans hset

/-- Writes under other bytes do not change the value in the store. -/
lemma concrete_of_ne {bytes : Bytes} (h : ∀ w ∈ writes, w.key.bytes assignment ≠ bytes) :
    concrete assignment store writes bytes = store bytes := by
  induction writes generalizing store with
  | nil => rfl
  | cons w rest ih =>
    obtain ⟨hw, hrest⟩ := List.forall_mem_cons.1 h
    exact (ih hrest).trans (Function.update_of_ne (Ne.symm hw) _ _)

/-- The view answers with the last value written under the very key. -/
lemma get_of_lastWrite (hlast : ∀ w ∈ after, w.key ≠ key) (id : Nat) :
    (view.perform (before ++ ⟨key, value⟩ :: after)).get id key.item = value.getD .null := by
  have hfind : (view.perform (before ++ ⟨key, value⟩ :: after)).values.find? key.item =
      some value := by
    have hsplit : view.perform (before ++ ⟨key, value⟩ :: after) =
        ((view.perform before).set key.item value).perform after := by
      simp [perform]
    rw [hsplit, find?_perform_of_ne hlast]
    simp [set, SortedMap.find?_insert]
  unfold get
  rw [hfind]
  cases value <;> rfl

/-- The store holds the last value written under the same bytes. -/
lemma concrete_of_lastWrite
    (hlast : ∀ w' ∈ after, w'.key.bytes assignment ≠ w.key.bytes assignment) :
    concrete assignment store (before ++ w :: after) (w.key.bytes assignment) =
      w.value.getD .null := by
  have hsplit : concrete assignment store (before ++ w :: after) =
      concrete assignment (Function.update (concrete assignment store before)
        (w.key.bytes assignment) (w.value.getD .null)) after := by
    simp [concrete]
  rw [hsplit, concrete_of_ne hlast, Function.update_self]

/-- Among the elements of a list that satisfy a predicate there is a last one. -/
lemma exists_last {α : Type} {l : List α} {p : α → Prop} {a : α} (ha : a ∈ l) (hp : p a) :
    ∃ front b back, l = front ++ b :: back ∧ p b ∧ ∀ c ∈ back, ¬p c := by
  induction l using List.reverseRecOn with
  | nil => cases ha
  | append_singleton front b ih =>
    by_cases hb : p b
    · exact ⟨front, b, [], rfl, hb, nofun⟩
    · have hmem : a ∈ front := by
        rcases List.mem_append.1 ha with h | h
        · exact h
        · cases List.mem_singleton.1 h
          exact absurd hp hb
      obtain ⟨front', c, back, rfl, hc, hback⟩ := ih hmem
      refine ⟨front', c, back ++ [b], by simp, hc, fun d hd => ?_⟩
      rcases List.mem_append.1 hd with h | h
      · exact hback d h
      · cases List.mem_singleton.1 h
        exact hb

/-- A key that has been written has a last write. -/
lemma exists_lastWrite (h : ∃ w ∈ writes, w.key = key) :
    ∃ before value after, writes = before ++ ⟨key, value⟩ :: after ∧ ∀ w ∈ after, w.key ≠ key := by
  obtain ⟨w, hw, hkey⟩ := h
  obtain ⟨before, w', after, hwrites, rfl, hafter⟩ :=
    exists_last (p := fun w : Write => w.key = key) hw hkey
  exact ⟨before, w'.value, after, hwrites, hafter⟩

/-- For a key that has not been written, a new view knows no value. -/
lemma isSymbolic_get_of_unwritten (h : ∀ w ∈ writes, w.key ≠ key) (id : Nat) :
    ((empty.perform writes).get id key.item).isSymbolic = true := by
  have hfind : (empty.perform writes).values.find? key.item = none := find?_perform_of_ne h
  unfold get
  rw [hfind]
  simp only
  split <;> rfl

/-! ## Telling two keys from all others -/

/-- Some bytes are those of no known key that is written. -/
lemma exists_bytes_ne (writes : List Write) :
    ∃ bytes : Bytes, ∀ w ∈ writes, ∀ known, w.key = .known known → known ≠ bytes := by
  -- They are longer than all known keys together.
  refine ⟨List.replicate ((writes.map fun w => (w.key.bytes fun _ => []).length).sum + 1) 0, ?_⟩
  intro w hw known hkey heq
  have hle : known.length ≤ (writes.map fun w => (w.key.bytes fun _ => []).length).sum := by
    refine List.single_le_sum (fun _ _ => Nat.zero_le _) _ (List.mem_map.2 ⟨w, hw, ?_⟩)
    rw [hkey, Key.bytes]
  rw [heq, List.length_replicate] at hle
  omega

/-- Two keys that may be the same are made the same by an assignment under which no other key that
is written has their bytes. -/
lemma exists_assignment {k l : Key} (h : k.MayAlias l) (hne : k ≠ l) (writes : List Write) :
    ∃ assignment, k.bytes assignment = l.bytes assignment ∧
      ∀ w ∈ writes, w.key.bytes assignment = l.bytes assignment → w.key = k ∨ w.key = l := by
  -- The two keys get the bytes, and all other symbolic keys get different ones.
  have hassign : ∀ bytes : Bytes, (∀ known, k = .known known → known = bytes) →
      (∀ known, l = .known known → known = bytes) →
      (∀ w ∈ writes, w.key = .known bytes → w.key = k ∨ w.key = l) →
      ∃ assignment, k.bytes assignment = l.bytes assignment ∧
        ∀ w ∈ writes, w.key.bytes assignment = l.bytes assignment → w.key = k ∨ w.key = l := by
    intro bytes hk hl hknown
    have hbytes : ∀ key : Key, (∀ known, key = .known known → known = bytes) →
        (key = k ∨ key = l) →
        key.bytes (fun x => if x = k.item ∨ x = l.item then bytes else 0 :: bytes) = bytes := by
      intro key hkey hkl
      cases key with
      | known known => exact hkey known rfl
      | symbolic x hx =>
        have hx : x = k.item ∨ x = l.item := hkl.imp (congrArg Key.item) (congrArg Key.item)
        exact if_pos hx
    refine ⟨fun x => if x = k.item ∨ x = l.item then bytes else 0 :: bytes, ?_, ?_⟩
    · rw [hbytes k hk (.inl rfl), hbytes l hl (.inr rfl)]
    · intro w hw hsame
      rw [hbytes l hl (.inr rfl)] at hsame
      cases hkey : w.key with
      | known known =>
        rw [hkey] at hsame
        have hbytes : known = bytes := hsame
        rw [← hkey]
        exact hknown w hw (by rw [hkey, hbytes])
      | symbolic x hx =>
        rw [hkey] at hsame
        by_contra hother
        have hout : ¬(x = k.item ∨ x = l.item) := fun hx' => hother
          (hx'.imp Key.item_injective Key.item_injective)
        simp only [Key.bytes, if_neg hout] at hsame
        exact List.cons_ne_self _ _ hsame
  cases k with
  | known bytes =>
    cases l with
    | known bytes' => exact absurd (Key.eq_of_mayAlias_known h) hne
    | symbolic y hy => exact hassign bytes (by rintro _ ⟨⟩; rfl) nofun fun _ _ hw => .inl hw
  | symbolic x hx =>
    cases l with
    | known bytes => exact hassign bytes nofun (by rintro _ ⟨⟩; rfl) fun _ _ hw => .inr hw
    | symbolic y hy =>
      obtain ⟨bytes, hbytes⟩ := exists_bytes_ne writes
      exact hassign bytes nofun nofun fun w hw hkey => absurd rfl (hbytes w hw bytes hkey)

/-! ## The view and the store -/

/-- A known value that the view answers with is the value in the store under every assignment of
bytes to symbolic keys, exactly if every key that may be the same, and that has been written after
the last write under the key, holds the same value. -/
theorem get_eq_concrete_iff (writes : List Write) (key : Key) (id : Nat)
    (hknown : ((empty.perform writes).get id key.item).isSymbolic = false) :
    (∀ assignment store, concrete assignment store writes (key.bytes assignment) =
        (empty.perform writes).get id key.item) ↔
      ∀ before value after, writes = before ++ ⟨key, value⟩ :: after →
        (∀ w ∈ after, w.key ≠ key) → ∀ w ∈ after, w.key.MayAlias key →
          (empty.perform writes).get id w.key.item = (empty.perform writes).get id key.item := by
  constructor
  · rintro hsound before value after rfl hlast w hw halias
    -- An assignment makes the two keys the same and no other, so the store holds the later value.
    obtain ⟨assignment, hsame, hothers⟩ :=
      exists_assignment halias (hlast w hw) (before ++ ⟨key, value⟩ :: after)
    obtain ⟨front, later, back, hafter, hlater, hback⟩ :=
      exists_last (p := fun w' : Write => w'.key = w.key) hw rfl
    have hsplit : before ++ ⟨key, value⟩ :: after = (before ++ ⟨key, value⟩ :: front) ++
        later :: back := by simp [hafter]
    have hbytes : ∀ w' ∈ back, w'.key.bytes assignment ≠ later.key.bytes assignment := by
      intro w' hw' heq
      have hmem : w' ∈ after := by simp [hafter, hw']
      rw [hlater, hsame] at heq
      rcases hothers w' (by simp [hmem]) heq with hk | hl
      · exact hback w' hw' hk
      · exact hlast w' hmem hl
    have hstore := hsound assignment fun _ => .null
    have hconcrete : concrete assignment (fun _ => .null) (before ++ ⟨key, value⟩ :: after)
        (key.bytes assignment) = later.value.getD .null := by
      rw [← hsame, ← hlater, hsplit]
      exact concrete_of_lastWrite hbytes
    have hview : (empty.perform (before ++ ⟨key, value⟩ :: after)).get id w.key.item =
        later.value.getD .null := by
      rw [hsplit, ← hlater]
      exact get_of_lastWrite (fun w' hw' => by rw [hlater]; exact hback w' hw') id
    rw [hview, ← hstore, hconcrete]
  · intro hsame assignment store
    have hwritten : ∃ w ∈ writes, w.key = key := by
      by_contra hnone
      push Not at hnone
      rw [isSymbolic_get_of_unwritten hnone] at hknown
      cases hknown
    obtain ⟨before, value, after, hwrites, hlast⟩ := exists_lastWrite hwritten
    -- The store holds the last value written under the bytes of the key.
    have hself : (⟨key, value⟩ : Write) ∈ (⟨key, value⟩ : Write) :: after := List.mem_cons_self
    obtain ⟨front, w, back, hsuffix, hbytes, hback⟩ := exists_last
      (p := fun w : Write => w.key.bytes assignment = key.bytes assignment) hself rfl
    have hsplit : writes = (before ++ front) ++ w :: back := by
      rw [hwrites, hsuffix, List.append_assoc]
    have hconcrete : concrete assignment store writes (key.bytes assignment) =
        w.value.getD .null := by
      rw [hsplit, ← hbytes]
      exact concrete_of_lastWrite fun w' hw' => by rw [hbytes]; exact hback w' hw'
    have hview : (empty.perform writes).get id w.key.item = w.value.getD .null := by
      rw [hsplit]
      exact get_of_lastWrite (fun w' hw' heq => hback w' hw' (by rw [heq, hbytes])) id
    rw [hconcrete, ← hview]
    have hw : w ∈ (⟨key, value⟩ : Write) :: after := by simp [hsuffix]
    rcases List.mem_cons.1 hw with rfl | hw
    · rfl
    · exact hsame before value after hwrites hlast w hw ⟨assignment, hbytes⟩

/-- The key that the first argument of a method gives. -/
def argumentKey : Key := .symbolic (.slot .argument 0) rfl

/-- The writes of one value under a known key and then of another, or of the same, under an
argument. -/
def aliasingWrites (first second : Int) : List Write :=
  [⟨.known [1], some (.constant (.integer first))⟩,
    ⟨argumentKey, some (.constant (.integer second))⟩]

/-- The same value, written under a known key and then under an argument, is what the known key
holds, whatever the argument is. -/
theorem get_eq_concrete_writtenTwice :
    ((empty.perform (aliasingWrites 1 1)).get 0 (Key.known [1]).item).isSymbolic = false ∧
      ∀ assignment store, concrete assignment store (aliasingWrites 1 1) [1] =
        (empty.perform (aliasingWrites 1 1)).get 0 (Key.known [1]).item := by
  have hknown : ((empty.perform (aliasingWrites 1 1)).get 0 (Key.known [1]).item).isSymbolic =
      false := by decide
  refine ⟨hknown, (get_eq_concrete_iff (aliasingWrites 1 1) (.known [1]) 0 hknown).2 ?_⟩
  intro before value after hwrites hlast w hw halias
  have hmem : w ∈ aliasingWrites 1 1 := by simp [hwrites, hw]
  have hall : ∀ w ∈ aliasingWrites 1 1, (empty.perform (aliasingWrites 1 1)).get 0 w.key.item =
      (empty.perform (aliasingWrites 1 1)).get 0 (Key.known [1]).item := by
    simp only [aliasingWrites, List.forall_mem_cons]
    decide
  exact hall w hmem

/-- After another value is written under an argument, the view still answers with the value that was
written under a known key.  The argument may be that key, and then the store holds the other
value. -/
theorem get_stale :
    (empty.perform (aliasingWrites 1 2)).get 0 (Key.known [1]).item = .constant (.integer 1) ∧
      concrete (fun _ => [1]) (fun _ => .null) (aliasingWrites 1 2) [1] =
        .constant (.integer 2) := by
  decide

end StorageView

end SymbolicScript
