import SymbolicScript.Proofs.Contents

/-!
# The history of a slot

What happens to the variables of one kind is one of two things: a variable is stored to, or the slot
is initialized with values.  From the history of such events, latest first, one can say what a
variable holds (`SlotHistory.value?`): what was last stored to it since the slot was initialized, or
else the value that it was initialized with; and if the slot is not initialized, what was last
stored to it, or else the unknown value that it had at the start.

This file proves that the variables do hold what their history says, although they are represented
in two different ways before and after the slot is initialized.  The size of an initialized slot is
the bound of all accesses (`Variables.Follows.load_cases`, `Variables.Follows.store_cases`), and it
never changes, since a slot that is initialized is never initialized again
(`Variables.Follows.size?_cons`).
-/

namespace SymbolicScript

/-! ## Histories -/

/-- What an instruction may do to the variables of one kind. -/
inductive SlotEvent where
  /-- The variable at the index is stored to. -/
  | stored (index : Nat) (x : Item)
  /-- The slot is initialized with the given values. -/
  | initialized (values : List Item)

/-- What has happened to the variables of one kind, latest first. -/
abbrev SlotHistory := List SlotEvent

namespace SlotHistory

/-- The number of variables that the slot has been initialized to; none if it has not been. -/
def size? : SlotHistory → Option Nat
  | [] => none
  | .stored _ _ :: earlier => size? earlier
  | .initialized values :: _ => some values.length

/-- The value of a variable: what has been stored to it last since the slot was initialized, or else
what it was initialized with.  Before that it is what has been stored to it last, or else the
unknown value that the variable had at the start.  There is none beyond the size of the slot. -/
def value? (kind : SlotKind) (index : Nat) : SlotHistory → Option Item
  | [] => some (.slot kind index)
  | .stored place x :: earlier => if place = index then some x else value? kind index earlier
  | .initialized values :: _ => values[index]?

/-- The index is not beyond the size of the slot. -/
def Admits (history : SlotHistory) (index : Nat) : Prop :=
  ∀ size, history.size? = some size → index < size

end SlotHistory

/-! ## What happens to variables -/

namespace Variables

variable {v v' : Variables} {kind : SlotKind} {index place : Nat} {x : Item} {values : List Item}
  {event : SlotEvent} {history : SlotHistory}

/-- What an event makes of variables. -/
def apply (v : Variables) : SlotEvent → Except ExecutionError Variables
  | .stored index x => v.store index x
  | .initialized values => v.allocateWith values

/-- The variables are what the history has made of untouched ones. -/
inductive Follows (kind : SlotKind) : SlotHistory → Variables → Prop
  /-- Nothing has happened. -/
  | untouched : Follows kind [] (.untouched kind)
  /-- One more event has happened. -/
  | event {v v' : Variables} {event : SlotEvent} {history : SlotHistory}
    (h : Follows kind history v) (hevent : v.apply event = .ok v') :
    Follows kind (event :: history) v'

/-! ### One event -/

/-- Variables with `size` values; none if they are not initialized. -/
def size? (v : Variables) : Option Nat :=
  match v.state with
  | .uninitialized _ => none
  | .initialized items => some items.length

/-- Variables are initialized if they have a size. -/
lemma isInitialized_eq (v : Variables) : v.isInitialized = v.size?.isSome := by
  unfold isInitialized size?
  cases v.state <;> rfl

/-- Storing to an initialized slot is possible within its size. -/
lemma store_initialized (kind : SlotKind) (items : List Item) (index : Nat) (x : Item) :
    (⟨kind, .initialized items⟩ : Variables).store index x =
      if index < items.length then .ok ⟨kind, .initialized (items.set index x)⟩
      else .error (.slotIndexOutOfRange kind index items.length) := by
  by_cases hindex : index < items.length
  · simp [store, Slot.store, Slot.length, hindex, Bind.bind, Except.bind, pure, Except.pure]
  · simp [store, Slot.store, Slot.length, Slot.outOfRange, hindex, Bind.bind, Except.bind]

/-- Storing succeeds within the size, and otherwise reports it. -/
lemma store_cases (v : Variables) (index : Nat) (x : Item) :
    ((∃ v', v.store index x = .ok v') ∧ ∀ size, v.size? = some size → index < size) ∨
      ∃ size, v.store index x = .error (.slotIndexOutOfRange v.kind index size) ∧
        v.size? = some size ∧ size ≤ index := by
  obtain ⟨kind, state⟩ := v
  cases state with
  | uninitialized stored => exact .inl ⟨⟨_, rfl⟩, nofun⟩
  | initialized items =>
    rw [store_initialized]
    by_cases hindex : index < items.length
    · rw [if_pos hindex]
      refine .inl ⟨⟨_, rfl⟩, ?_⟩
      rintro _ ⟨⟩
      exact hindex
    · rw [if_neg hindex]
      exact .inr ⟨items.length, rfl, rfl, Nat.le_of_not_lt hindex⟩

/-- Loading succeeds within the size, and otherwise reports it. -/
lemma load_cases (v : Variables) (index : Nat) :
    ((∃ x, v.load index = .ok x) ∧ ∀ size, v.size? = some size → index < size) ∨
      ∃ size, v.load index = .error (.slotIndexOutOfRange v.kind index size) ∧
        v.size? = some size ∧ size ≤ index := by
  obtain ⟨kind, state⟩ := v
  cases state with
  | uninitialized stored => exact .inl ⟨⟨_, rfl⟩, nofun⟩
  | initialized items =>
    by_cases hindex : index < items.length
    · refine .inl ⟨⟨items[index], ?_⟩, ?_⟩
      · simp [load, Slot.load, hindex]
      · rintro _ ⟨⟩
        exact hindex
    · refine .inr ⟨items.length, ?_, rfl, Nat.le_of_not_lt hindex⟩
      simp [load, Slot.load, Slot.outOfRange, Slot.length, hindex]

/-- What is stored is loaded again, and other variables are as before. -/
lemma load_of_store (h : v.store place x = .ok v') :
    v'.load index = if place = index then .ok x else v.load index := by
  obtain ⟨kind, state⟩ := v
  cases state with
  | uninitialized stored =>
    cases h
    by_cases hplace : place = index
    · simp [load, SortedMap.find?_insert, hplace]
    · simp [load, SortedMap.find?_insert, hplace, Ne.symm hplace]
  | initialized items =>
    rw [store_initialized] at h
    split at h
    · next hbound =>
      cases h
      by_cases hplace : place = index
      · subst hplace
        simp [load, Slot.load, hbound]
      · simp [load, Slot.load, Slot.outOfRange, Slot.length, hplace]
    · cases h

/-- Storing changes neither kind nor size. -/
lemma size?_of_store (h : v.store place x = .ok v') : v'.kind = v.kind ∧ v'.size? = v.size? := by
  obtain ⟨kind, state⟩ := v
  cases state with
  | uninitialized stored =>
    cases h
    exact ⟨rfl, rfl⟩
  | initialized items =>
    rw [store_initialized] at h
    split at h
    · cases h
      exact ⟨rfl, by simp [size?]⟩
    · cases h

/-- Variables can be initialized exactly if they have not been. -/
lemma allocateWith_cases (v : Variables) (values : List Item) :
    (v.size? = none ∧ v.allocateWith values = .ok ⟨v.kind, .initialized values⟩) ∨
      v.size? ≠ none ∧ v.allocateWith values = .error (.slotAlreadyInitialized v.kind) := by
  obtain ⟨kind, state⟩ := v
  cases state with
  | uninitialized stored => exact .inl ⟨rfl, rfl⟩
  | initialized items => exact .inr ⟨nofun, rfl⟩

/-! ### All events -/

namespace Follows

/-- The variables have the kind, and the size that the history says. -/
lemma kind_eq (h : Follows kind history v) : v.kind = kind := by
  induction h with
  | untouched => rfl
  | @event v v' event history h hevent ih =>
    cases event with
    | stored index x => exact (size?_of_store hevent).1.trans ih
    | initialized values =>
      rcases v.allocateWith_cases values with ⟨-, hallocate⟩ | ⟨-, hfails⟩
      · cases hallocate.symm.trans hevent
        exact ih
      · cases hfails.symm.trans hevent

/-- The variables have the size that the history says. -/
lemma size?_eq (h : Follows kind history v) : v.size? = history.size? := by
  induction h with
  | untouched => rfl
  | @event v v' event history h hevent ih =>
    cases event with
    | stored index x => exact (size?_of_store hevent).2.trans ih
    | initialized values =>
      rcases v.allocateWith_cases values with ⟨-, hallocate⟩ | ⟨-, hfails⟩
      · cases hallocate.symm.trans hevent
        rfl
      · cases hfails.symm.trans hevent

/-- What is loaded is what the history says. -/
lemma load_eq_ok_iff (h : Follows kind history v) :
    v.load index = .ok x ↔ history.value? kind index = some x := by
  induction h generalizing x with
  | untouched =>
    have hload : (Variables.untouched kind).load index = .ok (.slot kind index) := rfl
    rw [hload, SlotHistory.value?, Except.ok.injEq, Option.some.injEq]
  | @event v v' event history h hevent ih =>
    cases event with
    | stored place y =>
      rw [load_of_store hevent, SlotHistory.value?]
      by_cases hplace : place = index
      · simp [hplace]
      · rw [if_neg hplace, if_neg hplace]
        exact ih
    | initialized values =>
      -- From here on the history of open variables does not matter any more.
      rcases v.allocateWith_cases values with ⟨-, hallocate⟩ | ⟨-, hfails⟩
      · cases hallocate.symm.trans hevent
        rw [SlotHistory.value?]
        simp only [load, Slot.load]
        cases values[index]? <;> simp
      · cases hfails.symm.trans hevent

/-- Loading succeeds with what the history says within the size of the slot, and fails beyond it. -/
lemma load_cases (h : Follows kind history v) (index : Nat) :
    (∃ x, history.value? kind index = some x ∧ v.load index = .ok x ∧ history.Admits index) ∨
      ∃ size, v.load index = .error (.slotIndexOutOfRange kind index size) ∧
        history.size? = some size ∧ size ≤ index := by
  rcases v.load_cases index with ⟨⟨x, hload⟩, hadmits⟩ | ⟨size, hfails, hsize, hle⟩
  · rw [h.size?_eq] at hadmits
    exact .inl ⟨x, h.load_eq_ok_iff.1 hload, hload, hadmits⟩
  · rw [h.kind_eq] at hfails
    exact .inr ⟨size, hfails, h.size?_eq ▸ hsize, hle⟩

/-- Storing succeeds within the size of the slot, and fails beyond it. -/
lemma store_cases (h : Follows kind history v) (index : Nat) (x : Item) :
    ((∃ v', v.store index x = .ok v') ∧ history.Admits index) ∨
      ∃ size, v.store index x = .error (.slotIndexOutOfRange kind index size) ∧
        history.size? = some size ∧ size ≤ index := by
  rcases v.store_cases index x with ⟨hstored, hadmits⟩ | ⟨size, hfails, hsize, hle⟩
  · rw [h.size?_eq] at hadmits
    exact .inl ⟨hstored, hadmits⟩
  · rw [h.kind_eq] at hfails
    exact .inr ⟨size, hfails, h.size?_eq ▸ hsize, hle⟩

/-- Once the slot is initialized, its size never changes. -/
lemma size?_cons (h : Follows kind (event :: history) v) {size : Nat}
    (hsize : history.size? = some size) : SlotHistory.size? (event :: history) = some size := by
  cases h with
  | @event v v' _ _ h hevent =>
    cases event with
    | stored place x => exact hsize
    | initialized values =>
      -- The slot has a size, so that it cannot have been initialized again.
      rcases v.allocateWith_cases values with ⟨hnone, -⟩ | ⟨-, hfails⟩
      · rw [h.size?_eq, hsize] at hnone
        cases hnone
      · cases hfails.symm.trans hevent

end Follows

end Variables

end SymbolicScript
