import Mathlib.Tactic.Common
import SymbolicScript.EvaluationStack

/-!
# The stack operations on the view

`EvaluationStack.view` reads a stack as an infinite sequence: the items that are present, and below
them the unknowns that are still to be added.  This file says for every operation of the evaluation
stack what it does to that sequence.  None of the equations mentions how many items are present, so
whoever reasons through the view never meets the boundary between the items and the unknowns.

At the end stands what all operations have in common: whatever they do, they do at the top.  Two
stacks that are `Reshaped` into each other agree from some depth on.
-/

namespace SymbolicScript

namespace EvaluationStack

/-! ## Reading present items -/

/-- The view shows a present item where it lies. -/
lemma view_of_lt {s : EvaluationStack} {i : Nat} (h : i < s.items.length) :
    s.view i = s.items[i] := by
  simp [view, h]

/-- The view shows the unknowns below the present items. -/
lemma view_of_le {s : EvaluationStack} {i : Nat} (h : s.items.length ≤ i) :
    s.view i = extension (s.extensions + (i - s.items.length)) := by
  simp [view, Nat.not_lt.2 h]

/-- An extended stack has as many items as asked for. -/
lemma le_length_extend (s : EvaluationStack) (count : Nat) :
    count ≤ (s.extend count).items.length := by
  by_cases h : count ≤ s.items.length
  · rwa [extend_of_le h]
  · rw [extend_of_lt (Nat.lt_of_not_le h)]
    simp only [List.length_append, List.length_map, List.length_range]
    omega

/-- The items of an extended stack are the first items of the view. -/
lemma getElem_extend {s : EvaluationStack} {count i : Nat}
    (h : i < (s.extend count).items.length) : (s.extend count).items[i] = s.view i := by
  rw [← view_of_lt h, view_extend]

/-- Reading an item of an extended stack with a default reads the view. -/
lemma getD_extend {s : EvaluationStack} {count i : Nat} (h : i < count) (d : Item) :
    (s.extend count).items.getD i d = s.view i := by
  have hi : i < (s.extend count).items.length :=
    Nat.lt_of_lt_of_le h (s.le_length_extend count)
  rw [← List.getElem_eq_getD (h := hi) d, getElem_extend hi]

/-- Changing the items of a stack above its unknowns changes the view above a fixed depth, and
below that depth shifts it. -/
lemma view_replace (s : EvaluationStack) (items : List Item) (taken : Nat)
    (htaken : taken ≤ s.items.length) (i : Nat) :
    view { s with items := items ++ s.items.drop taken } (items.length + i) =
      s.view (taken + i) := by
  by_cases h : taken + i < s.items.length
  · rw [view_of_lt h, view_of_lt (by simp only [List.length_append, List.length_drop]; omega)]
    simp
  · rw [view_of_le (Nat.le_of_not_lt h),
      view_of_le (by simp only [List.length_append, List.length_drop]; omega)]
    simp only [List.length_append, List.length_drop]
    congr 1
    omega

/-! ## The operations -/

/-- A pushed item lies on top of the others. -/
@[simp] theorem view_push_zero (s : EvaluationStack) (x : Item) : (s.push x).view 0 = x := by
  simp [view, push]

/-- A push moves every other item one place down. -/
@[simp] theorem view_push_succ (s : EvaluationStack) (x : Item) (i : Nat) :
    (s.push x).view (i + 1) = s.view i := by
  have h := s.view_replace [x] 0 (Nat.zero_le _) i
  simpa [push, Nat.add_comm] using h

/-- Items pushed together lie on top of the others, in their order. -/
theorem view_pushAll (s : EvaluationStack) (xs : List Item) (i : Nat) :
    (s.pushAll xs).view i =
      if h : i < xs.length then xs[i] else s.view (i - xs.length) := by
  split
  · next h =>
    have hi : i < (s.pushAll xs).items.length := by
      simp only [pushAll, List.length_append]
      omega
    rw [view_of_lt hi]
    simp [pushAll, h]
  · next h =>
    have hshift := s.view_replace xs 0 (Nat.zero_le _) (i - xs.length)
    rw [Nat.add_sub_cancel' (Nat.le_of_not_lt h)] at hshift
    simpa [pushAll] using hshift

/-- Peeking gives the item of the view. -/
@[simp] theorem peek_fst (s : EvaluationStack) (n : Nat) : (s.peek n).1 = s.view n :=
  getD_extend (Nat.lt_succ_self n) _

/-- Peeking leaves the view alone. -/
@[simp] theorem view_peek (s : EvaluationStack) (n : Nat) : (s.peek n).2.view = s.view :=
  view_extend s (n + 1)

/-- Removing gives the item of the view. -/
@[simp] theorem removeAt_fst (s : EvaluationStack) (n : Nat) : (s.removeAt n).1 = s.view n :=
  getD_extend (Nat.lt_succ_self n) _

/-- Removing closes the gap in the view. -/
theorem view_removeAt (s : EvaluationStack) (n i : Nat) :
    (s.removeAt n).2.view i = if i < n then s.view i else s.view (i + 1) := by
  have hn : n < (s.extend (n + 1)).items.length := s.le_length_extend (n + 1)
  have htake : ((s.extend (n + 1)).items.take n).length = n := by
    simp only [List.length_take]
    omega
  have herase : (s.removeAt n).2 =
      { s.extend (n + 1) with
        items := (s.extend (n + 1)).items.take n ++ (s.extend (n + 1)).items.drop (n + 1) } := by
    simp [removeAt, List.eraseIdx_eq_take_drop_succ]
  rw [herase]
  split
  · next h =>
    rw [view_of_lt (by simp only [List.length_append, List.length_take]; omega),
      List.getElem_append_left (by omega), List.getElem_take, getElem_extend]
  · next h =>
    have hshift := (s.extend (n + 1)).view_replace ((s.extend (n + 1)).items.take n) (n + 1) hn
      (i - n)
    rw [htake, view_extend, Nat.add_sub_cancel' (Nat.le_of_not_lt h)] at hshift
    rw [hshift]
    congr 1
    omega

/-- Popping gives the top of the view. -/
@[simp] theorem pop_fst (s : EvaluationStack) : s.pop.1 = s.view 0 :=
  s.removeAt_fst 0

/-- Popping moves every other item one place up. -/
@[simp] theorem view_pop (s : EvaluationStack) (i : Nat) : s.pop.2.view i = s.view (i + 1) := by
  simp [pop, view_removeAt]

/-- Popping several items gives the first items of the view. -/
theorem popMany_fst (s : EvaluationStack) (count : Nat) :
    (s.popMany count).1 = (List.range count).map s.view := by
  have hlen := s.le_length_extend count
  apply List.ext_getElem
  · simp only [popMany, List.length_take, List.length_map, List.length_range]
    omega
  · intro i h1 h2
    simp only [popMany, List.getElem_take, List.getElem_map, List.getElem_range]
    exact getElem_extend _

/-- Popping several items moves every other item up. -/
@[simp] theorem view_popMany (s : EvaluationStack) (count i : Nat) :
    (s.popMany count).2.view i = s.view (count + i) := by
  have hshift := (s.extend count).view_replace [] count (s.le_length_extend count) i
  simpa [popMany, view_extend] using hshift

/-- Popping several items is popping the first of them and then the others. -/
theorem popMany_succ (s : EvaluationStack) (count : Nat) :
    s.popMany (count + 1) = (s.pop.1 :: (s.pop.2.popMany count).1, (s.pop.2.popMany count).2) := by
  obtain ⟨items, extensions⟩ := s
  cases items with
  | nil =>
    have hpop : (⟨[], extensions⟩ : EvaluationStack).pop =
        (extension extensions, ⟨[], extensions + 1⟩) := rfl
    have hunknowns : (List.range (count + 1)).map (fun i => extension (extensions + i)) =
        extension extensions ::
          (List.range count).map fun i => extension (extensions + 1 + i) := by
      rw [List.range_succ_eq_map, List.map_cons, List.map_map]
      congr 2
      funext i
      exact congrArg extension (by omega)
    rw [hpop]
    cases count with
    | zero => rfl
    | succ count =>
      simp only [popMany]
      rw [extend_of_lt (by simp), extend_of_lt (by simp)]
      simp only [List.length_nil, Nat.sub_zero, List.nil_append, hunknowns]
      simp [Nat.add_comm, Nat.add_left_comm]
  | cons x rest =>
    have hpop : (⟨x :: rest, extensions⟩ : EvaluationStack).pop = (x, ⟨rest, extensions⟩) := by
      simp [pop, removeAt, extend, shortfall]
    rw [hpop]
    simp only [popMany]
    by_cases hle : count ≤ rest.length
    · rw [extend_of_le (by simpa using hle), extend_of_le (by simpa using hle)]
      rfl
    · rw [extend_of_lt (by simpa using hle), extend_of_lt (by simpa using hle)]
      simp

/-- Popping takes off what has just been pushed. -/
@[simp] theorem pop_push (s : EvaluationStack) (x : Item) : (s.push x).pop = (x, s) := by
  simp [pop, push, removeAt, extend, shortfall]

/-- Popping as many items as have been pushed gives these items, and the stack as it was. -/
theorem popMany_pushAll (xs : List Item) (s : EvaluationStack) :
    (s.pushAll xs).popMany xs.length = (xs, s) := by
  induction xs with
  | nil => simp [popMany, pushAll, extend_of_le]
  | cons x xs ih =>
    have hpush : s.pushAll (x :: xs) = (s.pushAll xs).push x := rfl
    rw [List.length_cons, popMany_succ, hpush, pop_push, ih]

/-- Inserting into a list splits it at the place. -/
lemma insertIdx_eq_take_append {l : List Item} {x : Item} {n : Nat} (h : n ≤ l.length) :
    l.insertIdx n x = l.take n ++ x :: l.drop n := by
  induction n generalizing l with
  | zero => rfl
  | succ n ih =>
    cases l with
    | nil => simp at h
    | cons y rest => simpa using ih (Nat.le_of_succ_le_succ h)

/-- Inserting opens a gap in the view for the item. -/
theorem view_insertAt (s : EvaluationStack) (n : Nat) (x : Item) (i : Nat) :
    (s.insertAt n x).view i =
      if i < n then s.view i else if i = n then x else s.view (i - 1) := by
  have hn : n ≤ (s.extend n).items.length := s.le_length_extend n
  have htake : ((s.extend n).items.take n).length = n := by
    simp only [List.length_take]
    omega
  have hinsert : s.insertAt n x =
      { s.extend n with
        items := ((s.extend n).items.take n ++ [x]) ++ (s.extend n).items.drop n } := by
    simp [insertAt, insertIdx_eq_take_append hn]
  rw [hinsert]
  split
  · next h =>
    rw [view_of_lt (by simp only [List.length_append, List.length_take]; omega),
      List.getElem_append_left (by simp only [List.length_append, List.length_take]; omega),
      List.getElem_append_left (by omega), List.getElem_take, getElem_extend]
  · split
    · next h =>
      subst h
      rw [view_of_lt (by simp only [List.length_append, List.length_take, List.length_singleton]
                         omega)]
      simp [htake]
    · have hshift := (s.extend n).view_replace ((s.extend n).items.take n ++ [x]) n hn
        (i - (n + 1))
      rw [List.length_append, htake, List.length_singleton, view_extend,
        Nat.add_sub_cancel' (by omega)] at hshift
      rw [hshift]
      congr 1
      omega

/-- Reversing mirrors the first items of the view. -/
theorem view_reverse (s : EvaluationStack) (n i : Nat) :
    (s.reverse n).view i = if i < n then s.view (n - 1 - i) else s.view i := by
  have hn : n ≤ (s.extend n).items.length := s.le_length_extend n
  have htake : ((s.extend n).items.take n).length = n := by
    simp only [List.length_take]
    omega
  have hreverse : s.reverse n =
      { s.extend n with
        items := ((s.extend n).items.take n).reverse ++ (s.extend n).items.drop n } := rfl
  rw [hreverse]
  split
  · next h =>
    rw [view_of_lt (by simp only [List.length_append, List.length_reverse]; omega),
      List.getElem_append_left (by rw [List.length_reverse]; omega), List.getElem_reverse,
      List.getElem_take, getElem_extend]
    congr 1
    omega
  · next h =>
    have hshift := (s.extend n).view_replace ((s.extend n).items.take n).reverse n hn (i - n)
    rw [List.length_reverse, htake, view_extend, Nat.add_sub_cancel' (Nat.le_of_not_lt h)] at hshift
    exact hshift

/-- Clearing uncovers what lies below the present items. -/
theorem view_clear (s : EvaluationStack) (i : Nat) :
    s.clear.view i = s.view (s.items.length + i) := by
  have hshift := s.view_replace [] s.items.length (Nat.le_refl _) i
  simpa [clear] using hshift

/-! ## Changes at the top -/

/-- Two stacks agree from some depth on: once enough items are taken off each of them, what is left
is the same. -/
def Reshaped (s t : EvaluationStack) : Prop :=
  ∃ added taken, ∀ i, t.view (added + i) = s.view (taken + i)

namespace Reshaped

/-- A stack agrees with itself. -/
lemma refl (s : EvaluationStack) : Reshaped s s := ⟨0, 0, fun _ => rfl⟩

/-- Stacks with the same view agree. -/
lemma of_view_eq {s t : EvaluationStack} (h : t.view = s.view) : Reshaped s t :=
  ⟨0, 0, fun _ => by rw [h]⟩

/-- Changes at the top compose. -/
lemma trans {s t u : EvaluationStack} (hst : Reshaped s t) (htu : Reshaped t u) :
    Reshaped s u := by
  obtain ⟨added, taken, h⟩ := hst
  obtain ⟨added', taken', h'⟩ := htu
  refine ⟨added' + added, taken + taken', fun i => ?_⟩
  calc u.view (added' + added + i) = u.view (added' + (added + i)) := by rw [Nat.add_assoc]
    _ = t.view (taken' + (added + i)) := h' _
    _ = t.view (added + (taken' + i)) := by rw [Nat.add_left_comm]
    _ = s.view (taken + (taken' + i)) := h _
    _ = s.view (taken + taken' + i) := by rw [Nat.add_assoc]

end Reshaped

lemma reshaped_push (s : EvaluationStack) (x : Item) : s.Reshaped (s.push x) :=
  ⟨1, 0, fun i => by rw [Nat.add_comm, view_push_succ, Nat.zero_add]⟩

lemma reshaped_pushAll (s : EvaluationStack) (xs : List Item) : s.Reshaped (s.pushAll xs) :=
  ⟨xs.length, 0, fun i => by
    rw [view_pushAll, dif_neg (by omega)]
    congr 1
    omega⟩

lemma reshaped_peek (s : EvaluationStack) (n : Nat) : s.Reshaped (s.peek n).2 :=
  .of_view_eq (s.view_peek n)

lemma reshaped_removeAt (s : EvaluationStack) (n : Nat) : s.Reshaped (s.removeAt n).2 :=
  ⟨n, n + 1, fun i => by
    rw [view_removeAt, if_neg (by omega)]
    congr 1
    omega⟩

lemma reshaped_popMany (s : EvaluationStack) (count : Nat) :
    s.Reshaped (s.popMany count).2 :=
  ⟨0, count, fun i => by rw [Nat.zero_add, view_popMany]⟩

lemma reshaped_insertAt (s : EvaluationStack) (n : Nat) (x : Item) :
    s.Reshaped (s.insertAt n x) :=
  ⟨n + 1, n, fun i => by
    rw [view_insertAt, if_neg (by omega), if_neg (by omega)]
    congr 1
    omega⟩

lemma reshaped_reverse (s : EvaluationStack) (n : Nat) : s.Reshaped (s.reverse n) :=
  ⟨n, n, fun i => by rw [view_reverse, if_neg (by omega)]⟩

lemma reshaped_clear (s : EvaluationStack) : s.Reshaped s.clear :=
  ⟨0, s.items.length, fun i => by rw [Nat.zero_add, view_clear]⟩

end EvaluationStack

end SymbolicScript
