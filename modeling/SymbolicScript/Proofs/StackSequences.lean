import Mathlib.Data.Stream.Init
import Mathlib.Logic.Function.Basic
import SymbolicScript.Proofs.StackView

/-!
# The evaluation stack as an infinite sequence

An evaluation stack stands for an infinite sequence of items: those that are present, top first, and
below them all the unknowns that are still to be added.  This file carries the operations on
stacks over to operations on sequences.  Several stacks may take part, since items are copied and
moved from one to another.

The answers of a run of operations, and the sequences that it leaves behind, depend on the sequences
at the start only and not on how many items were present (`EvaluationStack.performAll_sequences`).
-/

namespace SymbolicScript

namespace EvaluationStack

/-! ## Sequences -/

/-- The unknowns from a number on. -/
def unknowns (first : Nat) : Stream' Item := fun i => extension (first + i)

/-- The items that are present, from the top, followed by the unknowns that lie below them. -/
def sequence (s : EvaluationStack) : Stream' Item := s.items ++ₛ unknowns s.extensions

/-- The sequence lists what the view shows. -/
lemma get_sequence (s : EvaluationStack) (i : Nat) : s.sequence.get i = s.view i := by
  by_cases h : i < s.items.length
  · rw [view_of_lt h, sequence, Stream'.get_append_left _ _ _ h]
  · obtain ⟨j, rfl⟩ := Nat.exists_eq_add_of_le (Nat.le_of_not_lt h)
    rw [view_of_le (Nat.le_of_not_lt h), sequence, Stream'.get_append_right,
      Nat.add_sub_cancel_left]
    rfl

/-- Adding unknowns in advance does not change the sequence. -/
lemma sequence_extend (s : EvaluationStack) (n : Nat) : (s.extend n).sequence = s.sequence := by
  ext i
  rw [get_sequence, get_sequence, view_extend]

/-- Items in front of the present ones come first in the sequence. -/
lemma sequence_append (items rest : List Item) (extensions : Nat) :
    sequence ⟨items ++ rest, extensions⟩ = items ++ₛ sequence ⟨rest, extensions⟩ :=
  Stream'.append_append_stream items rest _

/-- The first items of a stack on which enough are present are the first of the sequence. -/
lemma take_items_extend (s : EvaluationStack) {m n : Nat} (h : m ≤ n) :
    (s.extend n).items.take m = s.sequence.take m := by
  rw [← sequence_extend s n, sequence,
    Stream'.take_append_of_le_length _ _ _ (Nat.le_trans h (s.le_length_extend n))]

/-- What is left of such a stack below its first items is the sequence below them. -/
lemma sequence_drop_extend (s : EvaluationStack) {m n : Nat} (h : m ≤ n) :
    sequence ⟨(s.extend n).items.drop m, (s.extend n).extensions⟩ = s.sequence.drop m := by
  rw [← sequence_extend s n]
  exact (Stream'.drop_append_of_le_length _ _ _ (Nat.le_trans h (s.le_length_extend n))).symm

/-! ## One stack -/

lemma sequence_push (s : EvaluationStack) (x : Item) :
    (s.push x).sequence = .cons x s.sequence :=
  sequence_append [x] s.items s.extensions

lemma sequence_pushAll (s : EvaluationStack) (items : List Item) :
    (s.pushAll items).sequence = items ++ₛ s.sequence :=
  sequence_append items s.items s.extensions

lemma sequence_peek (s : EvaluationStack) (n : Nat) : (s.peek n).2.sequence = s.sequence :=
  sequence_extend s (n + 1)

lemma sequence_removeAt (s : EvaluationStack) (n : Nat) :
    (s.removeAt n).2.sequence = s.sequence.take n ++ₛ s.sequence.drop (n + 1) := by
  rw [← take_items_extend s (Nat.le_succ n), ← sequence_drop_extend s (Nat.le_refl (n + 1)),
    ← sequence_append, ← List.eraseIdx_eq_take_drop_succ]
  rfl

lemma sequence_pop (s : EvaluationStack) : s.pop.2.sequence = s.sequence.tail :=
  sequence_removeAt s 0

lemma sequence_popMany (s : EvaluationStack) (n : Nat) :
    (s.popMany n).1 = s.sequence.take n ∧ (s.popMany n).2.sequence = s.sequence.drop n :=
  ⟨take_items_extend s (Nat.le_refl n), sequence_drop_extend s (Nat.le_refl n)⟩

lemma sequence_insertAt (s : EvaluationStack) (n : Nat) (x : Item) :
    (s.insertAt n x).sequence = s.sequence.take n ++ₛ .cons x (s.sequence.drop n) := by
  rw [← take_items_extend s (Nat.le_refl n), ← sequence_drop_extend s (Nat.le_refl n),
    ← sequence_push, push, ← sequence_append,
    ← insertIdx_eq_take_append (s.le_length_extend n)]
  rfl

lemma sequence_reverse (s : EvaluationStack) (n : Nat) :
    (s.reverse n).sequence = (s.sequence.take n).reverse ++ₛ s.sequence.drop n := by
  rw [← take_items_extend s (Nat.le_refl n), ← sequence_drop_extend s (Nat.le_refl n),
    ← sequence_append]
  rfl

lemma sequence_copyTo (s target : EvaluationStack) (n : Nat) :
    (s.copyTo target (some n)).1.sequence = s.sequence ∧
      (s.copyTo target (some n)).2.sequence = s.sequence.take n ++ₛ target.sequence := by
  refine ⟨sequence_extend s n, ?_⟩
  rw [← take_items_extend s (Nat.le_refl n), ← sequence_pushAll]
  rfl

lemma sequence_moveTo (s target : EvaluationStack) (n : Nat) :
    (s.moveTo target (some n)).1.sequence = s.sequence.drop n ∧
      (s.moveTo target (some n)).2.sequence = s.sequence.take n ++ₛ target.sequence := by
  refine ⟨sequence_drop_extend s (Nat.le_refl n), ?_⟩
  rw [← take_items_extend s (Nat.le_refl n), ← sequence_pushAll]
  rfl

/-! ## Several stacks -/

variable {ι : Type}

/-- An operation on one of several stacks, or from one to another. -/
inductive StackOperation (ι : Type) where
  | push (stack : ι) (x : Item)
  | pop (stack : ι)
  | peek (stack : ι) (index : Nat)
  | removeAt (stack : ι) (index : Nat)
  | insertAt (stack : ι) (index : Nat) (x : Item)
  | reverse (stack : ι) (count : Nat)
  | copyTo (source target : ι) (distinct : source ≠ target) (count : Nat)
  | moveTo (source target : ι) (distinct : source ≠ target) (count : Nat)

/-- What a list of operations answers one after the other, and the state that it leaves behind. -/
def performAll {α β σ : Type} (perform : α → σ → β × σ) : List α → σ → List β × σ
  | [], state => ([], state)
  | op :: rest, state =>
    let (answer, state) := perform op state
    let (answers, state) := performAll perform rest state
    (answer :: answers, state)

/-- The sequences of several stacks. -/
def sequences (stackAt : ι → EvaluationStack) (k : ι) : Stream' Item :=
  (stackAt k).sequence

variable [DecidableEq ι]

namespace StackOperation

/-- The operation on stacks, and the item that it returns. -/
def perform (op : StackOperation ι) (stackAt : ι → EvaluationStack) :
    Option Item × (ι → EvaluationStack) :=
  match op with
  | push k x => (none, Function.update stackAt k ((stackAt k).push x))
  | pop k =>
    let (x, s) := (stackAt k).pop
    (some x, Function.update stackAt k s)
  | peek k n =>
    let (x, s) := (stackAt k).peek n
    (some x, Function.update stackAt k s)
  | removeAt k n =>
    let (x, s) := (stackAt k).removeAt n
    (some x, Function.update stackAt k s)
  | insertAt k n x => (none, Function.update stackAt k ((stackAt k).insertAt n x))
  | reverse k n => (none, Function.update stackAt k ((stackAt k).reverse n))
  | copyTo j k _ n =>
    let (source, target) := (stackAt j).copyTo (stackAt k) (some n)
    (none, Function.update (Function.update stackAt j source) k target)
  | moveTo j k _ n =>
    let (source, target) := (stackAt j).moveTo (stackAt k) (some n)
    (none, Function.update (Function.update stackAt j source) k target)

/-- The same operation on infinite sequences. -/
def onSequences (op : StackOperation ι) (sequenceAt : ι → Stream' Item) :
    Option Item × (ι → Stream' Item) :=
  match op with
  | push k x => (none, Function.update sequenceAt k (.cons x (sequenceAt k)))
  | pop k => (some (sequenceAt k).head, Function.update sequenceAt k (sequenceAt k).tail)
  | peek k n => (some ((sequenceAt k).get n), sequenceAt)
  | removeAt k n =>
    (some ((sequenceAt k).get n),
      Function.update sequenceAt k ((sequenceAt k).take n ++ₛ (sequenceAt k).drop (n + 1)))
  | insertAt k n x =>
    (none, Function.update sequenceAt k ((sequenceAt k).take n ++ₛ .cons x ((sequenceAt k).drop n)))
  | reverse k n =>
    (none, Function.update sequenceAt k (((sequenceAt k).take n).reverse ++ₛ (sequenceAt k).drop n))
  | copyTo j k _ n => (none, Function.update sequenceAt k ((sequenceAt j).take n ++ₛ sequenceAt k))
  | moveTo j k _ n =>
    (none, Function.update (Function.update sequenceAt j ((sequenceAt j).drop n)) k
      ((sequenceAt j).take n ++ₛ sequenceAt k))

end StackOperation

/-- Changing one stack changes its sequence. -/
lemma sequences_update (stackAt : ι → EvaluationStack) (k : ι) (s : EvaluationStack) :
    sequences (Function.update stackAt k s) =
      Function.update (sequences stackAt) k s.sequence :=
  Function.comp_update sequence stackAt k s

/-- An operation on stacks answers as the one on their sequences, and acts alike. -/
theorem perform_sequences (op : StackOperation ι) (stackAt : ι → EvaluationStack) :
    (op.perform stackAt).map id sequences = op.onSequences (sequences stackAt) := by
  cases op with
  | push k x =>
    simp only [StackOperation.perform, StackOperation.onSequences, Prod.map, sequences_update,
      sequence_push]
    rfl
  | pop k =>
    simp only [StackOperation.perform, StackOperation.onSequences, Prod.map, sequences_update,
      sequence_pop, pop_fst, ← get_sequence]
    rfl
  | peek k n =>
    simp only [StackOperation.perform, StackOperation.onSequences, Prod.map, sequences_update,
      sequence_peek, peek_fst, ← get_sequence]
    exact congrArg _ (Function.update_eq_self k (sequences stackAt))
  | removeAt k n =>
    simp only [StackOperation.perform, StackOperation.onSequences, Prod.map, sequences_update,
      sequence_removeAt, removeAt_fst, ← get_sequence]
    rfl
  | insertAt k n x =>
    simp only [StackOperation.perform, StackOperation.onSequences, Prod.map, sequences_update,
      sequence_insertAt]
    rfl
  | reverse k n =>
    simp only [StackOperation.perform, StackOperation.onSequences, Prod.map, sequences_update,
      sequence_reverse]
    rfl
  | copyTo j k hjk n =>
    obtain ⟨hsource, htarget⟩ := sequence_copyTo (stackAt j) (stackAt k) n
    simp only [StackOperation.perform, StackOperation.onSequences, Prod.map, sequences_update,
      hsource, htarget]
    exact congrArg (fun f => (none, Function.update f k _))
      (Function.update_eq_self j (sequences stackAt))
  | moveTo j k hjk n =>
    obtain ⟨hsource, htarget⟩ := sequence_moveTo (stackAt j) (stackAt k) n
    simp only [StackOperation.perform, StackOperation.onSequences, Prod.map, sequences_update,
      hsource, htarget]
    rfl

/-- So does a list of operations. -/
theorem performAll_sequences (ops : List (StackOperation ι)) (stackAt : ι → EvaluationStack) :
    (performAll StackOperation.perform ops stackAt).map id sequences =
      performAll StackOperation.onSequences ops (sequences stackAt) := by
  induction ops generalizing stackAt with
  | nil => rfl
  | cons op rest ih =>
    have hop := perform_sequences op stackAt
    have hrest := ih (op.perform stackAt).2
    simp only [performAll, ← hop, Prod.map_fst, Prod.map_snd, ← hrest, id_eq]
    rfl

end EvaluationStack

end SymbolicScript
