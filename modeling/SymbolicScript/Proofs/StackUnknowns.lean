import Mathlib.Data.List.InsertIdx
import Mathlib.Data.List.Nodup
import SymbolicScript.Proofs.StackSequences

/-!
# The unknowns of a stack are new

As an infinite sequence a stack does not show which of its unknowns have been added to it and which
are still to come.  Whoever empties a stack, by taking its items off or by dropping them, relies on
the next unknown being another one than those that were there.

This needs some care on the side of the user: an unknown that a stack has not added yet must not be
pushed onto it.  A stack that starts without items is used fairly if it is given back only such
unknowns of its own numbering as have been taken from it (`EvaluationStack.Fair`).  Then each
unknown that it adds is new (`EvaluationStack.Fair.materialised_notMem`).  The argument is that of a
counter: what has been on the stack or taken from it has a number below the number of unknowns added
so far.

Together with the equations on sequences this is `EvaluationStack.behaves_as_sequence`.
-/

namespace SymbolicScript

namespace EvaluationStack

variable {ι : Type} [DecidableEq ι]

/-! ## What passes in and out of a stack -/

/-- An operation, or a command that concerns just the items that are present. -/
inductive StackCommand (ι : Type) where
  | operation (op : StackOperation ι)
  | clear (stack : ι)
  | copyAll (source target : ι) (distinct : source ≠ target)
  | moveAll (source target : ι) (distinct : source ≠ target)

/-- Items that are taken from a stack, or put onto one, or both. -/
structure Passage (ι : Type) where
  /-- The items. -/
  items : List Item
  /-- The stack that they come from, if any. -/
  source : Option ι
  /-- The stack that they go to, if any. -/
  target : Option ι

namespace StackCommand

/-- The command on stacks, and the item that it returns. -/
def perform (c : StackCommand ι) (stackAt : ι → EvaluationStack) :
    Option Item × (ι → EvaluationStack) :=
  match c with
  | operation op => op.perform stackAt
  | clear k => (none, Function.update stackAt k (stackAt k).clear)
  | copyAll j k _ =>
    let (source, target) := (stackAt j).copyTo (stackAt k) none
    (none, Function.update (Function.update stackAt j source) k target)
  | moveAll j k _ =>
    let (source, target) := (stackAt j).moveTo (stackAt k) none
    (none, Function.update (Function.update stackAt j source) k target)

/-- The items that the command carries.  What it returns is taken from its stack. -/
def passage (c : StackCommand ι) (stackAt : ι → EvaluationStack) : Passage ι :=
  match c with
  | operation (.push k x) => ⟨[x], none, some k⟩
  | operation (.pop k) => ⟨[(stackAt k).pop.1], some k, none⟩
  | operation (.peek k n) => ⟨[((stackAt k).peek n).1], some k, none⟩
  | operation (.removeAt k n) => ⟨[((stackAt k).removeAt n).1], some k, none⟩
  | operation (.insertAt k _ x) => ⟨[x], none, some k⟩
  | operation (.reverse _ _) => ⟨[], none, none⟩
  | operation (.copyTo j k _ n) => ⟨(stackAt j).sequence.take n, some j, some k⟩
  | operation (.moveTo j k _ n) => ⟨(stackAt j).sequence.take n, some j, some k⟩
  | clear _ => ⟨[], none, none⟩
  | copyAll j k _ => ⟨(stackAt j).items, some j, some k⟩
  | moveAll j k _ => ⟨(stackAt j).items, some j, some k⟩

/-- The items that the command puts onto a stack. -/
def received (c : StackCommand ι) (k : ι) (stackAt : ι → EvaluationStack) : List Item :=
  if (c.passage stackAt).target = some k then (c.passage stackAt).items else []

/-- The items that the command takes from a stack, be it only to show them. -/
def given (c : StackCommand ι) (k : ι) (stackAt : ι → EvaluationStack) : List Item :=
  if (c.passage stackAt).source = some k then (c.passage stackAt).items else []

end StackCommand

/-- The unknowns that a stack has added between two moments. -/
def unknownsBetween (s t : EvaluationStack) : List Item :=
  (List.range' s.extensions (t.extensions - s.extensions)).map extension

/-- The unknowns that a command adds to a stack. -/
def StackCommand.materialised (c : StackCommand ι) (k : ι) (stackAt : ι → EvaluationStack) :
    List Item :=
  unknownsBetween (stackAt k) ((c.perform stackAt).2 k)

lemma mem_unknownsBetween {s t : EvaluationStack} {x : Item} :
    x ∈ unknownsBetween s t ↔ ∃ i, s.extensions ≤ i ∧ i < t.extensions ∧ extension i = x := by
  simp only [unknownsBetween, List.mem_map, List.mem_range'_1]
  constructor
  · rintro ⟨i, ⟨hle, hlt⟩, rfl⟩
    exact ⟨i, hle, by omega, rfl⟩
  · rintro ⟨i, hle, hlt, rfl⟩
    exact ⟨i, ⟨hle, by omega⟩, rfl⟩

/-- Different unknowns have different numbers. -/
lemma extension_injective : Function.Injective extension := by
  intro i j h
  cases h
  rfl

/-- The unknowns that a stack adds are different from each other. -/
lemma nodup_unknownsBetween (s t : EvaluationStack) : (unknownsBetween s t).Nodup :=
  (List.nodup_range' 1).map extension_injective

/-- Extending a stack adds just these unknowns. -/
lemma mem_items_extend {s : EvaluationStack} {n : Nat} {x : Item} :
    x ∈ (s.extend n).items ↔ x ∈ s.items ∨ x ∈ unknownsBetween s (s.extend n) := by
  by_cases hle : n ≤ s.items.length
  · simp [extend_of_le hle, unknownsBetween]
  · rw [extend_of_lt (Nat.lt_of_not_le hle)]
    simp only [List.mem_append, List.mem_map, List.mem_range, mem_unknownsBetween]
    refine or_congr_right ⟨?_, ?_⟩
    · rintro ⟨i, hi, rfl⟩
      exact ⟨s.extensions + i, by omega, by omega, rfl⟩
    · rintro ⟨i, hle, hlt, rfl⟩
      exact ⟨i - s.extensions, by omega, by congr 1; omega⟩

lemma extensions_le_extend (s : EvaluationStack) (n : Nat) :
    s.extensions ≤ (s.extend n).extensions := by
  by_cases hle : n ≤ s.items.length
  · rw [extend_of_le hle]
  · rw [extend_of_lt (Nat.lt_of_not_le hle)]
    exact Nat.le_add_right _ _

/-- A stack becomes another one in that some items are put onto it and some are taken from it. -/
structure Passes (s t : EvaluationStack) (received given : List Item) : Prop where
  /-- Unknowns are only added. -/
  extensions_le : s.extensions ≤ t.extensions
  /-- What is on the stack afterwards was there, has been put onto it, or is a new unknown. -/
  mem_after : ∀ x ∈ t.items, x ∈ s.items ∨ x ∈ received ∨ x ∈ unknownsBetween s t
  /-- What is taken from the stack was there, or is a new unknown. -/
  mem_given : ∀ x ∈ given, x ∈ s.items ∨ x ∈ unknownsBetween s t

namespace Passes

variable {s t : EvaluationStack} {items received given : List Item} {n : Nat}

lemma refl (s : EvaluationStack) : Passes s s [] [] where
  extensions_le := Nat.le_refl _
  mem_after := fun _ hx => .inl hx
  mem_given := nofun

/-- A stack is extended first, and then items are put onto it and taken from it. -/
lemma of_extend (hitems : ∀ x ∈ items, x ∈ (s.extend n).items ∨ x ∈ received)
    (hgiven : ∀ x ∈ given, x ∈ (s.extend n).items) :
    Passes s ⟨items, (s.extend n).extensions⟩ received given where
  extensions_le := s.extensions_le_extend n
  mem_after := by
    intro x hx
    rcases hitems x hx with h | h
    · exact (mem_items_extend.1 h).imp_right .inr
    · exact .inr (.inl h)
  mem_given := fun x hx => mem_items_extend.1 (hgiven x hx)

lemma pushAll (s : EvaluationStack) (xs : List Item) : Passes s (s.pushAll xs) xs [] where
  extensions_le := Nat.le_refl _
  mem_after := by
    intro x hx
    rcases List.mem_append.1 hx with h | h
    · exact .inr (.inl h)
    · exact .inl h
  mem_given := nofun

lemma clear (s : EvaluationStack) : Passes s s.clear [] [] where
  extensions_le := Nat.le_refl _
  mem_after := nofun
  mem_given := nofun

/-- The item that lies at a place of an extended stack is on it. -/
private lemma getD_mem_extend (s : EvaluationStack) (n : Nat) :
    (s.extend (n + 1)).items.getD n .null ∈ (s.extend (n + 1)).items := by
  have hn : n < (s.extend (n + 1)).items.length := s.le_length_extend (n + 1)
  rw [← List.getElem_eq_getD (h := hn)]
  exact List.getElem_mem hn

lemma peek (s : EvaluationStack) (n : Nat) : Passes s (s.peek n).2 [] [(s.peek n).1] := by
  refine of_extend (fun x hx => .inl hx) fun x hx => ?_
  rw [List.mem_singleton.1 hx]
  exact getD_mem_extend s n

lemma removeAt (s : EvaluationStack) (n : Nat) :
    Passes s (s.removeAt n).2 [] [(s.removeAt n).1] := by
  refine of_extend (fun x hx => .inl (List.mem_of_mem_eraseIdx hx)) fun x hx => ?_
  rw [List.mem_singleton.1 hx]
  exact getD_mem_extend s n

lemma insertAt (s : EvaluationStack) (n : Nat) (x : Item) :
    Passes s (s.insertAt n x) [x] [] := by
  refine of_extend (fun y hy => ?_) nofun
  rcases List.eq_or_mem_of_mem_insertIdx hy with rfl | h
  · exact .inr (List.mem_singleton_self _)
  · exact .inl h

lemma reverse (s : EvaluationStack) (n : Nat) : Passes s (s.reverse n) [] [] := by
  refine of_extend (fun x hx => .inl ?_) nofun
  rw [List.mem_append, List.mem_reverse, ← List.mem_append, List.take_append_drop] at hx
  exact hx

lemma copySource (s : EvaluationStack) (n : Nat) :
    Passes s (s.extend n) [] (s.sequence.take n) := by
  refine of_extend (fun x hx => .inl hx) fun x hx => ?_
  rw [← take_items_extend s (Nat.le_refl n)] at hx
  exact List.mem_of_mem_take hx

lemma moveSource (s : EvaluationStack) (n : Nat) :
    Passes s { s.extend n with items := (s.extend n).items.drop n } [] (s.sequence.take n) := by
  refine of_extend (fun x hx => .inl (List.mem_of_mem_drop hx)) fun x hx => ?_
  rw [← take_items_extend s (Nat.le_refl n)] at hx
  exact List.mem_of_mem_take hx

end Passes

/-- The items that are present are the first ones of the sequence. -/
lemma take_sequence_length (s : EvaluationStack) : s.sequence.take s.items.length = s.items := by
  rw [sequence, Stream'.take_append_of_le_length _ _ _ (Nat.le_refl _), List.take_length]

/-- Copying or moving takes the first items from one stack and puts them onto another. -/
lemma passes_transfer (s target : EvaluationStack) (n : Nat) :
    Passes s (s.copyTo target (some n)).1 [] (s.sequence.take n) ∧
      Passes s (s.moveTo target (some n)).1 [] (s.sequence.take n) ∧
      Passes target (s.copyTo target (some n)).2 (s.sequence.take n) [] ∧
      Passes target (s.moveTo target (some n)).2 (s.sequence.take n) [] := by
  have htarget : Passes target (target.pushAll ((s.extend n).items.take n))
      (s.sequence.take n) [] := by
    rw [take_items_extend s (Nat.le_refl n)]
    exact .pushAll target _
  exact ⟨.copySource s n, .moveSource s n, htarget, htarget⟩

section Commands

variable {stackAt : ι → EvaluationStack} {j k : ι} {s t : EvaluationStack}
  {items received given : List Item}

/-- A change of one stack, seen from any stack. -/
lemma Passes.update (h : Passes (stackAt j) s received given) (k : ι) :
    Passes (stackAt k) (Function.update stackAt j s k) (if some j = some k then received else [])
      (if some j = some k then given else []) := by
  by_cases hjk : j = k
  · subst hjk
    simpa using h
  · simpa [hjk, Function.update_of_ne (Ne.symm hjk)] using Passes.refl (stackAt k)

/-- A transfer between two stacks, seen from any stack. -/
lemma Passes.update_update (hne : j ≠ k) (hs : Passes (stackAt j) s [] items)
    (ht : Passes (stackAt k) t items []) (l : ι) :
    Passes (stackAt l) (Function.update (Function.update stackAt j s) k t l)
      (if some k = some l then items else []) (if some j = some l then items else []) := by
  by_cases hkl : k = l
  · subst hkl
    simpa [hne] using ht
  · have hl := hs.update l
    rw [Function.update_of_ne (Ne.symm hkl)]
    simpa [hkl] using hl

/-- A command changes every stack by what it puts there and what it takes. -/
theorem passes_perform (c : StackCommand ι) (k : ι) (stackAt : ι → EvaluationStack) :
    Passes (stackAt k) ((c.perform stackAt).2 k) (c.received k stackAt) (c.given k stackAt) := by
  simp only [StackCommand.received, StackCommand.given]
  cases c with
  | operation op =>
    cases op with
    | push j x =>
      have hpush : Passes (stackAt j) ((stackAt j).push x) [x] [] := .pushAll (stackAt j) [x]
      simpa [StackCommand.passage, StackCommand.perform, StackOperation.perform] using
        hpush.update k
    | pop j =>
      have hpop : Passes (stackAt j) (stackAt j).pop.2 [] [(stackAt j).pop.1] :=
        .removeAt (stackAt j) 0
      simpa [StackCommand.passage, StackCommand.perform, StackOperation.perform] using
        hpop.update k
    | peek j n =>
      simpa [StackCommand.passage, StackCommand.perform, StackOperation.perform] using
        (Passes.peek (stackAt j) n).update k
    | removeAt j n =>
      simpa [StackCommand.passage, StackCommand.perform, StackOperation.perform] using
        (Passes.removeAt (stackAt j) n).update k
    | insertAt j n x =>
      simpa [StackCommand.passage, StackCommand.perform, StackOperation.perform] using
        (Passes.insertAt (stackAt j) n x).update k
    | reverse j n =>
      simpa [StackCommand.passage, StackCommand.perform, StackOperation.perform] using
        (Passes.reverse (stackAt j) n).update k
    | copyTo j l hne n =>
      obtain ⟨hsource, -, htarget, -⟩ := passes_transfer (stackAt j) (stackAt l) n
      exact Passes.update_update hne hsource htarget k
    | moveTo j l hne n =>
      obtain ⟨-, hsource, -, htarget⟩ := passes_transfer (stackAt j) (stackAt l) n
      exact Passes.update_update hne hsource htarget k
  | clear j =>
    simpa [StackCommand.passage, StackCommand.perform, StackOperation.perform] using
      (Passes.clear (stackAt j)).update k
  | copyAll j l hne =>
    -- All that has been observed is a transfer of as many items as there are.
    obtain ⟨hsource, -, htarget, -⟩ :=
      passes_transfer (stackAt j) (stackAt l) (stackAt j).items.length
    rw [take_sequence_length] at hsource htarget
    exact Passes.update_update hne hsource htarget k
  | moveAll j l hne =>
    obtain ⟨-, hsource, -, htarget⟩ :=
      passes_transfer (stackAt j) (stackAt l) (stackAt j).items.length
    rw [take_sequence_length] at hsource htarget
    exact Passes.update_update hne hsource htarget k

end Commands

/-! ## Unknowns are new -/

/-- Commands have led to these stacks, where stack `k` had no items to begin with.  Of its own
unknowns the stack has only been given what was taken from it before.  The first list contains
what has been taken from it, the second everything that has been on it or taken from it. -/
inductive Fair (k : ι) : (ι → EvaluationStack) → (taken seen : List Item) → Prop
  | start {stackAt : ι → EvaluationStack} (hempty : stackAt k = empty) : Fair k stackAt [] []
  | step {stackAt : ι → EvaluationStack} {taken seen : List Item} (c : StackCommand ι)
      (h : Fair k stackAt taken seen)
      (hreceived : ∀ x ∈ c.received k stackAt, (∀ i, extension i ≠ x) ∨ x ∈ taken) :
      Fair k (c.perform stackAt).2 (taken ++ c.given k stackAt)
        (seen ++ c.received k stackAt ++ c.materialised k stackAt ++ c.given k stackAt)

namespace Fair

variable {k : ι} {stackAt : ι → EvaluationStack} {taken seen : List Item}

/-- What has been taken has been seen, and so has what is on the stack. -/
lemma mem_seen (h : Fair k stackAt taken seen) :
    (∀ x ∈ taken, x ∈ seen) ∧ ∀ x ∈ (stackAt k).items, x ∈ seen := by
  induction h with
  | start hempty =>
    rw [hempty]
    exact ⟨nofun, nofun⟩
  | @step stackAt taken seen c h hreceived ih =>
    obtain ⟨htaken, hitems⟩ := ih
    have hpasses := passes_perform c k stackAt
    constructor
    · intro x hx
      rcases List.mem_append.1 hx with hx | hx
      · simp [htaken x hx]
      · simp [hx]
    · intro x hx
      rcases hpasses.mem_after x hx with hx | hx | hx
      · simp [hitems x hx]
      · simp [hx]
      · have hx : x ∈ c.materialised k stackAt := hx
        simp [hx]

/-- The numbers of the unknowns that have been seen are used up. -/
lemma lt_extensions (h : Fair k stackAt taken seen) :
    ∀ i, extension i ∈ seen → i < (stackAt k).extensions := by
  induction h with
  | start => exact fun _ hi => nomatch hi
  | @step stackAt taken seen c h hreceived ih =>
    intro i hi
    have hpasses := passes_perform c k stackAt
    have hbefore : extension i ∈ seen → i < ((c.perform stackAt).2 k).extensions :=
      fun hi => Nat.lt_of_lt_of_le (ih i hi) hpasses.extensions_le
    have hnew : extension i ∈ c.materialised k stackAt →
        i < ((c.perform stackAt).2 k).extensions := by
      intro hi
      obtain ⟨j, hle, hlt, hij⟩ := mem_unknownsBetween.1 hi
      rwa [← extension_injective hij]
    simp only [List.mem_append] at hi
    rcases hi with ((hi | hi) | hi) | hi
    · exact hbefore hi
    · rcases hreceived _ hi with hother | htaken
      · exact absurd rfl (hother i)
      · exact hbefore (h.mem_seen.1 _ htaken)
    · exact hnew hi
    · rcases hpasses.mem_given _ hi with hitem | hadded
      · exact hbefore (h.mem_seen.2 _ hitem)
      · exact hnew hadded

/-- The unknowns that a command adds have never been seen. -/
theorem materialised_notMem (h : Fair k stackAt taken seen) (c : StackCommand ι) :
    ∀ x ∈ c.materialised k stackAt, x ∉ seen := by
  intro x hx hseen
  obtain ⟨i, hle, hlt, rfl⟩ := mem_unknownsBetween.1 hx
  have hused : i < (stackAt k).extensions := h.lt_extensions i hseen
  omega

end Fair

/-- Evaluation stacks behave as infinite sequences.  Operations give the same answers as on the
sequences of the stacks, and leave the same sequences behind.  And the unknowns that a stack adds
differ from each other and from everything that has been on it or taken from it. -/
theorem behaves_as_sequence :
    (∀ (ops : List (StackOperation ι)) (stackAt : ι → EvaluationStack),
      (performAll StackOperation.perform ops stackAt).map id sequences =
        performAll StackOperation.onSequences ops (sequences stackAt)) ∧
    ∀ (k : ι) (stackAt : ι → EvaluationStack) (taken seen : List Item),
      Fair k stackAt taken seen → ∀ c : StackCommand ι,
        (c.materialised k stackAt).Nodup ∧ ∀ x ∈ c.materialised k stackAt, x ∉ seen := by
  refine ⟨performAll_sequences, fun k stackAt taken seen h c => ⟨?_, h.materialised_notMem c⟩⟩
  exact nodup_unknownsBetween _ _

/-- Two stacks, on the first of which an unknown has been popped and pushed again, and then all
items have been dropped. -/
def droppedStacks : Bool → EvaluationStack :=
  let popped := ((StackCommand.operation (.pop true)).perform fun _ => empty).2
  let pushed := ((StackCommand.operation (.push true (extension 0))).perform popped).2
  ((StackCommand.clear true).perform pushed).2

/-- The next unknowns are then others than the one that was popped. -/
theorem behaves_as_sequence_droppedStacks :
    Fair true droppedStacks [extension 0]
        [extension 0, extension 0, extension 0] ∧
      (StackCommand.operation (.peek true 1)).materialised true droppedStacks =
        [extension 1, extension 2] ∧
      ∀ x ∈ (StackCommand.operation (.peek true 1)).materialised true droppedStacks,
        x ∉ [extension 0, extension 0, extension 0] := by
  have hstart : Fair true (fun _ : Bool => empty) [] [] := .start rfl
  have hpop : Fair true ((StackCommand.operation (.pop true)).perform fun _ : Bool => empty).2
      [extension 0] [extension 0, extension 0] :=
    hstart.step (.operation (.pop true)) nofun
  have hpush := hpop.step (.operation (.push true (extension 0))) fun x hx => .inr hx
  have hfair : Fair true droppedStacks [extension 0] [extension 0, extension 0, extension 0] :=
    hpush.step (.clear true) nofun
  refine ⟨hfair, by decide, ?_⟩
  exact (behaves_as_sequence.2 true droppedStacks _ _ hfair (.operation (.peek true 1))).2

end EvaluationStack

end SymbolicScript
