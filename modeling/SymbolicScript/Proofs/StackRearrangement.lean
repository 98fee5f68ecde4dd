import SymbolicScript.Machine.JumpTable
import SymbolicScript.Proofs.Approximation
import SymbolicScript.Proofs.Loading
import SymbolicScript.Proofs.StackAndHeap
import SymbolicScript.Proofs.StackSequences

/-!
# Stack instructions rearrange a sequence

An evaluation stack stands for an infinite sequence of items, and the instructions that move, copy
or drop items without looking at them rearrange that sequence, in one of five ways
(`Rearrangement`).  A rearrangement is a function on sequences of anything, so that it commutes with
renaming what it moves (`Rearrangement.map_apply`); it does not know how many items are present
either, so that nothing special happens at the bottom of a stack.

Nine instructions do so with fixed positions, and four take a depth from the top of the stack first.
This file says which rearrangement belongs to which opcode, and that the instructions do that and
nothing else (`JumpTable.standard_rearranges`).  Copies that are pushed get the wrapper of a
constant, so that sequences are compared without the wrappers (`EvaluationStack.contents`).
-/

namespace SymbolicScript

/-! ## Rearrangements -/

/-- The ways in which instructions rearrange the evaluation stack. -/
inductive Rearrangement where
  /-- The item at a depth is taken out. -/
  | delete (depth : Nat)
  /-- The item at a depth is put on top once more. -/
  | copy (depth : Nat)
  /-- The item on top is put once more below the item under it. -/
  | tuck
  /-- The item at a depth is moved to the top. -/
  | lift (depth : Nat)
  /-- The order of the topmost items is reversed. -/
  | mirror (count : Nat)
  deriving DecidableEq, Repr

namespace Rearrangement

/-- The sequence rearranged. -/
def apply {α : Type} (r : Rearrangement) (xs : Stream' α) : Stream' α :=
  match r with
  | delete depth => xs.take depth ++ₛ xs.drop (depth + 1)
  | copy depth => .cons (xs.get depth) xs
  | tuck => xs.take 2 ++ₛ .cons (xs.get 0) (xs.drop 2)
  | lift depth => .cons (xs.get depth) (xs.take depth ++ₛ xs.drop (depth + 1))
  | mirror count => (xs.take count).reverse ++ₛ xs.drop count

/-- A rearrangement does not depend on what it moves. -/
theorem map_apply {α β : Type} (rename : α → β) (r : Rearrangement) (xs : Stream' α) :
    (r.apply xs).map rename = r.apply (xs.map rename) := by
  cases r with
  | delete | copy | tuck | lift | mirror =>
    simp only [apply, Stream'.map_append_stream, Stream'.map_cons, List.map_reverse,
      Stream'.map_take, Stream'.drop_map, Stream'.get_map]

/-- Moving the topmost item to the top changes nothing. -/
lemma apply_lift_zero {α : Type} (xs : Stream' α) : (lift 0).apply xs = xs :=
  xs.eta

end Rearrangement

/-- The rearrangement that an opcode stands for. -/
def Opcode.rearrangement? : Opcode → Option Rearrangement
  | .drop => some (.delete 0)
  | .nip => some (.delete 1)
  | .dup => some (.copy 0)
  | .over => some (.copy 1)
  | .tuck => some .tuck
  | .swap => some (.lift 1)
  | .rot => some (.lift 2)
  | .reverse3 => some (.mirror 3)
  | .reverse4 => some (.mirror 4)
  | _ => none

/-- The rearrangements that an opcode stands for, one for each number that it may take from the top
of the stack. -/
def Opcode.countedRearrangement? : Opcode → Option (Nat → Rearrangement)
  | .xDrop => some .delete
  | .pick => some .copy
  | .roll => some .lift
  | .reverseN => some .mirror
  | _ => none

/-! ## Contents -/

/-- The item without the wrappers around it. -/
def Item.bare : Item → Item
  | const inner => inner.bare
  | x => x

/-- Wrapping an item does not change what is inside. -/
lemma Item.bare_constant (x : Item) : x.constant.bare = x.bare := by
  cases x <;> rfl

namespace EvaluationStack

/-- The sequence of the items of a stack, without wrappers. -/
def contents (stack : EvaluationStack) : Stream' Item :=
  stack.sequence.map Item.bare

variable (stack : EvaluationStack)

/-- Popping uncovers what lies below the top. -/
lemma contents_pop : stack.pop.2.contents = stack.contents.tail := by
  rw [contents, sequence_pop]
  rfl

/-- Taking an item out deletes it from the sequence. -/
lemma contents_removeAt (n : Nat) :
    (stack.removeAt n).2.contents = (Rearrangement.delete n).apply stack.contents := by
  rw [contents, sequence_removeAt]
  exact (Rearrangement.delete n).map_apply Item.bare stack.sequence

/-- Pushing the item at a depth once more copies it to the top, also with a wrapper. -/
lemma contents_peek_push (n : Nat) :
    ((stack.peek n).2.push (stack.peek n).1.constant).contents =
      (Rearrangement.copy n).apply stack.contents := by
  rw [contents, sequence_push, sequence_peek, peek_fst, Stream'.map_cons, Item.bare_constant,
    ← get_sequence, ← Stream'.map_cons]
  exact (Rearrangement.copy n).map_apply Item.bare stack.sequence

/-- Inserting the topmost item below the second one tucks it in. -/
lemma contents_peek_insertAt :
    ((stack.peek 0).2.insertAt 2 (stack.peek 0).1).contents =
      Rearrangement.tuck.apply stack.contents := by
  rw [contents, sequence_insertAt, sequence_peek, peek_fst, ← get_sequence]
  exact Rearrangement.tuck.map_apply Item.bare stack.sequence

/-- Pushing what has been taken out lifts it to the top. -/
lemma contents_removeAt_push (n : Nat) :
    ((stack.removeAt n).2.push (stack.removeAt n).1).contents =
      (Rearrangement.lift n).apply stack.contents := by
  rw [contents, sequence_push, sequence_removeAt, removeAt_fst, ← get_sequence]
  exact (Rearrangement.lift n).map_apply Item.bare stack.sequence

/-- Reversing the topmost items mirrors them. -/
lemma contents_reverse (n : Nat) :
    (stack.reverse n).contents = (Rearrangement.mirror n).apply stack.contents := by
  rw [contents, sequence_reverse]
  exact (Rearrangement.mirror n).map_apply Item.bare stack.sequence

end EvaluationStack

/-! ## Depths -/

/-- The depth that an item on top of the stack gives to an opcode. -/
def Item.depthFor (opcode : Opcode) (x : Item) : Except ExecutionError Nat :=
  match x.toInteger? with
  | .error e => .error e
  | .ok none => .error (.nonConstantOperand opcode)
  | .ok (some value) =>
    if 0 ≤ value ∧ value < Limits.stackSize then .ok value.toNat
    else .error (.outOfRange opcode value)

namespace Item

variable {opcode : Opcode} {x : Item}

/-- An item gives a depth exactly if it is known as an integer that is one. -/
lemma depthFor_eq_ok_iff {n : Nat} :
    x.depthFor opcode = .ok n ↔ n < 2048 ∧ x.toInteger? = .ok (some (n : Int)) := by
  unfold depthFor Limits.stackSize
  split
  · next h => simp [h]
  · next h => simp [h]
  · next value h =>
    rw [h]
    split
    · simp only [Except.ok.injEq, Option.some.injEq]
      omega
    · simp only [reduceCtorEq, Except.ok.injEq, Option.some.injEq, false_iff]
      omega

/-- Only a symbolic item is refused because it is not constant. -/
lemma depthFor_eq_nonConstant_iff :
    x.depthFor opcode = .error (.nonConstantOperand opcode) ↔ x.isSymbolic = true := by
  constructor
  · intro h
    unfold depthFor at h
    split at h
    · next e he =>
      cases h
      cases toInteger?_resolved x _ he
    · next hnone => exact isSymbolic_of_toInteger? hnone
    · split at h
      · cases h
      · cases h
  · intro h
    unfold depthFor
    rw [toInteger?_of_isSymbolic h]

end Item

/-! ## Computations -/

/-- The stack that a world has can be put in its own place. -/
lemma State.withStack_self (s : State) (index : Nat) :
    s.withStack index (s.worldAt index).stack = s :=
  s.holding_self index

namespace Exec

/-- The computation rearranges the evaluation stack, and does nothing else. -/
def Rearranges (x : Exec Unit) (r : Rearrangement) : Prop :=
  ∀ (s : State) (f : Frame) (rest : List Frame), s.frames = f :: rest → f.world < s.worlds.size →
    ∃ stack, x s = .ok () (s.withStack f.world stack) ∧
      stack.contents = r.apply (s.worldAt f.world).stack.contents

/-- The computation pops a depth for an opcode, and if there is one, it rearranges the rest of the
evaluation stack accordingly and does nothing else. -/
def RearrangesBy (opcode : Opcode) (x : Exec Unit) (r : Nat → Rearrangement) : Prop :=
  ∀ (s : State) (f : Frame) (rest : List Frame), s.frames = f :: rest → f.world < s.worlds.size →
    match ((s.worldAt f.world).stack.view 0).depthFor opcode with
    | .ok n => ∃ stack, x s = .ok () (s.withStack f.world stack) ∧
        stack.contents = (r n).apply (s.worldAt f.world).stack.contents.tail
    | .error e => x s = .error e (s.withStack f.world (s.worldAt f.world).stack.pop.2)

/-- A change of the evaluation stack. -/
lemma Rearranges.modifyStack {change : EvaluationStack → EvaluationStack} {r : Rearrangement}
    (h : ∀ stack, (change stack).contents = r.apply stack.contents) :
    Rearranges (modifyStack change) r :=
  fun _ _ _ hs _ => ⟨_, onStack_eq hs _, h _⟩

/-- Popping a depth takes the item that gives it off the stack, also if it gives none. -/
lemma popDepth_eq {s : State} {f : Frame} {rest : List Frame} (hs : s.frames = f :: rest)
    (opcode : Opcode) :
    Semantics.popDepth opcode s =
      match ((s.worldAt f.world).stack.view 0).depthFor opcode with
      | .ok n => .ok n (s.withStack f.world (s.worldAt f.world).stack.pop.2)
      | .error e => .error e (s.withStack f.world (s.worldAt f.world).stack.pop.2) := by
  have hpop := pop_eq hs
  rw [EvaluationStack.pop_fst] at hpop
  unfold Semantics.popDepth popCount popInteger
  simp only [bind_assoc]
  rw [bind_of_ok hpop]
  unfold Item.depthFor
  cases ((s.worldAt f.world).stack.view 0).toInteger? with
  | error e => rfl
  | ok value? =>
    cases value? with
    | none => rfl
    | some value =>
      change ((if 0 ≤ value ∧ value ≤ Limits.word then pure value.toNat
        else throw (.outOfRange opcode value) : Exec Nat) >>= fun n =>
          if n < Limits.stackSize then pure n else throw (.outOfRange opcode n)) _ = _
      have hword : Limits.stackSize ≤ Limits.word := by decide
      by_cases hcount : 0 ≤ value ∧ value ≤ Limits.word
      · obtain ⟨n, rfl⟩ := Int.eq_ofNat_of_zero_le hcount.1
        rw [if_pos hcount, pure_bind, Int.toNat_natCast]
        by_cases hlt : n < Limits.stackSize
        · have hbounds : 0 ≤ (n : Int) ∧ (n : Int) < Limits.stackSize := by omega
          simp only [if_pos hlt, if_pos hbounds]
          rfl
        · simp only [if_neg hlt,
            if_neg (show ¬(0 ≤ (n : Int) ∧ (n : Int) < Limits.stackSize) by omega)]
          rfl
      · simp only [if_neg hcount,
          if_neg (show ¬(0 ≤ value ∧ value < Limits.stackSize) by omega)]
        rfl

/-- Popping a depth, and rearranging by it. -/
lemma RearrangesBy.popDepth_bind {opcode : Opcode} {k : Nat → Exec Unit} {r : Nat → Rearrangement}
    (hk : ∀ n, Rearranges (k n) (r n)) :
    RearrangesBy opcode (Semantics.popDepth opcode >>= k) r := by
  intro s f rest hs hworld
  have hdepth := popDepth_eq hs opcode
  cases hgives : ((s.worldAt f.world).stack.view 0).depthFor opcode with
  | error e =>
    rw [hgives] at hdepth
    simp only [Bind.bind, EStateM.bind, hdepth]
  | ok n =>
    rw [hgives] at hdepth
    have hsize : f.world < (s.withStack f.world (s.worldAt f.world).stack.pop.2).worlds.size := by
      rwa [State.size_withStack]
    obtain ⟨stack, hok, hcontents⟩ :=
      hk n (s.withStack f.world (s.worldAt f.world).stack.pop.2) f rest hs hsize
    rw [State.worldAt_withStack hworld, EvaluationStack.contents_pop] at hcontents
    rw [State.withStack_withStack hworld] at hok
    exact ⟨stack, (bind_of_ok hdepth).trans hok, hcontents⟩

end Exec

/-! ## Instructions -/

namespace Semantics

open Exec (Rearranges RearrangesBy)

/-- Taking an item out deletes it. -/
lemma rearranges_removeAt (n : Nat) :
    Rearranges (Exec.modifyStack fun stack => (stack.removeAt n).2) (.delete n) :=
  .modifyStack fun stack => stack.contents_removeAt n

lemma rearranges_drop : Rearranges drop (.delete 0) := by
  intro s f rest hs _
  refine ⟨_, ?_, EvaluationStack.contents_removeAt _ 0⟩
  change EStateM.map (fun _ => ()) Exec.pop s = _
  rw [EStateM.map, Exec.pop_eq hs]
  rfl

lemma rearranges_copyFrom (n : Nat) : Rearranges (copyFrom n) (.copy n) := by
  intro s f rest hs hworld
  have hpeek := Exec.onStack_eq hs fun stack => stack.peek n
  have hpush := Exec.onStack_eq
    (s := s.withStack f.world ((s.worldAt f.world).stack.peek n).2) hs
    fun stack => ((), stack.push ((s.worldAt f.world).stack.peek n).1.constant)
  rw [State.worldAt_withStack hworld, State.withStack_withStack hworld] at hpush
  exact ⟨_, (bind_of_ok hpeek).trans hpush, EvaluationStack.contents_peek_push _ n⟩

lemma rearranges_tuck : Rearranges tuck .tuck :=
  .modifyStack fun stack => stack.contents_peek_insertAt

lemma rearranges_moveUp (n : Nat) : Rearranges (moveUp n) (.lift n) :=
  .modifyStack fun stack => stack.contents_removeAt_push n

/-- Moving the topmost item to the top can be left out. -/
lemma rearranges_moveUp_unless (n : Nat) :
    Rearranges (unless n = 0 do moveUp n) (.lift n) := by
  by_cases hn : n = 0
  · subst hn
    intro s f rest _ _
    refine ⟨(s.worldAt f.world).stack, ?_, (Rearrangement.apply_lift_zero _).symm⟩
    rw [State.withStack_self]
    rfl
  · rw [if_neg hn]
    exact rearranges_moveUp n

lemma rearranges_reverse (n : Nat) : Rearranges (Exec.modifyStack (·.reverse n)) (.mirror n) :=
  .modifyStack fun stack => stack.contents_reverse n

/-- The handler for fixed numbers reverses three items or four. -/
lemma rearranges_reverseFixed {i : Instruction} {n : Nat}
    (hn : (if i.opcode = .reverse3 then 3 else 4) = n) :
    Rearranges (reverseFixed i) (.mirror n) := by
  unfold reverseFixed
  rw [hn]
  exact rearranges_reverse n

end Semantics

namespace JumpTable

open Exec (Rearranges RearrangesBy)

variable (config : Config) {i : Instruction}

/-- An opcode that stands for a rearrangement is bound to it. -/
lemma standard_rearranges_fixed {r : Rearrangement} (h : i.opcode.rearrangement? = some r) :
    Rearranges (standard.dispatch config i) r := by
  unfold dispatch
  unfold Opcode.rearrangement? at h
  split at h <;> cases h <;> rename_i hop <;> rw [hop]
  · exact Semantics.rearranges_drop
  · exact Semantics.rearranges_removeAt 1
  · exact Semantics.rearranges_copyFrom 0
  · exact Semantics.rearranges_copyFrom 1
  · exact Semantics.rearranges_tuck
  · exact Semantics.rearranges_moveUp 1
  · exact Semantics.rearranges_moveUp 2
  · exact Semantics.rearranges_reverseFixed (by rw [hop]; rfl)
  · exact Semantics.rearranges_reverseFixed (by rw [hop]; rfl)

/-- An opcode that stands for rearrangements by a depth pops it and is bound to them. -/
lemma standard_rearranges_counted {r : Nat → Rearrangement}
    (h : i.opcode.countedRearrangement? = some r) :
    RearrangesBy i.opcode (standard.dispatch config i) r := by
  unfold dispatch
  unfold Opcode.countedRearrangement? at h
  split at h <;> cases h <;> rename_i hop
  · have hhandler : standard.handler i.opcode = .xdrop := by rw [hop]; rfl
    rw [hhandler]
    exact .popDepth_bind Semantics.rearranges_removeAt
  · have hhandler : standard.handler i.opcode = .pick := by rw [hop]; rfl
    rw [hhandler]
    exact .popDepth_bind Semantics.rearranges_copyFrom
  · have hhandler : standard.handler i.opcode = .roll := by rw [hop]; rfl
    rw [hhandler]
    exact .popDepth_bind Semantics.rearranges_moveUp_unless
  · have hhandler : standard.handler i.opcode = .reverseCounted := by rw [hop]; rfl
    rw [hhandler]
    exact .popDepth_bind Semantics.rearranges_reverse

variable {s t : State} {f g : Frame} {rest below : List Frame} {stack stack' : EvaluationStack}

/-- Instructions at fixed positions do the same to stacks of which one is the other renamed. -/
lemma standard_rename_fixed {r : Rearrangement} (h : i.opcode.rearrangement? = some r)
    (hs : s.frames = f :: rest) (hf : f.world < s.worlds.size) (ht : t.frames = g :: below)
    (hg : g.world < t.worlds.size) {rename : Item → Item}
    (hrename : (t.worldAt g.world).stack.contents =
      (s.worldAt f.world).stack.contents.map rename) :
    ∃ left right, standard.dispatch config i s = .ok () (s.withStack f.world left) ∧
      standard.dispatch config i t = .ok () (t.withStack g.world right) ∧
      right.contents = left.contents.map rename := by
  obtain ⟨left, hleft, hcontents⟩ := standard_rearranges_fixed config h s f rest hs hf
  obtain ⟨right, hright, hcontents'⟩ := standard_rearranges_fixed config h t g below ht hg
  refine ⟨left, right, hleft, hright, ?_⟩
  rw [hcontents, hcontents', hrename, Rearrangement.map_apply]

/-- So do instructions that take a depth, if it is the same number and the rest is renamed. -/
lemma standard_rename_counted {r : Nat → Rearrangement}
    (h : i.opcode.countedRearrangement? = some r) (hs : s.frames = f :: rest)
    (hf : f.world < s.worlds.size) (ht : t.frames = g :: below) (hg : g.world < t.worlds.size)
    {rename : Item → Item}
    (hcount : ((t.worldAt g.world).stack.view 0).toInteger? =
      ((s.worldAt f.world).stack.view 0).toInteger?)
    (hrename : (t.worldAt g.world).stack.contents.tail =
      (s.worldAt f.world).stack.contents.tail.map rename) :
    (∃ left right, standard.dispatch config i s = .ok () (s.withStack f.world left) ∧
      standard.dispatch config i t = .ok () (t.withStack g.world right) ∧
      right.contents = left.contents.map rename) ∨
    ∃ e, standard.dispatch config i s =
        .error e (s.withStack f.world (s.worldAt f.world).stack.pop.2) ∧
      standard.dispatch config i t =
        .error e (t.withStack g.world (t.worldAt g.world).stack.pop.2) := by
  have hdepth : ((t.worldAt g.world).stack.view 0).depthFor i.opcode =
      ((s.worldAt f.world).stack.view 0).depthFor i.opcode := by
    unfold Item.depthFor
    rw [hcount]
  have hleft := standard_rearranges_counted config h s f rest hs hf
  have hright := standard_rearranges_counted config h t g below ht hg
  rw [hdepth] at hright
  cases hgives : ((s.worldAt f.world).stack.view 0).depthFor i.opcode with
  | error e =>
    rw [hgives] at hleft hright
    exact .inr ⟨e, hleft, hright⟩
  | ok n =>
    rw [hgives] at hleft hright
    obtain ⟨left, hleft, hcontents⟩ := hleft
    obtain ⟨right, hright, hcontents'⟩ := hright
    refine .inl ⟨left, right, hleft, hright, ?_⟩
    rw [hcontents, hcontents', hrename, Rearrangement.map_apply]

/-- The stack instructions rearrange the sequence of the items on the evaluation stack and the
unknowns below them, on every stack and at every depth.  `DROP`, `NIP`, `DUP`, `OVER`, `TUCK`,
`SWAP`, `ROT`, `REVERSE3` and `REVERSE4` always do, each in its own way; `XDROP`, `PICK`, `ROLL` and
`REVERSEN` do so with the number that they have taken from the top.  They succeed exactly if the
item on top is known as an integer from 0 to 2047, and they fail because it is not constant exactly
if it is symbolic.  Nothing else in the state changes.  None of them depends on what it moves: on
two stacks of which one is the other renamed, the number on top excepted, they have the same outcome
and leave stacks behind of which one is the other renamed. -/
theorem standard_rearranges (i : Instruction) (hs : s.frames = f :: rest)
    (hf : f.world < s.worlds.size) (hstack : (s.worldAt f.world).stack = stack) :
    (∀ r, i.opcode.rearrangement? = some r →
      ∃ moved, standard.dispatch config i s = .ok () (s.withStack f.world moved) ∧
        moved.contents = r.apply stack.contents) ∧
    (∀ r, i.opcode.countedRearrangement? = some r →
      (∀ n : Nat, n < 2048 → (stack.view 0).toInteger? = .ok (some (n : Int)) →
        ∃ moved, standard.dispatch config i s = .ok () (s.withStack f.world moved) ∧
          moved.contents = (r n).apply stack.contents.tail) ∧
      ((∃ s', standard.dispatch config i s = .ok () s') ↔
        ∃ n : Nat, n < 2048 ∧ (stack.view 0).toInteger? = .ok (some (n : Int))) ∧
      ((∃ s', standard.dispatch config i s = .error (.nonConstantOperand i.opcode) s') ↔
        (stack.view 0).isSymbolic = true)) ∧
    ∀ (rename : Item → Item) (t : State) (g : Frame) (below : List Frame)
      (stack' : EvaluationStack), t.frames = g :: below → g.world < t.worlds.size →
      (t.worldAt g.world).stack = stack' →
      (i.opcode.rearrangement?.isSome = true → stack'.contents = stack.contents.map rename →
        ∃ left right, standard.dispatch config i s = .ok () (s.withStack f.world left) ∧
          standard.dispatch config i t = .ok () (t.withStack g.world right) ∧
          right.contents = left.contents.map rename) ∧
      (i.opcode.countedRearrangement?.isSome = true →
        (stack'.view 0).toInteger? = (stack.view 0).toInteger? →
        stack'.contents.tail = stack.contents.tail.map rename →
        (∃ left right, standard.dispatch config i s = .ok () (s.withStack f.world left) ∧
          standard.dispatch config i t = .ok () (t.withStack g.world right) ∧
          right.contents = left.contents.map rename) ∨
        ∃ e, standard.dispatch config i s = .error e (s.withStack f.world stack.pop.2) ∧
          standard.dispatch config i t = .error e (t.withStack g.world stack'.pop.2)) := by
  subst hstack
  refine ⟨fun r hr => standard_rearranges_fixed config hr s f rest hs hf, fun r hr => ?_, ?_⟩
  · have hcounted := standard_rearranges_counted config hr s f rest hs hf
    have hgives : ∀ n : Nat, n < 2048 →
        ((s.worldAt f.world).stack.view 0).toInteger? = .ok (some (n : Int)) →
        ∃ moved, standard.dispatch config i s = .ok () (s.withStack f.world moved) ∧
          moved.contents = (r n).apply (s.worldAt f.world).stack.contents.tail := by
      intro n hn hvalue
      rw [Item.depthFor_eq_ok_iff.2 ⟨hn, hvalue⟩] at hcounted
      exact hcounted
    refine ⟨hgives, ⟨?_, ?_⟩, ?_, ?_⟩
    · rintro ⟨s', hok⟩
      cases hdepth : ((s.worldAt f.world).stack.view 0).depthFor i.opcode with
      | ok n => exact ⟨n, Item.depthFor_eq_ok_iff.1 hdepth⟩
      | error e =>
        rw [hdepth] at hcounted
        simp only [hok, reduceCtorEq] at hcounted
    · rintro ⟨n, hn, hvalue⟩
      obtain ⟨moved, hok, -⟩ := hgives n hn hvalue
      exact ⟨_, hok⟩
    · rintro ⟨s', herror⟩
      rw [← Item.depthFor_eq_nonConstant_iff]
      cases hdepth : ((s.worldAt f.world).stack.view 0).depthFor i.opcode with
      | ok n =>
        rw [hdepth] at hcounted
        simp only [herror, reduceCtorEq, false_and, exists_false] at hcounted
      | error e =>
        rw [hdepth] at hcounted
        simp only [herror, EStateM.Result.error.injEq] at hcounted
        rw [← hcounted.1]
    · intro hsymbolic
      rw [Item.depthFor_eq_nonConstant_iff.2 hsymbolic] at hcounted
      exact ⟨_, hcounted⟩
  · rintro rename t g below _ ht hg rfl
    refine ⟨fun hsome hrename => ?_, fun hsome hcount hrename => ?_⟩
    · obtain ⟨r, hr⟩ := Option.isSome_iff_exists.1 hsome
      exact standard_rename_fixed config hr hs hf ht hg hrename
    · obtain ⟨r, hr⟩ := Option.isSome_iff_exists.1 hsome
      exact standard_rename_counted config hr hs hf ht hg hcount hrename

/-- The state behind the pushes of one and three. -/
def rollingState : State :=
  (Machine.loaded ⟨[0x11, 0x13, 0x52]⟩ {} .lazy 0 0).step.2.step.2.state

/-- The frame of that state. -/
def rollingFrame : Frame :=
  { world := 0, position := 2, returnCount := -1, locals := .untouched .local,
    arguments := .untouched .argument, tries := [] }

/-- Truth in the place of one. -/
def affirm : Item → Item
  | .integer 1 => .boolean true
  | x => x

/-- The state in which the item under the number three is renamed. -/
def affirmedState : State :=
  rollingState.withStack 0 ⟨[.const (.integer 3), .const (.boolean true)], 0⟩

/-- Rolling by three reaches below the one item that is present then, and what comes up is the third
unknown.  Truth in the place of that item is moved in the same way. -/
theorem standard_rearranges_rolling :
    rollingState.frames = [rollingFrame] ∧ rollingFrame.world < rollingState.worlds.size ∧
      (∃ moved, standard.dispatch {} ⟨2, .roll, []⟩ rollingState =
          .ok () (rollingState.withStack 0 moved) ∧
        moved.contents.take 4 =
          [EvaluationStack.extension 2, .integer 1, EvaluationStack.extension 0,
            EvaluationStack.extension 1]) ∧
      ∃ left right, standard.dispatch {} ⟨2, .roll, []⟩ rollingState =
          .ok () (rollingState.withStack 0 left) ∧
        standard.dispatch {} ⟨2, .roll, []⟩ affirmedState =
          .ok () (affirmedState.withStack 0 right) ∧
        right.contents = left.contents.map affirm := by
  have hframes : rollingState.frames = [rollingFrame] := rfl
  have hworld : rollingFrame.world < rollingState.worlds.size := by decide
  have hstack : (rollingState.worldAt rollingFrame.world).stack =
      ⟨[.const (.integer 3), .const (.integer 1)], 0⟩ := rfl
  have hrolls := standard_rearranges {} ⟨2, .roll, []⟩ hframes hworld hstack
  obtain ⟨moved, hok, hcontents⟩ := (hrolls.2.1 .lift rfl).1 3 (by decide) rfl
  have hrenames := (hrolls.2.2 affirm affirmedState rollingFrame []
    ⟨[.const (.integer 3), .const (.boolean true)], 0⟩ rfl (by decide) rfl).2 rfl rfl
    (funext fun i => by cases i <;> rfl)
  refine ⟨hframes, hworld, ⟨moved, hok, ?_⟩, ?_⟩
  · rw [hcontents]
    rfl
  · rcases hrenames with hmoves | ⟨e, hfails, -⟩
    · exact hmoves
    · rw [hok] at hfails
      cases hfails

end JumpTable

end SymbolicScript
