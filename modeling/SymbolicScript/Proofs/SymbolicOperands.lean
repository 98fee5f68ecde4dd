import SymbolicScript.Proofs.BoundedArithmetic
import SymbolicScript.Proofs.Loading

/-!
# Numeric instructions with symbolic operands

A numeric instruction reads its operands as integers in the order in which they were pushed.  It
stops at the first one that is symbolic, and then it pushes a derived variable; but it also stops at
the first one that cannot be read as an integer, and then it fails.  So a symbolic operand decides
the outcome only if no operand that was pushed before it is refused (`Semantics.Refuses`).  This
file says exactly when that is the case (`Handler.run_derives_iff`), and what it means for two
operands that are swapped.
-/

namespace SymbolicScript

namespace EvaluationStack

/-- The topmost items in the order in which they were pushed. -/
def operands (stack : EvaluationStack) (count : Nat) : List Item :=
  ((List.range count).map stack.view).reverse

/-- Those are the items that are popped, the other way round. -/
lemma reverse_popMany_fst (stack : EvaluationStack) (count : Nat) :
    (stack.popMany count).1.reverse = stack.operands count := by
  rw [popMany_fst, operands]

/-- Popping two items that have been pushed. -/
lemma popMany_push_push (stack : EvaluationStack) (x y : Item) :
    ((stack.push x).push y).popMany 2 = ([y, x], stack) :=
  popMany_pushAll [y, x] stack

/-- Two items that have been pushed are operands in that order. -/
lemma operands_push_push (stack : EvaluationStack) (x y : Item) :
    ((stack.push x).push y).operands 2 = [x, y] := by
  rw [← reverse_popMany_fst, popMany_push_push]
  rfl

end EvaluationStack

namespace Semantics

variable {operands : List Item} {e : ExecutionError}

/-! ## Reading operands -/

/-- The operands are refused for a reason: one of them cannot be read as an integer, and all that
were pushed before it are integers. -/
def Refuses (operands : List Item) (e : ExecutionError) : Prop :=
  ∃ before x after, operands = before ++ x :: after ∧
    (∀ y ∈ before, ∃ n, y.toInteger? = .ok (some n)) ∧ x.toInteger? = .error e

/-- No operands are never refused. -/
lemma not_refuses_nil : ¬Refuses [] e := by
  rintro ⟨before, x, after, h, -, -⟩
  simp at h

/-- An operand that can be read hands the question on to those behind it, if it is an integer. -/
lemma refuses_cons_iff {x : Item} :
    Refuses (x :: operands) e ↔
      x.toInteger? = .error e ∨ (∃ n, x.toInteger? = .ok (some n)) ∧ Refuses operands e := by
  constructor
  · rintro ⟨before, y, after, h, hbefore, hy⟩
    cases before with
    | nil =>
      obtain ⟨rfl, -⟩ := List.cons.inj h
      exact .inl hy
    | cons z before =>
      obtain ⟨rfl, rfl⟩ := List.cons.inj h
      exact .inr ⟨hbefore _ List.mem_cons_self, before, y, after, rfl,
        fun w hw => hbefore w (List.mem_cons_of_mem _ hw), hy⟩
  · rintro (hx | ⟨hx, before, y, after, rfl, hbefore, hy⟩)
    · exact ⟨[], x, operands, rfl, nofun, hx⟩
    · exact ⟨x :: before, y, after, rfl, List.forall_mem_cons.2 ⟨hx, hbefore⟩, hy⟩

/-- Behind a symbolic operand nothing is refused. -/
lemma not_refuses_of_isSymbolic {x : Item} (hx : x.isSymbolic = true) :
    ¬Refuses (x :: operands) e := by
  rw [refuses_cons_iff, Item.toInteger?_of_isSymbolic hx]
  rintro (h | ⟨⟨n, h⟩, -⟩)
  · cases h
  · cases h

/-- In front of a symbolic operand, an operand is refused if it cannot be read as an integer. -/
lemma refuses_pair_iff {x y : Item} (hx : x.isSymbolic = true) :
    Refuses [y, x] e ↔ y.toInteger? = .error e := by
  rw [refuses_cons_iff]
  exact ⟨fun h => h.resolve_right fun hrest => not_refuses_of_isSymbolic hx hrest.2, .inl⟩

/-- Reading the operands fails exactly if they are refused. -/
lemma integers_eq_error_iff : integers operands = .error e ↔ Refuses operands e := by
  induction operands with
  | nil => exact ⟨nofun, fun h => absurd h not_refuses_nil⟩
  | cons x rest ih =>
    rw [refuses_cons_iff, ← ih, integers]
    cases x.toInteger? with
    | error e₁ => simp [Bind.bind, Except.bind]
    | ok value? =>
      cases value? with
      | none => simp [Bind.bind, Except.bind, Pure.pure, Except.pure]
      | some value => cases integers rest <;> simp [Bind.bind, Except.bind, Pure.pure, Except.pure]

/-- Operands are refused for one reason only. -/
lemma Refuses.unique {e' : ExecutionError} (h : Refuses operands e) (h' : Refuses operands e') :
    e = e' := by
  rw [← integers_eq_error_iff] at h h'
  exact Except.error.inj (h.symm.trans h')

/-- Folding operands of which one is symbolic pushes a derived variable, or fails for the reason for
which they are refused. -/
lemma fold_of_symbolic (hsymbolic : ∃ x ∈ operands, x.isSymbolic = true) (opcode : Opcode)
    (operation : List Int → Except ExecutionError Item) (s : State) :
    ((∀ e, ¬Refuses operands e) ∧
        fold opcode operands operation s = Exec.push (.derived opcode operands) s) ∨
      ∃ e, Refuses operands e ∧ fold opcode operands operation s = .error e s := by
  unfold fold
  cases hvalues : integers operands with
  | error e => exact .inr ⟨e, integers_eq_error_iff.1 hvalues, rfl⟩
  | ok values? =>
    cases values? with
    | some values => exact absurd hvalues (integers_ne_some hsymbolic values)
    | none =>
      refine .inl ⟨fun e he => ?_, rfl⟩
      rw [integers_eq_error_iff.2 he] at hvalues
      cases hvalues

end Semantics

/-! ## Handlers -/

namespace Handler

open Semantics (Refuses not_refuses_of_isSymbolic refuses_pair_iff)

/-- The number of operands of a handler that folds integers. -/
def foldedOperands? : Handler → Option Nat
  | unary => some 1
  | binary => some 2
  | ternary => some 3
  | _ => none

variable {handler : Handler} {count : Nat} {s : State} {f : Frame} {rest : List Frame}
  {stack : EvaluationStack}

/-- A handler that folds integers pops its operands and folds them, unless it orders null. -/
lemma run_eq_fold (hfolds : handler.foldedOperands? = some count) (config : Config)
    (i : Instruction) (hframes : s.frames = f :: rest)
    (hcomparable : Semantics.isOrdering i.opcode = true →
      ∀ x ∈ (s.worldAt f.world).stack.operands count, x.isNull = false) :
    ∃ operation, handler.run config i s =
      Semantics.fold i.opcode ((s.worldAt f.world).stack.operands count) operation
        (s.withStack f.world ((s.worldAt f.world).stack.popMany count).2) := by
  have hpopped := Semantics.popOperands_eq hframes count
  rw [EvaluationStack.reverse_popMany_fst] at hpopped
  cases handler with
  | unary =>
    cases hfolds
    exact ⟨_, bind_of_ok hpopped⟩
  | binary =>
    cases hfolds
    have hordered : (Semantics.isOrdering i.opcode &&
        ((s.worldAt f.world).stack.operands 2).any Item.isNull) = false := by
      cases hordering : Semantics.isOrdering i.opcode with
      | false => rfl
      | true => simpa using hcomparable hordering
    refine ⟨?operation, (bind_of_ok hpopped).trans ?hfolded⟩
    case hfolded =>
      rw [hordered]
      exact rfl
  | ternary =>
    cases hfolds
    exact ⟨_, bind_of_ok hpopped⟩
  | _ => cases hfolds

/-- With a symbolic operand such a handler pushes a derived variable of all operands, or it fails
for the reason for which they are refused. -/
lemma run_of_symbolic (hfolds : handler.foldedOperands? = some count) (config : Config)
    (i : Instruction) (hframes : s.frames = f :: rest) (hworld : f.world < s.worlds.size)
    (hstack : (s.worldAt f.world).stack = stack)
    (hsymbolic : ∃ x ∈ stack.operands count, x.isSymbolic = true)
    (hcomparable : Semantics.isOrdering i.opcode = true →
      ∀ x ∈ stack.operands count, x.isNull = false) :
    ((∀ e, ¬Refuses (stack.operands count) e) ∧
        handler.run config i s = .ok () (s.withStack f.world
          ((stack.popMany count).2.push (.derived i.opcode (stack.operands count))))) ∨
      ∃ e, Refuses (stack.operands count) e ∧
        handler.run config i s = .error e (s.withStack f.world (stack.popMany count).2) := by
  subst hstack
  obtain ⟨operation, hrun⟩ := run_eq_fold hfolds config i hframes hcomparable
  rw [hrun]
  rcases Semantics.fold_of_symbolic hsymbolic i.opcode operation
    (s.withStack f.world ((s.worldAt f.world).stack.popMany count).2) with ⟨hreads, hfold⟩ | hfails
  · refine .inl ⟨hreads, hfold.trans ?_⟩
    have hpush := Exec.onStack_eq
      (s := s.withStack f.world ((s.worldAt f.world).stack.popMany count).2) hframes
      fun stack' => ((), stack'.push (.derived i.opcode ((s.worldAt f.world).stack.operands count)))
    rw [State.worldAt_withStack hworld, State.withStack_withStack hworld] at hpush
    exact hpush
  · exact .inr hfails

/-- Likewise with two operands that lie on top of a stack. -/
lemma run_pair (hfolds : handler.foldedOperands? = some 2) (config : Config) (i : Instruction)
    (hframes : s.frames = f :: rest) (hworld : f.world < s.worlds.size) (below : EvaluationStack)
    {x y : Item} (hsymbolic : x.isSymbolic = true ∨ y.isSymbolic = true)
    (hcomparable : Semantics.isOrdering i.opcode = true → x.isNull = false ∧ y.isNull = false) :
    ((∀ e, ¬Refuses [x, y] e) ∧
        handler.run config i (s.withStack f.world ((below.push x).push y)) =
          .ok () (s.withStack f.world (below.push (.derived i.opcode [x, y])))) ∨
      ∃ e, Refuses [x, y] e ∧
        handler.run config i (s.withStack f.world ((below.push x).push y)) =
          .error e (s.withStack f.world below) := by
  have hsize : f.world < (s.withStack f.world ((below.push x).push y)).worlds.size := by
    rwa [State.size_withStack]
  have hstack := congrArg World.stack (State.worldAt_withStack hworld ((below.push x).push y))
  have hrun := run_of_symbolic hfolds config i (s := s.withStack f.world ((below.push x).push y))
    hframes hsize hstack
  rw [EvaluationStack.operands_push_push, EvaluationStack.popMany_push_push,
    State.withStack_withStack hworld, State.withStack_withStack hworld] at hrun
  exact hrun (by simpa using hsymbolic) (by simpa using hcomparable)

/-- With a symbolic operand, and unless null is ordered, an instruction on integers pushes the
derived variable of its opcode and all operands exactly if no operand that was pushed before the
first symbolic one is refused.  Otherwise it fails, for the reason for which that operand cannot be
read as an integer, and the operands are gone.  So of two operands it matters which one was pushed
first: behind a symbolic operand every item is accepted, and in front of it only an item that can be
read as an integer, or another symbolic one. -/
theorem run_derives_iff (hfolds : handler.foldedOperands? = some count) (config : Config)
    (i : Instruction) (hframes : s.frames = f :: rest) (hworld : f.world < s.worlds.size)
    (hstack : (s.worldAt f.world).stack = stack) :
    ((∃ x ∈ stack.operands count, x.isSymbolic = true) →
      (Semantics.isOrdering i.opcode = true → ∀ x ∈ stack.operands count, x.isNull = false) →
      (handler.run config i s = .ok () (s.withStack f.world
          ((stack.popMany count).2.push (.derived i.opcode (stack.operands count)))) ↔
        ∀ e, ¬Refuses (stack.operands count) e) ∧
      ∀ e s', handler.run config i s = .error e s' ↔
        Refuses (stack.operands count) e ∧ s' = s.withStack f.world (stack.popMany count).2) ∧
    (count = 2 → ∀ (below : EvaluationStack) (x y : Item), x.isSymbolic = true →
      (Semantics.isOrdering i.opcode = true → y.isNull = false) →
      handler.run config i (s.withStack f.world ((below.push x).push y)) =
          .ok () (s.withStack f.world (below.push (.derived i.opcode [x, y]))) ∧
      (handler.run config i (s.withStack f.world ((below.push y).push x)) =
          .ok () (s.withStack f.world (below.push (.derived i.opcode [y, x]))) ↔
        ∀ e, y.toInteger? ≠ .error e)) := by
  constructor
  · intro hsymbolic hcomparable
    rcases run_of_symbolic hfolds config i hframes hworld hstack hsymbolic hcomparable with
      ⟨hreads, hpushes⟩ | ⟨e, hrefuses, hfails⟩
    · rw [hpushes]
      refine ⟨⟨fun _ => hreads, fun _ => rfl⟩, fun e s' => ⟨nofun, fun h => ?_⟩⟩
      exact absurd h.1 (hreads e)
    · rw [hfails]
      refine ⟨⟨nofun, fun h => absurd hrefuses (h e)⟩, fun e' s' => ⟨?_, ?_⟩⟩
      · rintro ⟨⟩
        exact ⟨hrefuses, rfl⟩
      · rintro ⟨hrefuses', rfl⟩
        rw [hrefuses.unique hrefuses']
  · rintro rfl below x y hx hcomparable
    have hnull : x.isNull = false := Item.isNull_of_isSymbolic hx
    constructor
    · -- the symbolic operand first
      rcases run_pair hfolds config i hframes hworld below (.inl hx)
        (fun h => ⟨hnull, hcomparable h⟩) with ⟨-, hpushes⟩ | ⟨e, hrefuses, -⟩
      · exact hpushes
      · exact absurd hrefuses (not_refuses_of_isSymbolic hx)
    · -- the symbolic operand second
      rcases run_pair hfolds config i hframes hworld below (.inr hx)
        (fun h => ⟨hcomparable h, hnull⟩) with ⟨hreads, hpushes⟩ | ⟨e, hrefuses, hfails⟩
      · rw [hpushes]
        exact ⟨fun _ e he => hreads e ((refuses_pair_iff hx).2 he), fun _ => rfl⟩
      · rw [hfails]
        exact ⟨nofun, fun h => absurd ((refuses_pair_iff hx).1 hrefuses) (h e)⟩

/-- Two pushes, and the addition of what they have pushed. -/
def addingScript (first second : UInt8) : Script := ⟨[first, second, 0x9E]⟩

/-- The machine that executes the script, after some steps. -/
def addingMachine (first second : UInt8) : Nat → Machine
  | 0 => Machine.loaded (addingScript first second) {} .lazy 0 0
  | count + 1 => (addingMachine first second count).step.2

/-- The number 2 in front of an argument is accepted, and null in its place would be refused. -/
theorem run_derives_addingScript :
    binary.foldedOperands? = some 2 ∧
      (∃ x ∈ [Item.const (.integer 2), .slot .argument 0], x.isSymbolic = true) ∧
      (∀ e, ¬Refuses [.const (.integer 2), .slot .argument 0] e) ∧
      binary.run {} ⟨2, .add, []⟩ (addingMachine 0x12 0x78 2).state =
        .ok () ((addingMachine 0x12 0x78 2).state.withStack 0
          ⟨[.derived .add [.const (.integer 2), .slot .argument 0]], 0⟩) ∧
      ¬binary.run {} ⟨2, .add, []⟩ ((addingMachine 0x12 0x78 2).state.withStack 0
          ((EvaluationStack.empty.push (.const .null)).push (.slot .argument 0))) =
        .ok () ((addingMachine 0x12 0x78 2).state.withStack 0
          (EvaluationStack.empty.push (.derived .add [.const .null, .slot .argument 0]))) := by
  have hfolds : binary.foldedOperands? = some 2 := rfl
  have hderives := run_derives_iff hfolds {} ⟨2, .add, []⟩
    (s := (addingMachine 0x12 0x78 2).state) rfl (by decide) rfl
  have hreads : ∀ e, ¬Refuses [.const (.integer 2), .slot .argument 0] e := by
    intro e he
    cases Semantics.integers_eq_error_iff.2 he
  have hsymbolic : ∃ x ∈ [Item.const (.integer 2), .slot .argument 0], x.isSymbolic = true :=
    ⟨_, List.mem_cons_of_mem _ List.mem_cons_self, rfl⟩
  refine ⟨hfolds, hsymbolic, hreads, (hderives.1 hsymbolic nofun).1.2 hreads, fun hpushes => ?_⟩
  have hswapped := hderives.2 rfl .empty (.slot .argument 0) (.const .null) rfl nofun
  exact hswapped.2.1 hpushes _ rfl

/-- Null and an argument cannot be added, although one operand is symbolic.  The other way round
they can. -/
theorem add_null_fails :
    JumpTable.standard.handler .add = binary ∧ Semantics.isOrdering .add = false ∧
      ((addingMachine 0x0B 0x78 2).state.worldAt 0).stack.operands 2 =
        [.const .null, .slot .argument 0] ∧
      (addingMachine 0x0B 0x78 2).step.1 = .error ⟨2, .invalidCast .any .integer⟩ ∧
      ((addingMachine 0x78 0x0B 2).state.worldAt 0).stack.operands 2 =
        [.slot .argument 0, .const .null] ∧
      (addingMachine 0x78 0x0B 2).step.1 = .ok () ∧
      ((addingMachine 0x78 0x0B 3).state.worldAt 0).stack.items =
        [.derived .add [.slot .argument 0, .const .null]] :=
  ⟨rfl, rfl, rfl, rfl, rfl, rfl, rfl⟩

end Handler

end SymbolicScript
