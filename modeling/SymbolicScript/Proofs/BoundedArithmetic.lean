import SymbolicScript.Proofs.BoundedStates

/-!
# Numeric instructions within bounds

A numeric instruction pops its operands, and then it either fails or pushes one item
(`Exec.PushesOne`): the result of an operation on integers within the bounds, a truth value, or a
derived variable of the operands.  So what it pushes is within the bounds if its operands are
(`Handler.run_replaces`), whatever the rest of the state looks like.
-/

namespace SymbolicScript

variable {b : Bounds} {s₀ : State}

/-! ## Pushing one item -/

/-- The state with another evaluation stack in a world. -/
def State.withStack (s : State) (index : Nat) (stack : EvaluationStack) : State :=
  s.setWorld index { s.worldAt index with stack }

@[simp] lemma State.size_withStack (s : State) (index : Nat) (stack : EvaluationStack) :
    (s.withStack index stack).worlds.size = s.worlds.size :=
  Array.size_setIfInBounds

/-- A world that exists gets the stack. -/
lemma State.worldAt_withStack {s : State} {index : Nat} (h : index < s.worlds.size)
    (stack : EvaluationStack) :
    (s.withStack index stack).worldAt index = { s.worldAt index with stack } := by
  unfold withStack
  rw [worldAt_setWorld, if_pos ⟨rfl, h⟩]

/-- The stack of a world that exists can be replaced again. -/
lemma State.withStack_withStack {s : State} {index : Nat} (h : index < s.worlds.size)
    (stack stack' : EvaluationStack) :
    (s.withStack index stack).withStack index stack' = s.withStack index stack' := by
  have hworld := worldAt_withStack h stack
  unfold withStack at hworld ⊢
  rw [hworld]
  simp [setWorld]

namespace Exec

variable {α : Type} {P : Item → Prop}

/-- Work on the evaluation stack changes the stack of the world of the current frame. -/
lemma onStack_eq {s : State} {f : Frame} {rest : List Frame} (hs : s.frames = f :: rest)
    (change : EvaluationStack → α × EvaluationStack) :
    onStack change s = .ok (change (s.worldAt f.world).stack).1
      (s.withStack f.world (change (s.worldAt f.world).stack).2) := by
  simp [onStack, onWorld, hs, State.withStack]

/-- Popping takes the topmost item off that stack. -/
lemma pop_eq {s : State} {f : Frame} {rest : List Frame} (hs : s.frames = f :: rest) :
    pop s = .ok (s.worldAt f.world).stack.pop.1
      (s.withStack f.world (s.worldAt f.world).stack.pop.2) :=
  onStack_eq hs EvaluationStack.pop

/-- The computation pushes one item that satisfies the predicate, or fails without a change. -/
def PushesOne (P : Item → Prop) (x : Exec Unit) : Prop :=
  ∀ s, (∃ e, x s = .error e s) ∨ ∃ y, P y ∧ x s = push y s

namespace PushesOne

lemma push {y : Item} (hy : P y) : PushesOne P (push y) :=
  fun _ => .inr ⟨y, hy, rfl⟩

/-- A pure result fails, or the computation goes on with it. -/
lemma lift {result : Except ExecutionError α} {k : α → Exec Unit}
    (hk : ∀ a, result = .ok a → PushesOne P (k a)) :
    PushesOne P ((liftM result : Exec α) >>= k) := by
  intro s
  cases result with
  | ok a => exact hk a rfl s
  | error e => exact .inl ⟨e, rfl⟩

/-- A choice pushes one item if both of its branches do. -/
lemma ite {c : Prop} [Decidable c] {x y : Exec Unit} (hx : PushesOne P x) (hy : PushesOne P y) :
    PushesOne P (if c then x else y) := by
  split
  · exact hx
  · exact hy

/-- Pushing an item within the bounds keeps the state within them. -/
lemma evolves {x : Exec Unit} (h : PushesOne (Item.Within b) x) :
    Evolves b s₀ x fun _ => True := by
  intro s hs
  rcases h s with ⟨e, hfails⟩ | ⟨y, hy, hpushes⟩
  · rw [hfails]
    exact hs
  · rw [hpushes]
    exact evolves_push hy s hs

end PushesOne

/-- Where the topmost items are within the bounds, the computation pops them, and then it pushes one
item within the bounds or fails. -/
def Replaces (b : Bounds) (count : Nat) (x : Exec Unit) : Prop :=
  ∀ (s : State) (f : Frame) (rest : List Frame), s.frames = f :: rest → f.world < s.worlds.size →
    (∀ y ∈ ((s.worldAt f.world).stack.popMany count).1, y.Within b) →
      (∃ e s', x s = .error e s') ∨
        ∃ y, y.Within b ∧
          x s = push y (s.withStack f.world ((s.worldAt f.world).stack.popMany count).2)

end Exec

namespace Semantics

open Exec (Evolves PushesOne Replaces)

variable (hfits : ∀ value, TwosComplement.Fits Limits.integerBytes value → b.integer value)
  (i : Instruction)

/-! ## What is pushed -/

section

include hfits

/-- Folding pushes a result of the operation, or a derived variable of the operands. -/
lemma pushesOne_fold {operation : List Int → Except ExecutionError Item} {opcode : Opcode}
    (hoperation : ∀ values y, (∀ value ∈ values, b.integer value) → operation values = .ok y →
      y.Within b)
    {operands : List Item} (hoperands : ∀ x ∈ operands, x.Within b) :
    PushesOne (Item.Within b) (fold opcode operands operation) := by
  refine .lift fun values hvalues => ?_
  cases values with
  | none => exact .push (.derived hoperands)
  | some values =>
    exact .lift fun y hy =>
      .push (hoperation values y (integers_within hfits hoperands hvalues) hy)

lemma pushesOne_unary {operands : List Item} (hoperands : ∀ x ∈ operands, x.Within b) :
    PushesOne (Item.Within b) (fold i.opcode operands fun
      | [x] => unaryResult i.opcode x
      | _ => .error (.invalidOperand i.opcode)) := by
  refine pushesOne_fold hfits (fun values y _ hy => ?_) hoperands
  split at hy
  · exact unaryResult_within hfits hy
  · cases hy

lemma pushesOne_binary {operands : List Item} (hoperands : ∀ x ∈ operands, x.Within b) :
    PushesOne (Item.Within b) (if isOrdering i.opcode && operands.any Item.isNull then
        Exec.push (.boolean false)
      else fold i.opcode operands fun
        | [x, y] => binaryResult i.opcode x y
        | _ => .error (.invalidOperand i.opcode)) := by
  refine .ite (.push (.boolean false))
    (pushesOne_fold hfits (fun values y hvalues hy => ?_) hoperands)
  split at hy
  · exact binaryResult_within hfits (hvalues _ (by simp)) (hvalues _ (by simp)) hy
  · cases hy

lemma pushesOne_ternary {operands : List Item} (hoperands : ∀ x ∈ operands, x.Within b) :
    PushesOne (Item.Within b) (fold i.opcode operands fun
      | [x, y, z] => ternaryResult i.opcode x y z
      | _ => .error (.invalidOperand i.opcode)) := by
  refine pushesOne_fold hfits (fun values y _ hy => ?_) hoperands
  split at hy
  · exact ternaryResult_within hfits hy
  · cases hy

end

lemma pushesOne_logicalNot {x : Item} (hx : x.Within b) :
    PushesOne (Item.Within b) (do
      match ← x.toBoolean? with
      | some value => Exec.push (.boolean !value)
      | none => Exec.push (.derived i.opcode [x])) := by
  refine .lift fun value _ => ?_
  cases value with
  | none => exact .push (.derived (List.forall_mem_singleton.2 hx))
  | some value => exact .push (.boolean _)

lemma pushesOne_logical {x y : Item} (hx : x.Within b) (hy : y.Within b) :
    PushesOne (Item.Within b) (do
      let a ← x.toBoolean?
      let c ← y.toBoolean?
      match connective i.opcode a c with
      | some value => Exec.push (.boolean value)
      | none => Exec.push (.derived i.opcode [x, y])) := by
  refine .lift fun a _ => .lift fun c _ => ?_
  split
  · exact .push (.boolean _)
  · exact .push (.derived (List.forall_mem_cons.2 ⟨hx, List.forall_mem_singleton.2 hy⟩))

/-! ## States within bounds -/

lemma evolves_popOperands (count : Nat) :
    Evolves b s₀ (popOperands count) fun operands => ∀ x ∈ operands, x.Within b :=
  (Exec.evolves_popMany count).bind fun _ hitems =>
    .pure fun x hx => hitems x (List.mem_reverse.1 hx)

section

include hfits

lemma evolves_unary : Evolves b s₀ (unary i) fun _ => True :=
  (evolves_popOperands 1).bind fun _ hoperands => (pushesOne_unary hfits i hoperands).evolves

lemma evolves_binary : Evolves b s₀ (binary i) fun _ => True :=
  (evolves_popOperands 2).bind fun _ hoperands => (pushesOne_binary hfits i hoperands).evolves

lemma evolves_ternary : Evolves b s₀ (ternary i) fun _ => True :=
  (evolves_popOperands 3).bind fun _ hoperands => (pushesOne_ternary hfits i hoperands).evolves

end

lemma evolves_logicalNot : Evolves b s₀ (logicalNot i) fun _ => True :=
  Exec.evolves_pop.bind fun _ hx => (pushesOne_logicalNot i hx).evolves

lemma evolves_logical : Evolves b s₀ (logical i) fun _ => True :=
  Exec.evolves_pop.bind fun _ hy => Exec.evolves_pop.bind fun _ hx =>
    (pushesOne_logical i hx hy).evolves

/-! ## Operands within bounds -/

/-- Operands are popped together. -/
lemma popOperands_eq {s : State} {f : Frame} {rest : List Frame} (hs : s.frames = f :: rest)
    (count : Nat) :
    popOperands count s = .ok ((s.worldAt f.world).stack.popMany count).1.reverse
      (s.withStack f.world ((s.worldAt f.world).stack.popMany count).2) := by
  unfold popOperands Exec.popMany
  rw [bind_of_ok (Exec.onStack_eq hs _)]
  rfl

/-- Popping operands together and then pushing one item. -/
lemma replaces_popOperands {count : Nat} {k : List Item → Exec Unit}
    (hk : ∀ operands : List Item, (∀ x ∈ operands, x.Within b) →
      PushesOne (Item.Within b) (k operands)) :
    Replaces b count (popOperands count >>= k) := by
  intro s f rest hs _ hoperands
  rw [bind_of_ok (popOperands_eq hs count)]
  rcases hk _ (fun x hx => hoperands x (List.mem_reverse.1 hx))
    (s.withStack f.world ((s.worldAt f.world).stack.popMany count).2) with ⟨e, hfails⟩ | hpushes
  · exact .inl ⟨e, _, hfails⟩
  · exact .inr hpushes

lemma replaces_logicalNot : Replaces b 1 (logicalNot i) := by
  intro s f rest hs _ hoperands
  rw [EvaluationStack.popMany_succ] at hoperands ⊢
  have hx := hoperands _ List.mem_cons_self
  unfold logicalNot
  rw [bind_of_ok (Exec.pop_eq hs)]
  rcases pushesOne_logicalNot i hx (s.withStack f.world (s.worldAt f.world).stack.pop.2)
    with ⟨e, hfails⟩ | hpushes
  · exact .inl ⟨e, _, hfails⟩
  · exact .inr hpushes

lemma replaces_logical : Replaces b 2 (logical i) := by
  intro s f rest hs hworld hoperands
  rw [EvaluationStack.popMany_succ, EvaluationStack.popMany_succ] at hoperands ⊢
  generalize hstack : (s.worldAt f.world).stack = stack at hoperands ⊢
  have hy := hoperands _ List.mem_cons_self
  have hx := hoperands _ (List.mem_cons_of_mem _ List.mem_cons_self)
  have hfirst : Exec.pop s = .ok stack.pop.1 (s.withStack f.world stack.pop.2) := by
    rw [← hstack]
    exact Exec.pop_eq hs
  have hsecond : Exec.pop (s.withStack f.world stack.pop.2) =
      .ok stack.pop.2.pop.1 (s.withStack f.world stack.pop.2.pop.2) := by
    have hframes : (s.withStack f.world stack.pop.2).frames = f :: rest := hs
    have hpop := Exec.pop_eq hframes
    rw [State.worldAt_withStack hworld, State.withStack_withStack hworld] at hpop
    exact hpop
  unfold logical
  rw [bind_of_ok hfirst, bind_of_ok hsecond]
  rcases pushesOne_logical i hx hy (s.withStack f.world stack.pop.2.pop.2)
    with ⟨e, hfails⟩ | hpushes
  · exact .inl ⟨e, _, hfails⟩
  · exact .inr hpushes

end Semantics

/-! ## Numeric handlers -/

namespace Handler

/-- The number of operands of a numeric handler. -/
def operands? : Handler → Option Nat
  | unary | logicalNot => some 1
  | binary | logical => some 2
  | ternary => some 3
  | _ => none

/-- A numeric handler replaces operands within the bounds by an item within the bounds, or fails. -/
theorem run_replaces (hfits : ∀ value, TwosComplement.Fits Limits.integerBytes value →
    b.integer value) (config : Config) {handler : Handler} {count : Nat}
    (h : handler.operands? = some count) (i : Instruction) :
    Exec.Replaces b count (handler.run config i) := by
  cases handler with
  | unary =>
    cases h
    exact Semantics.replaces_popOperands fun _ => Semantics.pushesOne_unary hfits i
  | binary =>
    cases h
    exact Semantics.replaces_popOperands fun _ => Semantics.pushesOne_binary hfits i
  | ternary =>
    cases h
    exact Semantics.replaces_popOperands fun _ => Semantics.pushesOne_ternary hfits i
  | logicalNot =>
    cases h
    exact Semantics.replaces_logicalNot i
  | logical =>
    cases h
    exact Semantics.replaces_logical i
  | _ => cases h

end Handler

end SymbolicScript
