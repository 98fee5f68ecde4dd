import SymbolicScript.Proofs.Approximation
import SymbolicScript.Semantics.Arithmetic

/-!
# Operands that are read as integers

Reading the operands of a numeric instruction gives integers exactly if every operand is one of them
(`Semantics.integers_eq_some_iff`).  So operands that have been read are neither symbolic nor null.
Reading them may fail, but it is never unresolved: a symbolic operand ends it without a failure.
-/

namespace SymbolicScript.Semantics

variable {operands : List Item} {values : List Int}

/-- Operands are read as integers exactly if each of them is read as the integer in its place. -/
lemma integers_eq_some_iff :
    integers operands = .ok (some values) ↔
      List.Forall₂ (fun x value => x.toInteger? = .ok (some value)) operands values := by
  induction operands generalizing values with
  | nil =>
    rw [List.forall₂_nil_left_iff, integers, Except.ok.injEq, Option.some.injEq, eq_comm]
  | cons x rest ih =>
    rw [List.forall₂_cons_left_iff]
    constructor
    · intro h
      obtain ⟨value?, hvalue, hrest⟩ := except_bind_eq_ok.1 h
      cases value? with
      | none => cases hrest
      | some value =>
        obtain ⟨values?, hvalues, hall⟩ := except_bind_eq_ok.1 hrest
        cases values? with
        | none => cases hall
        | some values =>
          cases hall
          exact ⟨value, values, hvalue, ih.1 hvalues, rfl⟩
    · rintro ⟨value, values, hvalue, hvalues, rfl⟩
      refine except_bind_eq_ok.2 ⟨some value, hvalue, ?_⟩
      exact except_bind_eq_ok.2 ⟨some values, ih.2 hvalues, rfl⟩

/-- Operands of which one is symbolic are not all integers. -/
lemma integers_ne_some (hsymbolic : ∃ x ∈ operands, x.isSymbolic = true) (values : List Int) :
    integers operands ≠ .ok (some values) := by
  intro h
  obtain ⟨x, hx, hsymbolic⟩ := hsymbolic
  obtain ⟨value, -, hvalue⟩ := exists_mem_of_forall₂ (integers_eq_some_iff.1 h) hx
  rw [Item.toInteger?_of_isSymbolic hsymbolic] at hvalue
  cases hvalue

/-- Operands that are all known integers are not null. -/
lemma any_isNull_of_integers (h : integers operands = .ok (some values)) :
    operands.any Item.isNull = false := by
  rw [integers_eq_some_iff] at h
  induction h with
  | nil => rfl
  | cons hvalue _ ih => rw [List.any_cons, Item.isNull_of_toInteger? hvalue, ih, Bool.or_false]

/-- Reading operands is never unresolved. -/
lemma integers_resolved (operands : List Item) : Resolved (integers operands) := by
  induction operands with
  | nil => exact .ok _
  | cons x rest ih =>
    refine x.toInteger?_resolved.bind fun value _ => ?_
    cases value with
    | none => exact .ok _
    | some value => exact ih.bind fun _ _ => .ok _

end SymbolicScript.Semantics
