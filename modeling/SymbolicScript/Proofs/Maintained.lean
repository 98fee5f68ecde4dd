import Mathlib.Tactic.Common
import SymbolicScript.Proofs.Outcomes

/-!
# Maintained invariants

A computation maintains an invariant if it leads from every state that satisfies it to a state that
satisfies it again, whether the computation succeeds or fails.  What is known of the results of
successful computations is carried along, since an invariant often holds only of a state into which
such a result is put back (`Exec.Maintains`).

The rules follow the text of a computation.  Where a step needs to be seen together with the state
that it works on, the rules may be applied to a single outcome (`Exec.Leaves`).
-/

namespace SymbolicScript

namespace Exec

variable {σ α β : Type}

/-- An outcome leaves a state behind that satisfies the invariant, and a success has a result of the
given kind. -/
def Leaves (I : σ → Prop) (Q : α → Prop) (outcome : EStateM.Result ExecutionError σ α) : Prop :=
  match outcome with
  | .ok a s => I s ∧ Q a
  | .error _ s => I s

/-- A computation maintains an invariant, and if it succeeds then with a result of the given kind.
-/
def Maintains (I : σ → Prop) (x : EStateM ExecutionError σ α) (Q : α → Prop) : Prop :=
  ∀ s, I s → Leaves I Q (x s)

section Leaves

variable {I : σ → Prop} {Q : α → Prop} {P : β → Prop}

/-- Less may be claimed of the state. -/
lemma Leaves.mono {J : σ → Prop} {outcome : EStateM.Result ExecutionError σ α}
    (h : Leaves J Q outcome) (hJ : ∀ s, J s → I s) : Leaves I Q outcome := by
  cases outcome with
  | ok a s => exact ⟨hJ s h.1, h.2⟩
  | error e s => exact hJ s h

/-- The first part of a sequence may leave more behind than what the sequence does, and the second
part may rely on it. -/
lemma Leaves.bind_of {J : σ → Prop} {x : EStateM ExecutionError σ α}
    {k : α → EStateM ExecutionError σ β} {s : σ} (hx : Leaves J Q (x s)) (hJ : ∀ s, J s → I s)
    (hk : ∀ a s', J s' → Q a → Leaves I P (k a s')) : Leaves I P ((x >>= k) s) := by
  simp only [Bind.bind, EStateM.bind]
  cases h : x s with
  | ok a s' =>
    rw [h] at hx
    exact hk a s' hx.1 hx.2
  | error e s' =>
    rw [h] at hx
    exact hJ s' hx

/-- What a sequence leaves behind is left behind by its first part if that fails, and else by the
second part. -/
lemma Leaves.bind {x : EStateM ExecutionError σ α} {k : α → EStateM ExecutionError σ β} {s : σ}
    (hx : Leaves I Q (x s)) (hk : ∀ a, Q a → Maintains I (k a) P) : Leaves I P ((x >>= k) s) :=
  hx.bind_of (fun _ h => h) fun a s' hs' ha => hk a ha s' hs'

/-- Behind a pure outcome the sequence goes on in the same state. -/
lemma leaves_lift_bind {I : State → Prop} {result : Except ExecutionError α} {k : α → Exec β}
    {s : State} (hs : I s) (hk : ∀ a, result = .ok a → Leaves I P (k a s)) :
    Leaves I P ((liftM result >>= k) s) := by
  cases result with
  | ok a => exact hk a rfl
  | error e => exact hs

end Leaves

namespace Maintains

variable {I : σ → Prop} {P Q : α → Prop} {R : β → Prop}

/-- A pure result changes nothing. -/
lemma pure {a : α} (ha : Q a) : Maintains I (Pure.pure a) Q :=
  fun _ hs => ⟨hs, ha⟩

/-- A failure changes nothing. -/
lemma throw (e : ExecutionError) : Maintains I (MonadExcept.throw e) Q :=
  fun _ hs => hs

/-- A sequence maintains what its parts maintain. -/
lemma bind {x : EStateM ExecutionError σ α} {k : α → EStateM ExecutionError σ β}
    (hx : Maintains I x P) (hk : ∀ a, P a → Maintains I (k a) R) : Maintains I (x >>= k) R :=
  fun s hs => (hx s hs).bind hk

/-- A choice maintains what both of its branches maintain. -/
lemma ite {c : Prop} [Decidable c] {x y : EStateM ExecutionError σ α} (hx : c → Maintains I x Q)
    (hy : ¬c → Maintains I y Q) : Maintains I (if c then x else y) Q := by
  split
  · next h => exact hx h
  · next h => exact hy h

/-- A check that may fail maintains what the rest maintains, which may rely on the check. -/
lemma check {c : Prop} [Decidable c] {e : ExecutionError}
    {k : Unit → EStateM ExecutionError σ α} (hk : ¬c → ∀ u, Maintains I (k u) Q) :
    Maintains I (if c then MonadExcept.throw e >>= k else k ()) Q :=
  ite (fun _ => (throw (Q := fun _ => False) e).bind fun _ h => h.elim) fun h => hk h ()

/-- The state that is read satisfies the invariant. -/
lemma get : Maintains I (MonadState.get : EStateM ExecutionError σ σ) I :=
  fun _ hs => ⟨hs, hs⟩

/-- A change of the state has to maintain the invariant. -/
lemma modify {change : σ → σ} (h : ∀ s, I s → I (change s)) :
    Maintains I (modify change : EStateM ExecutionError σ Unit) fun _ => True :=
  fun s hs => ⟨h s hs, trivial⟩

/-- A pure outcome changes nothing. -/
lemma lift {I : State → Prop} {result : Except ExecutionError α} (h : ∀ a, result = .ok a → Q a) :
    Maintains I (liftM result : Exec α) Q := by
  intro s hs
  cases result with
  | ok a => exact ⟨hs, h a rfl⟩
  | error e => exact hs

end Maintains

end Exec

end SymbolicScript
