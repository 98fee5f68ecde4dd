import Mathlib.Tactic.Common
import SymbolicScript.Machine.State
import SymbolicScript.Proofs.Results

/-!
# Computations that succeed

A `do` block succeeds exactly if each of its steps does.  The equivalences of this file take a
successful block on a state apart, step by step, as `except_bind_eq_ok` does for results.
-/

namespace SymbolicScript

/-- A sequence of computations succeeds if its parts do, one after the other. -/
lemma bind_eq_ok {ε σ α β : Type} {x : EStateM ε σ α} {k : α → EStateM ε σ β} {s s' : σ} {b : β} :
    (x >>= k) s = .ok b s' ↔ ∃ a s₁, x s = .ok a s₁ ∧ k a s₁ = .ok b s' := by
  simp only [Bind.bind, EStateM.bind]
  cases x s with
  | ok a s₁ => simp
  | error e s₁ => simp

/-- Behind a computation that succeeds the sequence goes on with its result. -/
lemma bind_of_ok {ε σ α β : Type} {x : EStateM ε σ α} {k : α → EStateM ε σ β} {s s' : σ} {a : α}
    (h : x s = .ok a s') : (x >>= k) s = k a s' := by
  simp only [Bind.bind, EStateM.bind, h]

namespace Exec

variable {α : Type}

/-- A pure result succeeds where it is one, and changes nothing. -/
lemma liftM_eq_ok {result : Except ExecutionError α} {s s' : State} {a : α} :
    (liftM result : Exec α) s = .ok a s' ↔ result = .ok a ∧ s = s' := by
  cases result with
  | ok b =>
    constructor
    · rintro ⟨⟩
      exact ⟨rfl, rfl⟩
    · rintro ⟨⟨⟩, rfl⟩
      rfl
  | error e =>
    constructor
    · rintro ⟨⟩
    · rintro ⟨⟨⟩, -⟩

/-- A check passes where its condition fails. -/
lemma check_eq_ok {c : Prop} [Decidable c] {e : ExecutionError} {k : Unit → Exec α} {s s' : State}
    {a : α} : (if c then throw e >>= k else k ()) s = .ok a s' ↔ ¬c ∧ k () s = .ok a s' := by
  split
  · next h =>
    constructor
    · rintro ⟨⟩
    · rintro ⟨hc, -⟩
      exact absurd h hc
  · next h => simp [h]

/-- The state can be read. -/
lemma get_eq (s : State) : (get : Exec State) s = .ok s s :=
  rfl

/-- The state can be changed. -/
lemma modify_eq (change : State → State) (s : State) :
    (modify change : Exec Unit) s = .ok () (change s) :=
  rfl

/-- Where there is a current frame, it can be read. -/
lemma frame_eq {s : State} {f : Frame} {rest : List Frame} (hs : s.frames = f :: rest) :
    frame s = .ok f s := by
  simp [frame, hs]

/-- The current frame that has been read is on top of the others. -/
lemma frame_eq_ok {s s' : State} {f : Frame} (h : frame s = .ok f s') :
    ∃ rest, s'.frames = f :: rest := by
  unfold frame at h
  split at h
  · next hs =>
    cases h
    exact ⟨_, hs⟩
  · cases h

/-- Where there is a current frame, its world can be read. -/
lemma world_eq {s : State} {f : Frame} {rest : List Frame} (hs : s.frames = f :: rest) :
    world s = .ok (s.worldAt f.world) s := by
  simp [world, hs]

/-- Where there is a current frame, the heap of its world can be read. -/
lemma heap_eq {s : State} {f : Frame} {rest : List Frame} (hs : s.frames = f :: rest) :
    heap s = .ok (s.worldAt f.world).heap s := by
  simp [heap, Bind.bind, EStateM.bind, world_eq hs, pure, EStateM.pure]

/-- Where there is a current frame, the heap of its world can be replaced. -/
lemma setHeap_eq {s : State} {f : Frame} {rest : List Frame} (hs : s.frames = f :: rest)
    (heap : Heap) :
    setHeap heap s = .ok () (s.setWorld f.world { s.worldAt f.world with heap }) := by
  simp [setHeap, modifyWorld, onWorld, hs]

end Exec

end SymbolicScript
