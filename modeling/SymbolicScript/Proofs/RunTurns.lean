import Mathlib.Tactic.Common
import SymbolicScript.Machine.Run

/-!
# The turns of a run

`Machine.run` repeats the same turn: it looks at the next instruction, asks the caller's predicate,
and executes the instruction.  This file names one turn (`Machine.Turn`) and the ways in which a run
can end without a further one (`Machine.Ends`), and proves that every run is a sequence of turns
followed by an end.  What holds before the first turn and is preserved by every turn therefore
holds where the run ends (`Machine.run_invariant`), and two runs that make the same turns come to
their ends together (`Machine.run_lockstep`).
-/

namespace SymbolicScript

namespace Machine

variable {σ : Type} {stop : σ → Machine → Instruction → Bool × σ}

/-- One turn of a run: the predicate lets the next instruction pass and its execution succeeds. -/
structure Turn (stop : σ → Machine → Instruction → Bool × σ) (memory : σ) (m : Machine)
    (memory' : σ) (m' : Machine) (i : Instruction) : Prop where
  /-- The machine has not halted. -/
  running : m.state.status ≠ .halted
  /-- The instruction is the next one. -/
  next : m.next = .ok (some i)
  /-- The predicate does not stop the run. -/
  passes : stop memory m i = (false, memory')
  /-- The instruction is executed. -/
  executes : m.execute i = (.ok (), m')

/-- The ways in which a run ends at a machine without a further turn. -/
inductive Ends (stop : σ → Machine → Instruction → Bool × σ) (memory : σ) (m : Machine) :
    Ending σ → Prop
  /-- The machine has halted before. -/
  | halted (hstatus : m.state.status = .halted) : Ends stop memory m ⟨.ok .halted, m, memory⟩
  /-- The next instruction cannot be decoded. -/
  | malformed {e : LocatedError} (hrunning : m.state.status ≠ .halted)
    (hnext : m.next = .error e) : Ends stop memory m ⟨.error e, m, memory⟩
  /-- There is no next instruction. -/
  | finished (hrunning : m.state.status ≠ .halted) (hnext : m.next = .ok none) :
    Ends stop memory m ⟨.ok .halted, m.withStatus .halted, memory⟩
  /-- The predicate stops the run in front of the next instruction. -/
  | stopped {i : Instruction} {memory' : σ} (hrunning : m.state.status ≠ .halted)
    (hnext : m.next = .ok (some i)) (hstop : stop memory m i = (true, memory')) :
    Ends stop memory m ⟨.ok (.stopped i), m, memory'⟩
  /-- The next instruction fails. -/
  | failed {i : Instruction} {memory' : σ} {e : LocatedError} {m' : Machine}
    (hrunning : m.state.status ≠ .halted) (hnext : m.next = .ok (some i))
    (hstop : stop memory m i = (false, memory')) (hfails : m.execute i = (.error e, m')) :
    Ends stop memory m ⟨failure e, m', memory'⟩

/-- A run ends where it is, or it makes a turn and goes on from there. -/
theorem run_step (memory : σ) (m : Machine) :
    Ends stop memory m (run stop memory m) ∨
      ∃ memory' m' i, Turn stop memory m memory' m' i ∧
        run stop memory m = run stop memory' m' := by
  rw [run]
  split
  · next hstatus => exact .inl (.halted hstatus)
  · next hstatus =>
    split
    · next e hnext => exact .inl (.malformed hstatus hnext)
    · next hnext => exact .inl (.finished hstatus hnext)
    · next i hnext =>
      cases hstop : stop memory m i with
      | mk stopping memory' =>
        cases stopping with
        | true => exact .inl (.stopped hstatus hnext hstop)
        | false =>
          simp only [Bool.false_eq_true, if_false]
          split
          · next e m' hfails => exact .inl (.failed hstatus hnext hstop hfails)
          · next m' hok => exact .inr ⟨memory', m', i, ⟨hstatus, hnext, hstop, hok⟩, rfl⟩

/-- A turn leaves the end of the run as it is. -/
lemma Turn.run_eq {memory memory' : σ} {m m' : Machine} {i : Instruction}
    (h : Turn stop memory m memory' m' i) : run stop memory m = run stop memory' m' := by
  rw [run, if_neg h.running]
  simp only [h.next, h.passes, Bool.false_eq_true, if_false]
  split
  · next hfails =>
    rw [h.executes] at hfails
    cases hfails
  · next hok =>
    rw [h.executes] at hok
    cases hok
    rfl

/-- A way in which a run can end is the way in which it does end. -/
lemma Ends.run_eq {memory : σ} {m : Machine} {ending : Ending σ} (h : Ends stop memory m ending) :
    run stop memory m = ending := by
  rw [run]
  cases h with
  | halted hstatus => rw [if_pos hstatus]
  | malformed hrunning hnext => simp only [if_neg hrunning, hnext]
  | finished hrunning hnext => simp only [if_neg hrunning, hnext]
  | stopped hrunning hnext hstop => simp only [if_neg hrunning, hnext, hstop, if_true]
  | failed hrunning hnext hstop hfails =>
    simp only [if_neg hrunning, hnext, hstop, Bool.false_eq_true, if_false]
    split
    · next heq =>
      rw [hfails] at heq
      cases heq
      rfl
    · next heq =>
      rw [hfails] at heq
      cases heq

/-- What every turn preserves holds where the run ends. -/
theorem run_invariant {P : σ → Machine → Prop} {memory : σ} {m : Machine} (h : P memory m)
    (hturn : ∀ memory m memory' m' i, P memory m → Turn stop memory m memory' m' i →
      P memory' m') :
    ∃ memory' m', P memory' m' ∧ Ends stop memory' m' (run stop memory m) := by
  -- Every turn uses up budget.
  induction hbudget : m.config.instructionLimit - m.executed using Nat.strongRecOn
    generalizing memory m with
  | ind budget ih =>
    rcases run_step (σ := σ) memory m with hends | ⟨memory', m', i, hstep, hrun⟩
    · exact ⟨memory, m, h, hends⟩
    · obtain ⟨hconfig, hexecuted, hlimit⟩ := execute_ok hstep.executes
      rw [hrun]
      refine ih _ ?_ (hturn _ _ _ _ _ h hstep) rfl
      rw [hconfig, hexecuted]
      omega

/-! ## Runs as sequences of turns -/

/-- Turns of a run that follow each other. -/
inductive Turns {σ : Type} (stop : σ → Machine → Instruction → Bool × σ) :
    σ → Machine → σ → Machine → Prop
  /-- No turn. -/
  | none (memory : σ) (m : Machine) : Turns stop memory m memory m
  /-- A turn, and further turns behind it. -/
  | more {memory memory₁ memory₂ : σ} {m m₁ m₂ : Machine} {i : Instruction}
    (turn : Turn stop memory m memory₁ m₁ i) (turns : Turns stop memory₁ m₁ memory₂ m₂) :
    Turns stop memory m memory₂ m₂

/-- A turn may follow other turns. -/
lemma Turns.snoc {memory memory₁ memory₂ : σ} {m m₁ m₂ : Machine} {i : Instruction}
    (h : Turns stop memory m memory₁ m₁) (hturn : Turn stop memory₁ m₁ memory₂ m₂ i) :
    Turns stop memory m memory₂ m₂ := by
  induction h with
  | none => exact .more hturn (.none _ _)
  | more turn _ ih => exact .more turn (ih hturn)

/-- What every turn preserves holds behind any number of turns. -/
lemma Turns.invariant {P : σ → Machine → Prop} {memory memory' : σ} {m m' : Machine}
    (h : Turns stop memory m memory' m') (hm : P memory m)
    (hturn : ∀ memory m memory' m' i, P memory m → Turn stop memory m memory' m' i →
      P memory' m') : P memory' m' := by
  induction h with
  | none => exact hm
  | more turn _ ih => exact ih (hturn _ _ _ _ _ hm turn)

/-- A machine makes at most one turn. -/
lemma Turn.unique {memory memory₁ memory₂ : σ} {m m₁ m₂ : Machine} {i j : Instruction}
    (h : Turn stop memory m memory₁ m₁ i) (h' : Turn stop memory m memory₂ m₂ j) :
    memory₁ = memory₂ ∧ m₁ = m₂ := by
  have hi : i = j := by simpa using h.next.symm.trans h'.next
  subst hi
  have hmemory : memory₁ = memory₂ := by simpa using h.passes.symm.trans h'.passes
  have hmachine : m₁ = m₂ := by simpa using h.executes.symm.trans h'.executes
  exact ⟨hmemory, hmachine⟩

/-- Where a run ends it makes no turn. -/
lemma Ends.not_turn {memory memory' : σ} {m m' : Machine} {ending : Ending σ} {i : Instruction}
    (h : Ends stop memory m ending) : ¬Turn stop memory m memory' m' i := by
  intro hturn
  cases h with
  | halted hstatus => exact hturn.running hstatus
  | malformed _ hnext => simpa using hnext.symm.trans hturn.next
  | finished _ hnext => simpa using hnext.symm.trans hturn.next
  | stopped _ hnext hstop =>
    have hi := hnext.symm.trans hturn.next
    simp only [Except.ok.injEq, Option.some.injEq] at hi
    subst hi
    simpa using hstop.symm.trans hturn.passes
  | failed _ hnext _ hfails =>
    have hi := hnext.symm.trans hturn.next
    simp only [Except.ok.injEq, Option.some.injEq] at hi
    subst hi
    simpa using hfails.symm.trans hturn.executes

/-- Turns from a machine are none, or they begin with the turn that the machine makes. -/
lemma Turns.eq_or_of_turn {memory memory₁ memory' : σ} {m m₁ m' : Machine} {i : Instruction}
    (h : Turns stop memory m memory' m') (hturn : Turn stop memory m memory₁ m₁ i) :
    m' = m ∨ Turns stop memory₁ m₁ memory' m' := by
  cases h with
  | none => exact .inl rfl
  | more turn turns =>
    obtain ⟨rfl, rfl⟩ := hturn.unique turn
    exact .inr turns

/-- There are no turns from where a run ends. -/
lemma Turns.eq_of_ends {memory memory' : σ} {m m' : Machine} {ending : Ending σ}
    (h : Turns stop memory m memory' m') (hends : Ends stop memory m ending) : m' = m := by
  cases h with
  | none => rfl
  | more turn turns => exact absurd turn hends.not_turn

/-- Two runs stay together if every turn of the first one is a turn of the second one.  Then the
second run goes on from a machine that is related to the one at which the first run ends. -/
theorem run_lockstep (stop : σ → Machine → Instruction → Bool × σ)
    {R : σ → Machine → Machine → Prop} (memory : σ) {m n : Machine} (h : R memory m n)
    (hturn : ∀ memory m n memory' m' i, R memory m n → Turn stop memory m memory' m' i →
      ∃ n', Turn stop memory n memory' n' i ∧ R memory' m' n') :
    ∃ memory' m' n', R memory' m' n' ∧ Ends stop memory' m' (run stop memory m) ∧
      run stop memory n = run stop memory' n' := by
  have hstart : ∃ n', R memory m n' ∧ run stop memory n = run stop memory n' := ⟨n, h, rfl⟩
  obtain ⟨memory', m', ⟨n', hrelated, hrun⟩, hends⟩ :=
    run_invariant (P := fun memory' m' => ∃ n', R memory' m' n' ∧
      run stop memory n = run stop memory' n') hstart (by
        rintro memory₁ m₁ memory₂ m₂ i ⟨n₁, hrelated, hrun⟩ hturn₁
        obtain ⟨n₂, hturn₂, hrelated'⟩ := hturn _ _ _ _ _ _ hrelated hturn₁
        exact ⟨n₂, hrelated', hrun.trans hturn₂.run_eq⟩)
  exact ⟨memory', m', n', hrelated, hends, hrun⟩

end Machine

end SymbolicScript
