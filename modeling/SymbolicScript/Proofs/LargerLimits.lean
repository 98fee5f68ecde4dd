import SymbolicScript.Proofs.Loading
import SymbolicScript.Proofs.Rerun

/-!
# Larger limits

A configuration limits how many instructions are executed, how large byte items become and how many
frames are stacked.  Reaching a limit is a failure that is not unresolved, so it can only abort the
analysis of a method.  This file proves that a limit has no other influence: an analysis that is not
aborted gives the same report under larger limits (`analyzeMethod_eq_of_within`).

The comparison begins with the computations on the state.  `Exec.FaultsOrEquals x y` says that `y`
does what `x` does unless `x` fails for a reason that is not unresolved.  It composes along `do`
blocks and holds between the same handler under the two configurations.  From there the two runs are
followed turn by turn.
-/

namespace SymbolicScript

/-- The second configuration treats calls as the first one does, and none of its limits is smaller.
-/
structure Config.Within (config config' : Config) : Prop where
  /-- Calls are followed in both configurations or in neither. -/
  followCalls : config'.followCalls = config.followCalls
  /-- At least as many instructions may be executed. -/
  instructionLimit : config.instructionLimit ≤ config'.instructionLimit
  /-- Byte items may be at least as large. -/
  maxItemSize : config.maxItemSize ≤ config'.maxItemSize
  /-- At least as many frames may be stacked. -/
  maxInvocationDepth : config.maxInvocationDepth ≤ config'.maxInvocationDepth

/-! ## Computations that are limited -/

namespace Exec

variable {α β : Type}

/-- The second computation does what the first one does, unless the first one fails for a reason
that is not unresolved. -/
def FaultsOrEquals (x y : Exec α) : Prop :=
  ∀ s, y s = x s ∨ ∃ e s', x s = .error e s' ∧ e.isUnresolved = false

namespace FaultsOrEquals

lemma refl (x : Exec α) : FaultsOrEquals x x :=
  fun _ => .inl rfl

/-- The parts of a sequence may be compared one by one. -/
lemma bind {x y : Exec α} {k l : α → Exec β} (hxy : FaultsOrEquals x y)
    (hkl : ∀ a, FaultsOrEquals (k a) (l a)) : FaultsOrEquals (x >>= k) (y >>= l) := by
  intro s
  simp only [Bind.bind, EStateM.bind]
  rcases hxy s with hequal | ⟨e, s', hfails, he⟩
  · rw [hequal]
    cases x s with
    | ok a s' => exact hkl a s'
    | error e s' => exact .inl rfl
  · rw [hfails]
    exact .inr ⟨e, s', rfl, he⟩

/-- The branches of a choice may be compared one by one. -/
lemma ite {c : Prop} [Decidable c] {x y x' y' : Exec α} (hthen : FaultsOrEquals x y)
    (helse : FaultsOrEquals x' y') :
    FaultsOrEquals (if c then x else x') (if c then y else y') := by
  split
  · exact hthen
  · exact helse

/-- Behind the same check the rests may be compared. -/
lemma check {c : Prop} [Decidable c] {e : ExecutionError} {k l : Unit → Exec α}
    (hkl : ∀ u, FaultsOrEquals (k u) (l u)) :
    FaultsOrEquals (if c then MonadExcept.throw e >>= k else k ())
      (if c then MonadExcept.throw e >>= l else l ()) :=
  ((refl (MonadExcept.throw e)).bind hkl).ite (hkl ())

/-- A check of a limit is passed by whoever passes that of a smaller limit. -/
lemma limit {c c' : Prop} [Decidable c] [Decidable c'] {e e' : ExecutionError} {k : Unit → Exec α}
    (he : e.isUnresolved = false) (hc : c' → c) :
    FaultsOrEquals (if c then MonadExcept.throw e >>= k else k ())
      (if c' then MonadExcept.throw e' >>= k else k ()) := by
  by_cases h : c
  · rw [if_pos h]
    exact fun s => .inr ⟨e, s, rfl, he⟩
  · rw [if_neg h, if_neg fun h' => h (hc h')]
    exact refl _

end FaultsOrEquals

end Exec

namespace Config.Within

open Exec (FaultsOrEquals)

variable {config config' : Config}

/-- Whoever may be stacked under the smaller limit may be stacked under the larger one. -/
lemma loadFrame (h : config.Within config') (f : Frame) :
    FaultsOrEquals (Exec.loadFrame config f) (Exec.loadFrame config' f) := by
  refine (FaultsOrEquals.refl _).bind fun s => ?_
  have hresolved : (ExecutionError.invocationDepthExceeded
      config.maxInvocationDepth).isUnresolved = false := rfl
  exact .limit hresolved fun hfull => Nat.le_trans h.maxInvocationDepth hfull

lemma call (h : config.Within config') (target : Int) :
    FaultsOrEquals (Exec.call config target) (Exec.call config' target) :=
  (FaultsOrEquals.refl _).bind fun _ => (FaultsOrEquals.refl _).bind fun _ =>
    ((FaultsOrEquals.refl _).bind fun _ => h.loadFrame _).ite (.refl _)

lemma directCall (h : config.Within config') (i : Instruction) :
    FaultsOrEquals (Semantics.call config i) (Semantics.call config' i) :=
  (FaultsOrEquals.refl _).bind fun _ => h.call _

lemma callPointer (h : config.Within config') (i : Instruction) :
    FaultsOrEquals (Semantics.callPointer config i) (Semantics.callPointer config' i) := by
  refine (FaultsOrEquals.refl _).bind fun pointer => ?_
  split
  · exact h.call _
  · exact .refl _
  · exact .refl _

/-- What has an acceptable size under the smaller limit has one under the larger limit. -/
lemma checkSize (h : config.Within config') (size : Nat) :
    FaultsOrEquals (liftM (Semantics.checkSize config size) : Exec Unit)
      (liftM (Semantics.checkSize config' size)) := by
  unfold Semantics.checkSize
  by_cases hsize : size > config.maxItemSize
  · rw [if_pos hsize]
    exact fun s => .inr ⟨_, s, rfl, rfl⟩
  · have hsize' : ¬size > config'.maxItemSize := fun hlarge =>
      hsize (Nat.lt_of_le_of_lt h.maxItemSize hlarge)
    rw [if_neg hsize, if_neg hsize']
    exact .refl _

lemma pushData (h : config.Within config') (i : Instruction) :
    FaultsOrEquals (Semantics.pushData config i) (Semantics.pushData config' i) := by
  have hresolved : (ExecutionError.itemTooLarge i.operand.length
      config.maxItemSize).isUnresolved = false := rfl
  unfold Semantics.pushData
  exact .limit hresolved fun hlarge => Nat.lt_of_le_of_lt h.maxItemSize hlarge

lemma newBuffer (h : config.Within config') (i : Instruction) :
    FaultsOrEquals (Semantics.newBuffer config i) (Semantics.newBuffer config' i) := by
  refine (FaultsOrEquals.refl _).bind fun length => (FaultsOrEquals.refl _).bind fun value => ?_
  cases value with
  | none => exact .refl _
  | some value => exact .check fun _ => (h.checkSize _).bind fun _ => .refl _

lemma concat (h : config.Within config') (i : Instruction) :
    FaultsOrEquals (Semantics.concat config i) (Semantics.concat config' i) := by
  refine (FaultsOrEquals.refl _).bind fun y => (FaultsOrEquals.refl _).bind fun x =>
    (FaultsOrEquals.refl _).bind fun first => (FaultsOrEquals.refl _).bind fun second => ?_
  split
  · exact (h.checkSize _).bind fun _ => .refl _
  · exact .refl _

/-- No handler looks at a limit but to fail for a reason that is not unresolved. -/
theorem handler_run (h : config.Within config') (handler : Handler) (i : Instruction) :
    FaultsOrEquals (handler.run config i) (handler.run config' i) := by
  cases handler with
  | pushData => exact h.pushData i
  | call => exact h.directCall i
  | callPointer => exact h.callPointer i
  | newBuffer => exact h.newBuffer i
  | concat => exact h.concat i
  | _ => exact .refl _

/-- An instruction is performed in the same way under larger limits, unless it fails for a reason
that is not unresolved. -/
lemma performInstruction (h : config.Within config') (table : JumpTable) (i : Instruction)
    (s : State) :
    Machine.performInstruction config' table i s = Machine.performInstruction config table i s ∨
      ∃ e s', Machine.performInstruction config table i s = (.error e, s') ∧
        e.isUnresolved = false := by
  have hdispatch := h.handler_run (table.handler i.opcode) i s
  unfold Machine.performInstruction JumpTable.dispatch EStateM.run
  rcases hdispatch with hequal | ⟨e, s', hfails, he⟩
  · rw [hequal]
    exact .inl rfl
  · rw [hfails]
    exact .inr ⟨e, _, rfl, he⟩

/-- A script that can be loaded can be loaded under larger limits. -/
lemma loadScript (h : config.Within config') (script : Script) (offset : Nat) (s : State) :
    s.loadScript config' script offset = s.loadScript config script offset ∨
      ∃ e s', s.loadScript config script offset = (.error e, s') := by
  unfold State.loadScript
  cases Frame.enter script s.worlds.size (-1) offset with
  | error e => exact .inl rfl
  | ok f =>
    have hload : FaultsOrEquals (Exec.addWorld script >>= fun _ => Exec.loadFrame config f)
        (Exec.addWorld script >>= fun _ => Exec.loadFrame config' f) :=
      (FaultsOrEquals.refl _).bind fun _ => h.loadFrame f
    simp only [EStateM.run]
    rcases hload s with hequal | ⟨e, s', hfails, -⟩
    · rw [hequal]
      exact .inl rfl
    · rw [hfails]
      exact .inr ⟨_, _, rfl⟩

end Config.Within

/-! ## Machines under larger limits -/

namespace Machine

/-- The machine with another configuration and another watchdog. -/
def reconfigured (m : Machine) (config : Config) (watchdog : Watchdog) : Machine :=
  { m with config, watchdog }

variable {config config' : Config} {m m' : Machine} {v : Watchdog} {i : Instruction}

/-- An instruction is executed in the same way under larger limits and a watchdog that never stops,
unless it fails for a reason that is not unresolved. -/
lemma execute_reconfigured (hwithin : config.Within config') (hconfig : m.config = config)
    (hv : v.NeverStops) (i : Instruction) :
    (∃ e m', m.execute i = (.error e, m') ∧ e.payload.isUnresolved = false) ∨
      ∃ v' : Watchdog, v'.NeverStops ∧ (m.reconfigured config' v).execute i =
        ((m.execute i).1, (m.execute i).2.reconfigured config' v') := by
  obtain ⟨v', hv', hpoll⟩ := hv.poll (m.executed + 1)
  unfold execute reconfigured
  simp only [hpoll, hconfig, Bool.false_eq_true, if_false]
  by_cases hlimit : m.executed + 1 > config.instructionLimit
  · rw [if_pos hlimit]
    exact .inl ⟨_, _, rfl, rfl⟩
  have hlimit' : ¬m.executed + 1 > config'.instructionLimit := fun hlarge =>
    hlimit (Nat.lt_of_le_of_lt hwithin.instructionLimit hlarge)
  rw [if_neg hlimit, if_neg hlimit']
  cases hstop : (m.watchdog.poll (m.executed + 1)).1 with
  | true => exact .inl ⟨_, _, rfl, rfl⟩
  | false =>
    simp only [Bool.false_eq_true, if_false]
    rcases hwithin.performInstruction m.table i m.state with hequal | ⟨e, s', hfails, he⟩
    · rw [hequal]
      exact .inr ⟨v', hv', rfl⟩
    · rw [hfails]
      exact .inl ⟨_, _, rfl, he⟩

variable {entry : Nat} {followCalls : Bool} {scan scan' : Scan}

/-- A turn of a scan is made in the same way under larger limits and a watchdog that never stops. -/
lemma Turn.reconfigured (hwithin : config.Within config') (hconfig : m.config = config)
    (hv : v.NeverStops) (h : m.Turn (Scan.predicate entry followCalls) scan scan' m' i) :
    m'.config = config ∧ ∃ v' : Watchdog, v'.NeverStops ∧
      (m.reconfigured config' v).Turn (Scan.predicate entry followCalls) scan scan'
        (m'.reconfigured config' v') i := by
  have hconfig' : m'.config = config := (execute_ok h.executes).1.trans hconfig
  rcases execute_reconfigured hwithin hconfig hv i with ⟨e, m₁, hfails, -⟩ | ⟨v', hv', hexecute⟩
  · rw [h.executes] at hfails
    cases hfails
  · rw [h.executes] at hexecute
    exact ⟨hconfig', v', hv', h.running, h.next, h.passes, hexecute⟩

/-- A scan that ends without an error ends in the same way under larger limits and a watchdog that
never stops. -/
lemma Ends.reconfigured {ending : Ending Scan} (hwithin : config.Within config')
    (hconfig : m.config = config) (hv : v.NeverStops)
    (h : m.Ends (Scan.predicate entry followCalls) scan ending) :
    (∃ e, ending.outcome = .error e) ∨ ∃ v' : Watchdog,
      (m.reconfigured config' v).Ends (Scan.predicate entry followCalls) scan
        ⟨ending.outcome, ending.machine.reconfigured config' v', ending.memory⟩ := by
  cases h with
  | halted hstatus => exact .inr ⟨v, .halted hstatus⟩
  | malformed hrunning hnext => exact .inl ⟨_, rfl⟩
  | finished hrunning hnext => exact .inr ⟨v, .finished hrunning hnext⟩
  | stopped hrunning hnext hstops => exact .inr ⟨v, .stopped hrunning hnext hstops⟩
  | @failed i _ e _ hrunning hnext hpasses hfails =>
    rcases execute_reconfigured hwithin hconfig hv i with ⟨e', m₁, hfails', he⟩ | ⟨v', -, hexecute⟩
    · cases hfails.symm.trans hfails'
      refine .inl ⟨e, ?_⟩
      simp [failure, he]
    · rw [hfails] at hexecute
      exact .inr ⟨v', .failed hrunning hnext hpasses hexecute⟩

/-- A scan that does not end with an error has the same outcome under larger limits and a watchdog
that never stops, and leaves the same machine behind up to its configuration and its watchdog. -/
theorem run_reconfigured (entry : Nat) (followCalls : Bool) (scan : Scan)
    (hwithin : config.Within config') (hconfig : m.config = config) (hv : v.NeverStops) :
    let ending := m.run (Scan.predicate entry followCalls) scan
    (∃ e, ending.outcome = .error e) ∨ ∃ v' : Watchdog,
      (m.reconfigured config' v).run (Scan.predicate entry followCalls) scan =
        ⟨ending.outcome, ending.machine.reconfigured config' v', ending.memory⟩ := by
  have hstart : m.config = config ∧ ∃ v' : Watchdog, v'.NeverStops ∧
      m.reconfigured config' v = m.reconfigured config' v' := ⟨hconfig, v, hv, rfl⟩
  obtain ⟨scan', m', n', ⟨hconfig', v', hv', rfl⟩, hends, hrun⟩ :=
    run_lockstep (R := fun _ m n => m.config = config ∧ ∃ v : Watchdog, v.NeverStops ∧
      n = m.reconfigured config' v) (Scan.predicate entry followCalls) scan hstart (by
        rintro scan₁ m₁ n₁ scan₂ m₂ i ⟨hconfig₁, v₁, hv₁, rfl⟩ hturn
        obtain ⟨hconfig₂, v₂, hv₂, hturn'⟩ := hturn.reconfigured hwithin hconfig₁ hv₁
        exact ⟨_, hturn', hconfig₂, v₂, hv₂, rfl⟩)
  intro ending
  rcases hends.reconfigured hwithin hconfig' hv' with herror | ⟨v'', hends'⟩
  · exact .inl herror
  · exact .inr ⟨v'', hrun.trans hends'.run_eq⟩

end Machine

/-! ## Reports -/

/-- Larger limits change nothing in the report on a method whose analysis is not aborted, whatever
watchdog it was made under. -/
theorem analyzeMethod_eq_of_within {script : Script} {config config' : Config} {w w' : Watchdog}
    {method : Method} (hwithin : config.Within config') (hw' : w'.NeverStops)
    (hreason : (analyzeMethod script config w method).1.reason ≠ .aborted) :
    (analyzeMethod script config' w' method).1 = (analyzeMethod script config w method).1 := by
  have hload := hwithin.loadScript script method.offset (.initial 0)
  unfold analyzeMethod Machine.loadScript Machine.create at hreason ⊢
  simp only at hreason ⊢
  rcases hload with hequal | ⟨e, s, hfails⟩
  · rw [hequal, hwithin.followCalls]
    generalize (State.initial 0).loadScript config script method.offset = loading at hreason ⊢
    obtain ⟨result, s⟩ := loading
    cases result with
    | error e => exact absurd rfl hreason
    | ok u =>
      simp only at hreason ⊢
      let m : Machine := ⟨config, .standard, w, 0, s⟩
      rcases Machine.run_reconfigured (m := m) method.offset config.followCalls .start hwithin rfl
        hw' with ⟨e, herror⟩ | ⟨v', hrun⟩
      · refine absurd ?_ hreason
        simp only [MethodReport.ofMachine, Machine.Ending.placement, m, herror]
      · simp only [Machine.reconfigured, m] at hrun
        rw [hrun]
        rfl
  · rw [hfails] at hreason
    exact absurd rfl hreason

/-- A script that pushes a constant and stores it to a static field. -/
def storingScript : Script := ⟨[0x11, 0x60]⟩

/-- The configuration with the smallest limits under which the scan of the script is not aborted. -/
def Config.tight : Config := ⟨1, 0, 1, false⟩

/-- One instruction in one frame is enough for the scan of a method that begins with the script. -/
lemma analyzeMethod_storingScript :
    (analyzeMethod storingScript .tight (.stoppingFrom 0 2) (.ofName "main" 0)).1.reason =
      .effectful := by
  let m (count : Nat) : Machine :=
    (Machine.steps count
      ((Machine.create .tight (.stoppingFrom 0 2) 0).loadScript storingScript 0).2).2
  have hload : (Machine.create .tight (.stoppingFrom 0 2) 0).loadScript storingScript 0 =
      (.ok (), m 0) := rfl
  have hturn : (m 0).Turn (Scan.predicate 0 false) .start .start (m 1) ⟨0, .push1, []⟩ :=
    ⟨nofun, rfl, rfl, rfl⟩
  have hends : (m 1).Ends (Scan.predicate 0 false) .start
      ⟨.ok (.stopped ⟨1, .stSFld0, []⟩), m 1, ⟨none, some (1, .effectful)⟩⟩ :=
    .stopped nofun rfl rfl
  have hanalysis : analyzeMethod storingScript .tight (.stoppingFrom 0 2) (.ofName "main" 0) =
      (.ofMachine (.ofName "main" 0) (m 1) (1, .effectful, none), (m 1).watchdog) := by
    unfold analyzeMethod
    simp only [Method.ofName, hload]
    rw [show Config.tight.followCalls = false from rfl, hturn.run_eq, hends.run_eq]
    rfl
  rw [hanalysis]
  rfl

/-- The report on a method that begins with the script is the same under the default limits. -/
theorem analyzeMethod_eq_of_within_storingScript :
    Config.tight.Within {} ∧ Watchdog.lazy.NeverStops ∧
      (analyzeMethod storingScript .tight (.stoppingFrom 0 2) (.ofName "main" 0)).1.reason ≠
        .aborted ∧
      (analyzeMethod storingScript {} .lazy (.ofName "main" 0)).1 =
        (analyzeMethod storingScript .tight (.stoppingFrom 0 2) (.ofName "main" 0)).1 := by
  have hwithin : Config.tight.Within {} := ⟨rfl, by decide, by decide, by decide⟩
  have hreason : (analyzeMethod storingScript .tight (.stoppingFrom 0 2)
      (.ofName "main" 0)).1.reason ≠ .aborted := by
    rw [analyzeMethod_storingScript]
    decide
  exact ⟨hwithin, Watchdog.lazy_neverStops, hreason,
    analyzeMethod_eq_of_within hwithin Watchdog.lazy_neverStops hreason⟩

end SymbolicScript
