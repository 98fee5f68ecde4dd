import SymbolicScript.Analysis.Optimize
import SymbolicScript.Proofs.RunTurns

/-!
# Running under another watchdog

A watchdog that never asks to stop has no influence on a machine: under another such watchdog the
same instructions are executed with the same results.  This file proves it for runs
(`Machine.run_withWatchdog`) and for the analysis of a method (`analyzeMethod_eq_of_neverStops`), so
that all offsets of an analysis can be computed under one watchdog, `Watchdog.lazy`.
-/

namespace SymbolicScript

/-! ## Watchdogs that never stop -/

/-- No consultation is answered with the request to stop. -/
def Watchdog.NeverStops (w : Watchdog) : Prop := ∀ n, w.verdict n = false

/-- The lazy watchdog never stops. -/
lemma Watchdog.lazy_neverStops : lazy.NeverStops :=
  fun _ => rfl

/-- A watchdog that never stops does not stop when it is polled. -/
lemma Watchdog.NeverStops.poll {w : Watchdog} (h : w.NeverStops) (executed : Nat) :
    ∃ w' : Watchdog, w'.NeverStops ∧ w.poll executed = (false, w') := by
  unfold Watchdog.poll
  split
  · refine ⟨w.consult.2, fun n => h n, ?_⟩
    unfold Watchdog.consult
    rw [h]
  · exact ⟨w, h, rfl⟩

namespace Machine

/-- The machine with another watchdog. -/
def withWatchdog (m : Machine) (watchdog : Watchdog) : Machine :=
  { m with watchdog }

variable {m : Machine} {v : Watchdog}

/-- An instruction is executed in the same way under watchdogs that never stop. -/
lemma execute_withWatchdog (hm : m.watchdog.NeverStops) (hv : v.NeverStops) (i : Instruction) :
    ∃ v' : Watchdog, v'.NeverStops ∧ (m.execute i).2.watchdog.NeverStops ∧
      (m.withWatchdog v).execute i = ((m.execute i).1, (m.execute i).2.withWatchdog v') := by
  obtain ⟨w', hw', hpoll⟩ := hm.poll (m.executed + 1)
  obtain ⟨v', hv', hpoll'⟩ := hv.poll (m.executed + 1)
  unfold execute withWatchdog
  simp only [hpoll, hpoll', Bool.false_eq_true, if_false]
  split
  · exact ⟨v, hv, hm, rfl⟩
  · exact ⟨v', hv', hw', rfl⟩

/-! ## Runs -/

variable {σ : Type} {stop : σ → Machine → Instruction → Bool × σ} {memory memory' : σ}

/-- A run ends in the same way under a watchdog that never stops, if the predicate does not look at
the watchdog. -/
lemma Ends.withWatchdog {ending : Ending σ}
    (hstop : ∀ memory m w i, stop memory (m.withWatchdog w) i = stop memory m i)
    (hm : m.watchdog.NeverStops) (hv : v.NeverStops) (h : m.Ends stop memory ending) :
    ∃ v' : Watchdog, ending.machine.watchdog.NeverStops ∧
      (m.withWatchdog v).Ends stop memory
        ⟨ending.outcome, ending.machine.withWatchdog v', ending.memory⟩ := by
  cases h with
  | halted hstatus => exact ⟨v, hm, .halted hstatus⟩
  | malformed hrunning hnext => exact ⟨v, hm, .malformed hrunning hnext⟩
  | finished hrunning hnext => exact ⟨v, hm, .finished hrunning hnext⟩
  | stopped hrunning hnext hstops =>
    exact ⟨v, hm, .stopped hrunning hnext ((hstop _ _ _ _).trans hstops)⟩
  | @failed i _ _ _ hrunning hnext hpasses hfails =>
    obtain ⟨v', -, hnever, hexecute⟩ := execute_withWatchdog hm hv i
    rw [hfails] at hnever hexecute
    exact ⟨v', hnever, .failed hrunning hnext ((hstop _ _ _ _).trans hpasses) hexecute⟩

/-- A turn is made in the same way under a watchdog that never stops. -/
lemma Turn.withWatchdog {m' : Machine} {i : Instruction}
    (hstop : ∀ memory m w i, stop memory (m.withWatchdog w) i = stop memory m i)
    (hm : m.watchdog.NeverStops) (hv : v.NeverStops) (h : m.Turn stop memory memory' m' i) :
    ∃ v' : Watchdog, v'.NeverStops ∧ m'.watchdog.NeverStops ∧
      (m.withWatchdog v).Turn stop memory memory' (m'.withWatchdog v') i := by
  obtain ⟨v', hv', hnever, hexecute⟩ := execute_withWatchdog hm hv i
  rw [h.executes] at hnever hexecute
  exact ⟨v', hv', hnever, h.running, h.next, (hstop _ _ _ _).trans h.passes, hexecute⟩

/-- Under watchdogs that never stop, a run has the same outcome and leaves the same machine behind
up to the watchdog, which still never stops. -/
theorem run_withWatchdog
    (hstop : ∀ memory m w i, stop memory (m.withWatchdog w) i = stop memory m i)
    (hm : m.watchdog.NeverStops) (hv : v.NeverStops) (memory : σ) :
    ∃ v' : Watchdog, (m.run stop memory).machine.watchdog.NeverStops ∧
      (m.withWatchdog v).run stop memory =
        ⟨(m.run stop memory).outcome, (m.run stop memory).machine.withWatchdog v',
          (m.run stop memory).memory⟩ := by
  -- The other run stays at the same machine up to the watchdog.
  have hstart : m.watchdog.NeverStops ∧ ∃ v' : Watchdog, v'.NeverStops ∧
      m.withWatchdog v = m.withWatchdog v' := ⟨hm, v, hv, rfl⟩
  obtain ⟨memory', m', n', ⟨hnever, v', hv', rfl⟩, hends, hrun⟩ :=
    run_lockstep (R := fun _ m n => m.watchdog.NeverStops ∧ ∃ v : Watchdog, v.NeverStops ∧
      n = m.withWatchdog v) stop memory hstart (by
        rintro memory₁ m₁ n₁ memory₂ m₂ i ⟨hnever, v₁, hv₁, rfl⟩ hturn
        obtain ⟨v₂, hv₂, hnever', hturn'⟩ := hturn.withWatchdog hstop hnever hv₁
        exact ⟨_, hturn', hnever', v₂, hv₂, rfl⟩)
  obtain ⟨v'', hnever', hends'⟩ := hends.withWatchdog hstop hnever hv'
  exact ⟨v'', hnever', hrun.trans hends'.run_eq⟩

end Machine

/-! ## Analyses -/

variable (script : Script) (config : Config) {w w' : Watchdog}

/-- Under any two watchdogs that never stop, the analysis of a method gives the same report, and the
first of them still never stops afterwards. -/
theorem analyzeMethod_eq_of_neverStops (hw : w.NeverStops) (hw' : w'.NeverStops)
    (method : Method) :
    (analyzeMethod script config w' method).1 = (analyzeMethod script config w method).1 ∧
      (analyzeMethod script config w method).2.NeverStops := by
  have hload : (Machine.create config w' 0).loadScript script method.offset =
      (((Machine.create config w 0).loadScript script method.offset).1,
        ((Machine.create config w 0).loadScript script method.offset).2.withWatchdog w') := rfl
  have hwatchdog : ((Machine.create config w 0).loadScript script method.offset).2.watchdog =
      w := rfl
  unfold analyzeMethod
  rw [hload]
  generalize (Machine.create config w 0).loadScript script method.offset = loading at hwatchdog
  obtain ⟨result, m⟩ := loading
  have hm : m.watchdog.NeverStops := by
    rw [show m.watchdog = w from hwatchdog]
    exact hw
  cases result with
  | error e => exact ⟨rfl, hm⟩
  | ok u =>
    have hstop : ∀ scan (m : Machine) v i,
        Scan.predicate method.offset config.followCalls scan (m.withWatchdog v) i =
          Scan.predicate method.offset config.followCalls scan m i := fun _ _ _ _ => rfl
    obtain ⟨v', hnever, hrun⟩ := Machine.run_withWatchdog hstop hm hw' .start
    refine ⟨?_, hnever⟩
    simp only
    rw [hrun]
    rfl

/-- Where the analysis of a method lets it begin under the lazy watchdog. -/
def settledOffset (method : Method) : Nat :=
  (analyzeMethod script config .lazy method).1.newOffset

/-- The analyses of methods let each of them begin where it would begin under the lazy watchdog. -/
lemma analyzeMethods_newOffsets (hw : w.NeverStops) (methods : List Method) :
    (analyzeMethods script config w methods).1.map MethodReport.newOffset =
      methods.map (settledOffset script config) := by
  induction methods generalizing w with
  | nil => rfl
  | cons method rest ih =>
    obtain ⟨hreport, hw'⟩ :=
      analyzeMethod_eq_of_neverStops script config hw Watchdog.lazy_neverStops method
    simp only [analyzeMethods, List.map_cons, settledOffset]
    rw [hreport, ih hw']

end SymbolicScript
