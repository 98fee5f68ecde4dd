import SymbolicScript.Proofs.Rerun
import SymbolicScript.Proofs.ScanSteps
import SymbolicScript.Proofs.ScriptBlind

/-!
# Code that an analysis does not reach

The analysis of a method decodes one instruction after the other, each where the execution of those
before has led.  It looks at no byte of the script outside of these instructions: on a script of the
same length with the same bytes in their places, the analysis gives the same report, whatever the
other bytes are, and even if they cannot be decoded (`analyzeMethod_eq_of_agreesOn`).

Both scans are followed turn by turn.  The machine of the second one is that of the first one with
the script replaced, so that it decodes the same instruction (`Machine.Scanning.next_rescript`) and
executes it in the same way (`Machine.execute_rescript`).
-/

namespace SymbolicScript

/-- The scan of a method that begins at `entry` decodes the instruction: it arrives at the
instruction, which it executes or in front of which it stops. -/
def Scan.Decodes (script : Script) (config : Config) (watchdog : Watchdog) (entry : Nat)
    (i : Instruction) : Prop :=
  ∃ m₀ m scan, (Machine.create config watchdog 0).loadScript script entry = (.ok (), m₀) ∧
    m₀.Turns (predicate entry config.followCalls) start scan m ∧ m.state.status ≠ .halted ∧
    m.next = .ok (some i)

/-- Replaces a script by another one and leaves all others alone. -/
def Script.replacing (script script' : Script) (s : Script) : Script :=
  if s = script then script' else s

variable {script script' : Script} {config : Config} {watchdog : Watchdog} {entry : Nat}

@[simp] lemma Script.replacing_self : script.replacing script' script = script' :=
  if_pos rfl

/-- A script is replaced by one of the same length. -/
lemma Script.replacing_keepsLength (h : script'.length = script.length) :
    KeepsLength (script.replacing script') := by
  intro s
  unfold replacing
  split
  · next hs => rw [hs, h]
  · rfl

/-! ## The machine of the second scan -/

/-- Nothing changes in a state in which nothing is loaded. -/
lemma State.initial_rescript (g : Script → Script) (supply : Nat) :
    (initial supply).rescript g = initial supply := by
  simp [initial, rescript]

/-- Loading the other script gives the state with the script replaced. -/
lemma State.loadScript_rescript (hlength : script'.length = script.length) (supply : Nat) :
    (initial supply).loadScript config script' entry =
      (((initial supply).loadScript config script entry).1,
        ((initial supply).loadScript config script entry).2.rescript
          (script.replacing script')) := by
  have henter (world : Nat) (returnCount : Int) :
      Frame.enter script' world returnCount entry = Frame.enter script world returnCount entry := by
    have hreplaced := Frame.enter_rescript (Script.replacing_keepsLength hlength) script world
      returnCount entry
    rwa [Script.replacing_self] at hreplaced
  have hload (f : Frame) :
      (Exec.addWorld script' >>= fun _ => Exec.loadFrame config f).run (initial supply) =
        Exec.rescript (script.replacing script')
          ((Exec.addWorld script >>= fun _ => Exec.loadFrame config f).run (initial supply)) := by
    have hworld : rescript (script.replacing script')
        { initial supply with worlds := #[.ofScript script] } =
          { initial supply with worlds := #[.ofScript script'] } := by
      simp [rescript, World.rescript, World.ofScript]
    have hframe := Exec.blind_loadFrame (g := script.replacing script') config f
      { initial supply with worlds := #[.ofScript script] }
    rw [hworld] at hframe
    exact hframe
  unfold loadScript
  rw [henter]
  cases Frame.enter script (initial supply).worlds.size (-1) entry with
  | error e => simp only [initial_rescript]
  | ok f =>
    simp only [hload]
    cases (Exec.addWorld script >>= fun _ => Exec.loadFrame config f).run (initial supply) with
    | ok u s => rfl
    | error e s => simp only [Exec.rescript, initial_rescript]

/-- What a state has recorded does not depend on its scripts. -/
lemma State.accesses_rescript {g : Script → Script} (hg : KeepsLength g) (s : State) :
    (s.rescript g).accesses = s.accesses := by
  unfold accesses
  simp only [worldAt_rescript hg]
  rfl

namespace Machine

variable {m m' : Machine} {scan scan' : Scan} {i : Instruction}

/-- With the script replaced, a machine finds the same next instruction if the other script has the
same bytes in its place. -/
lemma Scanning.next_rescript (hscanning : m.Scanning script config)
    (hlength : script'.length = script.length) {next : Option Instruction}
    (hnext : m.next = .ok next) (hagrees : ∀ i, next = some i → script.AgreesOn script' i) :
    (m.rescript (script.replacing script')).next = .ok next := by
  obtain ⟨f, rest, hframes⟩ := List.exists_cons_of_ne_nil hscanning.nonempty
  have hf : f.world = 0 := (hscanning.simple f (by simp [hframes])).world
  have hcurrent : m.state.current? = some (f, m.state.worldAt 0) := by
    simp [State.current?, hframes, hf]
  have hcurrent' : (m.rescript (script.replacing script')).state.current? =
      some (f, (m.state.worldAt 0).rescript (script.replacing script')) := by
    rw [← State.worldAt_rescript (Script.replacing_keepsLength hlength)]
    simp [State.current?, Machine.rescript, State.rescript, hframes, hf]
  have hscript : ((m.state.worldAt 0).rescript (script.replacing script')).script = script' := by
    simp [World.rescript, hscanning.world]
  unfold Machine.next Frame.current at hnext ⊢
  simp only [hcurrent, hscanning.world] at hnext
  simp only [hcurrent', hscript]
  cases hdecode : script.instructionAt f.position with
  | error e =>
    simp only [hdecode] at hnext
    cases hnext
  | ok decoded =>
    cases decoded with
    | none =>
      -- The end of a script depends on its length only.
      have hnone : script'.instructionAt f.position = .ok none := by
        rw [Script.instructionAt_eq_none, hlength]
        exact Script.instructionAt_eq_none.1 hdecode
      simp only [hdecode] at hnext
      simp only [hnone]
      exact hnext
    | some j =>
      simp only [hdecode] at hnext
      have hsome : next = some j := (Except.ok.inj hnext).symm
      have hdecode' := Script.instructionAt_congr hdecode (hagrees j hsome)
      simp only [hdecode']
      exact hnext

/-- A turn of the first scan is a turn of the second one. -/
lemma Turn.rescript (hscanning : m.Scanning script config)
    (hlength : script'.length = script.length)
    (h : m.Turn (Scan.predicate entry config.followCalls) scan scan' m' i)
    (hagrees : script.AgreesOn script' i) :
    (m.rescript (script.replacing script')).Turn (Scan.predicate entry config.followCalls)
      scan scan' (m'.rescript (script.replacing script')) i where
  running := h.running
  next := hscanning.next_rescript hlength h.next fun j hj => by
    rw [← Option.some.inj hj]
    exact hagrees
  passes := h.passes
  executes := by
    rw [execute_rescript (Script.replacing_keepsLength hlength), h.executes]

/-- The second scan ends where the first one ends, unless that ends because an instruction cannot be
decoded. -/
lemma Ends.rescript {ending : Ending Scan} (hscanning : m.Scanning script config)
    (hlength : script'.length = script.length)
    (h : m.Ends (Scan.predicate entry config.followCalls) scan ending)
    (hagrees : ∀ i, m.state.status ≠ .halted → m.next = .ok (some i) →
      script.AgreesOn script' i) :
    (∃ e cause, ending.outcome = .error e ∧ e.payload = .disassembly cause) ∨
      (m.rescript (script.replacing script')).Ends (Scan.predicate entry config.followCalls) scan
        ⟨ending.outcome, ending.machine.rescript (script.replacing script'), ending.memory⟩ := by
  have hnext {j : Instruction} (hrunning : m.state.status ≠ .halted)
      (hj : m.next = .ok (some j)) :
      (m.rescript (script.replacing script')).next = .ok (some j) :=
    hscanning.next_rescript hlength hj fun k hk => by
      rw [← Option.some.inj hk]
      exact hagrees j hrunning hj
  cases h with
  | halted hstatus => exact .inr (.halted hstatus)
  | @malformed e hrunning herror =>
    obtain ⟨cause, hcause⟩ := next_eq_error herror
    exact .inl ⟨e, cause, rfl, hcause⟩
  | finished hrunning hnone =>
    exact .inr (.finished hrunning (hscanning.next_rescript hlength hnone nofun))
  | stopped hrunning hj hstop => exact .inr (.stopped hrunning (hnext hrunning hj) hstop)
  | @failed j _ _ _ hrunning hj hpasses hfails =>
    have hexecute := execute_rescript (Script.replacing_keepsLength hlength) m j
    rw [hfails] at hexecute
    exact .inr (.failed hrunning (hnext hrunning hj) hpasses hexecute)

/-- Unless the first scan ends because an instruction cannot be decoded, the second one ends in the
same way and leaves behind the same machine with the script replaced. -/
theorem run_rescript {m₀ : Machine} (hlength : script'.length = script.length)
    (hload : (create config watchdog 0).loadScript script entry = (.ok (), m₀))
    (hagrees : ∀ i, Scan.Decodes script config watchdog entry i → script.AgreesOn script' i) :
    let ending := m₀.run (Scan.predicate entry config.followCalls) .start
    (∃ e cause, ending.outcome = .error e ∧ e.payload = .disassembly cause) ∨
      (m₀.rescript (script.replacing script')).run (Scan.predicate entry config.followCalls)
        .start = ⟨ending.outcome, ending.machine.rescript (script.replacing script'),
          ending.memory⟩ := by
  have hscanning : m₀.Scanning script config := by
    rw [(loadScript_ok hload).1]
    exact loaded_scanning script config watchdog 0 entry
  -- Whatever the scan comes to is decoded, so that the scripts agree there.
  have hdecoded {scan : Scan} {m : Machine} {i : Instruction}
      (hturns : m₀.Turns (Scan.predicate entry config.followCalls) .start scan m)
      (hrunning : m.state.status ≠ .halted) (hnext : m.next = .ok (some i)) :
      script.AgreesOn script' i :=
    hagrees i ⟨m₀, m, scan, hload, hturns, hrunning, hnext⟩
  obtain ⟨scan, m, n, ⟨hscanning', hturns, rfl⟩, hends, hrun⟩ :=
    run_lockstep (R := fun scan m n => m.Scanning script config ∧
        m₀.Turns (Scan.predicate entry config.followCalls) .start scan m ∧
        n = m.rescript (script.replacing script'))
      (Scan.predicate entry config.followCalls) .start ⟨hscanning, .none _ _, rfl⟩ (by
        rintro scan₁ m₁ n₁ scan₂ m₂ i ⟨hscanning₁, hturns₁, rfl⟩ hturn
        obtain ⟨f, rest, hframes⟩ := List.exists_cons_of_ne_nil hscanning₁.nonempty
        have hsame := hturn.rescript hscanning₁ hlength
          (hdecoded hturns₁ hturn.running hturn.next)
        exact ⟨_, hsame, (hscanning₁.turn hframes hturn).1, hturns₁.snoc hturn, rfl⟩)
  rcases hends.rescript hscanning' hlength fun i => hdecoded hturns with hmalformed | hends'
  · exact .inl hmalformed
  · exact .inr (hrun.trans hends'.run_eq)

end Machine

/-! ## The report -/

/-- A report does not depend on the scripts of the machine that the scan has left behind. -/
lemma MethodReport.ofMachine_rescript {g : Script → Script} (hg : KeepsLength g)
    (method : Method) (m : Machine) (placement : Nat × StopReason × Option LocatedError) :
    ofMachine method (m.rescript g) placement = ofMachine method m placement := by
  simp only [ofMachine, Machine.rescript, State.accesses_rescript hg]

/-- Under the same watchdog, the analysis of a method gives the same report on another script of the
same length which has the same bytes in the places of the decoded instructions, unless the analysis
ends because an instruction cannot be decoded. -/
lemma analyzeMethod_rescript {method : Method} (hlength : script'.length = script.length)
    (hdecodes : ∀ e, (analyzeMethod script config watchdog method).1.error = some e →
      ∀ cause, e.payload ≠ .disassembly cause)
    (hagrees : ∀ i, Scan.Decodes script config watchdog method.offset i →
      script.AgreesOn script' i) :
    (analyzeMethod script' config watchdog method).1 =
      (analyzeMethod script config watchdog method).1 := by
  have hg := Script.replacing_keepsLength hlength
  have hreplaced : (Machine.create config watchdog 0).loadScript script' method.offset =
      (((Machine.create config watchdog 0).loadScript script method.offset).1,
        ((Machine.create config watchdog 0).loadScript script method.offset).2.rescript
          (script.replacing script')) := by
    unfold Machine.loadScript Machine.rescript Machine.create
    simp only [State.loadScript_rescript hlength]
  unfold analyzeMethod at hdecodes ⊢
  rw [hreplaced]
  cases hload : (Machine.create config watchdog 0).loadScript script method.offset with
  | mk result m₀ =>
    cases result with
    | error e => simp only [MethodReport.ofMachine_rescript hg]
    | ok u =>
      rcases Machine.run_rescript hlength hload hagrees with ⟨e, cause, herror, hcause⟩ | hrun
      · refine absurd hcause (hdecodes e ?_ cause)
        simp only [hload, MethodReport.ofMachine, Machine.Ending.placement, herror]
      · simp only [hrun, MethodReport.ofMachine_rescript hg]
        rfl

/-- Bytes that the analysis of a method does not reach have no influence on it.  If the analysis
does not end because an instruction cannot be decoded, it gives the same report on every script of
the same length that has the same bytes in the places of the decoded instructions. -/
theorem analyzeMethod_eq_of_agreesOn {w w' : Watchdog} {method : Method} (hw : w.NeverStops)
    (hw' : w'.NeverStops) (hlength : script'.length = script.length)
    (hdecodes : ∀ e, (analyzeMethod script config w method).1.error = some e →
      ∀ cause, e.payload ≠ .disassembly cause)
    (hagrees : ∀ i, Scan.Decodes script config w method.offset i → script.AgreesOn script' i) :
    (analyzeMethod script' config w' method).1 = (analyzeMethod script config w method).1 := by
  have hwatchdog := (analyzeMethod_eq_of_neverStops script' config hw hw' method).1
  exact hwatchdog.trans (analyzeMethod_rescript hlength hdecodes hagrees)

/-- A script that calls a routine behind a byte which is never reached.  Both the script and the
routine return at once. -/
def skippingScript (byte : UInt8) : Script := ⟨[0x34, 0x04, 0x40, byte, 0x40]⟩

/-- The machine that executes the script with a byte that is no opcode, after some steps. -/
def skippingMachine (count : Nat) : Machine :=
  (Machine.steps count (Machine.loaded (skippingScript 0xFF) { followCalls := true } .lazy 0 0)).2

/-- The turns of the scan: the call and the return of the routine. -/
lemma skippingMachine_turns :
    (skippingMachine 0).Turn (Scan.predicate 0 true) .start ⟨some 0, none⟩ (skippingMachine 1)
        ⟨0, .call, [4]⟩ ∧
      (skippingMachine 1).Turn (Scan.predicate 0 true) ⟨some 0, none⟩ ⟨some 0, none⟩
        (skippingMachine 2) ⟨4, .ret, []⟩ ∧
      (skippingMachine 2).Ends (Scan.predicate 0 true) ⟨some 0, none⟩
        ⟨.ok (.stopped ⟨2, .ret, []⟩), skippingMachine 2, ⟨some 0, some (0, .halted)⟩⟩ :=
  ⟨⟨nofun, rfl, rfl, rfl⟩, ⟨nofun, rfl, rfl, rfl⟩, .stopped nofun rfl rfl⟩

/-- The scan decodes the call and the two returns. -/
lemma skippingScript_decodes {i : Instruction}
    (h : Scan.Decodes (skippingScript 0xFF) { followCalls := true } .lazy 0 i) :
    i = ⟨0, .call, [4]⟩ ∨ i = ⟨4, .ret, []⟩ ∨ i = ⟨2, .ret, []⟩ := by
  obtain ⟨hcall, hret, hends⟩ := skippingMachine_turns
  obtain ⟨m₀, m, scan, hload, hturns, -, hnext⟩ := h
  rw [(Machine.loadScript_ok hload).1] at hturns
  rcases hturns.eq_or_of_turn hcall with rfl | hturns
  · have hi : i = ⟨0, .call, [4]⟩ := by simpa using hnext.symm.trans hcall.next
    exact .inl hi
  rcases hturns.eq_or_of_turn hret with rfl | hturns
  · have hi : i = ⟨4, .ret, []⟩ := by simpa using hnext.symm.trans hret.next
    exact .inr (.inl hi)
  · have hstopped : (skippingMachine 2).next = .ok (some ⟨2, .ret, []⟩) := rfl
    rw [hturns.eq_of_ends hends] at hnext
    have hi : i = ⟨2, .ret, []⟩ := by simpa using hnext.symm.trans hstopped
    exact .inr (.inr hi)

/-- The analysis does not depend on the byte, which may be no opcode. -/
theorem analyzeMethod_eq_of_agreesOn_skippingScript :
    Watchdog.lazy.NeverStops ∧ (skippingScript 0x21).length = (skippingScript 0xFF).length ∧
      (∀ e, (analyzeMethod (skippingScript 0xFF) { followCalls := true } .lazy
        (.ofName "main" 0)).1.error = some e → ∀ cause, e.payload ≠ .disassembly cause) ∧
      (∀ i, Scan.Decodes (skippingScript 0xFF) { followCalls := true } .lazy 0 i →
        (skippingScript 0xFF).AgreesOn (skippingScript 0x21) i) ∧
      (analyzeMethod (skippingScript 0x21) { followCalls := true } .lazy (.ofName "main" 0)).1 =
        (analyzeMethod (skippingScript 0xFF) { followCalls := true } .lazy
          (.ofName "main" 0)).1 := by
  have hdecodes : ∀ e, (analyzeMethod (skippingScript 0xFF) { followCalls := true } .lazy
      (.ofName "main" 0)).1.error = some e → ∀ cause, e.payload ≠ .disassembly cause := by
    obtain ⟨hcall, hret, hends⟩ := skippingMachine_turns
    have hload : (Machine.create { followCalls := true } .lazy 0).loadScript
        (skippingScript 0xFF) 0 = (.ok (), skippingMachine 0) := rfl
    have hanalysis : (analyzeMethod (skippingScript 0xFF) { followCalls := true } .lazy
        (.ofName "main" 0)).1.error = none := by
      unfold analyzeMethod
      simp only [Method.ofName, hload]
      rw [hcall.run_eq, hret.run_eq, hends.run_eq]
      rfl
    rw [hanalysis]
    nofun
  have hagrees : ∀ i, Scan.Decodes (skippingScript 0xFF) { followCalls := true } .lazy 0 i →
      (skippingScript 0xFF).AgreesOn (skippingScript 0x21) i := by
    intro i hi k hle hlt
    have hk : k ≠ 3 := by
      rcases skippingScript_decodes hi with rfl | rfl | rfl
      · change k < 0 + 2 at hlt
        omega
      · change 4 ≤ k at hle
        omega
      · change k < 2 + 1 at hlt
        omega
    match k with
    | 0 | 1 | 2 | 4 | _ + 5 => rfl
    | 3 => exact absurd rfl hk
  exact ⟨Watchdog.lazy_neverStops, rfl, hdecodes, hagrees,
    analyzeMethod_eq_of_agreesOn Watchdog.lazy_neverStops Watchdog.lazy_neverStops rfl hdecodes
      hagrees⟩

end SymbolicScript
