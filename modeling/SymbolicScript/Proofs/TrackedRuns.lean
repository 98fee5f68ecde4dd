import SymbolicScript.Proofs.GroundedRuns
import SymbolicScript.Proofs.TrackedHandlers

/-!
# The tracker records the accesses of the run

A machine that has loaded a script is stepped any number of times, whether the steps succeed or
fail.  Its trace consists of the accesses of the steps that succeed, each told from the state in
front of the step (`Machine.trace`).  This file proves that the tracker of the entry frame is what
remains if the trace is recorded from its beginning to its end (`Machine.record_after`), and so says
in terms of the trace alone which locations are among the reads and the writes, and with which
offsets (`Machine.accesses_iff_trace`).

A step can also fail behind its handler, when the frame that has executed the instruction would
leave its script.  That record would be one too many.  But the instructions that make accesses are
decoded from the script and so end inside it.
-/

namespace SymbolicScript

variable {g : Ground} {config : Config} {s : State} {w : World} {i : Instruction}

/-! ## Grounded states -/

namespace State.Grounded

/-- A grounded state with a frame works in its only world. -/
lemma worksIn (h : s.Grounded g) (hframes : s.frames ≠ []) : s.WorksIn (s.worldAt 0) := by
  obtain ⟨f, rest, hs⟩ := List.exists_cons_of_ne_nil hframes
  obtain ⟨w, hw⟩ := Array.size_eq_one_iff.1 h.worlds
  refine ⟨?_, f, rest, hs, (h.frame f (by simp [hs])).world⟩
  simp [State.worldAt, hw]

/-- The accesses of a grounded state with a frame are those recorded in its only world. -/
lemma accesses_eq (h : s.Grounded g) (hframes : s.frames ≠ []) :
    s.accesses = (s.worldAt 0).record := by
  have hentry : s.entry? = some (s.frames.getLast hframes) :=
    List.getLast?_eq_getLast_of_ne_nil hframes
  have hworld : (s.frames.getLast hframes).world = 0 :=
    (h.frame _ (List.getLast_mem hframes)).world
  rw [State.accesses, hentry, Option.bind_some, hworld]
  rfl

end State.Grounded

/-! ## Performing an instruction -/

/-- In the first world the access has been recorded on top of the others if the result is a success,
and none if it is a failure. -/
def State.Recorded {ε : Type} (t : AccessTracker) (access : Option AccessEvent)
    (result : Except ε Unit) (s : State) : Prop :=
  match result with
  | .ok () => (s.worldAt 0).record = t.recordAll access.toList
  | .error _ => (s.worldAt 0).record = t

/-- An instruction that makes an access does not transfer control. -/
lemma transfers_of_access? (h : s.access? i ≠ none) :
    (JumpTable.standard.handler i.opcode).transfers = false := by
  unfold State.access? at h
  split at h
  · next hhandler => rw [hhandler]; rfl
  · next hhandler => rw [hhandler]; rfl
  · next hhandler => rw [hhandler]; rfl
  · exact absurd rfl h

namespace Machine

/-- An instruction that does not transfer control and ends inside the script can be advanced. -/
lemma advance_ne_error {f : Frame} {rest : List Frame} {s₁ s₂ : State} {e : ExecutionError}
    (htransfers : (JumpTable.standard.handler i.opcode).transfers = false)
    (hs : s.frames = f :: rest) (hinside : i.nextOffset ≤ (s.worldAt f.world).script.length)
    (hdispatch : JumpTable.standard.dispatch config i s = .ok () s₁) :
    advance (s.frames.length - 1) i { s₁ with jumping := false } ≠ .error e s₂ := by
  intro hadvance
  have hsame : s.SameSkeleton s₁ := by
    have hkeeps := Handler.run_sameSkeleton config i htransfers s
    have hrun : (JumpTable.standard.handler i.opcode).run config i s = .ok () s₁ := hdispatch
    rwa [Exec.after_of_ok hrun] at hkeeps
  obtain ⟨f₁, hs₁, hskeleton⟩ := hsame.frames_eq hs
  have hworld : f₁.skeleton.world = f.skeleton.world := congrArg Frame.world hskeleton
  change f₁.world = f.world at hworld
  have hlength : s.frames.length - 1 = rest.length := by simp [hs]
  rw [hlength] at hadvance
  have habove : s₁.frames = [] ++ f₁ :: rest := hs₁
  have houtside : (s₁.worldAt f₁.world).script.length < i.nextOffset :=
    length_lt_of_advance_error (s := { s₁ with jumping := false }) habove hadvance
  rw [hworld, hsame.script] at houtside
  omega

/-- Performing an instruction records its access if it succeeds, and nothing if it fails. -/
lemma Performs.recorded {outcome : Except ExecutionError Unit × State}
    (h : Performs config .standard i s outcome) (hw : s.WorksIn w)
    (hinside : s.access? i ≠ none → ∃ f rest, s.frames = f :: rest ∧
      i.nextOffset ≤ (s.worldAt f.world).script.length) :
    State.Recorded w.record (s.access? i) outcome.1 outcome.2 := by
  have hrecorded := JumpTable.dispatch_recorded config hw i
  cases h with
  | fails hdispatch _ =>
    rw [hdispatch] at hrecorded
    exact hrecorded
  | jumps hdispatch _ =>
    rw [hdispatch] at hrecorded
    exact hrecorded
  | @advances s₁ s₂ hdispatch _ hadvance =>
    rw [hdispatch] at hrecorded
    have hworld : s₂.worldAt 0 = s₁.worldAt 0 := by
      rw [State.worldAt, advance_worlds hadvance]
      rfl
    have hrecorded' : (s₁.worldAt 0).record = w.record.recordAll (s.access? i).toList := hrecorded
    rw [← hworld] at hrecorded'
    exact hrecorded'
  | @leaves e s₁ s₂ hdispatch _ hadvance =>
    -- Only an instruction that makes no access can leave the script.
    have hnone : s.access? i = none := by
      by_contra haccess
      obtain ⟨f, rest, hs, hend⟩ := hinside haccess
      exact advance_ne_error (transfers_of_access? haccess) hs hend hdispatch hadvance
    rw [hdispatch, hnone] at hrecorded
    obtain rfl := advance_error hadvance
    exact hrecorded

/-! ## Steps -/

/-- The access that the next step makes: that of the next instruction, if the step succeeds. -/
def access? (m : Machine) : Option AccessEvent :=
  match m.next, m.step.1 with
  | .ok (some i), .ok () => m.state.access? i
  | _, _ => none

variable {m : Machine}

/-- The next instruction ends inside the script if it makes an access. -/
lemma inside_of_access? (hnext : m.next = .ok (some i)) (haccess : m.state.access? i ≠ none) :
    ∃ f rest, m.state.frames = f :: rest ∧
      i.nextOffset ≤ (m.state.worldAt f.world).script.length := by
  obtain ⟨f, rest, hframes⟩ := exists_frame_of_next hnext
  refine ⟨f, rest, hframes, nextOffset_le_of_next hnext hframes fun hop => ?_⟩
  have htransfers := transfers_of_access? haccess
  rw [hop] at htransfers
  cases htransfers

/-- Executing the next instruction records its access if it succeeds, and nothing if it fails, also
if the budget or the watchdog does not permit it. -/
lemma execute_recorded (htable : m.table = .standard) (hw : m.state.WorksIn w)
    (hnext : m.next = .ok (some i)) :
    State.Recorded w.record (m.state.access? i) (m.execute i).1 (m.execute i).2.state := by
  have hrecord : (m.state.worldAt 0).record = w.record := by rw [hw.worldAt]
  unfold execute
  simp only
  split
  · exact hrecord
  · split
    · exact hrecord
    · have hrecorded := (performInstruction_performs m.config m.table i m.state)
      rw [htable] at hrecorded ⊢
      have hperformed := hrecorded.recorded hw (inside_of_access? hnext)
      generalize performInstruction m.config .standard i m.state = outcome at hperformed
      obtain ⟨result, s⟩ := outcome
      cases result with
      | ok u => exact hperformed
      | error e => exact hperformed

/-- A step records the access that it makes. -/
theorem step_record (htable : m.table = .standard) (hs : m.state.Grounded g) :
    (m.step.2.state.worldAt 0).record =
      (m.state.worldAt 0).record.recordAll m.access?.toList := by
  unfold access? step
  cases hnext : m.next with
  | error e => rfl
  | ok next =>
    cases next with
    | none => rfl
    | some i =>
      obtain ⟨f, rest, hframes⟩ := exists_frame_of_next hnext
      have hw := hs.worksIn (by simp [hframes])
      have hexecuted := execute_recorded htable hw hnext
      simp only
      generalize m.execute i = outcome at hexecuted
      obtain ⟨result, m'⟩ := outcome
      cases result with
      | ok u => exact hexecuted
      | error e => exact hexecuted

/-! ## Runs -/

/-- The machine after some steps, whether they succeed or fail. -/
def after (m : Machine) : Nat → Machine
  | 0 => m
  | count + 1 => (m.after count).step.2

/-- The accesses that the first steps make, in their order. -/
def trace (m : Machine) (count : Nat) : List AccessEvent :=
  (List.range count).filterMap fun k => (m.after k).access?

lemma trace_succ (m : Machine) (count : Nat) :
    m.trace (count + 1) = m.trace count ++ (m.after count).access?.toList := by
  unfold trace
  rw [List.range_succ, List.filterMap_append]
  cases h : (m.after count).access? with
  | none => simp [h]
  | some e => simp [h]

/-- The machines after some steps are those that are reached. -/
lemma reaches_after (m : Machine) (count : Nat) : Reaches (fun _ => True) m (m.after count) := by
  induction count with
  | zero => exact .start
  | succ count ih => exact .step ih fun _ _ => trivial

/-- What has been recorded after some steps is recorded on top of what there was by recording the
trace. -/
lemma record_after (htable : m.table = .standard) (hs : m.state.Grounded g) (count : Nat) :
    ((m.after count).state.worldAt 0).record =
      (m.state.worldAt 0).record.recordAll (m.trace count) := by
  induction count with
  | zero => rfl
  | succ count ih =>
    obtain ⟨htable', g', -, hs'⟩ := (m.reaches_after count).grounded htable hs
    calc ((m.after (count + 1)).state.worldAt 0).record
        = ((m.after count).state.worldAt 0).record.recordAll (m.after count).access?.toList :=
          step_record htable' hs'
      _ = (m.state.worldAt 0).record.recordAll (m.trace (count + 1)) := by
          rw [ih, ← AccessTracker.recordAll_append, trace_succ]

/-- The tracker records exactly the accesses of the run.  After any number of steps behind a load,
and while there is a frame, a location is among the reads exactly if its first access in the trace
is a read, with the offset of that access, and among the writes exactly if the trace writes it, with
the offset of the last write. -/
theorem accesses_iff_trace {script : Script} {watchdog : Watchdog} {supply entry count : Nat}
    {m : Machine} (hload : (create config watchdog supply).loadScript script entry = (.ok (), m))
    (hframes : (m.after count).state.frames ≠ []) (a : Access) (offset : Nat) :
    ((m.after count).state.accesses.reads.find? a = some offset ↔
        ReadFirst (m.trace count) a offset) ∧
      ((m.after count).state.accesses.writes.find? a = some offset ↔
        WrittenLast (m.trace count) a offset) := by
  obtain ⟨rfl, -, -⟩ := loadScript_ok hload
  have hs := loaded_grounded script config watchdog supply entry
  have hrecord := record_after rfl hs count
  obtain ⟨-, g, -, hs'⟩ := (reaches_after _ count).grounded rfl hs
  rw [hs'.accesses_eq hframes, hrecord]
  exact ⟨AccessTracker.find?_reads_recordAll, AccessTracker.find?_writes_recordAll⟩

/-- A script that loads a static field, calls a routine, which stores to a local variable and to the
static field, loads an argument, stores it to the static field and reads storage. -/
def trackedScript : Script :=
  ⟨[0x56, 0x01, 0x58, 0x34, 0x10, 0x78, 0x60, 0x11, 0x41, 0x9B, 0xF6, 0x67, 0xCE, 0x41, 0x92, 0x5D,
    0xE8, 0x31, 0x40, 0x57, 0x01, 0x00, 0x70, 0x60, 0x40]⟩

/-- The machine that executes the script, in front of the return of the entry frame. -/
def trackedMachine : Machine :=
  (loaded trackedScript {} .lazy 0 0).after 12

/-- The static field is read before it is written, and written twice.  The key of storage, which is
the integer one, counts by its bytes, and the local variable of the routine does not count. -/
theorem accesses_iff_trace_trackedScript :
    (create {} .lazy 0).loadScript trackedScript 0 = (.ok (), loaded trackedScript {} .lazy 0 0) ∧
      trackedMachine.state.frames ≠ [] ∧
      trackedMachine.state.accesses.reads.find? (.slot .static 0) = some 2 ∧
      trackedMachine.state.accesses.writes.find? (.slot .static 0) = some 6 ∧
      trackedMachine.state.accesses.reads.find? (.storage (.constant (.byteString [1]))) =
        some 13 ∧
      ∀ offset, trackedMachine.state.accesses.writes.find? (.slot .local 0) ≠ some offset := by
  have hload : (create {} .lazy 0).loadScript trackedScript 0 =
      (.ok (), loaded trackedScript {} .lazy 0 0) := rfl
  have hframes : trackedMachine.state.frames ≠ [] := by decide +kernel
  have htrace : (loaded trackedScript {} .lazy 0 0).trace 12 =
      [⟨.read, .slot .static 0, 2⟩, ⟨.write, .slot .static 0, 23⟩, ⟨.read, .slot .argument 0, 5⟩,
        ⟨.write, .slot .static 0, 6⟩, ⟨.read, .storage (.constant (.byteString [1])), 13⟩] := by
    decide +kernel
  have haccesses := accesses_iff_trace hload hframes
  rw [htrace] at haccesses
  refine ⟨hload, hframes, ?_, ?_, ?_, fun offset hfind => ?_⟩
  · exact (haccesses _ 2).1.2 ⟨[], _, rfl, nofun⟩
  · exact (haccesses _ 6).2.2 ⟨[_, _, _], [_], rfl, by decide⟩
  · exact (haccesses _ 13).1.2 ⟨[_, _, _, _], [], rfl, by decide⟩
  · obtain ⟨before, later, hcut, -⟩ := (haccesses _ offset).2.1 hfind
    have hmem : (⟨.write, .slot .local 0, offset⟩ : AccessEvent) ∈
        before ++ ⟨.write, .slot .local 0, offset⟩ :: later := by simp
    rw [← hcut] at hmem
    simp at hmem

end Machine

end SymbolicScript
