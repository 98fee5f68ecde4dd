import SymbolicScript.Proofs.Encoding
import SymbolicScript.Proofs.InstructionSteps

/-!
# Loading and looking at the next instruction

A machine that has just loaded a script stands at its entry with nothing on the stack, nothing
stored and an empty heap.  This file says so in one equation (`Machine.loadScript_ok`), and says
what the next instruction of a machine is: the one decoded at the position of the current frame, or
a return where the script ends (`Machine.next_cases`).
-/

namespace SymbolicScript

/-! ## Decoding -/

/-- An instruction that is decoded at an offset carries that offset, which lies inside the
script. -/
lemma Script.instructionAt_some {script : Script} {offset : Nat} {i : Instruction}
    (h : script.instructionAt offset = .ok (some i)) :
    i.offset = offset ∧ offset < script.length := by
  obtain ⟨hoffset, hsize, -⟩ := instructionAt_size h
  unfold Instruction.size at hsize
  exact ⟨hoffset, by omega⟩

/-! ## The next instruction -/

namespace Machine

/-- A machine that has a next instruction has a current frame. -/
lemma exists_frame_of_next {m : Machine} {i : Instruction} (h : m.next = .ok (some i)) :
    ∃ f rest, m.state.frames = f :: rest := by
  cases hframes : m.state.frames with
  | nil =>
    unfold next State.current? at h
    rw [hframes] at h
    cases h
  | cons f rest => exact ⟨f, rest, rfl⟩

/-- The next instruction is the one at the position of the current frame, or a return where the
script ends. -/
lemma next_cases {m : Machine} {i : Instruction} {f : Frame} {rest : List Frame}
    (hs : m.state.frames = f :: rest) (h : m.next = .ok (some i)) :
    (m.state.worldAt f.world).script.instructionAt f.position = .ok (some i) ∨
      i = ⟨f.position, .ret, []⟩ := by
  unfold next State.current? Frame.current at h
  rw [hs] at h
  simp only [List.head?_cons, Option.map_some] at h
  cases hdecode : (m.state.worldAt f.world).script.instructionAt f.position with
  | error e =>
    simp only [hdecode] at h
    cases h
  | ok decoded =>
    cases decoded with
    | none =>
      simp only [hdecode] at h
      cases h
      exact .inr rfl
    | some j =>
      simp only [hdecode] at h
      cases h
      exact .inl rfl

/-- The next instruction has an operand that its layout admits. -/
lemma next_admits {m : Machine} {i : Instruction} (h : m.next = .ok (some i)) :
    i.opcode.layout.Admits i.operand.length := by
  obtain ⟨f, rest, hframes⟩ := exists_frame_of_next h
  rcases next_cases hframes h with hdecoded | rfl
  · exact (Instruction.encode_of_decodeFront hdecoded).1
  · exact rfl

/-- The next instruction ends inside the script, unless it is a return. -/
lemma nextOffset_le_of_next {m : Machine} {i : Instruction} {f : Frame} {rest : List Frame}
    (h : m.next = .ok (some i)) (hs : m.state.frames = f :: rest) (hop : i.opcode ≠ .ret) :
    i.nextOffset ≤ (m.state.worldAt f.world).script.length := by
  rcases next_cases hs h with hdecoded | rfl
  · exact Script.nextOffset_le_length hdecoded
  · exact absurd rfl hop

/-- Where an instruction is decoded at the position of the current frame, it is the next one. -/
lemma next_of_decoded {m : Machine} {i : Instruction} {f : Frame} {rest : List Frame}
    (hs : m.state.frames = f :: rest)
    (h : (m.state.worldAt f.world).script.instructionAt f.position = .ok (some i)) :
    m.next = .ok (some i) := by
  unfold next State.current? Frame.current
  rw [hs]
  simp only [List.head?_cons, Option.map_some, h]
  rfl

/-- Where the script ends, the next instruction is a return. -/
lemma next_of_end {m : Machine} {f : Frame} {rest : List Frame} (hs : m.state.frames = f :: rest)
    (h : (m.state.worldAt f.world).script.instructionAt f.position = .ok none) :
    m.next = .ok (some ⟨f.position, .ret, []⟩) := by
  unfold next State.current? Frame.current
  rw [hs]
  simp only [List.head?_cons, Option.map_some, h]
  rfl

/-- Where there is an instruction, a step executes it. -/
lemma step_of_next {m : Machine} {i : Instruction} (hnext : m.next = .ok (some i)) :
    m.step = m.execute i := by
  unfold step
  rw [hnext]

/-- The machine that has just loaded a script. -/
def loaded (script : Script) (config : Config) (watchdog : Watchdog) (supply offset : Nat) :
    Machine :=
  { config, table := .standard, watchdog, executed := 0,
    state :=
      { worlds := #[.ofScript script]
        frames := [{ world := 0, position := offset, returnCount := -1, locals := .untouched .local,
                     arguments := .untouched .argument, tries := [] }]
        result := .empty, status := .running, exception := none, jumping := false, supply } }

/-- A load that succeeds gives the machine that stands at the offset, which lies inside the script
or at its end, and there was room for its frame. -/
theorem loadScript_ok {script : Script} {config : Config} {watchdog : Watchdog}
    {supply offset : Nat} {m : Machine}
    (h : (create config watchdog supply).loadScript script offset = (.ok (), m)) :
    m = loaded script config watchdog supply offset ∧ offset ≤ script.length ∧
      offset ≤ maxOffset ∧ 0 < config.maxInvocationDepth := by
  have hload : (State.initial supply).loadScript config script offset = (.ok (), m.state) ∧
      m = { create config watchdog supply with state := m.state } := by
    unfold loadScript create at h
    cases hresult : (State.initial supply).loadScript config script offset with
    | mk result state =>
      simp only [hresult] at h
      cases h
      exact ⟨rfl, rfl⟩
  obtain ⟨hload, hm⟩ := hload
  unfold State.loadScript at hload
  cases henter : Frame.enter script (State.initial supply).worlds.size (-1) offset with
  | error e =>
    simp only [henter] at hload
    cases hload
  | ok f =>
    simp only [henter] at hload
    split at hload
    · next s' hframe =>
      have hstate : m.state = s' := (Prod.mk.inj hload).2.symm
      obtain ⟨rfl, hlength, hmax⟩ := Frame.enter_ok henter
      obtain ⟨_, s₁, hworld, hrest⟩ := bind_eq_ok.1 hframe
      cases hworld
      obtain ⟨s₂, s₃, hget, hcheck⟩ := bind_eq_ok.1 hrest
      cases hget
      obtain ⟨hroom, hmodify⟩ := Exec.check_eq_ok.1 hcheck
      cases hmodify
      rw [hm, hstate]
      exact ⟨rfl, hlength, hmax, Nat.lt_of_not_le hroom⟩
    · cases hload

end Machine

end SymbolicScript
