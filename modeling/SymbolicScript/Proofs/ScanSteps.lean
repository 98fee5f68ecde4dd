import SymbolicScript.Proofs.Loading
import SymbolicScript.Proofs.RunTurns

/-!
# The turns of a scan

A scan lets three kinds of instructions pass: those that are no terminators, direct calls where
calls are followed, and the returns of the routines called.  While it goes on, the machine therefore
stays in a simple shape (`Machine.Scanning`): there is one world, no frame is inside a try block,
and neither a jump nor an exception is pending.  `Machine.Scanning.execute` says what an instruction
of the three kinds does to such a machine, and every invariant of the scan is derived from it.
-/

namespace SymbolicScript

/-! ## What the scan lets pass -/

/-- Whether the entry of a method may be moved over an instruction.  Terminators may not be skipped,
except for direct calls where calls are followed. -/
structure Instruction.Skippable (followCalls : Bool) (i : Instruction) : Prop where
  /-- The instruction does not initialize variables of a frame. -/
  not_initSlot : i.opcode ≠ .initSlot
  /-- The instruction does not initialize static fields. -/
  not_initSSlot : i.opcode ≠ .initSSlot
  /-- The instruction does not call the host. -/
  not_syscall : i.opcode ≠ .syscall
  /-- The instruction does not load a static field. -/
  not_staticLoad : i.opcode.isStaticLoad = false
  /-- The instruction does not store to a static field. -/
  not_staticStore : i.opcode.isStaticStore = false
  /-- If the instruction is a terminator, it is a direct call, and calls are followed. -/
  terminator : i.opcode.isTerminator = true →
    (i.opcode = .call ∨ i.opcode = .callL) ∧ followCalls = true

/-- A return may not be skipped. -/
lemma Instruction.Skippable.ne_ret {followCalls : Bool} {i : Instruction}
    (h : i.Skippable followCalls) : i.opcode ≠ .ret := by
  intro hret
  have hop := (h.terminator (by rw [hret]; rfl)).1
  rw [hret] at hop
  rcases hop with hop | hop <;> cases hop

/-- What a scan lets pass at an invocation depth, whether in the entry frame or in a followed
routine. -/
structure Instruction.Passable (depth : Nat) (i : Instruction) : Prop where
  /-- In the entry frame the instruction does not initialize the variables of the frame. -/
  not_initSlot : depth ≤ 1 → i.opcode ≠ .initSlot
  /-- The instruction does not initialize static fields. -/
  not_initSSlot : i.opcode ≠ .initSSlot
  /-- The instruction does not call the host. -/
  not_syscall : i.opcode ≠ .syscall
  /-- The instruction does not store to a static field. -/
  not_staticStore : i.opcode.isStaticStore = false
  /-- If the instruction is a terminator, it is a direct call or the return of a routine. -/
  terminator : i.opcode.isTerminator = true →
    Scan.isDirectCall i.opcode = true ∨ (i.opcode = .ret ∧ 1 < depth)

namespace Scan

/-- Direct calls are `CALL` and `CALL_L`. -/
lemma isDirectCall_iff {op : Opcode} : isDirectCall op = true ↔ op = .call ∨ op = .callL := by
  unfold isDirectCall
  split <;> simp_all

/-- What the scan lets pass in the entry frame may be skipped. -/
lemma skippable_of_stopInMethod {entry : Nat} {followCalls : Bool} {i : Instruction}
    (h : stopInMethod entry followCalls i = none) : i.Skippable followCalls := by
  unfold stopInMethod at h
  split at h
  · cases h
  · next heffectful =>
    simp only [isEffectful, Bool.or_eq_true, decide_eq_true_eq, not_or,
      Bool.not_eq_true] at heffectful
    obtain ⟨⟨⟨⟨hslot, hsslot⟩, hsyscall⟩, hload⟩, hstore⟩ := heffectful
    refine ⟨hslot, hsslot, hsyscall, hload, hstore, fun hterminator => ?_⟩
    rw [hterminator] at h
    split at h
    · next hfalse => simp at hfalse
    · split at h
      · cases h
      · cases h
      · cases h
      · cases h
      · split at h
        · next hcall =>
          rw [Bool.and_eq_true] at hcall
          exact ⟨isDirectCall_iff.1 hcall.1, hcall.2⟩
        · cases h

/-- What may be skipped is let pass in the entry frame. -/
lemma passable_of_skippable {followCalls : Bool} {depth : Nat} {i : Instruction}
    (h : i.Skippable followCalls) : i.Passable depth where
  not_initSlot _ := h.not_initSlot
  not_initSSlot := h.not_initSSlot
  not_syscall := h.not_syscall
  not_staticStore := h.not_staticStore
  terminator hop := .inl (isDirectCall_iff.2 (h.terminator hop).1)

/-- What the scan lets pass in a followed routine. -/
lemma passable_of_stopInCallee {site depth : Nat} {followCalls : Bool} {i : Instruction}
    (hdepth : 1 < depth) (h : stopInCallee site followCalls i = none) : i.Passable depth := by
  unfold stopInCallee at h
  split at h
  · cases h
  · next heffectful =>
    simp only [isEffectfulInCallee, Bool.or_eq_true, decide_eq_true_eq, not_or,
      Bool.not_eq_true] at heffectful
    refine ⟨fun hle => absurd hdepth (Nat.not_lt.2 hle), heffectful.1.1, heffectful.1.2,
      heffectful.2, fun hop => ?_⟩
    rw [hop] at h
    split at h
    · next hpass =>
      rw [Bool.or_eq_true, Bool.and_eq_true, decide_eq_true_eq] at hpass
      exact hpass.symm.imp (·.1) fun hret => ⟨hret, hdepth⟩
    · cases h

variable {entry : Nat} {config : Config} {scan scan' : Scan} {m : Machine} {i : Instruction}

/-- In the entry frame the scan goes on in front of an instruction that may be skipped, and
remembers a direct call. -/
lemma passes_atEntry (hdepth : m.state.depth ≤ 1)
    (h : predicate entry config.followCalls scan m i = (false, scan')) :
    i.Skippable config.followCalls ∧
      scan' = if isDirectCall i.opcode then { scan with callSite := some i.offset } else scan := by
  unfold predicate consider at h
  rw [if_pos hdepth] at h
  cases hconsider : stopInMethod entry config.followCalls i with
  | some stop => simp [hconsider] at h
  | none =>
    simp only [hconsider] at h
    exact ⟨skippable_of_stopInMethod hconsider, (Prod.mk.inj h).2.symm⟩

/-- In a followed routine the scan goes on without a change. -/
lemma passes_inCallee (hdepth : 1 < m.state.depth)
    (h : predicate entry config.followCalls scan m i = (false, scan')) :
    stopInCallee (scan.callSite.getD entry) config.followCalls i = none ∧ scan' = scan := by
  unfold predicate consider at h
  rw [if_neg (Nat.not_le.2 hdepth)] at h
  cases hconsider : stopInCallee (scan.callSite.getD entry) config.followCalls i with
  | some stop => simp [hconsider] at h
  | none =>
    simp only [hconsider] at h
    exact ⟨rfl, (Prod.mk.inj h).2.symm⟩

/-- What the scan lets pass. -/
lemma passable_of_passes (h : predicate entry config.followCalls scan m i = (false, scan')) :
    i.Passable m.state.depth := by
  by_cases hdepth : m.state.depth ≤ 1
  · exact passable_of_skippable (passes_atEntry hdepth h).1
  · exact passable_of_stopInCallee (Nat.not_le.1 hdepth)
      (passes_inCallee (Nat.not_le.1 hdepth) h).1

/-- An unresolved instruction that the scan has let pass preserves the skeleton but for the mark of
a jump. -/
lemma passes_unresolved {m' : Machine} {e : LocatedError} (htable : m.table = .standard)
    (h : predicate entry config.followCalls scan m i = (false, scan'))
    (hfails : m.execute i = (.error e, m')) (he : e.payload.isUnresolved = true) :
    e.offset = i.offset ∧ m'.state.depth = m.state.depth ∧
      ∃ s, m.state.SameSkeleton s ∧ m'.state = { s with jumping := false } := by
  obtain ⟨hoffset, hresolved | hperform⟩ := Machine.execute_error hfails
  · rw [he] at hresolved
    cases hresolved
  rw [htable] at hperform
  have hop := (passable_of_passes h).terminator
  obtain ⟨s, hsame, hstate⟩ := Machine.performInstruction_unresolved he
    (fun hterminator => (hop hterminator).imp id (·.1)) hperform
  refine ⟨hoffset, ?_, s, hsame, hstate⟩
  rw [hstate]
  exact hsame.depth

/-- In the entry frame the scan stops in front of the instruction, unless the method ends with it.
-/
lemma stopInMethod_eq_some {followCalls : Bool} {offset : Nat} {reason : StopReason}
    (h : stopInMethod entry followCalls i = some (offset, reason)) :
    ((reason = .halted ∨ reason = .aborted) ∧ offset = entry) ∨
      ((reason = .effectful ∨ reason = .blockBoundary) ∧ offset = i.offset ∧ i.opcode ≠ .ret) := by
  unfold stopInMethod at h
  split at h
  · next heffectful =>
    cases h
    refine .inr ⟨.inl rfl, rfl, fun hret => ?_⟩
    rw [hret] at heffectful
    cases heffectful
  · split at h
    · cases h
    · split at h
      · cases h
        exact .inl ⟨.inl rfl, rfl⟩
      · cases h
        exact .inl ⟨.inr rfl, rfl⟩
      · cases h
        exact .inl ⟨.inr rfl, rfl⟩
      · cases h
        exact .inl ⟨.inr rfl, rfl⟩
      · next hret _ _ _ =>
        split at h
        · cases h
        · cases h
          exact .inr ⟨.inr rfl, rfl, hret⟩

/-- In a followed routine the scan stops at the call. -/
lemma stopInCallee_eq_some {site offset : Nat} {followCalls : Bool} {reason : StopReason}
    (h : stopInCallee site followCalls i = some (offset, reason)) :
    (reason = .effectful ∨ reason = .blockBoundary) ∧ offset = site := by
  unfold stopInCallee at h
  split at h
  · cases h
    exact ⟨.inl rfl, rfl⟩
  · split at h
    · cases h
    · split at h
      · cases h
        exact ⟨.inr rfl, rfl⟩
      · cases h

/-- Where the scan stops in the entry frame, it has found a reason there. -/
lemma stops_atEntry (hdepth : m.state.depth ≤ 1) (hstop : scan.stop = none)
    (h : predicate entry config.followCalls scan m i = (true, scan')) :
    ∃ stop, stopInMethod entry config.followCalls i = some stop ∧ scan'.stop = some stop := by
  unfold predicate consider at h
  rw [if_pos hdepth] at h
  cases hconsider : stopInMethod entry config.followCalls i with
  | some stop =>
    simp only [hconsider] at h
    exact ⟨stop, rfl, by rw [← (Prod.mk.inj h).2]⟩
  | none =>
    simp only [hconsider] at h
    split at h <;> simp [hstop] at h

/-- Where the scan stops in a followed routine, it has found a reason for the call. -/
lemma stops_inCallee (hdepth : 1 < m.state.depth) (hstop : scan.stop = none)
    (h : predicate entry config.followCalls scan m i = (true, scan')) :
    ∃ stop, stopInCallee (scan.callSite.getD entry) config.followCalls i = some stop ∧
      scan'.stop = some stop := by
  unfold predicate consider at h
  rw [if_neg (Nat.not_le.2 hdepth)] at h
  cases hconsider : stopInCallee (scan.callSite.getD entry) config.followCalls i with
  | some stop =>
    simp only [hconsider] at h
    exact ⟨stop, rfl, by rw [← (Prod.mk.inj h).2]⟩
  | none => simp [hconsider, hstop] at h

end Scan

/-! ## The machine of a scan -/

/-- The shape of a frame of a scan: it belongs to the only world, is not to return a fixed number of
values, and has not entered a try block. -/
structure Frame.Simple (f : Frame) : Prop where
  /-- The frame belongs to the first world. -/
  world : f.world = 0
  /-- The frame returns any number of values. -/
  returnCount : f.returnCount = -1
  /-- The frame is in no try block. -/
  tries : f.tries = []

/-- The shape of a frame does not depend on its position and its variables. -/
lemma Frame.Simple.congr {f g : Frame} (hf : f.Simple) (h : g.skeleton = f.skeleton) :
    g.Simple := by
  have hworld : g.skeleton.world = f.skeleton.world := by rw [h]
  have hreturn : g.skeleton.returnCount = f.skeleton.returnCount := by rw [h]
  have htries : g.skeleton.tries = f.skeleton.tries := by rw [h]
  exact ⟨hworld.trans hf.world, hreturn.trans hf.returnCount, htries.trans hf.tries⟩

namespace Machine

/-- The shape of the machine while a scan of a script goes on. -/
structure Scanning (script : Script) (config : Config) (m : Machine) : Prop where
  /-- The machine uses the standard bindings. -/
  table : m.table = .standard
  /-- The machine has its configuration. -/
  configured : m.config = config
  /-- The machine has not halted. -/
  running : m.state.status = .running
  /-- No jump is marked. -/
  jumping : m.state.jumping = false
  /-- No exception is pending. -/
  exception : m.state.exception = none
  /-- Nothing has been returned. -/
  result : m.state.result = .empty
  /-- There is one world. -/
  size : m.state.worlds.size = 1
  /-- The world is that of the script. -/
  world : (m.state.worldAt 0).script = script
  /-- There is a frame. -/
  nonempty : m.state.frames ≠ []
  /-- All frames are simple. -/
  simple : ∀ f ∈ m.state.frames, f.Simple

/-- A machine that has just loaded a script is ready for a scan. -/
lemma loaded_scanning (script : Script) (config : Config) (watchdog : Watchdog)
    (supply offset : Nat) :
    Scanning script config (loaded script config watchdog supply offset) where
  table := rfl
  configured := rfl
  running := rfl
  jumping := rfl
  exception := rfl
  result := rfl
  size := rfl
  world := rfl
  nonempty := List.cons_ne_nil _ _
  simple f hf := by
    rw [List.mem_singleton.1 hf]
    exact ⟨rfl, rfl, rfl⟩

/-- What becomes of the frames when an instruction of a scan is executed. -/
inductive FrameStep (i : Instruction) (f : Frame) (rest : List Frame) : List Frame → Prop
  /-- An instruction that is no terminator moves the current frame behind itself. -/
  | plain {f' : Frame} (hop : i.opcode.isTerminator = false)
    (hskeleton : f'.skeleton = { f with position := i.nextOffset }.skeleton) :
    FrameStep i f rest (f' :: rest)
  /-- A direct call moves the current frame behind itself and puts the frame of a routine on top. -/
  | call (hop : Scan.isDirectCall i.opcode = true) (offset : Nat) :
    FrameStep i f rest (f.callee offset :: { f with position := i.nextOffset } :: rest)
  /-- A return takes the current frame away. -/
  | ret (hop : i.opcode = .ret) : FrameStep i f rest rest

variable {script : Script} {config : Config} {m m' : Machine} {i : Instruction} {f : Frame}
  {rest : List Frame}

/-- A machine keeps the shape if the skeleton of its state is kept but for the frames, which are
simple. -/
lemma Scanning.of_sameSkeleton {s : State} {frames : List Frame} (h : Scanning script config m)
    (hconfig : m'.config = m.config) (htable : m'.table = m.table)
    (hsame : m.state.SameSkeleton s) (hstate : m'.state = { s with frames })
    (hnonempty : frames ≠ []) (hsimple : ∀ f ∈ frames, f.Simple) :
    Scanning script config m' := by
  refine ⟨htable.trans h.table, hconfig.trans h.configured, ?_, ?_, ?_, ?_, ?_, ?_, ?_, ?_⟩ <;>
    rw [hstate]
  · exact hsame.status.trans h.running
  · exact hsame.jumping.trans h.jumping
  · exact hsame.exception.trans h.exception
  · exact hsame.result.trans h.result
  · exact hsame.size.trans h.size
  · exact (hsame.script 0).trans h.world
  · exact hnonempty
  · exact hsimple

/-- An instruction that a scan lets pass keeps the shape of the machine. -/
theorem Scanning.execute (h : Scanning script config m) (hframes : m.state.frames = f :: rest)
    (hpass : i.Passable m.state.depth) (hexecute : m.execute i = (.ok (), m')) :
    Scanning script config m' ∧ FrameStep i f rest m'.state.frames := by
  obtain ⟨hperform, hconfig, htable, -, -⟩ := execute_ok_state hexecute
  rw [h.table, h.configured] at hperform
  have hf : f.Simple := h.simple f (by simp [hframes])
  have hrest : ∀ g ∈ rest, g.Simple := fun g hg => h.simple g (by simp [hframes, hg])
  have hmoved : Frame.Simple { f with position := i.nextOffset } :=
    ⟨hf.world, hf.returnCount, hf.tries⟩
  cases hterminator : i.opcode.isTerminator with
  | false =>
    obtain ⟨s₁, f₁, -, hsame, -, hf₁, hstate⟩ :=
      performInstruction_plain hterminator hframes h.jumping hperform
    have hskeleton := Frame.skeleton_move hf₁ i.nextOffset
    refine ⟨h.of_sameSkeleton hconfig htable hsame hstate (List.cons_ne_nil _ _) ?_, ?_⟩
    · exact List.forall_mem_cons.2 ⟨hmoved.congr hskeleton, hrest⟩
    · rw [hstate]
      exact .plain hterminator hskeleton
  | true =>
    -- Of the terminators a scan lets pass direct calls, and returns to a caller.
    rcases hpass.terminator hterminator with hcall | ⟨hreturn, hdepth⟩
    · obtain ⟨offset, hstate⟩ := performInstruction_call hcall hframes h.jumping hperform
      have hcallee : (f.callee offset).Simple := ⟨hf.world, rfl, rfl⟩
      refine ⟨h.of_sameSkeleton hconfig htable (Std.Refl.refl _) hstate (List.cons_ne_nil _ _) ?_,
        ?_⟩
      · exact List.forall_mem_cons.2 ⟨hcallee, List.forall_mem_cons.2 ⟨hmoved, hrest⟩⟩
      · rw [hstate]
        exact .call hcall offset
    · cases rest with
      | nil => simp [State.depth, hframes] at hdepth
      | cons g rest =>
        have hg : g.Simple := hrest g (by simp)
        have hstate := performInstruction_ret hreturn hframes (hf.world.trans hg.world.symm)
          h.jumping hperform
        refine ⟨h.of_sameSkeleton hconfig htable (Std.Refl.refl _) hstate (List.cons_ne_nil _ _)
          hrest, ?_⟩
        rw [hstate]
        exact .ret hreturn

/-- A turn of a scan lets an instruction pass, either in the entry frame or in a followed routine,
and keeps the shape of the machine. -/
theorem Scanning.turn {entry : Nat} {scan scan' : Scan} (h : Scanning script config m)
    (hframes : m.state.frames = f :: rest)
    (hturn : m.Turn (Scan.predicate entry config.followCalls) scan scan' m' i) :
    Scanning script config m' ∧ FrameStep i f rest m'.state.frames ∧
      (rest = [] → i.Skippable config.followCalls ∧
        scan' = if Scan.isDirectCall i.opcode then { scan with callSite := some i.offset }
          else scan) ∧
      (rest ≠ [] → scan' = scan) := by
  have hdepth : m.state.depth = rest.length + 1 := by simp [State.depth, hframes]
  obtain ⟨hscanning, hstep⟩ :=
    h.execute hframes (Scan.passable_of_passes hturn.passes) hturn.executes
  refine ⟨hscanning, hstep, fun hnil => ?_, fun hne => ?_⟩
  · exact Scan.passes_atEntry (by simp [hdepth, hnil]) hturn.passes
  · have hpos := List.length_pos_iff.2 hne
    exact (Scan.passes_inCallee (by omega) hturn.passes).2

end Machine

end SymbolicScript
