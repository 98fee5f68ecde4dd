import SymbolicScript.Proofs.ScanSteps

/-!
# Where an entry may move

The scan of a method chooses an offset for its entry, and takes it from one of three places: the
instruction that it stops in front of, the instruction that cannot be resolved, or the call in the
entry frame that it has followed last.  This file proves that in all three cases the offset lies on
the linear decode from the declared entry, and that every instruction in between may be skipped.

A linear decode is a `LinearPath`: a chain of offsets, each of which is the next offset of the
instruction decoded at the one before.  The invariant of the scan (`Scan.OnPath`) says that the
entry frame stands on such a path whenever it is the current frame, and that while a routine is
followed the path leads to the call and the entry frame waits behind it.  `Scan.Concludes` lists the
ways in which such a scan ends.
-/

namespace SymbolicScript

/-! ## Linear paths -/

/-- The linear decode of a script leads from one offset to another through instructions that may be
skipped. -/
inductive LinearPath (script : Script) (followCalls : Bool) (start : Nat) : Nat → Prop
  /-- Every offset leads to itself. -/
  | here : LinearPath script followCalls start start
  /-- A path goes on at the next offset of the instruction decoded where it ends. -/
  | next {offset : Nat} {i : Instruction} (path : LinearPath script followCalls start offset)
    (decoded : script.instructionAt offset = .ok (some i)) (skippable : i.Skippable followCalls) :
    LinearPath script followCalls start i.nextOffset

namespace LinearPath

variable {script : Script} {followCalls : Bool} {start finish : Nat}

/-- Paths do not lead beyond the greatest offset. -/
lemma le_maxOffset (h : LinearPath script followCalls start finish) (hstart : start ≤ maxOffset) :
    finish ≤ maxOffset := by
  cases h with
  | here => exact hstart
  | next => exact Nat.min_le_right _ _

/-- Paths do not lead back. -/
lemma le (h : LinearPath script followCalls start finish) (hstart : start ≤ maxOffset) :
    start ≤ finish := by
  induction h with
  | here => exact Nat.le_refl _
  | next path decoded _ ih =>
    have hoffset := (Script.instructionAt_some decoded).1
    have hmax := path.le_maxOffset hstart
    unfold Instruction.nextOffset
    omega

end LinearPath

/-! ## The invariant of the scan -/

namespace Scan

/-- Where the entry frame is while a scan goes on. -/
inductive Position (script : Script) (followCalls : Bool) (entry : Nat) :
    Option Nat → List Frame → Prop
  /-- The entry frame is the current one, and stands on the path. -/
  | atEntry {callSite : Option Nat} {f : Frame}
    (path : LinearPath script followCalls entry f.position) :
    Position script followCalls entry callSite [f]
  /-- Followed routines lie above the entry frame.  The path leads to the call, and the entry frame
  stands behind it. -/
  | inCallee {i : Instruction} {f g : Frame} {between : List Frame}
    (path : LinearPath script followCalls entry i.offset)
    (decoded : script.instructionAt i.offset = .ok (some i))
    (skippable : i.Skippable followCalls) (position : g.position = i.nextOffset) :
    Position script followCalls entry (some i.offset) (f :: (between ++ [g]))

/-- The invariant of a scan that has not stopped. -/
structure OnPath (script : Script) (config : Config) (entry : Nat) (scan : Scan) (m : Machine) :
    Prop where
  /-- The machine has the shape of a scan. -/
  scanning : Machine.Scanning script config m
  /-- The scan has not stopped. -/
  stop : scan.stop = none
  /-- The entry frame is on the path. -/
  position : Position script config.followCalls entry scan.callSite m.state.frames

variable {script : Script} {config : Config} {entry : Nat} {scan scan' : Scan} {m m' : Machine}
  {i : Instruction}

/-- The next instruction is decoded at the position of the current frame unless it is a return. -/
lemma decoded_of_ne_ret {f : Frame} {rest : List Frame}
    (h : Machine.Scanning script config m) (hframes : m.state.frames = f :: rest)
    (hnext : m.next = .ok (some i)) (hop : i.opcode ≠ .ret) :
    script.instructionAt f.position = .ok (some i) ∧ i.offset = f.position := by
  have hworld : (m.state.worldAt f.world).script = script := by
    rw [(h.simple f (by simp [hframes])).world, h.world]
  rcases Machine.next_cases hframes hnext with hdecoded | rfl
  · rw [hworld] at hdecoded
    exact ⟨hdecoded, (Script.instructionAt_some hdecoded).1⟩
  · exact absurd rfl hop

/-- A turn of the scan preserves the invariant. -/
lemma OnPath.turn (h : OnPath script config entry scan m)
    (hturn : m.Turn (predicate entry config.followCalls) scan scan' m' i) :
    OnPath script config entry scan' m' := by
  obtain ⟨hscanning, hstop, hposition⟩ := h
  generalize hframes : m.state.frames = frames at hposition
  generalize hsite : scan.callSite = site at hposition
  -- In the entry frame the path grows by the instruction, or the scan follows a call.  In a
  -- followed routine it waits, until the last return takes it behind the call.
  cases hposition with
  | @atEntry _ f path =>
    obtain ⟨hscanning', hstep, hentry, -⟩ := hscanning.turn hframes hturn
    obtain ⟨hskippable, hscan⟩ := hentry rfl
    obtain ⟨hdecoded, hoffset⟩ :=
      decoded_of_ne_ret hscanning hframes hturn.next hskippable.ne_ret
    have hstop' : scan'.stop = none := by
      rw [hscan]
      split <;> exact hstop
    refine ⟨hscanning', hstop', ?_⟩
    generalize m'.state.frames = frames' at hstep
    cases hstep with
    | @plain f' hop hskeleton =>
      have hposition : f'.skeleton.position = i.nextOffset := by rw [hskeleton]; rfl
      have hpath := path.next hdecoded hskippable
      rw [← hposition] at hpath
      exact .atEntry hpath
    | call hop offset =>
      rw [hscan, if_pos hop]
      rw [← hoffset] at hdecoded path
      exact @Position.inCallee _ _ _ i _ _ [] path hdecoded hskippable rfl
    | ret hop => exact absurd hop hskippable.ne_ret
  | @inCallee c f g between path decoded skippable position =>
    obtain ⟨hscanning', hstep, -, hcallee⟩ := hscanning.turn hframes hturn
    have hscan : scan' = scan :=
      hcallee (List.append_ne_nil_of_right_ne_nil _ (List.cons_ne_nil _ _))
    refine ⟨hscanning', by rw [hscan, hstop], ?_⟩
    rw [hscan, hsite]
    generalize m'.state.frames = frames' at hstep
    cases hstep with
    | plain hop hskeleton => exact .inCallee path decoded skippable position
    | call hop offset =>
      exact @Position.inCallee _ _ _ c _ _ (_ :: between) path decoded skippable position
    | ret hop =>
      cases between with
      | nil =>
        have hpath := path.next decoded skippable
        rw [← position] at hpath
        exact .atEntry hpath
      | cons f' between => exact .inCallee path decoded skippable position

/-- In the entry frame the machine has one frame. -/
lemma OnPath.exists_frame (h : OnPath script config entry scan m)
    (hdepth : m.state.depth ≤ 1) : ∃ f, m.state.frames = [f] := by
  have hnonempty := h.scanning.nonempty
  unfold State.depth at hdepth
  generalize m.state.frames = frames at hnonempty hdepth
  cases frames with
  | nil => exact absurd rfl hnonempty
  | cons f rest =>
    rw [List.length_cons] at hdepth
    rw [List.length_eq_zero_iff.1 (by omega : rest.length = 0)]
    exact ⟨f, rfl⟩

/-- In a followed routine the scan remembers a call. -/
lemma OnPath.exists_callSite (h : OnPath script config entry scan m)
    (hdepth : 1 < m.state.depth) : ∃ site, scan.callSite = some site := by
  have hposition := h.position
  unfold State.depth at hdepth
  generalize m.state.frames = frames at hposition hdepth
  generalize scan.callSite = callSite at hposition
  cases hposition with
  | atEntry path => simp at hdepth
  | inCallee path => exact ⟨_, rfl⟩

/-- A turn that goes from the entry frame to a routine is a call, and is remembered. -/
lemma OnPath.call_of_depth (h : OnPath script config entry scan m)
    (hturn : m.Turn (predicate entry config.followCalls) scan scan' m' i)
    (hdepth : m.state.depth ≤ 1) (hdepth' : 1 < m'.state.depth) :
    i.Skippable config.followCalls ∧ isDirectCall i.opcode = true ∧
      scan'.callSite = some i.offset := by
  obtain ⟨f, hframes⟩ := h.exists_frame hdepth
  obtain ⟨-, hstep, hentry, -⟩ := h.scanning.turn hframes hturn
  obtain ⟨hskippable, hscan⟩ := hentry rfl
  have hcall : isDirectCall i.opcode = true := by
    unfold State.depth at hdepth'
    generalize m'.state.frames = frames' at hstep hdepth'
    cases hstep with
    | plain => simp at hdepth'
    | call hop => exact hop
    | ret => simp at hdepth'
  exact ⟨hskippable, hcall, by rw [hscan, if_pos hcall]⟩

/-- In the entry frame the path leads to the next instruction unless it is a return. -/
lemma OnPath.path_atEntry (h : OnPath script config entry scan m) (hdepth : m.state.depth ≤ 1)
    (hnext : m.next = .ok (some i)) (hret : i.opcode ≠ .ret) :
    LinearPath script config.followCalls entry i.offset ∧
      script.instructionAt i.offset = .ok (some i) := by
  obtain ⟨f, hframes⟩ := h.exists_frame hdepth
  obtain ⟨hdecoded, hoffset⟩ := decoded_of_ne_ret h.scanning hframes hnext hret
  have hposition := h.position
  rw [hframes] at hposition
  generalize scan.callSite = callSite at hposition
  rw [hoffset]
  generalize hone : [f] = frames at hposition
  cases hposition with
  | atEntry path =>
    cases hone
    exact ⟨path, hdecoded⟩
  | inCallee => simp at hone

/-- In a followed routine the path leads to the call that the scan remembers. -/
lemma OnPath.path_inCallee (h : OnPath script config entry scan m) (hdepth : 1 < m.state.depth)
    {site : Nat} (hsite : scan.callSite = some site) :
    LinearPath script config.followCalls entry site ∧
      ∃ c, script.instructionAt site = .ok (some c) := by
  have hposition := h.position
  unfold State.depth at hdepth
  generalize m.state.frames = frames at hposition hdepth
  rw [hsite] at hposition
  cases hposition with
  | atEntry path => simp at hdepth
  | @inCallee c f g between path decoded => exact ⟨path, c, decoded⟩

/-! ## The end of the scan -/

/-- How a scan ends at a machine: where it moves the entry, why, and which machine it leaves
behind. -/
inductive Concludes (config : Config) (entry : Nat) (scan : Scan) (m : Machine) :
    Nat × StopReason × Option LocatedError → Machine → Prop
  /-- The method ends, and the entry stays where it is. -/
  | stays {reason : StopReason} {cause : Option LocatedError} {m' : Machine}
    (hreason : reason = .halted ∨ reason = .aborted) :
    Concludes config entry scan m (entry, reason, cause) m'
  /-- The scan stops in front of an instruction of the entry frame. -/
  | stopsAtEntry {i : Instruction} {reason : StopReason} (hdepth : m.state.depth ≤ 1)
    (hnext : m.next = .ok (some i)) (hret : i.opcode ≠ .ret)
    (hreason : reason = .effectful ∨ reason = .blockBoundary)
    (hfound : stopInMethod entry config.followCalls i = some (i.offset, reason)) :
    Concludes config entry scan m (i.offset, reason, none) m
  /-- The scan stops in front of an instruction of a followed routine. -/
  | stopsInCallee {i : Instruction} {site : Nat} {reason : StopReason}
    (hdepth : 1 < m.state.depth) (hsite : scan.callSite = some site)
    (hnext : m.next = .ok (some i)) (hreason : reason = .effectful ∨ reason = .blockBoundary)
    (hfound : stopInCallee site config.followCalls i = some (site, reason)) :
    Concludes config entry scan m (site, reason, none) m
  /-- An instruction of the entry frame cannot be resolved. -/
  | failsAtEntry {i : Instruction} {e : LocatedError} {m' : Machine} (hdepth : m.state.depth ≤ 1)
    (hnext : m.next = .ok (some i)) (hskippable : i.Skippable config.followCalls)
    (hfails : m.execute i = (.error e, m')) (he : e.payload.isUnresolved = true)
    (hsame : m.state.SameSkeleton m'.state) :
    Concludes config entry scan m (i.offset, .unresolved, some e) m'
  /-- An instruction of a followed routine cannot be resolved. -/
  | failsInCallee {i : Instruction} {site : Nat} {e : LocatedError} {m' : Machine}
    (hdepth : 1 < m.state.depth) (hsite : scan.callSite = some site)
    (hnext : m.next = .ok (some i)) (hpass : stopInCallee site config.followCalls i = none)
    (hfails : m.execute i = (.error e, m')) (he : e.payload.isUnresolved = true)
    (hsame : m.state.SameSkeleton m'.state) :
    Concludes config entry scan m (site, .unresolved, some e) m'

/-- How a scan concludes that stops in front of an instruction. -/
lemma OnPath.concludes_stopped {memory : Scan} (h : OnPath script config entry scan m)
    (hnext : m.next = .ok (some i))
    (hstops : predicate entry config.followCalls scan m i = (true, memory)) :
    ∃ stop, memory.stop = some stop ∧
      Concludes config entry scan m (stop.1, stop.2, none) m := by
  by_cases hdepth : m.state.depth ≤ 1
  · obtain ⟨⟨offset, reason⟩, hfound, hmemory⟩ := stops_atEntry hdepth h.stop hstops
    refine ⟨(offset, reason), hmemory, ?_⟩
    rcases stopInMethod_eq_some hfound with ⟨hreason, rfl⟩ | ⟨hreason, rfl, hret⟩
    · exact .stays hreason
    · exact .stopsAtEntry hdepth hnext hret hreason hfound
  · have hdepth := Nat.not_le.1 hdepth
    obtain ⟨⟨offset, reason⟩, hfound, hmemory⟩ := stops_inCallee hdepth h.stop hstops
    obtain ⟨site, hsite⟩ := h.exists_callSite hdepth
    rw [hsite, Option.getD_some] at hfound
    refine ⟨(offset, reason), hmemory, ?_⟩
    obtain ⟨hreason, rfl⟩ := stopInCallee_eq_some hfound
    exact .stopsInCallee hdepth hsite hnext hreason hfound

/-- How a scan concludes that comes to an instruction which cannot be resolved. -/
lemma OnPath.concludes_unresolved {memory : Scan} {e : LocatedError}
    (h : OnPath script config entry scan m) (hnext : m.next = .ok (some i))
    (hpasses : predicate entry config.followCalls scan m i = (false, memory))
    (hfails : m.execute i = (.error e, m')) (he : e.payload.isUnresolved = true) :
    Concludes config entry scan m
      (if m'.state.depth > 1 then memory.callSite.getD entry else e.offset, .unresolved, some e)
      m' := by
  obtain ⟨hoffset, hdepth', s, hsame, hstate⟩ :=
    passes_unresolved h.scanning.table hpasses hfails he
  -- No jump has been marked before the instruction.
  have hsame' : m.state.SameSkeleton m'.state := by
    rw [hstate, ← hsame.jumping.trans h.scanning.jumping]
    exact hsame
  by_cases hdepth : m.state.depth ≤ 1
  · obtain ⟨hskippable, -⟩ := passes_atEntry hdepth hpasses
    rw [if_neg (by omega), hoffset]
    exact .failsAtEntry hdepth hnext hskippable hfails he hsame'
  · have hdepth := Nat.not_le.1 hdepth
    obtain ⟨hpass, rfl⟩ := passes_inCallee hdepth hpasses
    obtain ⟨site, hsite⟩ := h.exists_callSite hdepth
    rw [hsite, Option.getD_some] at hpass
    rw [if_pos (by omega), hsite, Option.getD_some]
    exact .failsInCallee hdepth hsite hnext hpass hfails he hsame'

/-- How a scan concludes that ends at a machine on the path. -/
lemma OnPath.concludes {ending : Machine.Ending Scan} (h : OnPath script config entry scan m)
    (hends : m.Ends (predicate entry config.followCalls) scan ending) :
    Concludes config entry scan m (ending.placement entry) ending.machine := by
  cases hends with
  | halted => exact .stays (.inl rfl)
  | malformed => exact .stays (.inr rfl)
  | finished => exact .stays (.inl rfl)
  | stopped _ hnext hstops =>
    obtain ⟨stop, hmemory, hconcludes⟩ := h.concludes_stopped hnext hstops
    simp only [Machine.Ending.placement, hmemory, Option.getD_some]
    exact hconcludes
  | @failed _ _ e _ _ hnext hpasses hfails =>
    unfold Machine.Ending.placement Machine.failure
    cases he : e.payload.isUnresolved with
    | true => exact h.concludes_unresolved hnext hpasses hfails he
    | false => exact .stays (.inr rfl)

/-- Whether a placement of an entry is sound: it stays where it is if the method halts or aborts,
and else it is an instruction on the path. -/
def Placed (script : Script) (followCalls : Bool) (entry : Nat)
    (placement : Nat × StopReason × Option LocatedError) : Prop :=
  if placement.2.1 = .halted ∨ placement.2.1 = .aborted then placement.1 = entry
  else LinearPath script followCalls entry placement.1 ∧
    ∃ i, script.instructionAt placement.1 = .ok (some i)

/-- An entry may stay where it is if the method ends. -/
lemma placed_entry {reason : StopReason} {cause : Option LocatedError}
    (hreason : reason = .halted ∨ reason = .aborted) :
    Placed script config.followCalls entry (entry, reason, cause) := by
  unfold Placed
  rw [if_pos hreason]

/-- Any other placement is sound if it is an instruction on the path. -/
lemma placed_of_path {offset : Nat} {reason : StopReason} {cause : Option LocatedError}
    (path : LinearPath script config.followCalls entry offset)
    (decoded : ∃ i, script.instructionAt offset = .ok (some i))
    (hreason : reason ≠ .halted ∧ reason ≠ .aborted) :
    Placed script config.followCalls entry (offset, reason, cause) := by
  unfold Placed
  rw [if_neg (by simp [hreason])]
  exact ⟨path, decoded⟩

/-- A scan that ends at a machine on the path places the entry soundly. -/
lemma OnPath.placed {placement : Nat × StopReason × Option LocatedError}
    (h : OnPath script config entry scan m)
    (hconcludes : Concludes config entry scan m placement m') :
    Placed script config.followCalls entry placement := by
  cases hconcludes with
  | stays hreason => exact placed_entry hreason
  | stopsAtEntry hdepth hnext hret hreason =>
    obtain ⟨path, decoded⟩ := h.path_atEntry hdepth hnext hret
    refine placed_of_path path ⟨_, decoded⟩ ?_
    rcases hreason with rfl | rfl <;> simp
  | stopsInCallee hdepth hsite _ hreason =>
    obtain ⟨path, decoded⟩ := h.path_inCallee hdepth hsite
    refine placed_of_path path decoded ?_
    rcases hreason with rfl | rfl <;> simp
  | failsAtEntry hdepth hnext hskippable =>
    obtain ⟨path, decoded⟩ := h.path_atEntry hdepth hnext hskippable.ne_ret
    exact placed_of_path path ⟨_, decoded⟩ (by simp)
  | failsInCallee hdepth hsite =>
    obtain ⟨path, decoded⟩ := h.path_inCallee hdepth hsite
    exact placed_of_path path decoded (by simp)

end Scan

/-- The entry of a method stays where it is if the method halts or aborts.  Otherwise the linear
decode leads from the declared entry through instructions that may be skipped to the reported one,
at which an instruction lies. -/
theorem analyzeMethod_newOffset (script : Script) (config : Config) (watchdog : Watchdog)
    (method : Method) :
    let report := (analyzeMethod script config watchdog method).1
    if report.reason = .halted ∨ report.reason = .aborted then
      report.newOffset = method.offset
    else
      LinearPath script config.followCalls method.offset report.newOffset ∧
        method.offset ≤ report.newOffset ∧ report.newOffset < script.length ∧
        ∃ i, script.instructionAt report.newOffset = .ok (some i) := by
  have hplaced : Scan.Placed script config.followCalls method.offset
      ((analyzeMethod script config watchdog method).1.newOffset,
        (analyzeMethod script config watchdog method).1.reason,
        (analyzeMethod script config watchdog method).1.error) ∧
      ((analyzeMethod script config watchdog method).1.reason ≠ .aborted →
        method.offset ≤ maxOffset) := by
    unfold analyzeMethod
    cases hload : (Machine.create config watchdog 0).loadScript script method.offset with
    | mk result m =>
      cases result with
      | error e => exact ⟨Scan.placed_entry (.inr rfl), fun h => absurd rfl h⟩
      | ok u =>
        obtain ⟨rfl, hlength, hmax, -⟩ := Machine.loadScript_ok hload
        have hstart : Scan.OnPath script config method.offset .start
            (Machine.loaded script config watchdog 0 method.offset) :=
          ⟨Machine.loaded_scanning script config watchdog 0 method.offset, rfl, .atEntry .here⟩
        obtain ⟨memory, m, hpath, hends⟩ :=
          Machine.run_invariant hstart fun _ _ _ _ _ h hturn => h.turn hturn
        exact ⟨hpath.placed (hpath.concludes hends), fun _ => hmax⟩
  obtain ⟨hplaced, hmax⟩ := hplaced
  unfold Scan.Placed at hplaced
  intro report
  split at hplaced
  · next hreason => rwa [if_pos hreason]
  · next hreason =>
    obtain ⟨hpath, i, hdecoded⟩ := hplaced
    rw [if_neg hreason]
    exact ⟨hpath, hpath.le (hmax fun h => hreason (.inr h)),
      (Script.instructionAt_some hdecoded).2, i, hdecoded⟩

end SymbolicScript
