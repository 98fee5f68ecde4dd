import SymbolicScript.Proofs.EntryPlacement
import SymbolicScript.Proofs.KnownFacts
import SymbolicScript.Proofs.Rerun
import SymbolicScript.Proofs.StoreEffects

/-!
# What is lost by skipping a prefix

When the entry of a method moves, the instructions in front of the new entry are no longer executed.
This file compares a machine that has executed them with one that starts at the new entry.  The two
agree in everything but the heap, the evaluation stack, and the variables that the report on the
method lists as written (`analyzeMethod_agrees`).

The scan of the method starts from an empty stack, and the machines of the comparison from any
other. While the scan makes its turns, the machine that has been loaded at the old entry executes
the same instructions, and never knows less.  At each of them the scan has decided that the
instruction may be skipped, so it has one of the effects that `Machine.Scanning.execute_effect`
lists.  The invariant that is carried along is `Machine.Carried`.
-/

namespace SymbolicScript

/-! ## Agreement -/

/-- Frames that agree in all but the listed variables. -/
structure Frame.AgreesExcept (writes : List Access) (f g : Frame) : Prop where
  /-- The frames belong to the same world. -/
  world : f.world = g.world
  /-- The frames stand at the same offset. -/
  position : f.position = g.position
  /-- The frames return as many values. -/
  returnCount : f.returnCount = g.returnCount
  /-- The frames are inside the same try blocks. -/
  tries : f.tries = g.tries
  /-- All other local variables are the same. -/
  locals : ∀ j, .slot .local j ∉ writes → f.locals.load j = g.locals.load j
  /-- All other arguments are the same. -/
  arguments : ∀ j, .slot .argument j ∉ writes → f.arguments.load j = g.arguments.load j

/-- States with one world that agree in all but the heap, the evaluation stack, and the listed
variables. -/
structure State.AgreesExcept (writes : List Access) (s t : State) : Prop where
  /-- The frames agree one by one. -/
  frames : List.Forall₂ (Frame.AgreesExcept writes) s.frames t.frames
  /-- The first state has one world. -/
  size : s.worlds.size = 1
  /-- The second state has one world. -/
  size' : t.worlds.size = 1
  /-- The scripts are the same. -/
  script : (s.worldAt 0).script = (t.worldAt 0).script
  /-- The static fields are the same. -/
  statics : (s.worldAt 0).statics = (t.worldAt 0).statics
  /-- The views of storage are the same. -/
  storage : (s.worldAt 0).storage = (t.worldAt 0).storage
  /-- The values returned so far are the same. -/
  result : s.result = t.result
  /-- The machines have come as far. -/
  status : s.status = t.status
  /-- The pending exceptions are the same. -/
  exception : s.exception = t.exception
  /-- A jump is marked on both sides or on neither. -/
  jumping : s.jumping = t.jumping

/-! ## The invariant of the machine that executes the prefix -/

/-- A frame of which all variables but those recorded as written stand for the values that they had
before. -/
structure Frame.UntouchedExcept (writes : SortedMap Access Nat) (f : Frame) : Prop where
  /-- The local variables have not been stored to. -/
  locals : ∀ j, ¬writes.contains (.slot .local j) →
    f.locals.load j = (Variables.untouched .local).load j
  /-- The arguments have not been stored to. -/
  arguments : ∀ j, ¬writes.contains (.slot .argument j) →
    f.arguments.load j = (Variables.untouched .argument).load j

/-- Storing to a variable keeps the others untouched, if the write is recorded. -/
lemma Frame.UntouchedExcept.store {writes : SortedMap Access Nat} {f g : Frame} {i : Instruction}
    {depth : Nat} (h : f.UntouchedExcept writes) (hstore : f.StoresOnly (i.write? depth) g) :
    g.UntouchedExcept (i.writesAfter depth writes) where
  locals j hj := by
    rw [Instruction.contains_writesAfter, not_or] at hj
    exact (hstore.locals j hj.1).trans (h.locals j hj.2)
  arguments j hj := by
    rw [Instruction.contains_writesAfter, not_or] at hj
    exact (hstore.arguments j hj.1).trans (h.arguments j hj.2)

namespace Machine

variable {script : Script} {config : Config} {m m' a a' : Machine} {i : Instruction}

/-- The invariant of a machine while it executes a prefix that may be skipped. -/
structure Carried (script : Script) (config : Config) (a : Machine) : Prop where
  /-- The machine has the shape of a scan. -/
  scanning : Scanning script config a
  /-- No static field has been stored to. -/
  statics : (a.state.worldAt 0).statics = .untouched .static
  /-- Storage has not been used. -/
  storage : (a.state.worldAt 0).storage = none
  /-- The variables of the entry frame are untouched but for those that have been written. -/
  entry : ∀ g, a.state.entry? = some g → g.UntouchedExcept (a.state.worldAt 0).writes

/-- A machine that has just loaded a script with items on its stack has not executed anything. -/
lemma preload_carried (script : Script) (config : Config) (watchdog : Watchdog)
    (supply offset : Nat) (items : List Item) :
    Carried script config ((loaded script config watchdog supply offset).preload items) where
  scanning := preload_scanning script config watchdog supply offset items
  statics := rfl
  storage := rfl
  entry := by
    rintro g ⟨⟩
    exact ⟨fun _ _ => rfl, fun _ _ => rfl⟩

/-- An instruction that a scan lets pass keeps the invariant. -/
lemma Carried.execute (h : Carried script config a) (hpass : i.Passable a.state.depth)
    (hexecute : a.execute i = (.ok (), a')) : Carried script config a' := by
  obtain ⟨f, rest, hframes⟩ := List.exists_cons_of_ne_nil h.scanning.nonempty
  obtain ⟨heffect, hentry⟩ := h.scanning.execute_effect hpass hexecute
  have hg := List.getLast?_eq_some_getLast h.scanning.nonempty
  obtain ⟨g', hg', hstore⟩ := hentry _ hg
  refine ⟨(h.scanning.execute hframes hpass hexecute).1, heffect.statics.trans h.statics,
    heffect.storage.trans h.storage, fun k hk => ?_⟩
  cases hg'.symm.trans hk
  rw [heffect.writes]
  exact (h.entry _ hg).store hstore

/-! ## The turns of the scan -/

variable {entry : Nat} {scan scan' : Scan} {ρ : Renaming}

/-- A turn of a scan keeps the shape of the machine and changes the recorded writes as the
instruction says. -/
lemma Scanning.turn_writes (h : Scanning script config m)
    (hturn : m.Turn (Scan.predicate entry config.followCalls) scan scan' m' i) :
    Scanning script config m' ∧
      (m'.state.worldAt 0).writes = i.writesAfter m.state.depth (m.state.worldAt 0).writes := by
  obtain ⟨f, rest, hframes⟩ := List.exists_cons_of_ne_nil h.nonempty
  have hpass := Scan.passable_of_passes hturn.passes
  exact ⟨(h.execute hframes hpass hturn.executes).1,
    (h.execute_effect hpass hturn.executes).1.writes⟩

/-- No recorded write is forgotten by the turns of a scan. -/
lemma Turns.contains_writes (h : Turns (Scan.predicate entry config.followCalls) scan m scan' m')
    (hm : Scanning script config m) {x : Access} (hx : (m.state.worldAt 0).writes.contains x) :
    (m'.state.worldAt 0).writes.contains x := by
  induction h with
  | none => exact hx
  | more turn _ ih =>
    obtain ⟨hm₁, hwrites⟩ := hm.turn_writes turn
    refine ih hm₁ ?_
    rw [hwrites]
    exact Instruction.contains_writesAfter.2 (.inr hx)

/-- While a scan makes its turns, a machine that knows more takes the same steps, until it stands
where the scan ends.  It has the invariant then, and has recorded no other writes than the scan. -/
theorem Turns.carried {positions : List Nat} {n : Nat}
    (h : Turns (Scan.predicate entry config.followCalls) scan m scan' m')
    (hm : Scanning script config m) (hend : m'.state.frames.map Frame.position = positions)
    (hma : m.Simulates ρ a) (ha : Carried script config a)
    (hwrites : (a.state.worldAt 0).writes = (m.state.worldAt 0).writes)
    (hsteps : steps n a = (.ok (), a'))
    (hfirst : ∀ k < n, (steps k a).2.state.frames.map Frame.position ≠ positions) :
    Carried script config a' ∧
      ∀ x, (a'.state.worldAt 0).writes.contains x → (m'.state.worldAt 0).writes.contains x := by
  induction h generalizing ρ a n with
  | none memory m =>
    cases n with
    | zero =>
      cases hsteps
      exact ⟨ha, fun x hx => by rwa [← hwrites]⟩
    | succ n =>
      -- The machine stands there before the first step.
      exact absurd (hma.state.positions.trans hend) (hfirst 0 (Nat.succ_pos n))
  | @more scan scan₁ _ m m₁ _ i turn turns ih =>
    cases n with
    | zero =>
      cases hsteps
      refine ⟨ha, fun x hx => (Turns.more turn turns).contains_writes hm ?_⟩
      rwa [← hwrites]
    | succ n =>
      obtain ⟨a₁, hstep, hrest, hlater⟩ := steps_succ_ok hsteps
      have hexecute : a.execute i = (.ok (), a₁) := by
        rw [step, hma.next_eq.trans turn.next] at hstep
        exact hstep
      have hpass : i.Passable a.state.depth := by
        rw [hma.state.depth]
        exact Scan.passable_of_passes turn.passes
      obtain ⟨ρ', -, hma₁⟩ := hma.execute hpass.not_syscall turn.executes hexecute
      obtain ⟨hm₁, hwrites₁⟩ := hm.turn_writes turn
      have heffect := (ha.scanning.execute_effect hpass hexecute).1
      refine ih hm₁ hend hma₁ (ha.execute hpass hexecute) ?_ hrest fun k hk => ?_
      · rw [heffect.writes, hwrites₁, hwrites, hma.state.depth]
      · rw [← hlater]
        exact hfirst (k + 1) (Nat.succ_lt_succ hk)

end Machine

/-! ## Where the scan has stood at the new entry -/

namespace Scan

variable {script : Script} {config : Config} {entry : Nat} {scan scan' : Scan} {m m' : Machine}
  {i : Instruction}

/-- A scan has stood at an offset in the entry frame, and had not recorded more writes by then than
those of the given kind. -/
def StoodAt (script : Script) (config : Config) (watchdog : Watchdog) (entry offset : Nat)
    (written : Access → Prop) : Prop :=
  ∃ scan m, Machine.Turns (predicate entry config.followCalls) .start
      (Machine.loaded script config watchdog 0 entry) scan m ∧
    m.state.frames.map Frame.position = [offset] ∧
    ∀ x, (m.state.worldAt 0).writes.contains x → written x

variable {watchdog : Watchdog} {written written' : Access → Prop} {offset : Nat}

/-- Further writes may be recorded later. -/
lemma StoodAt.mono (h : StoodAt script config watchdog entry offset written)
    (hwritten : ∀ x, written x → written' x) :
    StoodAt script config watchdog entry offset written' := by
  obtain ⟨scan, m, hturns, hpositions, hwrites⟩ := h
  exact ⟨scan, m, hturns, hpositions, fun x hx => hwritten x (hwrites x hx)⟩

/-- A scan stands at the entry before anything has been written. -/
lemma stoodAt_entry (script : Script) (config : Config) (watchdog : Watchdog) (entry : Nat)
    (written : Access → Prop) : StoodAt script config watchdog entry entry written :=
  ⟨.start, _, .none _ _, rfl, fun _ hx => nomatch hx⟩

/-- The invariant of the scan: in a routine, it has stood at the call. -/
structure Traced (script : Script) (config : Config) (watchdog : Watchdog) (entry : Nat)
    (scan : Scan) (m : Machine) : Prop where
  /-- The entry frame is on the path. -/
  onPath : OnPath script config entry scan m
  /-- Turns lead to the machine. -/
  turns : Machine.Turns (predicate entry config.followCalls) .start
    (Machine.loaded script config watchdog 0 entry) scan m
  /-- In a routine, the scan has stood at the call. -/
  atCall : ∀ site, 1 < m.state.depth → scan.callSite = some site →
    StoodAt script config watchdog entry site fun x => (m.state.worldAt 0).writes.contains x

/-- In front of an instruction of the entry frame, the scan stands at the instruction. -/
lemma Traced.stoodAt (h : Traced script config watchdog entry scan m) (hdepth : m.state.depth ≤ 1)
    (hnext : m.next = .ok (some i)) (hret : i.opcode ≠ .ret) :
    StoodAt script config watchdog entry i.offset
      fun x => (m.state.worldAt 0).writes.contains x := by
  obtain ⟨f, hframes⟩ := h.onPath.exists_frame hdepth
  obtain ⟨-, hoffset⟩ := decoded_of_ne_ret h.onPath.scanning hframes hnext hret
  refine ⟨scan, m, h.turns, ?_, fun x hx => hx⟩
  rw [hframes, hoffset]
  rfl

/-- A turn of the scan preserves the invariant. -/
lemma Traced.turn (h : Traced script config watchdog entry scan m)
    (hturn : m.Turn (predicate entry config.followCalls) scan scan' m' i) :
    Traced script config watchdog entry scan' m' := by
  refine ⟨h.onPath.turn hturn, h.turns.snoc hturn, fun site hdepth' hsite => ?_⟩
  have hgrow : ∀ x, (m.state.worldAt 0).writes.contains x →
      (m'.state.worldAt 0).writes.contains x := fun x hx =>
    (Machine.Turns.more hturn (.none _ _)).contains_writes h.onPath.scanning hx
  by_cases hdepth : m.state.depth ≤ 1
  · obtain ⟨hskippable, -, hremembered⟩ := h.onPath.call_of_depth hturn hdepth hdepth'
    cases hsite.symm.trans hremembered
    exact (h.stoodAt hdepth hturn.next hskippable.ne_ret).mono hgrow
  · obtain ⟨-, rfl⟩ := passes_inCallee (Nat.not_le.1 hdepth) hturn.passes
    exact (h.atCall site (Nat.not_le.1 hdepth) hsite).mono hgrow

/-- What a scan has recorded as written is reported, also by a state that it leaves behind with the
same skeleton. -/
lemma mem_writeSet {s : State} {x : Access} (h : Machine.Scanning script config m)
    (hsame : m.state.SameSkeleton s) (hx : (m.state.worldAt 0).writes.contains x) :
    x ∈ s.accesses.writeSet := by
  obtain ⟨f, rest, hframes⟩ := List.exists_cons_of_ne_nil h.nonempty
  obtain ⟨f', hframes', hskeleton⟩ := hsame.frames_eq hframes
  have hworld : ∀ g ∈ s.frames, g.world = 0 := by
    have hf : f.Simple := h.simple f (by simp [hframes])
    rw [hframes']
    exact List.forall_mem_cons.2
      ⟨(hf.congr hskeleton).world, fun g hg => (h.simple g (by simp [hframes, hg])).world⟩
  have hne : s.frames ≠ [] := by
    rw [hframes']
    exact List.cons_ne_nil _ _
  have hentry : s.entry? = some (s.frames.getLast hne) := List.getLast?_eq_some_getLast hne
  unfold State.accesses AccessTracker.writeSet
  rw [hentry, Option.bind_some, hworld _ (List.getLast_mem hne)]
  exact (SortedMap.contains_iff_mem_keys _ _).1 (hsame.writes 0 x hx)

/-- Where the scan ends, it has stood at the offset to which it has moved the entry, and what it had
recorded by then is reported as written. -/
lemma Traced.stoodAt_placement {placement : Nat × StopReason × Option LocatedError}
    (h : Traced script config watchdog entry scan m)
    (hconcludes : Concludes config entry scan m placement m') :
    StoodAt script config watchdog entry placement.1 (· ∈ m'.state.accesses.writeSet) := by
  have hreported : ∀ s, m.state.SameSkeleton s → ∀ x, (m.state.worldAt 0).writes.contains x →
      x ∈ s.accesses.writeSet := fun s hsame x hx => mem_writeSet h.onPath.scanning hsame hx
  cases hconcludes with
  | stays => exact stoodAt_entry _ _ _ _ _
  | stopsAtEntry hdepth hnext hret =>
    exact (h.stoodAt hdepth hnext hret).mono (hreported _ (Std.Refl.refl _))
  | stopsInCallee hdepth hsite =>
    exact (h.atCall _ hdepth hsite).mono (hreported _ (Std.Refl.refl _))
  | failsAtEntry hdepth hnext hskippable _ _ hsame =>
    exact (h.stoodAt hdepth hnext hskippable.ne_ret).mono (hreported _ hsame)
  | failsInCallee hdepth hsite _ _ _ _ hsame =>
    exact (h.atCall _ hdepth hsite).mono (hreported _ hsame)

/-- The scan of a method has stood at the offset that it reports. -/
lemma stoodAt_newOffset (script : Script) (config : Config) (watchdog : Watchdog)
    (method : Method) :
    StoodAt script config watchdog method.offset
      (analyzeMethod script config watchdog method).1.newOffset
      (· ∈ (analyzeMethod script config watchdog method).1.writes) := by
  unfold analyzeMethod
  cases hload : (Machine.create config watchdog 0).loadScript script method.offset with
  | mk result m =>
    cases result with
    | error e => exact stoodAt_entry _ _ _ _ _
    | ok u =>
      obtain ⟨rfl, -, -⟩ := Machine.loadScript_ok hload
      have hstart : Traced script config watchdog method.offset .start
          (Machine.loaded script config watchdog 0 method.offset) :=
        { onPath :=
            ⟨Machine.loaded_scanning script config watchdog 0 method.offset, rfl, .atEntry .here⟩
          turns := .none _ _
          atCall := fun _ hdepth _ => absurd hdepth (Nat.lt_irrefl 1) }
      obtain ⟨memory, m, htraced, hends⟩ :=
        Machine.run_invariant hstart fun _ _ _ _ _ h hturn => h.turn hturn
      exact htraced.stoodAt_placement (htraced.onPath.concludes hends)

end Scan

open Machine in
/-- A machine is loaded at the entry of a method with items on its evaluation stack, and makes steps
until its only frame stands for the first time at the offset that the analysis of the method
reports. A second machine is loaded at that offset with the same items on its evaluation stack.  The
two machines agree in everything but the heap, the evaluation stack, and the variables that the
analysis reports as written. -/
theorem analyzeMethod_agrees {script : Script} {config : Config}
    {watchdog watchdog₁ watchdog₂ : Watchdog} {supply₁ supply₂ n : Nat} {method : Method}
    {items : List Item} {a₀ a b₀ : Machine}
    (hload : (create config watchdog₁ supply₁).loadScript script method.offset = (.ok (), a₀))
    (hload' : (create config watchdog₂ supply₂).loadScript script
      (analyzeMethod script config watchdog method).1.newOffset = (.ok (), b₀))
    (hsteps : steps n (a₀.preload items) = (.ok (), a))
    (hreached : a.state.frames.map Frame.position =
      [(analyzeMethod script config watchdog method).1.newOffset])
    (hfirst : ∀ k < n, (steps k (a₀.preload items)).2.state.frames.map Frame.position ≠
      [(analyzeMethod script config watchdog method).1.newOffset]) :
    a.state.AgreesExcept (analyzeMethod script config watchdog method).1.writes
      (b₀.preload items).state := by
  obtain ⟨rfl, -, -⟩ := loadScript_ok hload
  obtain ⟨rfl, -, -⟩ := loadScript_ok hload'
  obtain ⟨scan, m, hturns, hpositions, hwritten⟩ :=
    Scan.stoodAt_newOffset script config watchdog method
  have hsimulates := loaded_simulates
    (preload_scanning script config watchdog₁ supply₁ method.offset items) rfl watchdog 0
  obtain ⟨hcarried, hwrites⟩ :=
    hturns.carried (loaded_scanning script config watchdog 0 method.offset) hpositions hsimulates
      (preload_carried script config watchdog₁ supply₁ method.offset items) rfl hsteps hfirst
  have hreported : ∀ x, x ∉ (analyzeMethod script config watchdog method).1.writes →
      ¬(a.state.worldAt 0).writes.contains x := fun x hx hcontains =>
    hx (hwritten x (hwrites x hcontains))
  obtain ⟨f, hframes, hposition⟩ := List.map_eq_singleton_iff.1 hreached
  have hscanning := hcarried.scanning
  have hf : f.Simple := hscanning.simple f (by simp [hframes])
  have huntouched := hcarried.entry f (by simp [State.entry?, hframes])
  refine
    { frames := ?_, size := hscanning.size, size' := rfl, script := hscanning.world,
      statics := hcarried.statics, storage := hcarried.storage, result := hscanning.result,
      status := hscanning.running, exception := hscanning.exception,
      jumping := hscanning.jumping }
  rw [hframes]
  exact .cons
    { world := hf.world, position := hposition, returnCount := hf.returnCount, tries := hf.tries,
      locals := fun j hj => huntouched.locals j (hreported _ hj)
      arguments := fun j hj => huntouched.arguments j (hreported _ hj) } .nil

/-! ## A prefix that changes what it may change -/

/-- The script `CLEAR PUSH0 STLOC0 PUSH1 STARG0 PUSH2 STSFLD0 RET`, which takes all items off the
stack and stores to a local variable and to an argument before it stores to a static field. -/
def clearingScript : Script := ⟨[0x49, 0x10, 0x70, 0x11, 0x80, 0x12, 0x60, 0x40]⟩

/-- The machine that executes the script on the item 7, after some steps. -/
def clearingMachine (count : Nat) : Machine :=
  (Machine.steps count ((Machine.loaded clearingScript {} .lazy 0 0).preload [.integer 7])).2

/-- The entry of a method that begins with the script is moved to the store to the static field. -/
lemma analyzeMethod_clearingScript :
    (analyzeMethod clearingScript {} .lazy (.ofName "main" 0)).1.newOffset = 6 ∧
      (analyzeMethod clearingScript {} .lazy (.ofName "main" 0)).1.writes =
        [.slot .local 0, .slot .argument 0] := by
  let m (count : Nat) : Machine :=
    (Machine.steps count (Machine.loaded clearingScript {} .lazy 0 0)).2
  have hturn (count : Nat) (i : Instruction)
      (h : (m count).Turn (Scan.predicate 0 false) .start .start (m (count + 1)) i) :
      (m count).run (Scan.predicate 0 false) .start =
        (m (count + 1)).run (Scan.predicate 0 false) .start := h.run_eq
  have hload : (Machine.create {} .lazy 0).loadScript clearingScript 0 = (.ok (), m 0) := rfl
  have hends : (m 6).Ends (Scan.predicate 0 false) .start
      ⟨.ok (.stopped ⟨6, .stSFld0, []⟩), m 6, ⟨none, some (6, .effectful)⟩⟩ :=
    .stopped nofun rfl rfl
  have hrun : (m 0).run (Scan.predicate 0 false) .start =
      ⟨.ok (.stopped ⟨6, .stSFld0, []⟩), m 6, ⟨none, some (6, .effectful)⟩⟩ :=
    calc (m 0).run (Scan.predicate 0 false) .start
        = (m 1).run (Scan.predicate 0 false) .start :=
          hturn 0 ⟨0, .clear, []⟩ ⟨nofun, rfl, rfl, rfl⟩
      _ = (m 2).run (Scan.predicate 0 false) .start :=
          hturn 1 ⟨1, .push0, []⟩ ⟨nofun, rfl, rfl, rfl⟩
      _ = (m 3).run (Scan.predicate 0 false) .start :=
          hturn 2 ⟨2, .stLoc0, []⟩ ⟨nofun, rfl, rfl, rfl⟩
      _ = (m 4).run (Scan.predicate 0 false) .start :=
          hturn 3 ⟨3, .push1, []⟩ ⟨nofun, rfl, rfl, rfl⟩
      _ = (m 5).run (Scan.predicate 0 false) .start :=
          hturn 4 ⟨4, .stArg0, []⟩ ⟨nofun, rfl, rfl, rfl⟩
      _ = (m 6).run (Scan.predicate 0 false) .start :=
          hturn 5 ⟨5, .push2, []⟩ ⟨nofun, rfl, rfl, rfl⟩
      _ = ⟨.ok (.stopped ⟨6, .stSFld0, []⟩), m 6, ⟨none, some (6, .effectful)⟩⟩ :=
          hends.run_eq
  have hanalysis : analyzeMethod clearingScript {} .lazy (.ofName "main" 0) =
      (.ofMachine (.ofName "main" 0) (m 6) (6, .effectful, none), (m 6).watchdog) := by
    unfold analyzeMethod
    simp only [Method.ofName, hload]
    rw [hrun]
    rfl
  rw [hanalysis]
  exact ⟨rfl, rfl⟩

/-- The machine that executes the script stands in front of the store after six steps, and not
before. -/
lemma clearingMachine_positions :
    (clearingMachine 6).state.frames.map Frame.position = [6] ∧
      ∀ k < 6, (clearingMachine k).state.frames.map Frame.position ≠ [6] := by
  decide

/-- What the machine that executes the script and the machine that starts at the store agree in. -/
theorem analyzeMethod_agrees_clearingScript :
    (clearingMachine 6).state.frames.map Frame.position = [6] ∧
      (clearingMachine 6).state.AgreesExcept [.slot .local 0, .slot .argument 0]
        ((Machine.loaded clearingScript {} .lazy 0 6).preload [.integer 7]).state := by
  obtain ⟨hoffset, hwrites⟩ := analyzeMethod_clearingScript
  obtain ⟨hreached, hfirst⟩ := clearingMachine_positions
  have hload : (Machine.create {} .lazy 0).loadScript clearingScript 0 =
      (.ok (), Machine.loaded clearingScript {} .lazy 0 0) := rfl
  have hload' : (Machine.create {} .lazy 0).loadScript clearingScript
      (analyzeMethod clearingScript {} .lazy (.ofName "main" 0)).1.newOffset =
        (.ok (), Machine.loaded clearingScript {} .lazy 0 6) := by
    rw [hoffset]
    rfl
  have hsteps : Machine.steps 6 ((Machine.loaded clearingScript {} .lazy 0 0).preload
      [.integer 7]) = (.ok (), clearingMachine 6) := rfl
  have hagrees := analyzeMethod_agrees hload hload' hsteps (by rw [hoffset, hreached])
    fun k hk => by
      rw [hoffset]
      exact hfirst k hk
  rw [hwrites] at hagrees
  exact ⟨hreached, hagrees⟩

/-- A prefix that is skipped may change the evaluation stack, the local variables and the arguments:
the machine that executes the script on the item 7 and the machine that starts at the store with the
same item on its stack differ in all three. -/
theorem clearingScript_changes_state :
    Watchdog.lazy.NeverStops ∧
      (analyzeMethod clearingScript {} .lazy (.ofName "main" 0)).1.newOffset = 6 ∧
      ∃ a₀ b₀ a : Machine,
        (Machine.create {} .lazy 0).loadScript clearingScript 0 = (.ok (), a₀) ∧
        (Machine.create {} .lazy 0).loadScript clearingScript 6 = (.ok (), b₀) ∧
        Machine.steps 6 (a₀.preload [.integer 7]) = (.ok (), a) ∧
        a.state.frames.map Frame.position = [6] ∧
        (∀ k < 6, (Machine.steps k (a₀.preload [.integer 7])).2.state.frames.map Frame.position ≠
          [6]) ∧
        (a.state.worldAt 0).stack.view 0 ≠
          ((b₀.preload [.integer 7]).state.worldAt 0).stack.view 0 ∧
        a.state.frames.map (·.locals.load 0) ≠
          (b₀.preload [.integer 7]).state.frames.map (·.locals.load 0) ∧
        a.state.frames.map (·.arguments.load 0) ≠
          (b₀.preload [.integer 7]).state.frames.map (·.arguments.load 0) := by
  obtain ⟨hreached, hfirst⟩ := clearingMachine_positions
  refine ⟨Watchdog.lazy_neverStops, analyzeMethod_clearingScript.1,
    Machine.loaded clearingScript {} .lazy 0 0, Machine.loaded clearingScript {} .lazy 0 6,
    clearingMachine 6, rfl, rfl, rfl, hreached, hfirst, ?_, ?_, ?_⟩
  · -- The constant 2 instead of the item 7.
    nofun
  · nofun
  · nofun

end SymbolicScript
