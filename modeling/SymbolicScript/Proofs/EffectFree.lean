import SymbolicScript.Proofs.AccessFootprint
import SymbolicScript.Proofs.ScanSteps

/-!
# Scans have no lasting effects

What outlives a call of a method are its static fields and the storage.  A scan is meant to stop in
front of every instruction that changes them.  This file proves that it does: at every point of a
scan, in the entry frame and in followed routines of any depth, also where an instruction has
failed, the static fields are uninitialized with nothing stored and storage has not been used
(`Scan.Visits.effectFree`).  So the report on a method lists only local variables and arguments as
written, no storage key as read, and no static field as read unless calls are followed
(`analyzeMethod_effectFree`).

Each instruction that is let pass is bound to a handler that leaves static fields and storage alone
(`Handler.run_accesses`).  Static fields may be read in followed routines only, and where calls are
not followed the scan never leaves the entry frame.
-/

namespace SymbolicScript

/-- Only opcodes that load static fields are bound to the handler that does. -/
lemma JumpTable.handler_ne_loadStatic {op : Opcode} (h : op.isStaticLoad = false) :
    standard.handler op ≠ .load .static := by
  intro hhandler
  cases op with
  | ldSFld0 | ldSFld1 | ldSFld2 | ldSFld3 | ldSFld4 | ldSFld5 | ldSFld6 | ldSFld => cases h
  | _ => cases hhandler

/-! ## States without effects -/

/-- No static field has been initialized or stored to, storage has not been used, and nothing of the
kind has been recorded. -/
structure World.EffectFree (followCalls : Bool) (w : World) : Prop where
  /-- The static fields are uninitialized, and nothing is stored. -/
  statics : w.statics = .untouched .static
  /-- There is no view of storage. -/
  storage : w.storage = none
  /-- Only variables have been read, and static fields only where calls are followed. -/
  reads : ∀ a, w.reads.contains a →
    ∃ kind index, a = .slot kind index ∧ (followCalls = false → kind ≠ .static)
  /-- Only locals and arguments have been written. -/
  writes : ∀ a, w.writes.contains a → ∃ kind index, a = .slot kind index ∧ kind ≠ .static

/-- No world has seen an effect. -/
def State.EffectFree (followCalls : Bool) (s : State) : Prop :=
  ∀ i, (s.worldAt i).EffectFree followCalls

section

variable {followCalls : Bool} {s s' : State} {reads writes : Access → Prop}

/-- A world in which nothing has been executed has seen no effect. -/
lemma World.effectFree_ofScript (script : Script) : (ofScript script).EffectFree followCalls where
  statics := rfl
  storage := rfl
  reads := nofun
  writes := nofun

/-- A state whose only world has just been created has seen no effect. -/
lemma State.effectFree_of_worlds (h : s.worlds = #[] ∨ ∃ script, s.worlds = #[.ofScript script]) :
    s.EffectFree followCalls := by
  intro i
  have hworld : ∃ script, s.worldAt i = .ofScript script := by
    unfold worldAt
    rcases h with hnone | ⟨script, hone⟩
    · exact ⟨⟨[]⟩, by simp [hnone]⟩
    · cases i with
      | zero => exact ⟨script, by simp [hone]⟩
      | succ i => exact ⟨⟨[]⟩, by simp [hone]⟩
  obtain ⟨script, hscript⟩ := hworld
  rw [hscript]
  exact World.effectFree_ofScript script

/-- Accesses that are no effects keep the state free of effects. -/
lemma State.EffectFree.accesses (h : s.EffectFree followCalls)
    (haccesses : s.Accesses reads writes s')
    (hreads : ∀ a, reads a →
      ∃ kind index, a = .slot kind index ∧ (followCalls = false → kind ≠ .static))
    (hwrites : ∀ a, writes a → ∃ kind index, a = .slot kind index ∧ kind ≠ .static) :
    s'.EffectFree followCalls := fun i =>
  { statics := (haccesses i).statics.trans (h i).statics
    storage := (haccesses i).storage.trans (h i).storage
    reads := fun a ha => ((haccesses i).reads a ha).elim ((h i).reads a) (hreads a)
    writes := fun a ha => ((haccesses i).writes a ha).elim ((h i).writes a) (hwrites a) }

/-- The recorded accesses of a state without effects. -/
lemma State.EffectFree.accessed (h : s.EffectFree followCalls) :
    (∀ a ∈ s.accesses.readSet,
      ∃ kind index, a = .slot kind index ∧ (followCalls = false → kind ≠ .static)) ∧
    ∀ a ∈ s.accesses.writeSet, ∃ kind index, a = .slot kind index ∧ kind ≠ .static := by
  unfold State.accesses
  cases s.entry? with
  | none => exact ⟨nofun, nofun⟩
  | some f =>
    simp only [Option.bind_some]
    exact ⟨fun a ha => (h f.world).reads a ((SortedMap.contains_iff_mem_keys _ _).2 ha),
      fun a ha => (h f.world).writes a ((SortedMap.contains_iff_mem_keys _ _).2 ha)⟩

end

/-! ## Instructions -/

namespace Machine

variable {config : Config} {i : Instruction} {s : State} {reads writes : Access → Prop}

/-- Performing an instruction makes the accesses of its handler, whether it succeeds or fails. -/
lemma performInstruction_accesses
    (hdispatch : Exec.Keeps (State.Accesses reads writes) (JumpTable.standard.dispatch config i))
    (s : State) : s.Accesses reads writes (performInstruction config .standard i s).2 := by
  have hperforms := performInstruction_performs config .standard i s
  generalize performInstruction config .standard i s = outcome at hperforms
  have hafter := hdispatch s
  unfold Exec.after at hafter
  cases hperforms with
  | fails hfails _ =>
    rw [hfails] at hafter
    exact IsTrans.trans _ _ _ hafter (.of_worlds rfl)
  | jumps hok _ =>
    rw [hok] at hafter
    exact IsTrans.trans _ _ _ hafter (.of_worlds rfl)
  | advances hok _ hadvance =>
    rw [hok] at hafter
    have hworlds := advance_worlds hadvance
    exact IsTrans.trans _ _ _ hafter (.of_worlds hworlds)
  | leaves hok _ hadvance =>
    rw [hok] at hafter
    obtain rfl := advance_error hadvance
    exact IsTrans.trans _ _ _ hafter (.of_worlds rfl)

/-- Executing an instruction makes the accesses of its handler at most. -/
lemma execute_accesses {m : Machine} (htable : m.table = .standard)
    (hdispatch : Exec.Keeps (State.Accesses reads writes)
      (JumpTable.standard.dispatch m.config i)) :
    m.state.Accesses reads writes (m.execute i).2.state := by
  rcases execute_state m i with ⟨status, hstate⟩ | hstate
  · rw [hstate]
    exact .of_worlds rfl
  · rw [hstate, htable]
    exact performInstruction_accesses hdispatch m.state

/-- An instruction that a scan lets pass has no effect, whether it succeeds or fails. -/
lemma execute_effectFree {m : Machine} {followCalls : Bool} (htable : m.table = .standard)
    (h : m.state.EffectFree followCalls) (hpass : i.Passable m.state.depth)
    (hload : followCalls = false → i.opcode.isStaticLoad = false) :
    (m.execute i).2.state.EffectFree followCalls := by
  have hdispatch := Handler.run_accesses m.config i
    (JumpTable.handler_ne_allocateStatics hpass.not_initSSlot)
    (JumpTable.handler_ne_storeStatic hpass.not_staticStore)
    (JumpTable.handler_ne_syscall hpass.not_syscall)
  refine h.accesses (execute_accesses htable hdispatch) ?_ ?_
  · rintro a ⟨kind, index, hhandler, rfl⟩
    refine ⟨kind, index, rfl, ?_⟩
    rintro hfollow rfl
    exact JumpTable.handler_ne_loadStatic (hload hfollow) hhandler
  · rintro a ⟨kind, index, hhandler, rfl⟩
    refine ⟨kind, index, rfl, ?_⟩
    rintro rfl
    exact JumpTable.handler_ne_storeStatic hpass.not_staticStore hhandler

/-! ## Scans -/

/-- A scan at a machine that has seen no effect.  Where calls are not followed, it is in the entry
frame. -/
structure ScansEffectFree (script : Script) (config : Config) (m : Machine) : Prop where
  /-- The machine has the shape of a machine of a scan. -/
  scanning : Scanning script config m
  /-- The machine has seen no effect. -/
  effectFree : m.state.EffectFree config.followCalls
  /-- Where calls are not followed, there is only the entry frame. -/
  atEntry : config.followCalls = false → m.state.depth = 1

variable {script : Script} {m m' : Machine} {entry : Nat} {scan scan' : Scan}

/-- A machine that has just loaded a script has seen no effect. -/
lemma loaded_scansEffectFree (script : Script) (config : Config) (watchdog : Watchdog)
    (supply offset : Nat) :
    ScansEffectFree script config (loaded script config watchdog supply offset) where
  scanning := loaded_scanning script config watchdog supply offset
  effectFree := State.effectFree_of_worlds (.inr ⟨script, rfl⟩)
  atEntry _ := rfl

/-- Where calls are not followed, what the scan lets pass loads no static field. -/
lemma ScansEffectFree.not_staticLoad (h : ScansEffectFree script config m)
    (hpasses : Scan.predicate entry config.followCalls scan m i = (false, scan'))
    (hfollow : config.followCalls = false) : i.opcode.isStaticLoad = false := by
  have hdepth : m.state.depth ≤ 1 := Nat.le_of_eq (h.atEntry hfollow)
  exact (Scan.passes_atEntry hdepth hpasses).1.not_staticLoad

/-- An instruction that the scan lets pass has no effect, whether it succeeds or fails. -/
lemma ScansEffectFree.execute (h : ScansEffectFree script config m)
    (hpasses : Scan.predicate entry config.followCalls scan m i = (false, scan')) :
    (m.execute i).2.state.EffectFree config.followCalls :=
  execute_effectFree h.scanning.table h.effectFree (Scan.passable_of_passes hpasses)
    (h.not_staticLoad hpasses)

/-- A turn of a scan has no effect. -/
lemma ScansEffectFree.turn (h : ScansEffectFree script config m)
    (hturn : m.Turn (Scan.predicate entry config.followCalls) scan scan' m' i) :
    ScansEffectFree script config m' := by
  obtain ⟨f, rest, hframes⟩ := List.exists_cons_of_ne_nil h.scanning.nonempty
  obtain ⟨hscanning, hstep, hskippable, -⟩ := h.scanning.turn hframes hturn
  have hexecute := h.execute hturn.passes
  rw [hturn.executes] at hexecute
  refine ⟨hscanning, hexecute, fun hfollow => ?_⟩
  have hdepth := h.atEntry hfollow
  unfold State.depth at hdepth ⊢
  rw [hframes] at hdepth
  have hrest : rest = [] := by simpa using hdepth
  have hplain : i.opcode.isTerminator = false := by
    cases hterminator : i.opcode.isTerminator with
    | false => rfl
    | true =>
      have hfollowed := ((hskippable hrest).1.terminator hterminator).2
      rw [hfollow] at hfollowed
      cases hfollowed
  generalize m'.state.frames = frames at hstep
  cases hstep with
  | plain hop hskeleton => exact hdepth
  | call hop offset =>
    rcases Scan.isDirectCall_iff.1 hop with hcall | hcall <;> rw [hcall] at hplain <;> cases hplain
  | ret hop =>
    rw [hop] at hplain
    cases hplain

/-- A scan leaves a machine behind that has seen no effect. -/
lemma ScansEffectFree.ends {ending : Ending Scan} (h : ScansEffectFree script config m)
    (hends : m.Ends (Scan.predicate entry config.followCalls) scan ending) :
    ending.machine.state.EffectFree config.followCalls := by
  cases hends with
  | halted | malformed | finished | stopped => exact h.effectFree
  | failed _ _ hpasses hfails =>
    have hexecute := h.execute hpasses
    rwa [hfails] at hexecute

end Machine

/-- The machines at which a scan of a script arrives: the one that loading leaves behind, the ones
between two instructions, and the one that the scan leaves behind. -/
inductive Scan.Visits (script : Script) (config : Config) (watchdog : Watchdog) (entry : Nat) :
    Machine → Prop
  /-- The script has been loaded, or loading it has failed. -/
  | loading : Visits script config watchdog entry
    ((Machine.create config watchdog 0).loadScript script entry).2
  /-- The scan has made some turns. -/
  | turns {m₀ m : Machine} {scan : Scan}
    (hload : (Machine.create config watchdog 0).loadScript script entry = (.ok (), m₀))
    (hturns : m₀.Turns (predicate entry config.followCalls) start scan m) :
    Visits script config watchdog entry m
  /-- The scan has ended. -/
  | ending {m₀ : Machine}
    (hload : (Machine.create config watchdog 0).loadScript script entry = (.ok (), m₀)) :
    Visits script config watchdog entry
      (m₀.run (predicate entry config.followCalls) start).machine

section

variable {script : Script} {config : Config} {watchdog : Watchdog} {entry : Nat} {m : Machine}

/-- A script that fails to be loaded leaves no world behind. -/
lemma Machine.loadScript_error {e : LocatedError}
    (h : (create config watchdog 0).loadScript script entry = (.error e, m)) :
    m.state = .initial 0 := by
  unfold loadScript create State.loadScript at h
  simp only at h
  split at h
  · cases h
    rfl
  · split at h
    · cases h
    · cases h
      rfl

/-- Wherever a scan arrives, no effect has occurred. -/
theorem Scan.Visits.effectFree (h : Visits script config watchdog entry m) :
    m.state.EffectFree config.followCalls := by
  cases h with
  | loading =>
    cases hload : (Machine.create config watchdog 0).loadScript script entry with
    | mk result m₀ =>
      cases result with
      | error e =>
        rw [Machine.loadScript_error hload]
        exact State.effectFree_of_worlds (.inl rfl)
      | ok u =>
        obtain ⟨rfl, -, -⟩ := Machine.loadScript_ok hload
        exact (Machine.loaded_scansEffectFree _ _ _ _ _).effectFree
  | turns hload hturns =>
    obtain ⟨rfl, -, -⟩ := Machine.loadScript_ok hload
    have hscan : Machine.ScansEffectFree script config m :=
      hturns.invariant (P := fun _ m => Machine.ScansEffectFree script config m)
        (Machine.loaded_scansEffectFree script config watchdog 0 entry)
        fun _ _ _ _ _ hm hturn => hm.turn hturn
    exact hscan.effectFree
  | ending hload =>
    obtain ⟨rfl, -, -⟩ := Machine.loadScript_ok hload
    have hrun : ∃ scan' m', Machine.ScansEffectFree script config m' ∧
        Machine.Ends (predicate entry config.followCalls) scan' m'
          (Machine.run (predicate entry config.followCalls) start
            (Machine.loaded script config watchdog 0 entry)) :=
      Machine.run_invariant (P := fun _ m => Machine.ScansEffectFree script config m)
        (Machine.loaded_scansEffectFree script config watchdog 0 entry)
        fun _ _ _ _ _ hm hturn => hm.turn hturn
    obtain ⟨scan', m', hm', hends⟩ := hrun
    exact hm'.ends hends

/-- The report on a method describes a machine at which its scan arrives. -/
lemma exists_visited (script : Script) (config : Config) (watchdog : Watchdog) (method : Method) :
    ∃ m, Scan.Visits script config watchdog method.offset m ∧
      (analyzeMethod script config watchdog method).1.reads = m.state.accesses.readSet ∧
      (analyzeMethod script config watchdog method).1.writes = m.state.accesses.writeSet := by
  have hloading : Scan.Visits script config watchdog method.offset _ := .loading
  unfold analyzeMethod
  cases hload : (Machine.create config watchdog 0).loadScript script method.offset with
  | mk result m₀ =>
    rw [hload] at hloading
    cases result with
    | error e => exact ⟨m₀, hloading, rfl, rfl⟩
    | ok u => exact ⟨_, .ending hload, rfl, rfl⟩

end

/-- A scan executes no instruction with a lasting effect.  Wherever it arrives, the static fields
are uninitialized with nothing stored and there is no view of storage.  The report lists only locals
and arguments as written, no storage key as read, and no static field as read unless calls are
followed. -/
theorem analyzeMethod_effectFree (script : Script) (config : Config) (watchdog : Watchdog)
    (method : Method) :
    (∀ m, Scan.Visits script config watchdog method.offset m → ∀ i,
      (m.state.worldAt i).statics = .untouched .static ∧ (m.state.worldAt i).storage = none) ∧
    (∀ a ∈ (analyzeMethod script config watchdog method).1.writes,
      ∃ index, a = .slot .local index ∨ a = .slot .argument index) ∧
    (∀ key, .storage key ∉ (analyzeMethod script config watchdog method).1.reads) ∧
    (config.followCalls = false →
      ∀ index, .slot .static index ∉ (analyzeMethod script config watchdog method).1.reads) := by
  obtain ⟨m, hvisited, hreads, hwrites⟩ := exists_visited script config watchdog method
  obtain ⟨hread, hwritten⟩ := hvisited.effectFree.accessed
  rw [hreads, hwrites]
  refine ⟨fun m hm i => ⟨(hm.effectFree i).statics, (hm.effectFree i).storage⟩, ?_, ?_, ?_⟩
  · intro a ha
    obtain ⟨kind, index, rfl, hkind⟩ := hwritten a ha
    cases kind with
    | static => exact absurd rfl hkind
    | «local» => exact ⟨index, .inl rfl⟩
    | argument => exact ⟨index, .inr rfl⟩
  · intro key hkey
    obtain ⟨kind, index, heq, -⟩ := hread _ hkey
    cases heq
  · intro hfollow index hindex
    obtain ⟨kind, index, heq, hkind⟩ := hread _ hindex
    cases heq
    exact hkind hfollow rfl

/-- A script that calls a routine, which loads a static field and returns, and stores a static field
afterwards. -/
def callingScript : Script := ⟨[0x34, 0x03, 0x60, 0x58, 0x45, 0x40]⟩

/-- The machine that executes the script, after some steps. -/
def callingMachine (count : Nat) : Machine :=
  (Machine.steps count (Machine.loaded callingScript { followCalls := true } .lazy 0 0)).2

/-- A scan that follows calls arrives in the routine, where a static field has been read and none
has been stored to. -/
theorem analyzeMethod_effectFree_callingScript :
    Scan.Visits callingScript { followCalls := true } .lazy 0 (callingMachine 2) ∧
      (callingMachine 2).state.depth = 2 ∧
      (callingMachine 2).state.accesses.readSet = [.slot .static 0] ∧
      ((callingMachine 2).state.worldAt 0).statics = .untouched .static ∧
      ((callingMachine 2).state.worldAt 0).storage = none := by
  have hcall : (callingMachine 0).Turn (Scan.predicate 0 true) .start ⟨some 0, none⟩
      (callingMachine 1) ⟨0, .call, [3]⟩ := ⟨nofun, rfl, rfl, rfl⟩
  have hload : (callingMachine 1).Turn (Scan.predicate 0 true) ⟨some 0, none⟩ ⟨some 0, none⟩
      (callingMachine 2) ⟨3, .ldSFld0, []⟩ := ⟨nofun, rfl, rfl, rfl⟩
  have hvisits : Scan.Visits callingScript { followCalls := true } .lazy 0 (callingMachine 2) :=
    .turns rfl (.more hcall (.more hload (.none _ _)))
  obtain ⟨hstatics, hstorage⟩ := (analyzeMethod_effectFree callingScript { followCalls := true }
    .lazy (.ofName "main" 0)).1 _ hvisits 0
  exact ⟨hvisits, rfl, rfl, hstatics, hstorage⟩

end SymbolicScript
