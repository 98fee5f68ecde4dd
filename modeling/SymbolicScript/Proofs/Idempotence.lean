import SymbolicScript.Proofs.EntryPlacement
import SymbolicScript.Proofs.KnownFacts
import SymbolicScript.Proofs.Rerun

/-!
# Moving entries is idempotent

Once the entries of a contract have been moved, moving them again changes nothing
(`Analysis.ofContract_ofContract`).  This is not immediate: the second scan of a method begins in
the middle of its body with nothing on the evaluation stack, so it does not know what the first scan
had found out by then.

The first scan ends in front of an instruction of the entry frame, or in a followed routine.  In the
first case the second scan begins in front of the same instruction, and knows less there; since it
stops for the opcode alone, or fails to resolve whatever cannot be resolved by a machine that knows
more, it ends at once.  In the second case it begins at the call.  The invariant of the first scan
(`Scan.Retraced`) says that the second one then follows it through the routine, always knowing less,
unless it fails on the way; and wherever it stops or fails in the routine, the entry stays at the
call.
-/

namespace SymbolicScript

namespace Scan

variable {script : Script} {config : Config} {entry site : Nat} {scan scan' : Scan}
  {a b b' m : Machine}
  {i : Instruction} {ρ : Renaming}

/-! ## The predicate of the scan -/

/-- In the entry frame the scan lets pass what may be skipped. -/
lemma stopInMethod_eq_none {followCalls : Bool} (h : i.Skippable followCalls) :
    stopInMethod entry followCalls i = none := by
  have heffectful : isEffectful i.opcode = false := by
    simp [isEffectful, h.not_initSlot, h.not_initSSlot, h.not_syscall, h.not_staticLoad,
      h.not_staticStore]
  unfold stopInMethod
  rw [heffectful, if_neg Bool.false_ne_true]
  cases hterminator : i.opcode.isTerminator with
  | false => rfl
  | true =>
    obtain ⟨hcall, hfollow⟩ := h.terminator hterminator
    rcases hcall with hop | hop <;> simp [hop, hfollow, isDirectCall]

/-- In the entry frame the scan goes on in front of what may be skipped. -/
lemma predicate_of_skippable (hdepth : m.state.depth ≤ 1) (hstop : scan.stop = none)
    (h : i.Skippable config.followCalls) :
    predicate entry config.followCalls scan m i =
      (false, if isDirectCall i.opcode then { scan with callSite := some i.offset } else scan) := by
  unfold predicate consider
  rw [if_pos hdepth, stopInMethod_eq_none h]
  simp only
  split <;> simp [hstop]

/-- In the entry frame the scan stops where there is a reason. -/
lemma predicate_of_stopInMethod {stop : Nat × StopReason} (hdepth : m.state.depth ≤ 1)
    (h : stopInMethod entry config.followCalls i = some stop) :
    predicate entry config.followCalls scan m i = (true, { scan with stop := some stop }) := by
  unfold predicate consider
  rw [if_pos hdepth, h]
  rfl

/-- In a followed routine the scan goes on unless there is a reason to stop. -/
lemma predicate_of_stopInCallee_none (hdepth : 1 < m.state.depth) (hstop : scan.stop = none)
    (h : stopInCallee (scan.callSite.getD entry) config.followCalls i = none) :
    predicate entry config.followCalls scan m i = (false, scan) := by
  unfold predicate consider
  rw [if_neg (Nat.not_le.2 hdepth), h]
  simp [hstop]

/-- In a followed routine the scan stops where there is a reason. -/
lemma predicate_of_stopInCallee {stop : Nat × StopReason} (hdepth : 1 < m.state.depth)
    (h : stopInCallee (scan.callSite.getD entry) config.followCalls i = some stop) :
    predicate entry config.followCalls scan m i = (true, { scan with stop := some stop }) := by
  unfold predicate consider
  rw [if_neg (Nat.not_le.2 hdepth), h]
  rfl

/-- In the entry frame a scan stops for a reason that does not depend on where it began, unless the
method ends there. -/
lemma stopInMethod_of_entry {followCalls : Bool} {offset : Nat} {reason : StopReason}
    (h : stopInMethod entry followCalls i = some (offset, reason)) :
    ∃ reason', stopInMethod i.offset followCalls i = some (i.offset, reason') := by
  cases hagain : stopInMethod i.offset followCalls i with
  | none =>
    rw [stopInMethod_eq_none (skippable_of_stopInMethod hagain)] at h
    cases h
  | some stop =>
    obtain ⟨offset', reason'⟩ := stop
    have hoffset : offset' = i.offset := by
      rcases stopInMethod_eq_some hagain with ⟨-, hoffset⟩ | ⟨-, hoffset, -⟩
      · exact hoffset
      · exact hoffset
    exact ⟨reason', by rw [hoffset]⟩

/-- The scan lets no call of the host pass in a followed routine. -/
lemma ne_syscall_of_stopInCallee {followCalls : Bool}
    (h : stopInCallee site followCalls i = none) : i.opcode ≠ .syscall := by
  intro hop
  unfold stopInCallee at h
  rw [if_pos (by rw [hop]; rfl)] at h
  cases h

/-! ## Settled entries -/

/-- The scan of a method that begins at an offset leaves its entry there. -/
def Settled (script : Script) (config : Config) (site : Nat) : Prop :=
  (((Machine.loaded script config .lazy 0 site).run (predicate site config.followCalls)
    .start).placement site).1 = site

/-- A scan that begins at an offset comes to a machine without having stopped, and remembers no
other call than one at that offset. -/
structure Comes (script : Script) (config : Config) (site : Nat) (scan : Scan) (m : Machine) :
    Prop where
  /-- The scan goes on at the machine. -/
  run_eq : m.run (predicate site config.followCalls) scan =
    (Machine.loaded script config .lazy 0 site).run (predicate site config.followCalls) .start
  /-- The scan has not stopped. -/
  stop : scan.stop = none
  /-- The scan remembers no other call. -/
  callSite : scan.callSite.getD site = site

/-- A scan comes to the machine it begins with. -/
lemma comes_start (script : Script) (config : Config) (site : Nat) :
    Comes script config site .start (Machine.loaded script config .lazy 0 site) :=
  ⟨rfl, rfl, rfl⟩

/-- An entry is settled if its scan comes to an end that leaves it where it is. -/
lemma Comes.settled {ending : Machine.Ending Scan} (h : Comes script config site scan a)
    (hends : a.Ends (predicate site config.followCalls) scan ending)
    (hplacement : (ending.placement site).1 = site) : Settled script config site := by
  unfold Settled
  rw [← h.run_eq, hends.run_eq, hplacement]

/-- An entry is settled if its scan comes to an instruction that fails, in the entry frame only as
its first instruction. -/
lemma Comes.settled_of_failed {a' : Machine} {e : LocatedError}
    (h : Comes script config site scan a) (htable : a.table = .standard)
    (hrunning : a.state.status ≠ .halted) (hnext : a.next = .ok (some i))
    (hpasses : predicate site config.followCalls scan a i = (false, scan'))
    (hsite : a.state.depth ≤ 1 → i.offset = site) (hfails : a.execute i = (.error e, a')) :
    Settled script config site := by
  refine h.settled (.failed hrunning hnext hpasses hfails) ?_
  unfold Machine.Ending.placement Machine.failure
  cases he : e.payload.isUnresolved with
  | false => rfl
  | true =>
    obtain ⟨hoffset, hdepth', -⟩ := passes_unresolved htable hpasses hfails he
    simp only [if_true]
    by_cases hdepth : a.state.depth ≤ 1
    · rw [if_neg (by omega), hoffset, hsite hdepth]
    · obtain ⟨-, rfl⟩ := passes_inCallee (Nat.not_le.1 hdepth) hpasses
      rw [if_pos (by omega), h.callSite]

/-! ## Following the first scan -/

/-- What is unresolved for a machine fails for a machine that knows less. -/
lemma execute_error_of_simulates {e : LocatedError} (h : a.Simulates ρ b)
    (hop : i.opcode ≠ .syscall) (hfails : b.execute i = (.error e, b'))
    (he : e.payload.isUnresolved = true) : ∃ e' a', a.execute i = (.error e', a') := by
  obtain ⟨-, hresolved | hperform⟩ := Machine.execute_error hfails
  · rw [he] at hresolved
    cases hresolved
  cases hexecute : a.execute i with
  | mk result a' =>
    cases result with
    | error e' => exact ⟨e', a', rfl⟩
    | ok u =>
      have hperform' := (Machine.execute_ok_state hexecute).1
      rw [h.table] at hperform'
      rw [h.table', h.config] at hperform
      have hresolved := (Machine.performInstruction_lockstep h.state hop hperform').1 _ _ hperform
      rw [he] at hresolved
      cases hresolved

/-- Another machine is followed by a scan that begins at an offset: the scan has come to a machine
that knows less, unless it leaves its entry at the offset. -/
inductive Followed (script : Script) (config : Config) (site : Nat) (b : Machine) : Prop
  | settled (h : Settled script config site)
  | coming {ρ : Renaming} {scan : Scan} {a : Machine} (hcomes : Comes script config site scan a)
    (hab : a.Simulates ρ b)

/-- A scan that has come to a machine which knows less follows a turn of the other machine. -/
lemma Comes.follow (h : Comes script config site scan a) (hab : a.Simulates ρ b)
    (hrunning : a.state.status ≠ .halted) (hnext : a.next = .ok (some i))
    (hop : i.opcode ≠ .syscall)
    (hpasses : predicate site config.followCalls scan a i = (false, scan'))
    (hstop : scan'.stop = none) (hcallSite : scan'.callSite.getD site = site)
    (hsite : a.state.depth ≤ 1 → i.offset = site) (hexecute : b.execute i = (.ok (), b')) :
    Followed script config site b' := by
  cases hexecute' : a.execute i with
  | mk result a' =>
    cases result with
    | error e =>
      exact .settled (h.settled_of_failed hab.table hrunning hnext hpasses hsite hexecute')
    | ok u =>
      obtain ⟨ρ', -, hab'⟩ := hab.execute hop hexecute' hexecute
      have hturn : a.Turn (predicate site config.followCalls) scan scan' a' i :=
        ⟨hrunning, hnext, hpasses, hexecute'⟩
      exact .coming ⟨hturn.run_eq.symm.trans h.run_eq, hstop, hcallSite⟩ hab'

/-- The invariant of the first scan: in a routine, it is followed by the scan that begins at the
call. -/
structure Retraced (script : Script) (config : Config) (entry : Nat) (scan : Scan) (b : Machine) :
    Prop where
  /-- The entry frame is on the path. -/
  onPath : OnPath script config entry scan b
  /-- The scan from the call follows. -/
  followed : ∀ site, 1 < b.state.depth → scan.callSite = some site →
    Followed script config site b

/-- The first scan has not halted. -/
lemma Retraced.running (h : Retraced script config entry scan b) : b.state.status ≠ .halted := by
  rw [h.onPath.scanning.running]
  nofun

/-- In a routine, the machine to which the scan from the call has come is in a routine as well. -/
lemma Retraced.follower (h : Retraced script config entry scan b) (hdepth : 1 < b.state.depth)
    (hsite : scan.callSite = some site) :
    Settled script config site ∨ ∃ ρ memory a, Comes script config site memory a ∧
      a.Simulates ρ b ∧ 1 < a.state.depth ∧ a.state.status ≠ .halted := by
  cases h.followed site hdepth hsite with
  | settled hsettled => exact .inl hsettled
  | @coming ρ memory a hcomes hab =>
    have hrunning := h.running
    rw [hab.state.depth] at hdepth
    rw [hab.state.status] at hrunning
    exact .inr ⟨ρ, memory, a, hcomes, hab, hdepth, hrunning⟩

/-- In front of an instruction of the entry frame, the scan that begins at the instruction knows
less than the first one. -/
lemma Retraced.loaded_simulates (h : Retraced script config entry scan b)
    (hdepth : b.state.depth ≤ 1) (hnext : b.next = .ok (some i)) (hret : i.opcode ≠ .ret) :
    (Machine.loaded script config .lazy 0 i.offset).Simulates (fun _ _ => False) b := by
  obtain ⟨f, hframes⟩ := h.onPath.exists_frame hdepth
  obtain ⟨-, hoffset⟩ := decoded_of_ne_ret h.onPath.scanning hframes hnext hret
  rw [hoffset]
  exact Machine.loaded_simulates h.onPath.scanning hframes .lazy 0

/-- A turn of the first scan preserves the invariant. -/
lemma Retraced.turn (h : Retraced script config entry scan b)
    (hturn : b.Turn (predicate entry config.followCalls) scan scan' b' i) :
    Retraced script config entry scan' b' := by
  refine ⟨h.onPath.turn hturn, fun site hdepth' hsite => ?_⟩
  by_cases hdepth : b.state.depth ≤ 1
  · -- The scan from the call begins here.
    obtain ⟨hskippable, hcall, hremembered⟩ := h.onPath.call_of_depth hturn hdepth hdepth'
    cases hsite.symm.trans hremembered
    have hab := h.loaded_simulates hdepth hturn.next hskippable.ne_ret
    have hstart : (Machine.loaded script config .lazy 0 i.offset).state.depth ≤ 1 := Nat.le_refl 1
    have hpasses : predicate i.offset config.followCalls .start
        (Machine.loaded script config .lazy 0 i.offset) i = (false, ⟨some i.offset, none⟩) := by
      rw [predicate_of_skippable hstart rfl hskippable, if_pos hcall]
      rfl
    exact (comes_start script config i.offset).follow hab nofun
      (hab.next_eq.symm.trans hturn.next) hskippable.not_syscall hpasses rfl rfl (fun _ => rfl)
      hturn.executes
  · -- The scan from the call goes on.
    obtain ⟨hpass, rfl⟩ := passes_inCallee (by omega) hturn.passes
    rcases h.follower (Nat.not_le.1 hdepth) hsite with
      hsettled | ⟨ρ, memory, a, hcomes, hab, hdeep, hrunning⟩
    · exact .settled hsettled
    · rw [hsite, Option.getD_some] at hpass
      have hpasses := predicate_of_stopInCallee_none hdeep hcomes.stop (by rwa [hcomes.callSite])
      exact hcomes.follow hab hrunning (hab.next_eq.symm.trans hturn.next)
        (ne_syscall_of_stopInCallee hpass) hpasses hcomes.stop hcomes.callSite
        (fun hle => absurd hdeep (Nat.not_lt.2 hle)) hturn.executes

/-! ## The end of the first scan -/

/-- Where the first scan stops in the entry frame, the entry is settled. -/
lemma Retraced.settled_atEntry (h : Retraced script config entry scan b) {offset : Nat}
    {reason : StopReason} (hdepth : b.state.depth ≤ 1) (hnext : b.next = .ok (some i))
    (hret : i.opcode ≠ .ret)
    (hfound : stopInMethod entry config.followCalls i = some (offset, reason)) :
    Settled script config i.offset := by
  have hab := h.loaded_simulates hdepth hnext hret
  obtain ⟨reason', hagain⟩ := stopInMethod_of_entry hfound
  exact (comes_start script config i.offset).settled
    (.stopped nofun (hab.next_eq.symm.trans hnext)
      (predicate_of_stopInMethod (Nat.le_refl 1) hagain)) rfl

/-- Where the first scan stops in a followed routine, the call is settled. -/
lemma Retraced.settled_inCallee (h : Retraced script config entry scan b) {offset : Nat}
    {reason : StopReason} (hdepth : 1 < b.state.depth) (hsite : scan.callSite = some site)
    (hnext : b.next = .ok (some i))
    (hfound : stopInCallee site config.followCalls i = some (offset, reason)) :
    Settled script config site := by
  rcases h.follower hdepth hsite with
    hsettled | ⟨ρ, memory, a, hcomes, hab, hdeep, hrunning⟩
  · exact hsettled
  · refine hcomes.settled (.stopped hrunning (hab.next_eq.symm.trans hnext)
      (predicate_of_stopInCallee hdeep (by rwa [hcomes.callSite]))) ?_
    exact (stopInCallee_eq_some hfound).2

/-- Where an instruction of the entry frame cannot be resolved, the entry is settled. -/
lemma Retraced.settled_failsAtEntry (h : Retraced script config entry scan b)
    {e : LocatedError} (hdepth : b.state.depth ≤ 1) (hnext : b.next = .ok (some i))
    (hskippable : i.Skippable config.followCalls) (hfails : b.execute i = (.error e, b'))
    (he : e.payload.isUnresolved = true) : Settled script config i.offset := by
  have hab := h.loaded_simulates hdepth hnext hskippable.ne_ret
  obtain ⟨e', a', hfails'⟩ := execute_error_of_simulates hab hskippable.not_syscall hfails he
  exact (comes_start script config i.offset).settled_of_failed hab.table nofun
    (hab.next_eq.symm.trans hnext) (predicate_of_skippable (Nat.le_refl 1) rfl hskippable)
    (fun _ => rfl) hfails'

/-- Where an instruction of a followed routine cannot be resolved, the call is settled. -/
lemma Retraced.settled_failsInCallee (h : Retraced script config entry scan b)
    {e : LocatedError} (hdepth : 1 < b.state.depth) (hsite : scan.callSite = some site)
    (hnext : b.next = .ok (some i)) (hpass : stopInCallee site config.followCalls i = none)
    (hfails : b.execute i = (.error e, b')) (he : e.payload.isUnresolved = true) :
    Settled script config site := by
  rcases h.follower hdepth hsite with
    hsettled | ⟨ρ, memory, a, hcomes, hab, hdeep, hrunning⟩
  · exact hsettled
  · obtain ⟨e', a', hfails'⟩ :=
      execute_error_of_simulates hab (ne_syscall_of_stopInCallee hpass) hfails he
    exact hcomes.settled_of_failed hab.table hrunning (hab.next_eq.symm.trans hnext)
      (predicate_of_stopInCallee_none hdeep hcomes.stop (by rwa [hcomes.callSite]))
      (fun hle => absurd hdeep (Nat.not_lt.2 hle)) hfails'

/-- Where the first scan ends, it has moved the entry to a settled one, or has left it where it
was. -/
lemma Retraced.settled {placement : Nat × StopReason × Option LocatedError}
    (h : Retraced script config entry scan b)
    (hconcludes : Concludes config entry scan b placement b') :
    placement.1 = entry ∨ Settled script config placement.1 := by
  cases hconcludes with
  | stays => exact .inl rfl
  | stopsAtEntry hdepth hnext hret _ hfound =>
    exact .inr (h.settled_atEntry hdepth hnext hret hfound)
  | stopsInCallee hdepth hsite hnext _ hfound =>
    exact .inr (h.settled_inCallee hdepth hsite hnext hfound)
  | failsAtEntry hdepth hnext hskippable hfails he =>
    exact .inr (h.settled_failsAtEntry hdepth hnext hskippable hfails he)
  | failsInCallee hdepth hsite hnext hpass hfails he =>
    exact .inr (h.settled_failsInCallee hdepth hsite hnext hpass hfails he)

end Scan

/-! ## Methods and contracts -/

variable {script : Script} {config : Config}

/-- A scan that begins where the analysis lets a method begin leaves its entry there. -/
lemma Scan.settled_of_loaded (script : Script) (config : Config) (entry : Nat) :
    let ending := (Machine.loaded script config .lazy 0 entry).run
      (predicate entry config.followCalls) .start
    Settled script config (ending.placement entry).1 := by
  intro ending
  have hstart : Retraced script config entry .start (Machine.loaded script config .lazy 0 entry) :=
    { onPath :=
        ⟨Machine.loaded_scanning script config .lazy 0 entry, rfl, .atEntry .here⟩
      followed := fun _ hdepth _ => absurd hdepth (Nat.lt_irrefl 1) }
  obtain ⟨memory, m, hretraced, hends⟩ :=
    Machine.run_invariant hstart fun _ _ _ _ _ h hturn => h.turn hturn
  rcases hretraced.settled (hretraced.onPath.concludes hends) with hentry | hsettled
  · -- The first scan is the one that begins where the entry is.
    have hentry : (ending.placement entry).1 = entry := hentry
    rw [hentry]
    exact hentry
  · exact hsettled

/-- A method that begins where the analysis lets it begin is not moved. -/
theorem settledOffset_settledOffset (method : Method) :
    settledOffset script config { method with offset := settledOffset script config method } =
      settledOffset script config method := by
  have hsettled : (settledOffset script config method = method.offset ∧
      (∃ e m, (Machine.create config .lazy 0).loadScript script method.offset = (.error e, m))) ∨
      Scan.Settled script config (settledOffset script config method) := by
    unfold settledOffset analyzeMethod
    cases hload : (Machine.create config .lazy 0).loadScript script method.offset with
    | mk result m =>
      cases result with
      | error e => exact .inl ⟨rfl, e, m, rfl⟩
      | ok u =>
        obtain ⟨rfl, -, -⟩ := Machine.loadScript_ok hload
        exact .inr (Scan.settled_of_loaded script config method.offset)
  generalize settledOffset script config method = offset at hsettled
  unfold settledOffset analyzeMethod
  simp only
  cases hload : (Machine.create config .lazy 0).loadScript script offset with
  | mk result m =>
    cases result with
    | error e => rfl
    | ok u =>
      rcases hsettled with ⟨rfl, e, m', hfails⟩ | hsettled
      · rw [hfails] at hload
        cases hload
      · obtain ⟨rfl, -, -⟩ := Machine.loadScript_ok hload
        exact hsettled

namespace Analysis

variable {δ : Type} {w w' : Watchdog}

/-- Under a watchdog that never stops, the methods are moved to where each of them would begin under
the lazy watchdog. -/
lemma moveEntries_analyzeMethods (hw : w.NeverStops) (methods : List Method) :
    moveEntries methods (analyzeMethods script config w methods).1 =
      methods.map fun method => { method with offset := settledOffset script config method } := by
  have hoffsets := analyzeMethods_newOffsets script config hw methods
  calc moveEntries methods (analyzeMethods script config w methods).1
      = List.zipWith (fun (method : Method) offset => { method with offset }) methods
          ((analyzeMethods script config w methods).1.map MethodReport.newOffset) :=
        by rw [List.zipWith_map_right, moveEntries]
    _ = List.zipWith (fun (method : Method) offset => { method with offset }) methods
          (methods.map (settledOffset script config)) := by rw [hoffsets]
    _ = methods.map fun method => { method with offset := settledOffset script config method } := by
        rw [List.zipWith_map_right, List.zipWith_self]

/-- The pass over a contract is idempotent: it leaves a contract as it is that it has already passed
over, whatever watchdogs that never stop are used. -/
theorem ofContract_ofContract (contract : Contract δ) (config : Config) (hw : w.NeverStops)
    (hw' : w'.NeverStops) :
    (ofContract (ofContract contract config w).contract config w').contract =
      (ofContract contract config w).contract := by
  have hagain (script : Script) (methods : List Method) :
      moveEntries (moveEntries methods (analyzeMethods script config w methods).1)
          (analyzeMethods script config w'
            (moveEntries methods (analyzeMethods script config w methods).1)).1 =
        moveEntries methods (analyzeMethods script config w methods).1 := by
    rw [moveEntries_analyzeMethods hw, moveEntries_analyzeMethods hw', List.map_map]
    refine List.map_congr_left fun method _ => ?_
    simp only [Function.comp, settledOffset_settledOffset]
  have hmethods := hagain contract.script contract.manifest.methods
  simp only [ofContract, Manifest.withMethods, Manifest.methods] at hmethods ⊢
  rw [hmethods]

/-- The script `PUSH1 CALL +2 SYSCALL 0`, whose call enters a routine that begins behind it. -/
def enteringScript : Script := ⟨[0x11, 0x34, 2, 0x41, 0, 0, 0, 0]⟩

/-- The machine that executes the script, after some steps. -/
def enteringMachine (count : Nat) : Machine :=
  (Machine.steps count (Machine.loaded enteringScript { followCalls := true } .lazy 0 0)).2

/-- Where calls are followed, a method that begins at the push is moved to the call. -/
lemma settledOffset_enteringScript :
    settledOffset enteringScript { followCalls := true } (.ofName "main" 0) = 1 := by
  have hpush : (enteringMachine 0).Turn (Scan.predicate 0 true) .start .start (enteringMachine 1)
      ⟨0, .push1, []⟩ := ⟨nofun, rfl, rfl, rfl⟩
  have hcall : (enteringMachine 1).Turn (Scan.predicate 0 true) .start ⟨some 1, none⟩
      (enteringMachine 2) ⟨1, .call, [2]⟩ := ⟨nofun, rfl, rfl, rfl⟩
  -- The system call is reached in the routine, so the scan ends at the call.
  have hends : (enteringMachine 2).Ends (Scan.predicate 0 true) ⟨some 1, none⟩
      ⟨.ok (.stopped ⟨3, .syscall, [0, 0, 0, 0]⟩), enteringMachine 2,
        ⟨some 1, some (1, .effectful)⟩⟩ :=
    .stopped nofun rfl rfl
  have hrun := (hpush.run_eq.trans hcall.run_eq).trans hends.run_eq
  change (((enteringMachine 0).run (Scan.predicate 0 true) .start).placement 0).1 = 1
  rw [hrun]
  rfl

/-- A contract with one method, which the first pass moves and the second one leaves. -/
theorem ofContract_ofContract_pushSyscall :
    let contract : Contract Unit := ⟨enteringScript, .ofMethods "" [.ofName "main" 0], none⟩
    Watchdog.lazy.NeverStops ∧ (Watchdog.steady false).NeverStops ∧
      (ofContract contract { followCalls := true } .lazy).contract.manifest.methods =
        [.ofName "main" 1] ∧
      (ofContract (ofContract contract { followCalls := true } .lazy).contract
          { followCalls := true } (.steady false)).contract =
        (ofContract contract { followCalls := true } .lazy).contract := by
  refine ⟨Watchdog.lazy_neverStops, fun _ => rfl, ?_,
    ofContract_ofContract _ _ Watchdog.lazy_neverStops fun _ => rfl⟩
  change moveEntries [.ofName "main" 0]
    (analyzeMethods enteringScript { followCalls := true } .lazy [.ofName "main" 0]).1 = _
  rw [moveEntries_analyzeMethods Watchdog.lazy_neverStops, List.map_singleton,
    settledOffset_enteringScript]
  rfl

end Analysis

end SymbolicScript
