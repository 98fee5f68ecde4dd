import SymbolicScript.Proofs.BlockEntry
import SymbolicScript.Proofs.TryInstructions

/-!
# Try blocks stay well formed

The routing of exceptions relies on the try blocks that have been entered: a block that is in its
cleanup has one, and a block to which an exception leads has a handler or a cleanup left.  Blocks
are advanced by several instructions and by the unwinding of the invocation stack, also by such as
fail afterwards, and nothing checks these facts again.

This file proves that in every run they hold at all times (`Machine.reaches_tryBlocks`).  In
particular, the offset that stands in for a missing cleanup is never used, and a block never goes
back to an earlier part.
-/

namespace SymbolicScript

/-! ## The offset that stands in for a cleanup -/

/-- The routing of the pending exception, with another offset in the place of a missing cleanup. -/
def Exec.handleExceptionOr (fallback : Nat) : Exec Unit := do
  let s ← get
  match s.frames.dropWhile fun f => f.tries.all TryEntry.isSpent with
  | [] =>
    modify fun s => { s with frames := s.frames.map fun f => { f with tries := [] } }
    throw .unhandledException
  | f :: rest =>
    match f.tries.dropWhile TryEntry.isSpent with
    | [] => throw .unhandledException
    | entry :: outer =>
      modify fun s => { s with frames := { f with tries := entry :: outer } :: rest }
      match entry.phase, entry.catchTarget with
      | .body, some target =>
        push (← takeException)
        setFrame { f with tries := { entry with phase := .handler } :: outer }
        seek target
      | _, _ =>
        setFrame { f with tries := { entry with phase := .cleanup } :: outer }
        seek (entry.finallyTarget.getD fallback)
      markJump

/-- The routing of exceptions falls back to offset zero. -/
theorem Exec.handleExceptionOr_zero : handleExceptionOr 0 = handleException :=
  rfl

/-- What a handler does with an instruction, with another offset in the place of a missing
cleanup. -/
def Handler.runOr (fallback : Nat) (config : Config) (handler : Handler) (i : Instruction) :
    Exec Unit :=
  match handler with
  | raise => do
    let exception ← Exec.pop
    modify fun s => { s with exception := some exception }
    Exec.handleExceptionOr fallback
  | endFinally => do
    let f ← Exec.frame
    match f.tries with
    | [] => throw (.invalidTryState i.opcode)
    | entry :: outer =>
      Exec.setFrame { f with tries := outer }
      if (← get).exception.isSome then
        Exec.handleExceptionOr fallback
      else
        match entry.endTarget with
        | some target => Exec.jumpTo target
        | none => throw (.invalidTryState i.opcode)
  | _ => handler.run config i

/-- The instructions fall back to offset zero. -/
theorem Handler.runOr_zero (config : Config) (handler : Handler) (i : Instruction) :
    handler.runOr 0 config i = handler.run config i := by
  cases handler <;> rfl

/-! ## The fallback is never used -/

/-- Two sequences with the same beginning agree if they agree behind it. -/
lemma bind_congr_of_ok {ε σ α β : Type} {x : EStateM ε σ α} {k k' : α → EStateM ε σ β} {s : σ}
    (h : ∀ a s', x s = .ok a s' → k a s' = k' a s') : (x >>= k) s = (x >>= k') s := by
  simp only [Bind.bind, EStateM.bind]
  cases hx : x s with
  | ok a s' => exact h a s' hx
  | error e s' => rfl

/-- An exception that is routed through well-formed try blocks needs no fallback. -/
lemma Exec.handleExceptionOr_eq (fallback : Nat) {s : State} (hs : WellFormedTries s.tryStacks) :
    handleExceptionOr fallback s = handleException s := by
  rw [handleExceptionOr, handleException, bind_of_ok (get_eq s), bind_of_ok (get_eq s)]
  generalize hfound : (s.frames.dropWhile fun f => f.tries.all TryEntry.isSpent) = found
  cases found with
  | nil => rfl
  | cons f rest =>
    simp only
    generalize htries : f.tries.dropWhile TryEntry.isSpent = tries
    cases tries with
    | nil => rfl
    | cons entry outer =>
      -- The block at which the search ends has been entered, so that it is well formed.
      have hf : f ∈ s.frames := by
        have hsuffix : f :: rest <:+ s.frames := hfound ▸ List.dropWhile_suffix _
        exact hsuffix.subset List.mem_cons_self
      have hentry : entry.WellFormed := by
        have hsuffix : entry :: outer <:+ f.tries := htries ▸ List.dropWhile_suffix _
        exact (hs f.tries (List.mem_map_of_mem hf)).2 entry (hsuffix.subset List.mem_cons_self)
      have hspent : entry.isSpent = false := TryEntry.isSpent_of_dropWhile htries
      have hcleanup := TryEntry.finallyTarget_isSome hentry hspent
      obtain ⟨catchTarget, finallyTarget, endTarget, phase⟩ := entry
      cases phase with
      | body =>
        cases catchTarget with
        | some target => rfl
        | none =>
          obtain ⟨target, rfl⟩ := Option.isSome_iff_exists.1 (hcleanup fun _ => rfl)
          rfl
      | handler =>
        have hphase : ¬TryPhase.handler = .body := by decide
        obtain ⟨target, rfl⟩ :=
          Option.isSome_iff_exists.1 (hcleanup fun h => absurd h hphase)
        rfl
      | cleanup => cases hspent

/-- Where the try blocks are well formed, no instruction needs a fallback. -/
theorem Handler.runOr_eq (fallback : Nat) (config : Config) (handler : Handler) (i : Instruction)
    {s : State} (hs : WellFormedTries s.tryStacks) :
    handler.runOr fallback config i s = handler.run config i s := by
  -- Only two handlers route exceptions, and in front of that the try stacks lose blocks at most.
  cases handler with
  | raise =>
    refine bind_congr_of_ok fun x s₁ hpop => bind_congr_of_ok fun _ s₂ hpending => ?_
    cases hpending
    refine Exec.handleExceptionOr_eq fallback ?_
    have hconfined := Exec.keeps_pop s
    rw [Exec.after_of_ok hpop] at hconfined
    have hframes : s₁.frames = s.frames := hconfined.frames
    unfold State.tryStacks at hs ⊢
    rwa [← hframes] at hs
  | endFinally =>
    refine bind_congr_of_ok fun f s₁ hread => ?_
    cases htries : f.tries with
    | nil => rfl
    | cons entry outer =>
      refine bind_congr_of_ok fun _ s₂ hset => bind_congr_of_ok fun _ s₃ hget => ?_
      cases hget
      split
      · refine Exec.handleExceptionOr_eq fallback ?_
        cases hframes : s.frames with
        | nil => simp [Exec.frame, hframes] at hread
        | cons g rest =>
          rw [Exec.frame_eq hframes] at hread
          cases hread
          simp only [Exec.setFrame, hframes] at hset
          cases hset
          unfold State.tryStacks at hs ⊢
          rw [hframes] at hs
          obtain ⟨hf, hrest⟩ := List.forall_mem_cons.1 hs
          rw [htries] at hf
          exact List.forall_mem_cons.2 ⟨⟨Nat.le_of_succ_le hf.1, fun t ht =>
            hf.2 t (List.mem_cons_of_mem _ ht)⟩, hrest⟩
      · rfl
  | _ => rfl

/-! ## Steps -/

/-- The try block in a place of a frame.  Frames and blocks are counted from the outermost one,
which has place zero. -/
def State.tryAt (s : State) (frame place : Nat) : Option TryEntry :=
  s.frames.reverse[frame]?.bind fun f => f.tries.reverse[place]?

/-- The block lies in the try stack in the place of the frame. -/
lemma State.tryAt_eq_some {s : State} {frame place : Nat} {t : TryEntry}
    (h : s.tryAt frame place = some t) :
    ∃ tries, s.tryStacks.reverse[frame]? = some tries ∧ tries.reverse[place]? = some t := by
  obtain ⟨f, hf, ht⟩ := Option.bind_eq_some_iff.1 h
  refine ⟨f.tries, ?_, ht⟩
  rw [tryStacks, ← List.map_reverse, List.getElem?_map, hf, Option.map_some]

namespace Machine

/-- Advancing a frame does not touch its try blocks. -/
lemma advance_tryStacks {below : Nat} {i : Instruction} {s s' : State}
    (h : advance below i s = .ok () s') : s'.tryStacks = s.tryStacks := by
  unfold advance at h
  split at h
  · cases h
    rfl
  · simp only at h
    split at h
    · cases h
      rfl
    · next f hf =>
      split at h
      · next g hseek =>
        cases h
        obtain ⟨rfl, -⟩ := Frame.seek_ok hseek
        obtain ⟨hplace, hget⟩ := List.getElem?_eq_some_iff.1 hf
        have hplace' : s.frames.length - 1 - below < (s.frames.map Frame.tries).length := by
          rwa [List.length_map]
        have hsame : f.tries = (s.frames.map Frame.tries)[s.frames.length - 1 - below] := by
          rw [List.getElem_map, hget]
        unfold State.tryStacks
        simp only [List.map_set]
        rw [hsame, List.set_getElem_self]
      · cases h

/-- Performing an instruction does to the try stacks what its handler does. -/
lemma performInstruction_tryStep (config : Config) (table : JumpTable) (i : Instruction)
    (s : State) :
    TryStep s.tryStacks (performInstruction config table i s).2.tryStacks := by
  have hstep := (table.handler i.opcode).run_tryStep config i s
  change TryStep _ ((table.dispatch config i).after s).tryStacks at hstep
  have hperforms := performInstruction_performs config table i s
  generalize performInstruction config table i s = outcome at hperforms ⊢
  cases hperforms with
  | fails hdispatch _ =>
    rw [Exec.after_of_error hdispatch] at hstep
    exact hstep
  | jumps hdispatch _ =>
    rw [Exec.after_of_ok hdispatch] at hstep
    exact hstep
  | advances hdispatch _ hadvance =>
    rw [Exec.after_of_ok hdispatch] at hstep
    rw [advance_tryStacks hadvance]
    exact hstep
  | leaves hdispatch _ hadvance =>
    rw [Exec.after_of_ok hdispatch] at hstep
    rw [advance_error hadvance]
    exact hstep

/-- So does a step of a machine. -/
theorem step_tryStep (m : Machine) : TryStep m.state.tryStacks m.step.2.state.tryStacks := by
  unfold step
  split
  · exact .refl _
  · exact .refl _
  · next i _ =>
    rcases execute_state m i with ⟨status, hstate⟩ | hstate
    · rw [hstate]
      exact .refl _
    · rw [hstate]
      exact performInstruction_tryStep m.config m.table i m.state

/-- In every run the try stacks are well formed. -/
theorem Reaches.wellFormedTries {offsets : Nat → Prop} {m₀ m : Machine}
    (h : Reaches offsets m₀ m) (hstart : WellFormedTries m₀.state.tryStacks) :
    WellFormedTries m.state.tryStacks := by
  induction h with
  | start => exact hstart
  | @step m _ _ ih => exact (step_tryStep m).wellFormed ih

/-- Try blocks stay well formed in every run of a script.  No frame has entered too many of them,
and every one has a handler or a cleanup, in the handler and in the cleanup the one that it needs,
and a place to go on only in the cleanup.  Hence nothing that the machine may execute makes use of
the offset that stands in for a missing cleanup.  And a step that leaves a block where it is may
bring it to a later part, but never to an earlier one. -/
theorem reaches_tryBlocks {config : Config} {watchdog : Watchdog} {supply entry : Nat}
    {script : Script} {m₀ m : Machine}
    (hload : (create config watchdog supply).loadScript script entry = (.ok (), m₀))
    (hreaches : Reaches (fun _ => True) m₀ m) :
    (∀ f ∈ m.state.frames, f.tries.length ≤ Limits.tryNesting ∧ ∀ t ∈ f.tries, t.WellFormed) ∧
      (∀ (i : Instruction) (fallback : Nat),
        (m.table.handler i.opcode).runOr fallback m.config i m.state =
          m.table.dispatch m.config i m.state) ∧
      ∀ (frame place : Nat) (t u : TryEntry), m.state.tryAt frame place = some t →
        m.step.2.state.tryAt frame place = some u →
        u.catchTarget = t.catchTarget ∧ u.finallyTarget = t.finallyTarget ∧
          t.phase.rank ≤ u.phase.rank := by
  obtain ⟨rfl, -, -⟩ := loadScript_ok hload
  have hstart : WellFormedTries
      (loaded script config watchdog supply entry).state.tryStacks := by
    rintro tries htries
    cases List.mem_singleton.1 htries
    exact ⟨Nat.zero_le _, nofun⟩
  have hwellFormed := hreaches.wellFormedTries hstart
  refine ⟨fun f hf => hwellFormed f.tries (List.mem_map_of_mem hf), ?_, ?_⟩
  · exact fun i fallback => Handler.runOr_eq fallback m.config _ i hwellFormed
  · intro frame place t u ht hu
    obtain ⟨tries, htries, ht⟩ := State.tryAt_eq_some ht
    obtain ⟨tries', htries', hu⟩ := State.tryAt_eq_some hu
    have hadvances := (step_tryStep m).advances htries htries' ht hu
    exact ⟨hadvances.catchTarget, hadvances.finallyTarget, hadvances.rank_le⟩

/-- A script that enters a try block and throws an exception in it. -/
def throwingScript : Script := ⟨[0x3B, 0x05, 0x06, 0x11, 0x3A, 0x21, 0x3F]⟩

/-- The machine that executes the script, after some steps. -/
def throwingMachine : Nat → Machine
  | 0 => loaded throwingScript {} .lazy 0 0
  | count + 1 => (throwingMachine count).step.2

/-- The exception brings the block from its guarded part to its handler. -/
theorem reaches_tryBlocks_throwingScript :
    (create {} .lazy 0).loadScript throwingScript 0 = (.ok (), throwingMachine 0) ∧
      Reaches (fun _ => True) (throwingMachine 0) (throwingMachine 2) ∧
      (throwingMachine 2).state.tryAt 0 0 = some ⟨some 5, some 6, none, .body⟩ ∧
      (throwingMachine 2).step.2.state.tryAt 0 0 = some ⟨some 5, some 6, none, .handler⟩ ∧
      TryPhase.body.rank ≤ TryPhase.handler.rank := by
  have hload : (create {} .lazy 0).loadScript throwingScript 0 = (.ok (), throwingMachine 0) := rfl
  have hreaches : Reaches (fun _ => True) (throwingMachine 0) (throwingMachine 2) :=
    .step (.step .start fun _ _ => trivial) fun _ _ => trivial
  have hbefore : (throwingMachine 2).state.tryAt 0 0 = some ⟨some 5, some 6, none, .body⟩ := rfl
  have hafter : (throwingMachine 2).step.2.state.tryAt 0 0 =
      some ⟨some 5, some 6, none, .handler⟩ := rfl
  have hblocks := reaches_tryBlocks hload hreaches
  exact ⟨hload, hreaches, hbefore, hafter, (hblocks.2.2 0 0 _ _ hbefore hafter).2.2⟩

end Machine

end SymbolicScript
