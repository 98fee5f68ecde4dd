import SymbolicScript.Proofs.ControlLockstep
import SymbolicScript.Proofs.Loading

/-!
# Machines in lockstep

Every instruction but a call of the host can be followed by the machine that knows more
(`Handler.run_accompanies`).  What holds for a handler is carried over to the machine that
dispatches to it and advances behind it: from linked states, a step of the lesser machine that
succeeds is matched by the other machine, or the other machine fails, and is not unresolved
(`Machine.performInstruction_linked`).  If no values are traced, all that is left of this is that
the lesser machine knows less than the other one (`Machine.performInstruction_lockstep`).
-/

namespace SymbolicScript

variable {L : Link} {ρ : Renaming}

/-! ## Handlers -/

/-- Every handler but the one for calls of the host stays in lockstep.  If values are traced, it has
to be the handler that the instruction has in the standard table. -/
theorem Handler.run_accompanies {handler : Handler} (config : Config) (i : Instruction)
    (h : handler ≠ .syscall) (hhandler : L.traces → JumpTable.standard.handler i.opcode = handler) :
    Exec.Accompanies L (handler.run config i) (handler.run config i) := by
  open Semantics in
  cases handler with
  | pushInteger | pushBoolean | pushNull | pushSmall => exact accompanies_push rfl
  | depth => exact (Exec.tracks_push (.of_symbolic rfl rfl)).accompanies
  | pushPointer => exact accompanies_pushPointer i
  | pushData => exact accompanies_pushData config i
  | nop => exact Exec.accompanies_pure _ _
  | jump => exact accompanies_jump i
  | jumpIf | jumpIfNot => exact accompanies_jumpWhen i _
  | jumpCompare => exact accompanies_jumpCompare i
  | call => exact accompanies_directCall config i
  | callPointer => exact accompanies_callPointer config i
  | abort | unimplemented | undefined => exact Exec.follows_throw
  | abortWithMessage => exact accompanies_abortWithMessage
  | assert => exact accompanies_require i none none
  | assertWithMessage => exact accompanies_assertWithMessage i
  | raise => exact accompanies_throw
  | beginTry => exact accompanies_beginTry i
  | endTry => exact accompanies_endTry i
  | endFinally => exact accompanies_endFinally i
  | ret => exact Exec.accompanies_ret
  | syscall => exact absurd rfl h
  | drop => exact accompanies_drop
  | nip => exact accompanies_removeAt 1
  | xdrop => exact accompanies_xdrop i
  | clear => exact accompanies_clear
  | dup | dupSecond => exact accompanies_copyFrom _
  | pick => exact accompanies_pick i
  | tuck => exact accompanies_tuck
  | swap | rot => exact accompanies_moveUp _
  | roll => exact accompanies_roll i
  | reverseFixed => exact accompanies_reverse _
  | reverseCounted => exact accompanies_reverseCounted i
  | allocateStatics => exact accompanies_allocateStatics i
  | allocateFrame => exact accompanies_allocateFrame i
  | load kind => exact accompanies_load i kind _
  | store kind => exact accompanies_store i kind _
  | newBuffer => exact accompanies_newBuffer config i hhandler
  | memcpy => exact accompanies_memcpy i
  | concat => exact accompanies_concat config i hhandler
  | substring => exact accompanies_substring i hhandler
  | leftPart => exact accompanies_leftPart i hhandler
  | rightPart => exact accompanies_rightPart i hhandler
  | unary => exact accompanies_unary i hhandler
  | binary => exact accompanies_binary i hhandler
  | ternary => exact accompanies_ternary i hhandler
  | logicalNot => exact accompanies_logicalNot i hhandler
  | logical => exact accompanies_logical i hhandler
  | equal => exact accompanies_equal i
  | isNull => exact accompanies_isNull
  | isType => exact accompanies_isType i
  | convert => exact accompanies_convert i
  | pack => exact accompanies_pack i
  | unpack => exact accompanies_unpack i
  | newEmpty => exact Exec.accompanies_pushCompound _ .nil
  | newSized => exact accompanies_newSized i
  | newTyped => exact accompanies_newTyped i
  | size => exact accompanies_size i hhandler
  | pickItem => exact accompanies_pickItem i hhandler
  | append => exact accompanies_append i
  | setItem => exact accompanies_setItem i
  | reverseItems => exact accompanies_reverseItems i
  | remove => exact accompanies_remove i
  | clearItems => exact accompanies_clearItems i
  | popItem => exact accompanies_popItem i

/-- Every instruction but a call of the host is dispatched in lockstep. -/
lemma JumpTable.dispatch_accompanies {i : Instruction} (config : Config)
    (h : i.opcode ≠ .syscall) :
    Exec.Accompanies L (JumpTable.standard.dispatch config i)
      (JumpTable.standard.dispatch config i) :=
  Handler.run_accompanies config i (handler_ne_syscall h) fun _ => rfl

namespace Machine

/-! ## Performing an instruction -/

/-- Advancing stays in lockstep. -/
lemma accompanies_advance (below : Nat) (i : Instruction) :
    Exec.Accompanies L (advance below i) (advance below i) := by
  intro s t a s' hst hx
  refine ⟨advance_resolved below i t, fun b t' hy => ?_⟩
  unfold advance at hx hy
  rw [← hst.frames.length_eq] at hy
  split at hx
  · next hbelow =>
    rw [if_pos hbelow] at hy
    cases hx
    cases hy
    exact ⟨L, le_refl L, hst, trivial⟩
  · next hbelow =>
    rw [if_neg hbelow] at hy
    simp only at hx hy
    -- The frames in the same place are linked, if there are any.
    have hframe := forall₂_getElem? hst.frames (s.frames.length - 1 - below)
    generalize s.frames[s.frames.length - 1 - below]? = f? at hframe hx
    generalize t.frames[s.frames.length - 1 - below]? = g? at hframe hy
    cases hframe with
    | none =>
      cases hx
      cases hy
      exact ⟨L, le_refl L, hst, trivial⟩
    | @some f g hfg =>
      simp only at hx hy
      rw [hfg.world, hfg.first, hst.world.script] at hy
      rw [hfg.first] at hx
      split at hx
      · next f' hf =>
        split at hy
        · next g' hg =>
          cases hx
          cases hy
          have hmoved := Exec.seek_linked hfg hf hg
          exact ⟨L, le_refl L, { hst with frames := forall₂_set hst.frames hmoved _ }, trivial⟩
        · cases hy
      · cases hx

/-- Performing an instruction other than a call of the host stays in lockstep. -/
theorem performInstruction_linked {config : Config} {i : Instruction} {s t s' : State}
    (hst : s.Linked L t) (hop : i.opcode ≠ .syscall)
    (hs : performInstruction config .standard i s = (.ok (), s')) :
    (∀ e t', performInstruction config .standard i t = (.error e, t') →
      e.isUnresolved = false) ∧
    ∀ t', performInstruction config .standard i t = (.ok (), t') →
      ∃ L', L ≤ L' ∧ s'.Linked L' t' := by
  obtain ⟨s₁, hdispatch, hcases⟩ := performInstruction_ok hs
  obtain ⟨hresolved, hok⟩ := JumpTable.dispatch_accompanies config hop s t () s₁ hst hdispatch
  refine ⟨fun e t' ht => ?_, fun t' ht => ?_⟩
  · cases he : e.isUnresolved with
    | false => rfl
    | true =>
      obtain ⟨t₁, hdispatch', -⟩ := performInstruction_error he ht
      rw [← he]
      exact hresolved e t₁ hdispatch'
  · obtain ⟨t₁, hdispatch', hcases'⟩ := performInstruction_ok ht
    obtain ⟨L', hle, hst₁, -⟩ := hok () t₁ hdispatch'
    have htaken : State.Linked L' { s₁ with jumping := false } { t₁ with jumping := false } :=
      { hst₁ with jumping := rfl }
    rcases hcases with ⟨hjump, rfl⟩ | ⟨hjump, hadvance⟩
    · rcases hcases' with ⟨-, rfl⟩ | ⟨hjump', -⟩
      · exact ⟨L', hle, htaken⟩
      · rw [hst₁.jumping, hjump] at hjump'
        cases hjump'
    · rcases hcases' with ⟨hjump', -⟩ | ⟨-, hadvance'⟩
      · rw [hst₁.jumping, hjump] at hjump'
        cases hjump'
      · rw [hst.frames.length_eq.symm] at hadvance'
        obtain ⟨-, hadvanced⟩ := accompanies_advance _ i _ _ () s' htaken hadvance
        obtain ⟨L'', hle', hst'', -⟩ := hadvanced () t' hadvance'
        exact ⟨L'', le_trans hle hle', hst''⟩

/-- Performing an instruction other than a call of the host preserves that the one machine knows
less than the other one. -/
theorem performInstruction_lockstep {config : Config} {i : Instruction} {s t s' : State}
    (hst : s.Simulates ρ t) (hop : i.opcode ≠ .syscall)
    (hs : performInstruction config .standard i s = (.ok (), s')) :
    (∀ e t', performInstruction config .standard i t = (.error e, t') →
      e.isUnresolved = false) ∧
    ∀ t', performInstruction config .standard i t = (.ok (), t') →
      ∃ ρ', ρ ≤ ρ' ∧ s'.Simulates ρ' t' := by
  obtain ⟨hresolved, hok⟩ := performInstruction_linked (.of_simulates hst) hop hs
  refine ⟨hresolved, fun t' ht => ?_⟩
  obtain ⟨L', hle, hst'⟩ := hok t' ht
  exact ⟨L'.counterparts, Link.counterparts_le hle, hst'.simulates⟩

/-! ## Running the machines -/

/-- Machines with linked states that are equal in what no instruction changes and some look at. -/
structure Linked (L : Link) (a b : Machine) : Prop where
  /-- The machines have the same configuration. -/
  config : b.config = a.config
  /-- The first machine uses the standard bindings. -/
  table : a.table = .standard
  /-- The second machine uses the standard bindings. -/
  table' : b.table = .standard
  /-- The states are linked. -/
  state : a.state.Linked L b.state

variable {a b a' b' : Machine}

/-- Both machines execute the same instruction next. -/
lemma Linked.next_eq (h : a.Linked L b) : b.next = a.next := by
  have hframes := h.state.frames
  unfold next State.current?
  generalize a.state.frames = fs at hframes
  generalize b.state.frames = gs at hframes
  cases hframes with
  | nil => rfl
  | cons hfg _ =>
    simp only [List.head?_cons, Option.map_some, Frame.current]
    rw [hfg.position, hfg.world, hfg.first, h.state.world.script]

/-- Executing an instruction other than a call of the host keeps the machines linked. -/
lemma Linked.execute {i : Instruction} (h : a.Linked L b) (hop : i.opcode ≠ .syscall)
    (ha : a.execute i = (.ok (), a')) (hb : b.execute i = (.ok (), b')) :
    ∃ L', L ≤ L' ∧ a'.Linked L' b' := by
  obtain ⟨hperform, hconfig, htable, -, -⟩ := execute_ok_state ha
  obtain ⟨hperform', hconfig', htable', -, -⟩ := execute_ok_state hb
  rw [h.table] at hperform
  rw [h.table', h.config] at hperform'
  obtain ⟨-, hok⟩ := performInstruction_linked h.state hop hperform
  obtain ⟨L', hle, hstate⟩ := hok _ hperform'
  exact ⟨L', hle,
    { config := hconfig'.trans (h.config.trans hconfig.symm)
      table := htable.trans h.table
      table' := htable'.trans h.table'
      state := hstate }⟩

/-- A step that is no call of the host keeps the machines linked. -/
lemma Linked.step (h : a.Linked L b)
    (hop : ∀ i, a.next = .ok (some i) → i.opcode ≠ .syscall)
    (ha : a.step = (.ok (), a')) (hb : b.step = (.ok (), b')) :
    ∃ L', L ≤ L' ∧ a'.Linked L' b' := by
  unfold Machine.step at ha hb
  rw [h.next_eq] at hb
  cases hnext : a.next with
  | error e =>
    rw [hnext] at ha
    cases ha
  | ok i? =>
    rw [hnext] at ha hb
    cases i? with
    | none =>
      cases ha
      cases hb
      exact ⟨L, le_refl L, { h with state := { h.state with status := rfl } }⟩
    | some i => exact h.execute (hop i hnext) ha hb

/-- The first of several steps succeeds if all do. -/
lemma steps_succ_ok {n : Nat} (h : steps (n + 1) a = (.ok (), a')) :
    ∃ m, a.step = (.ok (), m) ∧ steps n m = (.ok (), a') ∧ ∀ k, steps (k + 1) a = steps k m := by
  unfold steps at h
  cases hstep : a.step with
  | mk result m =>
    rw [hstep] at h
    cases result with
    | error e => cases h
    | ok u => exact ⟨m, rfl, h, fun k => by simp only [steps, hstep]⟩

/-- Steps that are no calls of the host keep the machines linked, and what is known at the end of
the relation between them includes what was known at any time before. -/
theorem Linked.steps {n : Nat} (h : a.Linked L b)
    (hhost : ∀ k < n, ∀ i, (steps k a).2.next = .ok (some i) → i.opcode ≠ .syscall)
    (ha : steps n a = (.ok (), a')) (hb : steps n b = (.ok (), b')) :
    ∃ L', L ≤ L' ∧ a'.Linked L' b' ∧
      ∀ k ≤ n, ∃ L₁, L₁ ≤ L' ∧ (steps k a).2.Linked L₁ (steps k b).2 := by
  induction n generalizing L a b with
  | zero =>
    cases ha
    cases hb
    refine ⟨L, le_refl L, h, fun k hk => ⟨L, le_refl L, ?_⟩⟩
    rwa [Nat.le_zero.1 hk]
  | succ n ih =>
    obtain ⟨m, hstep, hsteps, hlater⟩ := steps_succ_ok ha
    obtain ⟨m', hstep', hsteps', hlater'⟩ := steps_succ_ok hb
    obtain ⟨L₁, hle, hm⟩ := h.step (hhost 0 (Nat.succ_pos n)) hstep hstep'
    obtain ⟨L', hle', hend, hbetween⟩ := ih hm (fun k hk i hnext =>
      hhost (k + 1) (Nat.succ_lt_succ hk) i (by rwa [hlater])) hsteps hsteps'
    refine ⟨L', le_trans hle hle', hend, fun k hk => ?_⟩
    cases k with
    | zero => exact ⟨L, le_trans hle hle', h⟩
    | succ k =>
      rw [hlater, hlater']
      exact hbetween k (Nat.le_of_succ_le_succ hk)

end Machine

end SymbolicScript
