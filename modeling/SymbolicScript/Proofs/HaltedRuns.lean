import Mathlib.Data.List.Induction
import SymbolicScript.Proofs.Budget
import SymbolicScript.Proofs.TryInstructions

/-!
# What a machine that reports to have halted has left to run

A machine keeps two records of having come to its end: its status, which is the first thing that a
run looks at, and the invocation stack.  This file shows how far the two agree.  No instruction lets
them disagree (`Handler.run_settles`), so no step, no run and no run of a block does
(`Machine.Settled.call`).  Loading does, in a machine that has halted before: it puts a frame on the
stack and leaves the status alone (`Machine.loadScript_stranded_iff`).

So a run that reports to have halted has left frames behind exactly if a script was loaded after the
machine had halted, and nothing has been executed since that brought the two records together
again (`Machine.run_halted_leaves_iff`).  Such a run has done nothing at all.
-/

namespace SymbolicScript

namespace State

/-- A state that counts as halted has no frame left. -/
def Settled (s : State) : Prop :=
  s.status = .halted → s.frames = []

/-- A change that puts no frame on an empty stack, and changes the status only if it leaves no
frame behind. -/
structure Settles (s s' : State) : Prop where
  /-- An empty stack stays empty. -/
  frames : s.frames = [] → s'.frames = []
  /-- The status stays the same, or no frame is left. -/
  status : s'.status = s.status ∨ s'.frames = []

/-- A change that leaves the status alone. -/
def SameStatus (s s' : State) : Prop :=
  s'.status = s.status

instance : Std.Refl SameStatus where
  refl _ := rfl

instance : IsTrans State SameStatus where
  trans _ _ _ hst htu := htu.trans hst

instance : Std.Refl Settles where
  refl _ := ⟨id, .inl rfl⟩

instance : IsTrans State Settles where
  trans s t u hst htu := by
    refine ⟨htu.frames ∘ hst.frames, ?_⟩
    rcases htu.status with hsame | hempty
    · rcases hst.status with hsame' | hempty
      · exact .inl (hsame.trans hsame')
      · exact .inr (htu.frames hempty)
    · exact .inr hempty

variable {s s' : State}

/-- What settles keeps a settled state settled. -/
lemma Settled.of_settles (hs : s.Settled) (h : s.Settles s') : s'.Settled := by
  intro hhalted
  rcases h.status with hsame | hempty
  · exact h.frames (hs (hsame ▸ hhalted))
  · exact hempty

/-- A state with another status and the same frames is settled if the status is another one than
that of having halted. -/
lemma Settled.of_status (h : s.status ≠ .halted) : s.Settled :=
  fun hhalted => absurd hhalted h

/-- A change that leaves the status alone settles if it puts no frame on an empty stack. -/
lemma SameStatus.settles (h : s.SameStatus s') (hframes : s.frames = [] → s'.frames = []) :
    s.Settles s' :=
  ⟨hframes, .inl h⟩

/-- An empty stack is unwound to an empty stack. -/
lemma Unwinds.frames_eq_nil (h : s.Unwinds s') (hs : s.frames = []) : s'.frames = [] := by
  have hlength := h.frames.length_le
  rw [hs, List.length_nil] at hlength
  exact List.eq_nil_of_length_eq_zero (Nat.le_zero.1 hlength)

/-- Only where there is a current frame can one be put on top of it. -/
lemma Transferred.frames_eq_nil {config : Config} {handler : Handler} {x : Exec Unit}
    (h : s.Transferred config handler (x s)) (hs : s.frames = []) : (x.after s).frames = [] := by
  unfold Exec.after
  cases hx : x s with
  | error e s' =>
    rw [hx] at h
    exact Unwinds.frames_eq_nil h hs
  | ok u s' =>
    rw [hx] at h
    cases h with
    | unwinds hunwinds => exact Unwinds.frames_eq_nil hunwinds hs
    | enters _ hframes => simp [hs] at hframes
    | calls _ _ hframes => simp [hs] at hframes

end State

/-! ## Handlers -/

namespace Exec

open State (SameStatus Settles)

variable {α : Type}

lemma Keeps.sameStatus {x : Exec α} (h : Keeps State.Confined x) : Keeps SameStatus x :=
  h.mono fun _ _ hconfined => hconfined.status

/-- Work on stack and heap leaves the status alone. -/
lemma Local.sameStatus {x : Exec α} {Q : α → Prop} (h : Local (fun _ => True) x Q) :
    Keeps SameStatus x :=
  h.reworked.mono fun _ _ hreworked => hreworked.toConfined.status

lemma modify_sameStatus {change : State → State} (h : ∀ s, (change s).status = s.status) :
    Keeps SameStatus (modify change : Exec Unit) :=
  h

lemma setFrame_sameStatus (f : Frame) : Keeps SameStatus (setFrame f) := by
  intro s
  unfold after setFrame
  cases s.frames <;> rfl

lemma seek_sameStatus (target : Int) : Keeps SameStatus (seek target) :=
  keeps_frame.bind fun _ => keeps_world.bind fun _ => (keeps_liftM _).bind fun _ =>
    setFrame_sameStatus _

lemma markJump_sameStatus : Keeps SameStatus markJump :=
  modify_sameStatus fun _ => rfl

lemma jumpTo_sameStatus (target : Int) : Keeps SameStatus (jumpTo target) :=
  keeps_world.bind fun _ =>
    ((seek_sameStatus target).bind fun _ => markJump_sameStatus).ite (keeps_throw _)

lemma loadFrame_sameStatus (config : Config) (f : Frame) :
    Keeps SameStatus (loadFrame config f) := by
  refine keeps_get.bind fun _ => .check fun _ => modify_sameStatus ?_
  exact fun _ => rfl

lemma call_sameStatus (config : Config) (target : Int) :
    Keeps SameStatus (call config target) :=
  keeps_frame.bind fun _ => keeps_world.bind fun _ =>
    ((keeps_liftM _).bind fun _ => loadFrame_sameStatus config _).ite (keeps_throw _)

lemma handleException_sameStatus : Keeps SameStatus handleException := by
  refine keeps_get.bind fun s => ?_
  split
  · refine Keeps.bind (modify_sameStatus ?_) fun _ => keeps_throw _
    exact fun _ => rfl
  · split
    · exact keeps_throw _
    · refine Keeps.bind (modify_sameStatus ?_) fun _ => ?_
      · exact fun _ => rfl
      have htake : Keeps SameStatus takeException := fun _ => rfl
      have hresume (f : Frame) (target : Int) : Keeps SameStatus (do
          setFrame f
          seek target
          markJump) :=
        (setFrame_sameStatus f).bind fun _ => (seek_sameStatus target).bind fun _ =>
          markJump_sameStatus
      split
      · exact htake.bind fun _ => (keeps_push _).sameStatus.bind fun _ => hresume _ _
      · exact hresume _ _

lemma raise_sameStatus (exception : Item) : Keeps SameStatus (raise exception) := by
  refine Keeps.bind (modify_sameStatus ?_) fun _ => handleException_sameStatus
  exact fun _ => rfl

/-- A return marks the state as halted only where it leaves no frame behind. -/
lemma ret_settles : Keeps Settles ret := by
  have hunload : Keeps Settles unloadFrame := by
    intro s
    unfold after unloadFrame
    cases hframes : s.frames with
    | nil => exact Std.Refl.refl s
    | cons f rest => exact ⟨fun hempty => by simp [hframes] at hempty, .inl rfl⟩
  have hhandOver (source : Nat) : Keeps Settles (modify (handOver source) : Exec Unit) := by
    intro s
    change s.Settles (handOver source s)
    have hframes : (handOver source s).frames = s.frames := by
      unfold handOver
      simp only
      split <;> rfl
    have hstatus : (handOver source s).status = s.status := by
      unfold handOver
      simp only
      split <;> rfl
    exact ⟨fun hempty => hframes.trans hempty, .inl hstatus⟩
  have hhalt : Keeps Settles (do
      modify fun s => if s.frames.isEmpty then { s with status := .halted } else s
      markJump : Exec Unit) := by
    refine Keeps.bind (fun s => ?_) fun _ => ?_
    · change s.Settles (if s.frames.isEmpty then { s with status := .halted } else s)
      split
      · next hempty => exact ⟨id, .inr (List.isEmpty_iff.1 hempty)⟩
      · exact Std.Refl.refl s
    · exact fun s => ⟨id, .inl rfl⟩
  exact hunload.bind fun f => keeps_get.bind fun s =>
    hhalt.ite (.check fun _ => (hhandOver f.world).bind fun _ => hhalt)

end Exec

namespace Semantics

open Exec
open State (SameStatus)

variable (i : Instruction)

lemma jump_sameStatus : Keeps SameStatus (jump i) :=
  (keeps_liftM _).bind fun _ => jumpTo_sameStatus _

lemma jumpCompare_sameStatus : Keeps SameStatus (jumpCompare i) := by
  refine (Local.popInteger _).sameStatus.bind fun _ =>
    (Local.popInteger _).sameStatus.bind fun _ => ?_
  split
  · exact jump_sameStatus i
  · exact keeps_pure _
  · exact keeps_throw _

lemma callPointer_sameStatus (config : Config) : Keeps SameStatus (callPointer config i) := by
  refine keeps_pop.sameStatus.bind fun _ => ?_
  split
  · exact call_sameStatus config _
  · exact keeps_throw _
  · exact keeps_throw _

lemma beginTry_sameStatus : Keeps SameStatus (beginTry i) :=
  (keeps_liftM _).bind fun _ => (keeps_liftM _).bind fun _ => .check fun _ =>
    (keeps_liftM _).bind fun _ => (keeps_liftM _).bind fun _ => keeps_frame.bind fun _ =>
    .check fun _ => setFrame_sameStatus _

lemma endTry_sameStatus : Keeps SameStatus (endTry i) := by
  refine (keeps_liftM _).bind fun _ => .check fun _ => keeps_frame.bind fun f => ?_
  split
  · exact keeps_throw _
  · refine .check fun _ => ?_
    split
    · exact (setFrame_sameStatus _).bind fun _ => jumpTo_sameStatus _
    · exact (setFrame_sameStatus _).bind fun _ => jumpTo_sameStatus _

lemma endFinally_sameStatus : Keeps SameStatus (endFinally i) := by
  refine keeps_frame.bind fun f => ?_
  split
  · exact keeps_throw _
  · refine (setFrame_sameStatus _).bind fun _ => keeps_get.bind fun _ =>
      handleException_sameStatus.ite ?_
    split
    · exact jumpTo_sameStatus _
    · exact keeps_throw _

end Semantics

/-- A handler that transfers control leaves the status alone unless it returns. -/
lemma Handler.run_sameStatus {handler : Handler} (config : Config) (i : Instruction)
    (htransfers : handler.transfers = true) (hret : handler ≠ .ret) :
    Exec.Keeps State.SameStatus (handler.run config i) := by
  cases handler with
  | jump => exact Semantics.jump_sameStatus i
  | jumpIf | jumpIfNot =>
    exact (Exec.Local.popBoolean _).sameStatus.bind fun _ =>
      (Semantics.jump_sameStatus i).ite (Exec.keeps_pure _)
  | jumpCompare => exact Semantics.jumpCompare_sameStatus i
  | call => exact (Exec.keeps_liftM _).bind fun _ => Exec.call_sameStatus config _
  | callPointer => exact Semantics.callPointer_sameStatus i config
  | abort => exact Exec.keeps_throw _
  | abortWithMessage =>
    exact Semantics.local_popMessage.sameStatus.bind fun _ => Exec.keeps_throw _
  | raise => exact Exec.keeps_pop.sameStatus.bind fun _ => Exec.raise_sameStatus _
  | beginTry => exact Semantics.beginTry_sameStatus i
  | endTry => exact Semantics.endTry_sameStatus i
  | endFinally => exact Semantics.endFinally_sameStatus i
  | ret => exact absurd rfl hret
  | _ => cases htransfers

/-- No handler puts a frame on an empty stack, and none changes the status of a state in which it
leaves frames behind. -/
theorem Handler.run_settles (config : Config) (handler : Handler) (i : Instruction) :
    Exec.Keeps State.Settles (handler.run config i) := by
  intro s
  cases htransfers : handler.transfers with
  | false =>
    have hsame := run_sameSkeleton config i htransfers s
    refine ⟨fun hempty => ?_, .inl hsame.status⟩
    have hdepth := hsame.depth
    unfold State.depth at hdepth
    rw [hempty, List.length_nil] at hdepth
    exact List.eq_nil_of_length_eq_zero hdepth
  | true =>
    by_cases hret : handler = .ret
    · rw [hret]
      exact Exec.ret_settles s
    · exact State.SameStatus.settles (run_sameStatus config i htransfers hret s)
        (run_transferred config i s htransfers).frames_eq_nil

/-! ## Machines -/

namespace Machine

/-- The machine counts as halted, and a frame is left. -/
def Stranded (m : Machine) : Prop :=
  m.state.status = .halted ∧ m.state.frames ≠ []

instance (m : Machine) : Decidable m.Stranded :=
  inferInstanceAs (Decidable (_ ∧ _))

variable {m : Machine}

/-- A machine is stranded unless it is settled. -/
lemma not_stranded_iff : ¬m.Stranded ↔ m.state.Settled := by
  unfold Stranded State.Settled
  rw [not_and_not_right]

/-- Advancing settles. -/
lemma advance_settles (below : Nat) (i : Instruction) :
    Exec.Keeps State.Settles (advance below i) := by
  intro s
  unfold Exec.after advance
  split
  · next h =>
    split at h
    · cases h
      exact Std.Refl.refl s
    · simp only at h
      split at h
      · cases h
        exact Std.Refl.refl s
      · split at h
        · cases h
          exact ⟨fun hempty => by simp [hempty], .inl rfl⟩
        · cases h
  · next h => rw [advance_error h]; exact Std.Refl.refl s

/-- An instruction that is performed leaves a settled state settled. -/
lemma performInstruction_settled {config : Config} {table : JumpTable} {i : Instruction}
    {s : State} (hs : s.Settled) : (performInstruction config table i s).2.Settled := by
  have hdispatches : s.Settles ((table.dispatch config i).after s) :=
    Handler.run_settles config (table.handler i.opcode) i s
  have hperforms := hs.of_settles hdispatches
  unfold performInstruction EStateM.run takeJump
  cases hdispatch : table.dispatch config i s with
  | error e s₁ =>
    rw [Exec.after_of_error hdispatch] at hperforms
    simp only
    split
    · exact hperforms
    · exact .of_status nofun
  | ok u s₁ =>
    rw [Exec.after_of_ok hdispatch] at hperforms
    simp only
    split
    · exact hperforms
    · have hadvances := advance_settles (s.frames.length - 1) i { s₁ with jumping := false }
      have hadvanced := State.Settled.of_settles (s := { s₁ with jumping := false }) hperforms
        hadvances
      unfold Exec.after at hadvanced
      split
      · next hadvance =>
        rw [hadvance] at hadvanced
        exact hadvanced
      · next hadvance =>
        rw [hadvance] at hadvanced
        exact hadvanced

/-- An execution leaves a settled machine settled. -/
lemma execute_settled (hm : m.state.Settled) (i : Instruction) :
    (m.execute i).2.state.Settled := by
  by_cases hpermits : m.Permits
  · rw [execute_of_permits hpermits]
    exact performInstruction_settled hm
  · rcases execute_of_not_permits hpermits i with ⟨-, hrefused⟩ | ⟨-, -, hrefused⟩
    · rw [hrefused]
      exact .of_status nofun
    · rw [hrefused]
      exact hm

/-- A machine that has no next instruction has no frame. -/
lemma frames_eq_nil_of_next (h : m.next = .ok none) : m.state.frames = [] := by
  cases hframes : m.state.frames with
  | nil => rfl
  | cons f rest =>
    unfold next State.current? at h
    rw [hframes] at h
    simp only [List.head?_cons, Option.map_some] at h
    split at h <;> cases h

/-- A step leaves a settled machine settled. -/
lemma step_settled (hm : m.state.Settled) : m.step.2.state.Settled := by
  unfold step
  split
  · exact hm
  · next hnext => exact fun _ => frames_eq_nil_of_next hnext
  · exact execute_settled hm _

/-- So does a run, and if it reports to have halted, no frame is left. -/
lemma run_settled {σ : Type} (stop : σ → Machine → Instruction → Bool × σ) (memory : σ)
    (hm : m.state.Settled) :
    (run stop memory m).machine.state.Settled ∧
      ((run stop memory m).outcome = .ok .halted →
        (run stop memory m).machine.state.frames = []) := by
  have hturn : ∀ memory₁ m₁ memory₂ m₂ i, m₁.state.Settled →
      Turn stop memory₁ m₁ memory₂ m₂ i → m₂.state.Settled := by
    intro _ m₁ _ m₂ i hm₁ hturn
    have hexecute := execute_settled hm₁ i
    rwa [hturn.executes] at hexecute
  have hruns : ∃ memory' m', m'.state.Settled ∧ Ends stop memory' m' (run stop memory m) :=
    run_invariant (P := fun _ m' => m'.state.Settled) hm hturn
  obtain ⟨memory', m', hm', hends⟩ := hruns
  generalize run stop memory m = ending at hends
  cases hends with
  | halted hstatus => exact ⟨hm', fun _ => hm' hstatus⟩
  | malformed => exact ⟨hm', nofun⟩
  | finished _ hnext =>
    have hframes := frames_eq_nil_of_next hnext
    exact ⟨fun _ => hframes, fun _ => hframes⟩
  | stopped => exact ⟨hm', nofun⟩
  | @failed i _ e _ _ _ _ hfails =>
    have hexecute := execute_settled hm' i
    rw [hfails] at hexecute
    refine ⟨hexecute, fun houtcome => ?_⟩
    unfold failure at houtcome
    split at houtcome <;> cases houtcome

/-- So do the instructions of a block. -/
lemma runInside_settled (block : List Instruction) (depth : Nat) (hm : m.state.Settled) :
    (runInside block depth m).2.state.Settled := by
  fun_induction runInside block depth m with
  | case1 | case2 | case3 | case4 => exact hm
  | case5 m i _ _ _ e m' hfails =>
    have hexecute := execute_settled hm i
    rwa [hfails] at hexecute
  | case6 m i _ _ _ m' hok ih =>
    have hexecute := execute_settled hm i
    rw [hok] at hexecute
    exact ih hexecute

/-- So does placing the current frame. -/
lemma seek_settled (hm : m.state.Settled) (offset : Nat) :
    (m.perform (Exec.seek offset)).2.state.Settled := by
  have hsettles : m.state.Settles ((Exec.seek offset).after m.state) :=
    (Exec.seek_sameStatus offset m.state).settles
      (State.Unwinds.frames_eq_nil (Exec.unwinds_seek offset m.state))
  have hsought := hm.of_settles hsettles
  unfold Exec.after at hsought
  unfold perform EStateM.run
  split
  · next hseek =>
    rw [hseek] at hsought
    exact hsought
  · next hseek =>
    rw [hseek] at hsought
    exact hsought

/-- However a settled machine is driven, it stays settled. -/
theorem call_settled (hm : m.state.Settled) (c : Call) : (m.call c).state.Settled := by
  cases c with
  | step => exact step_settled hm
  | run stop memory => exact (run_settled stop memory hm).1
  | runBlock block =>
    change (m.runBlock block).2.state.Settled
    unfold runBlock
    split
    · exact hm
    · next first rest =>
      split
      · exact hm
      · have hseek := seek_settled hm first.offset
        split
        · next hfails => rwa [hfails] at hseek
        · next hplaced =>
          rw [hplaced] at hseek
          exact runInside_settled _ _ hseek

/-- A stranded machine does not run. -/
lemma Stranded.run_eq {σ : Type} (stop : σ → Machine → Instruction → Bool × σ) (memory : σ)
    (h : m.Stranded) : run stop memory m = ⟨.ok .halted, m, memory⟩ :=
  (Ends.halted h.1).run_eq

/-! ## Loading -/

/-- A script that is loaded gets a world and a frame of its own, and a load that fails changes
nothing. -/
lemma loadScript_cases (m : Machine) (script : Script) (offset : Nat) :
    (∃ f, m.loadScript script offset =
      (.ok (), { m with state := { m.state with
        worlds := m.state.worlds.push (.ofScript script), frames := f :: m.state.frames } })) ∨
    ∃ e, m.loadScript script offset = (.error e, m) := by
  unfold loadScript State.loadScript
  cases Frame.enter script m.state.worlds.size (-1) offset with
  | error e => exact .inr ⟨e, rfl⟩
  | ok f =>
    simp only
    split
    · next loaded hloaded =>
      obtain ⟨_, s₁, hworld, hframe⟩ := bind_eq_ok.1 hloaded
      cases hworld
      rcases Exec.loadFrame_cases m.config f _ with ⟨-, hloads⟩ | ⟨e, hfails⟩
      · rw [hloads] at hframe
        cases hframe
        exact .inl ⟨f, rfl⟩
      · rw [hfails] at hframe
        cases hframe
    · exact .inr ⟨_, rfl⟩

/-- A script that is loaded strands the machine if it has halted, and only then. -/
lemma loadScript_stranded_iff {script : Script} {offset : Nat}
    (h : (m.loadScript script offset).1 = .ok ()) :
    (m.loadScript script offset).2.Stranded ↔ m.state.status = .halted := by
  rcases m.loadScript_cases script offset with ⟨f, hloads⟩ | ⟨e, hfails⟩
  · rw [hloads]
    exact ⟨fun hstranded => hstranded.1, fun hhalted => ⟨hhalted, nofun⟩⟩
  · rw [hfails] at h
    cases h

/-! ## Histories -/

/-- What may be done to a machine from outside. -/
inductive Operation where
  /-- Load a script. -/
  | load (script : Script) (offset : Nat)
  /-- Drive the machine. -/
  | call (c : Call)

/-- The machine behind an operation. -/
def operate (m : Machine) : Operation → Machine
  | .load script offset => (m.loadScript script offset).2
  | .call c => m.call c

/-- The machine behind a history of operations, the first one first. -/
def behind (m : Machine) (history : List Operation) : Machine :=
  history.foldl operate m

/-- The history loads a script after the machine has halted, and the machine has been stranded ever
since. -/
def StrandedBy (m : Machine) (history : List Operation) : Prop :=
  ∃ before script offset since, history = before ++ .load script offset :: since ∧
    (m.behind before).state.status = .halted ∧
    ((m.behind before).loadScript script offset).1 = .ok () ∧
    ∀ part, part <+: since → (m.behind (before ++ .load script offset :: part)).Stranded

lemma behind_concat (m : Machine) (history : List Operation) (operation : Operation) :
    m.behind (history ++ [operation]) = (m.behind history).operate operation := by
  rw [behind, List.foldl_append]
  rfl

/-- A machine that stays stranded for one more operation. -/
lemma StrandedBy.concat {history : List Operation} {operation : Operation}
    (h : m.StrandedBy history) (hstranded : (m.behind (history ++ [operation])).Stranded) :
    m.StrandedBy (history ++ [operation]) := by
  obtain ⟨before, script, offset, since, rfl, hhalted, hloads, hsince⟩ := h
  have hlist (part : List Operation) :
      before ++ .load script offset :: (part ++ [operation]) =
        before ++ .load script offset :: part ++ [operation] := by simp
  refine ⟨before, script, offset, since ++ [operation], (hlist since).symm, hhalted, hloads, ?_⟩
  intro part hpart
  rcases List.prefix_concat_iff.1 hpart with rfl | hprefix
  · rw [hlist]
    exact hstranded
  · exact hsince part hprefix

/-- A machine that was settled is stranded exactly by a load after it has halted. -/
theorem stranded_iff (hm : m.state.Settled) (history : List Operation) :
    (m.behind history).Stranded ↔ m.StrandedBy history := by
  constructor
  · induction history using List.reverseRecOn with
    | nil => exact fun hstranded => absurd hm (mt not_stranded_iff.2 (not_not.2 hstranded))
    | append_singleton history operation ih =>
      intro hstranded
      by_cases hbefore : (m.behind history).Stranded
      · exact (ih hbefore).concat hstranded
      have hsettled := not_stranded_iff.1 hbefore
      have hoperate := hstranded
      rw [behind_concat] at hoperate
      cases operation with
      | call c =>
        exact absurd (call_settled hsettled c) (mt not_stranded_iff.2 (not_not.2 hoperate))
      | load script offset =>
        rcases (m.behind history).loadScript_cases script offset with ⟨f, hloads⟩ | ⟨e, hfails⟩
        · have hok : ((m.behind history).loadScript script offset).1 = .ok () := by rw [hloads]
          have hleaves := (loadScript_stranded_iff hok).1 hoperate
          refine ⟨history, script, offset, [], rfl, hleaves, hok, ?_⟩
          intro part hpart
          rw [List.prefix_nil.1 hpart]
          exact hstranded
        · change ((m.behind history).loadScript script offset).2.Stranded at hoperate
          rw [hfails] at hoperate
          exact absurd hoperate hbefore
  · rintro ⟨before, script, offset, since, rfl, -, -, hsince⟩
    exact hsince since (List.prefix_refl since)

/-- Whatever is done to a machine that does not count as halted while frames are left, a run that
then reports to have halted leaves frames behind exactly if a script was loaded after the machine
had halted and the machine has been in that state ever since.  Then the run has executed nothing
and changed nothing.  In particular, a script that is loaded after an earlier one has halted is not
executed by the next run. -/
theorem run_halted_leaves_iff {σ : Type} (stop : σ → Machine → Instruction → Bool × σ) (memory : σ)
    (hm : m.state.status = .halted → m.state.frames = []) (history : List Operation) :
    ((((m.behind history).run stop memory).outcome = .ok .halted ∧
        ((m.behind history).run stop memory).machine.state.frames ≠ []) ↔
      m.StrandedBy history) ∧
    (m.StrandedBy history →
      (m.behind history).run stop memory = ⟨.ok .halted, m.behind history, memory⟩) ∧
    ∀ script offset m', (m.behind history).state.status = .halted →
      (m.behind history).loadScript script offset = (.ok (), m') →
      m'.state.frames ≠ [] ∧ m'.run stop memory = ⟨.ok .halted, m', memory⟩ := by
  have hstranded := stranded_iff hm history
  refine ⟨⟨fun hhalted => ?_, fun h => ?_⟩, fun h => (hstranded.2 h).run_eq stop memory, ?_⟩
  · rw [← hstranded]
    by_contra hsettled
    have hempty := (run_settled stop memory (not_stranded_iff.1 hsettled)).2 hhalted.1
    exact hhalted.2 hempty
  · have hrun := (hstranded.2 h).run_eq stop memory
    rw [hrun]
    exact ⟨rfl, (hstranded.2 h).2⟩
  · intro script offset m' hhalted hloads
    have hstrands : m'.Stranded := by
      have hiff := loadScript_stranded_iff (congrArg Prod.fst hloads)
      rw [hloads] at hiff
      exact hiff.2 hhalted
    exact ⟨hstrands.2, hstrands.run_eq stop memory⟩

/-- A predicate that stops no run. -/
def passing (_ : Unit) (_ : Machine) (_ : Instruction) : Bool × Unit :=
  (false, ())

/-- The history that loads a script that only returns, runs it, and loads a script that pushes one
and returns. -/
def reloading : List Operation :=
  [.load ⟨[0x40]⟩ 0, .call (.run passing ()), .load ⟨[0x11, 0x40]⟩ 0]

/-- The machine that has returned from the first script. -/
def returned : Machine :=
  (((create {} .lazy 0).loadScript ⟨[0x40]⟩ 0).2.execute ⟨0, .ret, []⟩).2

/-- The run of the first script makes one turn and halts. -/
lemma behind_reloading :
    (create {} .lazy 0).behind reloading = (returned.loadScript ⟨[0x11, 0x40]⟩ 0).2 := by
  have hturn : Turn passing () ((create {} .lazy 0).loadScript ⟨[0x40]⟩ 0).2 () returned
      ⟨0, .ret, []⟩ := ⟨nofun, rfl, rfl, rfl⟩
  have hends : Ends passing () returned ⟨.ok .halted, returned, ()⟩ := .halted rfl
  have hrun : run passing () ((create {} .lazy 0).loadScript ⟨[0x40]⟩ 0).2 =
      ⟨.ok .halted, returned, ()⟩ := hturn.run_eq.trans hends.run_eq
  change ((run passing () ((create {} .lazy 0).loadScript ⟨[0x40]⟩ 0).2).machine.loadScript
    ⟨[0x11, 0x40]⟩ 0).2 = _
  rw [hrun]

/-- The machine behind the history is stranded, and its run changes nothing. -/
theorem run_halted_leaves_reloading :
    ((create {} .lazy 0).state.status = .halted → (create {} .lazy 0).state.frames = []) ∧
      (create {} .lazy 0).StrandedBy reloading ∧
      ((create {} .lazy 0).behind reloading).run passing () =
        ⟨.ok .halted, (create {} .lazy 0).behind reloading, ()⟩ := by
  have hstarts : (create {} .lazy 0).state.status = .halted →
      (create {} .lazy 0).state.frames = [] := nofun
  have hhalts := run_halted_leaves_iff passing () hstarts reloading
  have hstranded : ((create {} .lazy 0).behind reloading).Stranded := by
    rw [behind_reloading]
    exact ⟨rfl, nofun⟩
  have hrun := hstranded.run_eq passing ()
  refine ⟨hstarts, hhalts.1.1 ?_, hrun⟩
  rw [hrun]
  exact ⟨rfl, hstranded.2⟩

/-- The second script of the history is not executed: the run reports to have halted with a frame
left at the beginning of the script, and no instruction is counted. -/
theorem run_halted_ignores_script :
    (((create {} .lazy 0).behind reloading).run passing ()).outcome = .ok .halted ∧
      (((create {} .lazy 0).behind reloading).run passing ()).machine.state.frames.map
        Frame.position = [0] ∧
      (((create {} .lazy 0).behind reloading).run passing ()).machine.executed =
        ((create {} .lazy 0).behind reloading).executed := by
  have hstranded : ((create {} .lazy 0).behind reloading).Stranded := by
    rw [behind_reloading]
    exact ⟨rfl, nofun⟩
  rw [hstranded.run_eq passing (), behind_reloading]
  exact ⟨rfl, rfl, rfl⟩

end Machine

end SymbolicScript
