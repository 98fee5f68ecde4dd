import SymbolicScript.Proofs.ScanSteps
import SymbolicScript.Proofs.StepLockstep

/-!
# Known facts hold for every caller stack

A symbolic execution starts with nothing on the evaluation stack, and stands for all executions that
start with something on it.  This file proves that it does: if a script is executed once from an
empty stack and once from a stack that already holds some items, and both executions succeed, then
control goes the same way in both, and whatever the first execution knows is true of the second one
(`Machine.steps_sound`).

The second machine may allocate objects that the first one does not allocate, since it may know
operands that are unknown to the first one.  Objects are therefore compared along a renaming of
handles, under which every object of the first machine has exactly one counterpart.
-/

namespace SymbolicScript

namespace Machine

variable {ρ : Renaming}

/-- Machines that differ at most in how much they know, and in what no instruction looks at. -/
structure Simulates (ρ : Renaming) (a b : Machine) : Prop where
  /-- The machines have the same configuration. -/
  config : b.config = a.config
  /-- The first machine uses the standard bindings. -/
  table : a.table = .standard
  /-- The second machine uses the standard bindings. -/
  table' : b.table = .standard
  /-- The states are related. -/
  state : a.state.Simulates ρ b.state

variable {a b a' b' : Machine}

/-- If no values are traced, machines are linked if the first one knows less. -/
lemma Simulates.linked (h : a.Simulates ρ b) : a.Linked (.ofRenaming ρ) b :=
  ⟨h.config, h.table, h.table', .of_simulates h.state⟩

/-- A machine knows less than one that it is linked to. -/
lemma Linked.simulates {L : Link} (h : a.Linked L b) : a.Simulates L.counterparts b :=
  ⟨h.config, h.table, h.table', h.state.simulates⟩

/-- Both machines execute the same instruction next. -/
lemma Simulates.next_eq (h : a.Simulates ρ b) : b.next = a.next :=
  h.linked.next_eq

/-- Executing an instruction other than a call of the host keeps the machines related. -/
lemma Simulates.execute {i : Instruction} (h : a.Simulates ρ b) (hop : i.opcode ≠ .syscall)
    (ha : a.execute i = (.ok (), a')) (hb : b.execute i = (.ok (), b')) :
    ∃ ρ', ρ ≤ ρ' ∧ a'.Simulates ρ' b' := by
  obtain ⟨L', hle, hend⟩ := h.linked.execute hop ha hb
  exact ⟨L'.counterparts, Link.counterparts_le hle, hend.simulates⟩

/-- Steps that are no calls of the host keep the machines related. -/
lemma Simulates.steps {n : Nat} (h : a.Simulates ρ b)
    (hhost : ∀ k < n, ∀ i, (steps k a).2.next = .ok (some i) → i.opcode ≠ .syscall)
    (ha : steps n a = (.ok (), a')) (hb : steps n b = (.ok (), b')) :
    ∃ ρ', ρ ≤ ρ' ∧ a'.Simulates ρ' b' := by
  obtain ⟨L', hle, hend, -⟩ := h.linked.steps hhost ha hb
  exact ⟨L'.counterparts, Link.counterparts_le hle, hend.simulates⟩

/-- The machine with items already on its evaluation stack, the first of them on top. -/
def preload (m : Machine) (items : List Item) : Machine :=
  (m.perform (Exec.modifyStack (·.pushAll items))).2

/-- A machine that has just loaded a script with items on its stack is ready for a scan. -/
lemma preload_scanning (script : Script) (config : Config) (watchdog : Watchdog)
    (supply offset : Nat) (items : List Item) :
    Scanning script config ((loaded script config watchdog supply offset).preload items) where
  table := rfl
  configured := rfl
  running := rfl
  jumping := rfl
  exception := rfl
  result := rfl
  size := rfl
  world := rfl
  nonempty := List.cons_ne_nil _ _
  simple f hf := by
    rw [List.mem_singleton.1 hf]
    exact ⟨rfl, rfl, rfl⟩

/-- A machine that has just loaded a script knows less than any machine with one frame at the same
offset that is ready for a scan. -/
lemma loaded_simulates {script : Script} {config : Config} {f : Frame}
    (h : Scanning script config b) (hframes : b.state.frames = [f]) (watchdog : Watchdog)
    (supply : Nat) :
    (loaded script config watchdog supply f.position).Simulates (fun _ _ => False) b := by
  have hf : f.Simple := h.simple f (by simp [hframes])
  exact
    { config := h.configured
      table := rfl
      table' := h.table
      state :=
        { size := rfl
          size' := h.size
          world :=
            { script := h.world
              stack := fun i => by
                rw [show ((loaded script config watchdog supply f.position).state.worldAt 0).stack =
                  .empty from rfl, EvaluationStack.view_of_le (Nat.zero_le i)]
                exact .of_symbolic rfl _
              statics := .of_untouched _ _
              heap := .empty _ }
          frames := by
            rw [hframes]
            exact .cons ⟨rfl, hf.world, rfl, hf.returnCount, .of_untouched _ _, .of_untouched _ _,
              hf.tries⟩ .nil
          status := h.running
          jumping := h.jumping
          exception := by
            rw [h.exception]
            exact .none } }

/-- A script is executed from an empty evaluation stack, and once more with some items on the stack.
After steps that succeed in both executions and call the host in neither, as many frames stand at
the same positions, and there is a renaming of handles under which everything that the first
execution knows about its evaluation stack, variables and objects is true of the second one. -/
theorem steps_sound {script : Script} {config : Config} {watchdog watchdog' : Watchdog}
    {supply supply' offset n : Nat} {items : List Item} {a₀ b₀ : Machine}
    (hload : (create config watchdog supply).loadScript script offset = (.ok (), a₀))
    (hload' : (create config watchdog' supply').loadScript script offset = (.ok (), b₀))
    (ha : steps n a₀ = (.ok (), a)) (hb : steps n (b₀.preload items) = (.ok (), b))
    (hhost : ∀ k < n, ∀ i, (steps k a₀).2.next = .ok (some i) → i.opcode ≠ .syscall) :
    b.state.depth = a.state.depth ∧
      b.state.frames.map Frame.position = a.state.frames.map Frame.position ∧
      ∃ ρ : Renaming,
        (a.state.worldAt 0).heap.Simulates ρ (b.state.worldAt 0).heap ∧
        (∀ i, ((a.state.worldAt 0).stack.view i).Approximates ρ
          ((b.state.worldAt 0).stack.view i)) ∧
        (a.state.worldAt 0).statics.Approximates ρ (b.state.worldAt 0).statics ∧
        List.Forall₂ (fun f g : Frame =>
            f.world = 0 ∧ g.world = 0 ∧ f.locals.Approximates ρ g.locals ∧
              f.arguments.Approximates ρ g.arguments)
          a.state.frames b.state.frames := by
  obtain ⟨rfl, -, -⟩ := loadScript_ok hload
  obtain ⟨rfl, -, -⟩ := loadScript_ok hload'
  have hstart := loaded_simulates
    (preload_scanning script config watchdog' supply' offset items) rfl watchdog supply
  obtain ⟨ρ, -, h⟩ := hstart.steps hhost ha hb
  refine ⟨h.state.depth, h.state.positions, ρ, h.state.world.heap, h.state.world.stack,
    h.state.world.statics, h.state.frames.imp fun f g hfg => ?_⟩
  exact ⟨hfg.first, hfg.world.trans hfg.first, hfg.locals, hfg.arguments⟩

/-- The script `PUSH1 SWAP NEWARRAY0` is executed from an empty stack and above the item 7. -/
theorem steps_sound_pushSwapNewArray :
    ∃ a b : Machine,
      steps 3 (loaded ⟨[0x11, 0x50, 0xC2]⟩ {} .lazy 0 0) = (.ok (), a) ∧
        steps 3 ((loaded ⟨[0x11, 0x50, 0xC2]⟩ {} .lazy 0 0).preload [.integer 7]) = (.ok (), b) ∧
        b.state.frames.map Frame.position = a.state.frames.map Frame.position ∧
        ∃ ρ : Renaming, (a.state.worldAt 0).heap.Simulates ρ (b.state.worldAt 0).heap ∧
          ∀ i, ((a.state.worldAt 0).stack.view i).Approximates ρ
            ((b.state.worldAt 0).stack.view i) := by
  have hload : (create {} .lazy 0).loadScript ⟨[0x11, 0x50, 0xC2]⟩ 0 =
      (.ok (), loaded ⟨[0x11, 0x50, 0xC2]⟩ {} .lazy 0 0) := rfl
  have hhost : ∀ k < 3, ∀ i,
      (steps k (loaded ⟨[0x11, 0x50, 0xC2]⟩ {} .lazy 0 0)).2.next = .ok (some i) →
        i.opcode ≠ .syscall := by
    intro k hk i hnext
    obtain rfl | rfl | rfl : k = 0 ∨ k = 1 ∨ k = 2 := by omega
    · cases hnext
      decide
    · cases hnext
      decide
    · cases hnext
      decide
  obtain ⟨-, hpositions, ρ, hheap, hstack, -⟩ :=
    steps_sound (n := 3) hload hload (by rfl) (by rfl) hhost
  exact ⟨_, _, rfl, rfl, hpositions, ρ, hheap, hstack⟩

end Machine

end SymbolicScript
