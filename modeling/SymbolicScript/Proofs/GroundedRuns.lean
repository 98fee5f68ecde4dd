import SymbolicScript.Proofs.BlockEntry
import SymbolicScript.Proofs.GroundedControl

/-!
# Handles and pointers never dangle

Items refer to objects and to offsets without owning them, and they are copied, stored, converted
and thrown from one place of the state to another.  This file proves that in a run of one script
each of them refers to something all the same (`Machine.reaches_never_dangles`): behind a handle
there is an object of the type that the item says, and the script reaches up to the offset of a
pointer.  It holds of the items in all places, also of those inside other items, and also after
steps that fail.

Hence the errors that complain about such items do not occur.  That is more than the invariant for a
call through a pointer, which ends with an advance of the caller: the script reaches up to the
instruction behind the call because the call has been decoded from it.
-/

namespace SymbolicScript

variable {g : Ground}

/-! ## The items of a state -/

/-- The variables have been given the value. -/
def Variables.Stores (v : Variables) (x : Item) : Prop :=
  match v.state with
  | .uninitialized stored => ∃ index, stored.find? index = some x
  | .initialized items => x ∈ items

/-- The item occurs somewhere in the state. -/
inductive State.Mentions (s : State) : Item → Prop
  /-- On an evaluation stack. -/
  | stack {w : World} {x : Item} (hw : w ∈ s.worlds) (hx : x ∈ w.stack.items) : Mentions s x
  /-- In a static field. -/
  | static {w : World} {x : Item} (hw : w ∈ s.worlds) (hx : w.statics.Stores x) : Mentions s x
  /-- Among the elements of an array or a struct. -/
  | element {w : World} {handle : Nat} {kind : CompoundKind} {items : List Item} {readOnly : Bool}
    {x : Item} (hw : w ∈ s.worlds)
    (hobject : w.heap.objects[handle]? = some (.compound kind items readOnly)) (hx : x ∈ items) :
    Mentions s x
  /-- As a key under which something has been stored or removed. -/
  | storageKey {w : World} {view : StorageView} {key : Item} {value : Option Item}
    (hw : w ∈ s.worlds) (hview : w.storage = some view)
    (hfind : view.values.find? key = some value) : Mentions s key
  /-- As a value that has been stored under a key. -/
  | storageValue {w : World} {view : StorageView} {key x : Item} (hw : w ∈ s.worlds)
    (hview : w.storage = some view) (hfind : view.values.find? key = some (some x)) : Mentions s x
  /-- As a location that has been read. -/
  | read {w : World} {t : AccessTracker} {a : Access} {offset : Nat} (hw : w ∈ s.worlds)
    (htracker : w.tracker = some t) (hfind : t.reads.find? a = some offset) : Mentions s a.item
  /-- As a location that has been written. -/
  | written {w : World} {t : AccessTracker} {a : Access} {offset : Nat} (hw : w ∈ s.worlds)
    (htracker : w.tracker = some t) (hfind : t.writes.find? a = some offset) : Mentions s a.item
  /-- In a local variable of a frame. -/
  | localVariable {f : Frame} {x : Item} (hf : f ∈ s.frames) (hx : f.locals.Stores x) : Mentions s x
  /-- In an argument of a frame. -/
  | argument {f : Frame} {x : Item} (hf : f ∈ s.frames) (hx : f.arguments.Stores x) : Mentions s x
  /-- On the result stack. -/
  | result {x : Item} (hx : x ∈ s.result.items) : Mentions s x
  /-- As the pending exception. -/
  | exception {x : Item} (hx : s.exception = some x) : Mentions s x
  /-- Inside an item that is mentioned: in a wrapper, as a key or as an operand. -/
  | part {x y : Item} (hy : Mentions s y) (hx : x.OccursIn y) : Mentions s x

/-- There is an object of the type behind the handle. -/
def Heap.Holds (heap : Heap) (type : ItemType) (handle : Nat) : Prop :=
  ∃ h : handle < heap.objects.size, heap.objects[handle].type = type

/-- What the item refers to on its own is part of the script or of the heap. -/
def Item.RefersInto (script : Script) (heap : Heap) : Item → Prop
  | pointer target => target ≤ script.length
  | buffer handle => heap.Holds .buffer handle
  | array handle => heap.Holds .array handle
  | struct handle => heap.Holds .struct handle
  | _ => True

/-- What is known of all values of the variables is known of each of them. -/
lemma Variables.All.of_stores {P : Item → Prop} {v : Variables} {x : Item} (h : v.All P)
    (hx : v.Stores x) : P x := by
  obtain ⟨kind, state⟩ := v
  cases state with
  | uninitialized stored =>
    obtain ⟨index, hfind⟩ := hx
    exact h index x hfind
  | initialized items => exact h x hx

namespace State.Grounded

variable {s : State}

/-- There is no other world than the first one. -/
lemma world_of_mem (h : s.Grounded g) {w : World} (hw : w ∈ s.worlds) : w.Grounded g := by
  obtain ⟨k, hk, rfl⟩ := Array.getElem_of_mem hw
  have hworlds := h.worlds
  have hzero : k = 0 := by omega
  subst hzero
  have hworld := h.world
  unfold State.worldAt at hworld
  rwa [Array.getD_eq_getD_getElem?, Array.getElem?_eq_getElem hk] at hworld

/-- All items that a grounded state mentions are grounded. -/
lemma mentions (h : s.Grounded g) {x : Item} (hx : s.Mentions x) : x.Grounded g := by
  induction hx with
  | stack hw hx => exact (h.world_of_mem hw).stack _ hx
  | static hw hx => exact (h.world_of_mem hw).statics.of_stores hx
  | element hw hobject hx => exact (h.world_of_mem hw).heap.elements _ _ hobject _ hx
  | storageKey hw hview hfind => exact ((h.world_of_mem hw).storage _ hview _ _ hfind).1
  | storageValue hw hview hfind => exact ((h.world_of_mem hw).storage _ hview _ _ hfind).2 _ rfl
  | read hw htracker hfind => exact ((h.world_of_mem hw).tracker _ htracker).reads _ _ hfind
  | written hw htracker hfind => exact ((h.world_of_mem hw).tracker _ htracker).writes _ _ hfind
  | localVariable hf hx => exact (h.frame _ hf).locals.of_stores hx
  | argument hf hx => exact (h.frame _ hf).arguments.of_stores hx
  | result hx => exact h.result _ hx
  | exception hx => exact h.exception _ hx
  | part _ hx ih => exact fun z hz => ih z (hz.trans hx)

end State.Grounded

/-- What the ground says of a handle is found in the heap. -/
lemma Heap.Grounded.holds {heap : Heap} {handle : Nat} {type : ItemType} (h : heap.Grounded g)
    (htype : g.type? handle = some type) : heap.Holds type handle := by
  obtain ⟨object, hobject, rfl⟩ := h.object_of_type htype
  obtain ⟨hlt, rfl⟩ := Array.getElem?_eq_some_iff.1 hobject
  exact ⟨hlt, rfl⟩

/-- A grounded item refers into the script and the heap that offer what the ground says. -/
lemma Item.Grounded.refersInto {script : Script} {heap : Heap} {x : Item} (h : x.Grounded g)
    (hlength : script.length = g.length) (hheap : heap.Grounded g) :
    x.RefersInto script heap := by
  have hanchored := h.anchored
  cases x with
  | pointer target =>
    rw [RefersInto, hlength]
    exact hanchored.1
  | buffer handle | array handle | struct handle => exact hheap.holds hanchored
  | _ => trivial

/-! ## Calls through pointers -/

/-- A call of an offset that the script reaches up to puts the frame of the routine on top of the
others, unless there are too many of them. -/
lemma Exec.call_within (config : Config) {s : State} {f : Frame} {rest : List Frame} {target : Nat}
    (hs : s.frames = f :: rest) (hlength : target ≤ (s.worldAt f.world).script.length)
    (hmax : target ≤ maxOffset) :
    call config target s = .ok () { s with frames := f.callee target :: s.frames } ∨
      call config target s = .error (.invocationDepthExceeded config.maxInvocationDepth) s := by
  have hbounds : (0 : Int) ≤ target ∧ (target : Int) ≤ (s.worldAt f.world).script.length ∧
      (target : Int) ≤ maxOffset := by omega
  have hclone : f.cloneAt (s.worldAt f.world).script target = .ok (f.callee target) := by
    unfold Frame.cloneAt Frame.enter Frame.seek
    simp only [if_pos hbounds]
    rfl
  have hload : call config target s = loadFrame config (f.callee target) s := by
    rw [call, bind_of_ok (frame_eq hs), bind_of_ok (world_eq hs), if_pos hbounds,
      Int.toNat_natCast, hclone]
    rfl
  rw [hload, loadFrame, bind_of_ok (get_eq s)]
  split
  · exact .inr rfl
  · exact .inl rfl

/-- A frame has been put on top of the others, or the failure is not about an offset outside the
script. -/
def State.Entered (g : Ground) (frames : List Frame) :
    EStateM.Result ExecutionError State Unit → Prop
  | .ok _ s => s.Grounded g ∧ ∃ callee, s.frames = callee :: frames
  | .error e _ => ∀ target available, e ≠ .instructionPointerOutOfBounds target available

/-- On a grounded state a call through a pointer enters the routine or fails for another reason than
an offset outside the script. -/
lemma Semantics.callPointer_entered (config : Config) (i : Instruction) {s : State} {f : Frame}
    {rest : List Frame} (h : s.Grounded g) (hs : s.frames = f :: rest) :
    State.Entered g (f :: rest) (callPointer config i s) := by
  have hpop : ∃ x s₁, Exec.pop s = .ok x s₁ ∧ s₁.frames = f :: rest := by
    simp [Exec.pop, Exec.onStack, Exec.onWorld, hs, State.setWorld]
  obtain ⟨x, s₁, hpopped, hframes⟩ := hpop
  have hstill := Exec.Still.pop s h
  rw [hpopped] at hstill
  obtain ⟨_, -, hs₁, rfl, hx⟩ := hstill
  rw [callPointer, bind_of_ok hpopped]
  cases hknown : x.known? with
  | none => rintro _ _ ⟨⟩
  | some item =>
    cases item with
    | pointer target =>
      have hf := hs₁.frame f (by simp [hframes])
      obtain ⟨htarget, hmax⟩ := (hx.known hknown).anchored
      have hlength : target ≤ (s₁.worldAt f.world).script.length := by
        rwa [hf.world, hs₁.world.length]
      simp only
      rcases Exec.call_within config hframes hlength hmax with hcalled | hfails
      · rw [hcalled, hframes]
        exact ⟨hs₁.setFrames (List.forall_mem_cons.2 ⟨hf.callee target, hframes ▸ hs₁.frame⟩),
          f.callee target, rfl⟩
      · rw [hfails]
        rintro _ _ ⟨⟩
    | _ => rintro _ _ ⟨⟩

namespace Machine

variable {config : Config} {i : Instruction} {s : State}

/-! ## Performing an instruction -/

/-- Advancing moves a frame at most. -/
lemma advance_still (below : Nat) (i : Instruction) :
    Exec.Still g (advance below i) fun _ => True := by
  intro s hs
  unfold advance
  split
  · exact ⟨g, le_rfl, hs, rfl, trivial⟩
  · simp only
    split
    · exact ⟨g, le_rfl, hs, rfl, trivial⟩
    · next f hf =>
      have hframe := hs.frame f (List.mem_of_getElem? hf)
      have hseek := f.safe_seek (s.worldAt f.world).script i.nextOffset
      split
      · next f' hmoved =>
        rw [hmoved] at hseek
        obtain rfl := hseek
        refine ⟨g, le_rfl, hs.setFrames fun k hk => ?_, rfl, trivial⟩
        rcases List.mem_or_eq_of_mem_set hk with hold | rfl
        · exact hs.frame k hold
        · exact { hframe with }
      · next e hfails =>
        rw [hfails] at hseek
        exact ⟨g, le_rfl, hs, hseek⟩

/-- The state that is left behind is grounded, and an error is not about a handle. -/
def Secure (g : Ground) (outcome : Except ExecutionError Unit × State) : Prop :=
  Safe (fun _ => True) outcome.1 ∧ ∃ g', g ≤ g' ∧ outcome.2.Grounded g'

/-- However performing an instruction ends, it leads from a grounded state to a grounded one. -/
theorem Performs.secure {outcome : Except ExecutionError Unit × State}
    (h : Performs config .standard i s outcome) (hs : s.Grounded g) : Secure g outcome := by
  have hsafe := Handler.run_grounded config (JumpTable.standard.handler i.opcode) i s hs
  change Exec.SafeOutcome _ _ (JumpTable.standard.dispatch config i s) at hsafe
  cases h with
  | fails hdispatch _ =>
    rw [hdispatch] at hsafe
    obtain ⟨g', hle, hs', he⟩ := hsafe
    exact ⟨he, g', hle, { hs' with }⟩
  | jumps hdispatch _ =>
    rw [hdispatch] at hsafe
    obtain ⟨g', hle, hs', -⟩ := hsafe
    exact ⟨trivial, g', hle, { hs' with }⟩
  | @advances s₁ s₂ hdispatch _ hadvance =>
    rw [hdispatch] at hsafe
    obtain ⟨g', hle, hs', -⟩ := hsafe
    have hadvanced := advance_still (s.frames.length - 1) i { s₁ with jumping := false }
      { hs' with }
    rw [hadvance] at hadvanced
    obtain ⟨_, -, hs'', rfl, -⟩ := hadvanced
    exact ⟨trivial, _, hle, hs''⟩
  | @leaves e s₁ s₂ hdispatch _ hadvance =>
    rw [hdispatch] at hsafe
    obtain ⟨g', hle, hs', -⟩ := hsafe
    have hadvanced := advance_still (s.frames.length - 1) i { s₁ with jumping := false }
      { hs' with }
    rw [hadvance] at hadvanced
    obtain ⟨g'', hle', hs'', he⟩ := hadvanced
    exact ⟨he, g'', hle.trans hle', hs''⟩

/-- A call through a pointer fails for another reason than an offset outside the script, if the call
itself ends inside the script. -/
lemma Performs.callPointer_inside {outcome : Except ExecutionError Unit × State} {f : Frame}
    {rest : List Frame} {e : ExecutionError} (h : Performs config .standard i s outcome)
    (hs : s.Grounded g) (hframes : s.frames = f :: rest) (hop : i.opcode = .callA)
    (hinside : i.nextOffset ≤ g.length) (he : outcome.1 = .error e) (target : Int)
    (available : Nat) : e ≠ .instructionPointerOutOfBounds target available := by
  have hentered := Semantics.callPointer_entered config i hs hframes
  have hdispatched : JumpTable.standard.dispatch config i = Semantics.callPointer config i := by
    unfold JumpTable.dispatch
    rw [hop]
    rfl
  rw [← hdispatched] at hentered
  cases h with
  | fails hdispatch _ =>
    rw [hdispatch] at hentered
    cases he
    exact hentered target available
  | jumps _ _ => cases he
  | advances _ _ _ => cases he
  | @leaves e' s₁ s₂ hdispatch _ hadvance =>
    -- The caller can be advanced, since what follows the call lies inside the script.
    rw [hdispatch] at hentered
    obtain ⟨hs₁, callee, hframes₁⟩ := hentered
    have hlength : s.frames.length - 1 = rest.length := by simp [hframes]
    rw [hlength] at hadvance
    have habove : s₁.frames = [callee] ++ f :: rest := hframes₁
    have houtside : (s₁.worldAt f.world).script.length < i.nextOffset :=
      length_lt_of_advance_error (s := { s₁ with jumping := false }) habove hadvance
    rw [(hs.frame f (by simp [hframes])).world, hs₁.world.length] at houtside
    omega

/-! ## Runs -/

/-- Executing an instruction leads from a grounded state to a grounded one, also if the budget or
the watchdog does not permit it, and an error is not about a handle. -/
lemma execute_secure {m : Machine} (htable : m.table = .standard) (hs : m.state.Grounded g)
    (i : Instruction) :
    Secure g ((m.execute i).1.mapError Located.payload, (m.execute i).2.state) := by
  unfold execute
  simp only
  split
  · exact ⟨rfl, g, le_rfl, { hs with }⟩
  · split
    · exact ⟨rfl, g, le_rfl, hs⟩
    · rw [htable]
      have hsecure := (performInstruction_performs m.config .standard i m.state).secure hs
      exact ⟨hsecure.1.unlocate i.offset, hsecure.2⟩

/-- The next instruction cannot be decoded at worst. -/
lemma next_safe (m : Machine) : Safe (fun _ => True) (m.next.mapError Located.payload) := by
  unfold next
  split
  · trivial
  · next f w _ =>
    unfold Frame.current
    cases w.script.instructionAt f.position with
    | error e => rfl
    | ok decoded =>
      cases decoded with
      | none => trivial
      | some i => trivial

/-- A step leads from a grounded state to a grounded one, and an error is not about a handle. -/
theorem step_secure {m : Machine} (htable : m.table = .standard) (hs : m.state.Grounded g) :
    Secure g (m.step.1.mapError Located.payload, m.step.2.state) := by
  have hsafe := next_safe m
  unfold step
  cases hnext : m.next with
  | error e =>
    rw [hnext] at hsafe
    exact ⟨hsafe, g, le_rfl, hs⟩
  | ok next =>
    cases next with
    | none => exact ⟨trivial, g, le_rfl, { hs with }⟩
    | some i => exact execute_secure htable hs i

/-- A step does not change how opcodes are bound. -/
lemma step_table (m : Machine) : m.step.2.table = m.table := by
  unfold step
  split
  · rfl
  · rfl
  · exact execute_table _ _

/-- A step does not change the configuration. -/
lemma step_config (m : Machine) : m.step.2.config = m.config := by
  unfold step
  split
  · rfl
  · rfl
  · unfold execute
    simp only
    split
    · rfl
    · split
      · rfl
      · rfl

/-- The table is the same in all machines that are reached. -/
lemma Reaches.table_eq {offsets : Nat → Prop} {m₀ m : Machine} (h : Reaches offsets m₀ m) :
    m.table = m₀.table := by
  induction h with
  | start => rfl
  | @step m _ _ ih => exact (step_table m).trans ih

/-- All machines that are reached have grounded states if the first one has. -/
theorem Reaches.grounded {offsets : Nat → Prop} {m₀ m : Machine} (htable : m₀.table = .standard)
    (hs : m₀.state.Grounded g) (h : Reaches offsets m₀ m) :
    m.table = .standard ∧ ∃ g', g ≤ g' ∧ m.state.Grounded g' := by
  induction h with
  | start => exact ⟨htable, g, le_rfl, hs⟩
  | @step m _ _ ih =>
    obtain ⟨htable, g', hle, hs⟩ := ih
    obtain ⟨-, g'', hle', hs'⟩ := step_secure htable hs
    exact ⟨(step_table m).trans htable, g'', hle.trans hle', hs'⟩

/-- A machine that has just loaded a script mentions no items. -/
lemma loaded_grounded (script : Script) (config : Config) (watchdog : Watchdog)
    (supply offset : Nat) :
    (loaded script config watchdog supply offset).state.Grounded
      ⟨script.length, fun _ => none⟩ where
  worlds := rfl
  world := ⟨rfl, .empty _, .empty, .untouched _, nofun, nofun⟩
  frame := by
    rintro f hf
    cases List.mem_singleton.1 hf
    exact ⟨rfl, .untouched _, .untouched _⟩
  result := .empty
  exception := nofun

/-- Handles and pointers never dangle.  A machine that has loaded a script once has one world
throughout its run, and every item that it mentions anywhere refers into the script and into the
heap of that world.  Hence no step complains about a handle, and no call through a pointer complains
about an offset outside the script. -/
theorem reaches_never_dangles {script : Script} {watchdog : Watchdog} {supply entry : Nat}
    {m₀ m : Machine}
    (hload : (create config watchdog supply).loadScript script entry = (.ok (), m₀))
    (hreaches : Reaches (fun _ => True) m₀ m) :
    (∃ w, m.state.worlds = #[w] ∧ ∀ x, m.state.Mentions x → x.RefersInto script w.heap) ∧
      ∀ e m', m.step = (.error e, m') →
        (∀ handle, e.payload ≠ .invalidHeapHandle handle) ∧
        ∀ i, m.next = .ok (some i) → i.opcode = .callA →
          ∀ target available, e.payload ≠ .instructionPointerOutOfBounds target available := by
  obtain ⟨rfl, -, -⟩ := loadScript_ok hload
  obtain ⟨htable, g, hle, hs⟩ :=
    hreaches.grounded rfl (loaded_grounded script config watchdog supply entry)
  have hlength : script.length = g.length := hle.1
  refine ⟨?_, fun e m' hstep => ⟨?_, fun i hnext hop => ?_⟩⟩
  · obtain ⟨w, hw⟩ := Array.size_eq_one_iff.1 hs.worlds
    refine ⟨w, hw, fun x hx => (hs.mentions hx).refersInto hlength ?_⟩
    exact (hs.world_of_mem (by simp [hw])).heap
  · have hsafe := (step_secure htable hs).1
    rw [hstep] at hsafe
    exact Safe.error_ne hsafe
  · obtain ⟨f, rest, hframes⟩ := exists_frame_of_next hnext
    have hdecoded : (m.state.worldAt f.world).script.instructionAt f.position = .ok (some i) := by
      rcases next_cases hframes hnext with hdecoded | rfl
      · exact hdecoded
      · cases hop
    have hinside : i.nextOffset ≤ g.length := by
      have hnextOffset := Script.nextOffset_le_length hdecoded
      rwa [(hs.frame f (by simp [hframes])).world, hs.world.length] at hnextOffset
    have hexecute : m.execute i = (.error e, m') := by
      unfold step at hstep
      rwa [hnext] at hstep
    obtain ⟨-, hlimit | hstopped | hperform⟩ := execute_error_cases hexecute
    · rw [hlimit]
      rintro _ _ ⟨⟩
    · rw [hstopped]
      rintro _ _ ⟨⟩
    · have hperforms := performInstruction_performs m.config m.table i m.state
      rw [hperform, htable] at hperforms
      exact hperforms.callPointer_inside hs hframes hop hinside rfl

/-- A script that creates an array and calls a routine through a pointer which it has pushed. -/
def referringScript : Script := ⟨[0xC2, 0x0A, 0x06, 0x00, 0x00, 0x00, 0x36, 0x40]⟩

/-- The machine that executes the script, after some steps.  It may have one frame only. -/
def referringMachine : Nat → Machine
  | 0 => loaded referringScript { maxInvocationDepth := 1 } .lazy 0 0
  | count + 1 => (referringMachine count).step.2

/-- The array is on the heap, and the call fails because there is a frame already. -/
theorem reaches_never_dangles_referringScript :
    (create { maxInvocationDepth := 1 } .lazy 0).loadScript referringScript 0 =
        (.ok (), referringMachine 0) ∧
      Reaches (fun _ => True) (referringMachine 0) (referringMachine 2) ∧
      (referringMachine 2).state.Mentions (.array 0) ∧
      (referringMachine 2).state.Mentions (.pointer 7) ∧
      (∃ w, (referringMachine 2).state.worlds = #[w] ∧ w.heap.Holds .array 0 ∧
        7 ≤ referringScript.length) ∧
      (referringMachine 2).step =
        (.error ⟨6, .invocationDepthExceeded 1⟩, referringMachine 3) ∧
      (referringMachine 2).next = .ok (some ⟨6, .callA, []⟩) ∧
      ∀ target available, ExecutionError.invocationDepthExceeded 1 ≠
        .instructionPointerOutOfBounds target available := by
  have hload : (create { maxInvocationDepth := 1 } .lazy 0).loadScript referringScript 0 =
      (.ok (), referringMachine 0) := rfl
  have hreaches : Reaches (fun _ => True) (referringMachine 0) (referringMachine 2) :=
    .step (.step .start fun _ _ => trivial) fun _ _ => trivial
  have hworld : (referringMachine 2).state.worlds = #[(referringMachine 2).state.worldAt 0] := rfl
  have hitems : ((referringMachine 2).state.worldAt 0).stack.items =
      [.const (.pointer 7), .const (.array 0)] := rfl
  have hmentions (x : Item) (hx : x = .pointer 7 ∨ x = .array 0) :
      (referringMachine 2).state.Mentions x := by
    have hstack : (referringMachine 2).state.Mentions (.const x) := by
      refine .stack (w := (referringMachine 2).state.worldAt 0) (by rw [hworld]; simp) ?_
      rw [hitems]
      rcases hx with rfl | rfl <;> simp
    exact .part hstack (.const .self)
  have harray := hmentions (.array 0) (.inr rfl)
  have hpointer := hmentions (.pointer 7) (.inl rfl)
  have hnext : (referringMachine 2).next = .ok (some ⟨6, .callA, []⟩) := rfl
  have hstep : (referringMachine 2).step =
      (.error ⟨6, .invocationDepthExceeded 1⟩, referringMachine 3) := rfl
  obtain ⟨⟨w, hw, hrefers⟩, herrors⟩ := reaches_never_dangles hload hreaches
  exact ⟨hload, hreaches, harray, hpointer,
    ⟨w, hw, hrefers _ harray, hrefers _ hpointer⟩, hstep, hnext,
    (herrors _ _ hstep).2 _ hnext rfl⟩

end Machine

end SymbolicScript
