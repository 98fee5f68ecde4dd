import Mathlib.Logic.Relation
import SymbolicScript.Proofs.RefusedChanges
import SymbolicScript.Proofs.RunTurns

/-!
# Frozen objects never change

An array or a struct that is frozen keeps its kind, its elements and the flag for ever, whatever is
done to the machine: instructions, whole runs and runs of blocks, further scripts that are loaded,
and operations on the heaps by whoever holds the machine, in any order
(`Machine.frozen_objects_never_change`).  A frozen object may have come about in the middle of a
copy, behind a handle that the copy itself still refers to; nothing is assumed about how it came
about.

That instructions keep the frozen objects has been shown together with the bounds of items, of which
nothing is needed here but that the bounds may demand nothing.
-/

namespace SymbolicScript

namespace Heap

/-- The operations of a heap that may change it, with the heap that they leave behind. -/
inductive Operation (heap : Heap) : Heap → Prop
  /-- An object is allocated. -/
  | allocate (object : HeapObject) : Operation heap (heap.add object)
  /-- An item is converted. -/
  | convert {id : Nat} {x : Item} {type : ItemType} {produced : Item × Heap}
    (h : heap.convert id x type = .ok produced) : Operation heap produced.2
  /-- A deep copy is made, of which some copies have been made before. -/
  | deepCopy {freeze : Bool} {x copy : Item} {copies : SortedMap Nat Nat} {s : CopyState}
    (h : Heap.deepCopy freeze x ⟨heap, copies⟩ = .ok copy s) : Operation heap s.heap
  /-- A deep copy fails half-way. -/
  | deepCopyFails {freeze : Bool} {x : Item} {copies : SortedMap Nat Nat} {e : ExecutionError}
    {s : CopyState} (h : Heap.deepCopy freeze x ⟨heap, copies⟩ = .error e s) :
    Operation heap s.heap
  /-- A struct is copied to be stored. -/
  | cloneStruct (x : Item) : Operation heap (heap.cloneStruct x).2
  /-- The elements of a compound are changed. -/
  | modifyItems {handle : Nat} {change : List Item → Except ExecutionError (List Item)}
    {heap' : Heap} (h : heap.modifyItems handle change = .ok heap') : Operation heap heap'
  /-- The bytes of a buffer are changed. -/
  | modifyBytes {handle : Nat} {change : Bytes → Except ExecutionError Bytes} {heap' : Heap}
    (h : heap.modifyBytes handle change = .ok heap') : Operation heap heap'
  /-- An object is frozen. -/
  | freeze {handle : Nat} {heap' : Heap} (h : heap.freeze handle = .ok heap') :
    Operation heap heap'

/-- No operation changes a frozen object. -/
theorem Operation.keepsFrozen {heap heap' : Heap} (h : heap.Operation heap') :
    heap.KeepsFrozen heap' := by
  cases h with
  | allocate object => exact ((Extends.refl heap).add object).keepsFrozen
  | convert hconvert => exact (extends_of_convert hconvert).keepsFrozen
  | @deepCopy freeze x _ copies _ hcopy =>
    have hleaves := heap.extends_of_deepCopy copies freeze x
    rw [hcopy] at hleaves
    exact hleaves.1.keepsFrozen
  | @deepCopyFails freeze x copies _ _ hcopy =>
    have hleaves := heap.extends_of_deepCopy copies freeze x
    rw [hcopy] at hleaves
    exact Extends.keepsFrozen hleaves
  | cloneStruct x => exact (heap.extends_of_cloneStruct x).keepsFrozen
  | modifyItems hmodify => exact keepsFrozen_of_modifyItems hmodify
  | modifyBytes hmodify => exact keepsFrozen_of_modifyBytes hmodify
  | freeze hfreeze => exact keepsFrozen_of_freeze hfreeze

end Heap

/-! ## States -/

namespace State.KeepsFrozen

variable {s s' : State}

/-- Further worlds change nothing in those that there are. -/
lemma of_push {w : World} (h : s'.worlds = s.worlds.push w) : s.KeepsFrozen s' := by
  intro index handle object hobject _
  have hlt : index < s.worlds.size := lt_size_of_object hobject
  have hsame : s'.worldAt index = s.worldAt index := by
    unfold worldAt
    rw [h, Array.getD_eq_getD_getElem?, Array.getD_eq_getD_getElem?, Array.getElem?_push_lt hlt,
      Array.getElem?_eq_getElem hlt]
  rw [hsame]
  exact hobject

/-- A script is loaded in a world of its own. -/
lemma of_loadScript (config : Config) (script : Script) (offset : Nat) (s : State) :
    s.KeepsFrozen (s.loadScript config script offset).2 := by
  unfold loadScript
  cases Frame.enter script s.worlds.size (-1) offset with
  | error e => exact .refl s
  | ok f =>
    simp only
    split
    · next loaded hloaded =>
      obtain ⟨_, s₁, hworld, hframe⟩ := bind_eq_ok.1 hloaded
      cases hworld
      rcases Exec.loadFrame_cases config f _ with ⟨-, hloads⟩ | ⟨e, hfails⟩
      · rw [hloads] at hframe
        cases hframe
        exact of_push rfl
      · rw [hfails] at hframe
        cases hframe
    · exact .refl s

end State.KeepsFrozen

namespace Machine

variable {m m' : Machine}

/-! ## Runs -/

/-- Executing an instruction changes no frozen object. -/
lemma execute_keepsFrozen (m : Machine) (i : Instruction) :
    m.state.KeepsFrozen (m.execute i).2.state :=
  (execute_evolves (Bounds.none_admits m.config) (fun _ => trivial)
    (.start m.state.within_none)).frozen

/-- A step changes no frozen object. -/
lemma step_keepsFrozen (m : Machine) : m.state.KeepsFrozen m.step.2.state :=
  (step_evolves (Bounds.none_admits m.config) (fun _ _ _ => trivial)
    (.start m.state.within_none)).frozen

/-- The way in which a run ends changes no frozen object. -/
lemma Ends.keepsFrozen {σ : Type} {stop : σ → Machine → Instruction → Bool × σ} {memory : σ}
    {ending : Ending σ} (h : Ends stop memory m ending) :
    m.state.KeepsFrozen ending.machine.state := by
  cases h with
  | halted | malformed | stopped => exact .refl _
  | finished => exact .refl _
  | @failed i _ _ _ _ _ _ hfails =>
    have hexecute := execute_keepsFrozen m i
    rw [hfails] at hexecute
    exact hexecute

/-- A run changes no frozen object. -/
lemma run_keepsFrozen {σ : Type} (stop : σ → Machine → Instruction → Bool × σ) (memory : σ)
    (m : Machine) : m.state.KeepsFrozen (run stop memory m).machine.state := by
  have hturn : ∀ memory₁ m₁ memory₂ m₂ i, m.state.KeepsFrozen m₁.state →
      Turn stop memory₁ m₁ memory₂ m₂ i → m.state.KeepsFrozen m₂.state := by
    intro _ m₁ _ m₂ i hm hturn
    have hexecute := execute_keepsFrozen m₁ i
    rw [hturn.executes] at hexecute
    exact hm.trans hexecute
  obtain ⟨_, m', hm, hends⟩ :=
    run_invariant (P := fun _ m' => m.state.KeepsFrozen m'.state) (.refl m.state) hturn
  exact hm.trans hends.keepsFrozen

/-- The instructions of a block change no frozen object. -/
lemma runInside_keepsFrozen (block : List Instruction) (depth : Nat) (m : Machine) :
    m.state.KeepsFrozen (runInside block depth m).2.state := by
  fun_induction runInside block depth m with
  | case1 | case2 | case3 | case4 => exact .refl _
  | case5 m i _ _ _ e m' hfails =>
    have hexecute := execute_keepsFrozen m i
    rw [hfails] at hexecute
    exact hexecute
  | case6 m i _ _ _ m' hok ih =>
    have hexecute := execute_keepsFrozen m i
    rw [hok] at hexecute
    exact hexecute.trans ih

/-- Placing the current frame changes no frozen object. -/
lemma seek_keepsFrozen (m : Machine) (offset : Nat) :
    m.state.KeepsFrozen (m.perform (Exec.seek offset)).2.state := by
  have hevolves := Exec.evolves_seek (b := .none) offset m.state (.start m.state.within_none)
  unfold perform EStateM.run
  cases hseek : Exec.seek offset m.state with
  | ok u s =>
    rw [hseek] at hevolves
    exact hevolves.1.frozen
  | error e s =>
    rw [hseek] at hevolves
    exact hevolves.frozen

/-- A run of a block changes no frozen object. -/
lemma runBlock_keepsFrozen (m : Machine) (block : List Instruction) :
    m.state.KeepsFrozen (m.runBlock block).2.state := by
  unfold runBlock
  split
  · exact .refl _
  · next first rest =>
    split
    · exact .refl _
    · have hseek := seek_keepsFrozen m first.offset
      split
      · next hfails =>
        rw [hfails] at hseek
        exact hseek
      · next hplaced =>
        rw [hplaced] at hseek
        exact hseek.trans (runInside_keepsFrozen _ _ _)

/-! ## Anything that is done -/

/-- What may be done to a machine and its heaps. -/
inductive Acts (m : Machine) : Machine → Prop
  /-- One instruction is executed, or fails. -/
  | step : Acts m m.step.2
  /-- Instructions are executed until a predicate stops the run. -/
  | run {σ : Type} (stop : σ → Machine → Instruction → Bool × σ) (memory : σ) :
    Acts m (run stop memory m).machine
  /-- The instructions of a block are executed. -/
  | runBlock (block : List Instruction) : Acts m (m.runBlock block).2
  /-- A script is loaded. -/
  | loadScript (script : Script) (offset : Nat) : Acts m (m.loadScript script offset).2
  /-- An operation is performed on the heap of a world. -/
  | operate {index : Nat} {heap : Heap} (h : (m.state.worldAt index).heap.Operation heap) :
    Acts m { m with state := m.state.setWorld index { m.state.worldAt index with heap } }

/-- Nothing that is done changes a frozen object. -/
theorem Acts.keepsFrozen (h : Acts m m') : m.state.KeepsFrozen m'.state := by
  cases h with
  | step => exact step_keepsFrozen m
  | run stop memory => exact run_keepsFrozen stop memory m
  | runBlock block => exact runBlock_keepsFrozen m block
  | loadScript script offset =>
    exact State.KeepsFrozen.of_loadScript m.config script offset m.state
  | operate hoperation => exact (State.HeapsKeep.refl m.state).setWorld hoperation.keepsFrozen

/-- Nor does anything that is done one after the other. -/
theorem keepsFrozen_of_acts (h : Relation.ReflTransGen Acts m m') :
    m.state.KeepsFrozen m'.state := by
  induction h with
  | refl => exact .refl _
  | tail _ hacts ih => exact ih.trans hacts.keepsFrozen

/-- A frozen compound never changes.  Whatever is done to a machine and its heaps, an object that is
frozen is the same ever after.  And an instruction that changes a compound fails if its operand
refers to a frozen object, and leaves all objects of all heaps as they are. -/
theorem frozen_objects_never_change :
    (∀ m m' : Machine, Relation.ReflTransGen Acts m m' →
      ∀ (index handle : Nat) (object : HeapObject),
        (m.state.worldAt index).heap.objects[handle]? = some object → object.isReadOnly = true →
          (m'.state.worldAt index).heap.objects[handle]? = some object) ∧
    ∀ (m : Machine) (i : Instruction) (depth handle : Nat) (f : Frame) (rest : List Frame)
      (object : HeapObject), m.next = .ok (some i) →
      (m.table.handler i.opcode).compoundDepth? = some depth → m.state.frames = f :: rest →
      ((m.state.worldAt f.world).stack.view depth).handle? = some handle →
      (m.state.worldAt f.world).heap.objects[handle]? = some object → object.isReadOnly = true →
        ∃ e m', m.step = (.error e, m') ∧ ∀ (index k : Nat) (old : HeapObject),
          (m.state.worldAt index).heap.objects[k]? = some old →
            (m'.state.worldAt index).heap.objects[k]? = some old := by
  refine ⟨fun m m' hacts _ _ _ => (keepsFrozen_of_acts hacts).getElem?, ?_⟩
  intro m i depth handle f rest object hnext hdepth hframes hoperand hobject hfrozen
  obtain ⟨e, m', hstep, hkeeps⟩ := step_refuses hnext hdepth hframes hoperand hobject hfrozen
  exact ⟨e, m', hstep, fun _ _ _ hold => hkeeps.getElem? hold trivial⟩

/-- A script that appends to an empty array. -/
def appendingScript : Script := ⟨[0xC2, 0x4A, 0x11, 0xCF]⟩

/-- The machine that executes the script, after some steps. -/
def appendingMachine : Nat → Machine
  | 0 => loaded appendingScript {} .lazy 0 0
  | count + 1 => (appendingMachine count).step.2

/-- The frame of the machine in front of the last instruction. -/
def appendingFrame : Frame :=
  { world := 0, position := 3, returnCount := -1, locals := .untouched .local,
    arguments := .untouched .argument, tries := [] }

/-- The machine in front of the last instruction, with the array frozen. -/
def frozenMachine : Machine :=
  { appendingMachine 3 with
    state := (appendingMachine 3).state.setWorld 0
      { (appendingMachine 3).state.worldAt 0 with heap := ⟨#[.compound .array [] true]⟩ } }

/-- Appending to the frozen array fails, and the array is frozen and empty afterwards. -/
theorem frozen_objects_never_change_appendingScript :
    (Acts (appendingMachine 3) frozenMachine ∧
      Relation.ReflTransGen Acts frozenMachine frozenMachine.step.2 ∧
      (frozenMachine.state.worldAt 0).heap.objects[0]? = some (.compound .array [] true) ∧
      (frozenMachine.step.2.state.worldAt 0).heap.objects[0]? =
        some (.compound .array [] true)) ∧
    frozenMachine.next = .ok (some ⟨3, .append, []⟩) ∧
      (frozenMachine.table.handler .append).compoundDepth? = some 1 ∧
      frozenMachine.state.frames = [appendingFrame] ∧
      ((frozenMachine.state.worldAt 0).stack.view 1).handle? = some 0 ∧
      ∃ e m', frozenMachine.step = (.error e, m') ∧ ∀ (index k : Nat) (old : HeapObject),
        (frozenMachine.state.worldAt index).heap.objects[k]? = some old →
          (m'.state.worldAt index).heap.objects[k]? = some old := by
  have hheap : ((appendingMachine 3).state.worldAt 0).heap.freeze 0 =
      .ok ⟨#[.compound .array [] true]⟩ := by decide +kernel
  have hacts : Acts (appendingMachine 3) frozenMachine := .operate (.freeze hheap)
  have hruns : Relation.ReflTransGen Acts frozenMachine frozenMachine.step.2 := .single .step
  have hobject : (frozenMachine.state.worldAt 0).heap.objects[0]? =
      some (.compound .array [] true) := rfl
  have hnext : frozenMachine.next = .ok (some ⟨3, .append, []⟩) := rfl
  have hframes : frozenMachine.state.frames = [appendingFrame] := rfl
  have hoperand : ((frozenMachine.state.worldAt 0).stack.view 1).handle? = some 0 := by
    decide +kernel
  refine ⟨⟨hacts, hruns, hobject, ?_⟩, hnext, rfl, hframes, hoperand, ?_⟩
  · exact frozen_objects_never_change.1 _ _ hruns 0 0 _ hobject rfl
  · exact frozen_objects_never_change.2 frozenMachine ⟨3, .append, []⟩ 1 0 appendingFrame []
      _ hnext rfl hframes hoperand hobject rfl

end Machine

end SymbolicScript
