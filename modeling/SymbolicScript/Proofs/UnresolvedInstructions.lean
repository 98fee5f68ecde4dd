import SymbolicScript.Proofs.BoundedResults
import SymbolicScript.Proofs.ResolvedHandlers
import SymbolicScript.Proofs.StackView
import SymbolicScript.Proofs.StraightLine

/-!
# What an unresolved instruction leaves behind

An instruction that turns out to be unresolved has been executed up to the operand that is not
known.  Whoever drives the machine goes on from there, so that it matters what has been done by
then: operands have been popped, and what was to be stored may have been copied.

This file proves that this is all (`Machine.Reaches.step_consumes`).  The handlers that demand
operands share the shape that makes it true: up to the last demand they consume operands only
(`State.Consumed`), and behind it nothing is unresolved any more (`Exec.Defers`).
-/

namespace SymbolicScript

/-! ## Consuming operands -/

/-- What may become of a world while operands are consumed: items are popped off the stack, and new
objects are allocated. -/
structure World.Consumed (w w' : World) : Prop where
  /-- The script is the same. -/
  script : w'.script = w.script
  /-- The static fields are the same. -/
  statics : w'.statics = w.statics
  /-- The view of storage is the same. -/
  storage : w'.storage = w.storage
  /-- The same accesses are recorded. -/
  tracker : w'.tracker = w.tracker
  /-- All objects are the same. -/
  heap : w.heap.Extends w'.heap
  /-- The stack is what is left of the former one below some items, unknown ones included. -/
  stack : ∃ popped, ∀ index, w'.stack.view index = w.stack.view (popped + index)

namespace World.Consumed

variable {u v w : World}

lemma refl (w : World) : w.Consumed w :=
  ⟨rfl, rfl, rfl, rfl, .refl _, 0, fun index => by rw [Nat.zero_add]⟩

lemma trans (huv : u.Consumed v) (hvw : v.Consumed w) : u.Consumed w where
  script := hvw.script.trans huv.script
  statics := hvw.statics.trans huv.statics
  storage := hvw.storage.trans huv.storage
  tracker := hvw.tracker.trans huv.tracker
  heap := Heap.Keeps.trans huv.heap hvw.heap
  stack := by
    obtain ⟨first, hfirst⟩ := huv.stack
    obtain ⟨second, hsecond⟩ := hvw.stack
    exact ⟨first + second, fun index => by rw [hsecond, hfirst, Nat.add_assoc]⟩

end World.Consumed

/-- What may become of a state while operands are consumed: nothing but what becomes of the world of
the current frame. -/
structure State.Consumed (s s' : State) : Prop where
  /-- The frames are the same, with their positions, variables and try blocks. -/
  frames : s'.frames = s.frames
  /-- The values returned so far are the same. -/
  result : s'.result = s.result
  /-- The status is the same. -/
  status : s'.status = s.status
  /-- The pending exception is the same. -/
  exception : s'.exception = s.exception
  /-- The mark of a jump is the same. -/
  jumping : s'.jumping = s.jumping
  /-- Fresh unknowns are numbered from the same number on. -/
  supply : s'.supply = s.supply
  /-- There are as many worlds. -/
  size : s'.worlds.size = s.worlds.size
  /-- Operands are consumed in the world of the current frame. -/
  current : ∀ f ∈ s.frames.head?, (s.worldAt f.world).Consumed (s'.worldAt f.world)
  /-- The other worlds are the same. -/
  others : ∀ index, (∀ f ∈ s.frames.head?, f.world ≠ index) →
    s'.worldAt index = s.worldAt index

namespace State.Consumed

instance : Std.Refl State.Consumed where
  refl _ := ⟨rfl, rfl, rfl, rfl, rfl, rfl, rfl, fun _ _ => .refl _, fun _ _ => rfl⟩

instance : IsTrans State State.Consumed where
  trans _ _ _ hst htu :=
    { frames := htu.frames.trans hst.frames
      result := htu.result.trans hst.result
      status := htu.status.trans hst.status
      exception := htu.exception.trans hst.exception
      jumping := htu.jumping.trans hst.jumping
      supply := htu.supply.trans hst.supply
      size := htu.size.trans hst.size
      current := fun f hf => (hst.current f hf).trans (htu.current f (by rwa [hst.frames]))
      others := fun index hindex =>
        (htu.others index (by rwa [hst.frames])).trans (hst.others index hindex) }

/-- In the world of the current frame operands may be consumed. -/
lemma setWorld {s : State} {f : Frame} {rest : List Frame} (hframes : s.frames = f :: rest)
    {w : World} (h : (s.worldAt f.world).Consumed w) : s.Consumed (s.setWorld f.world w) where
  frames := rfl
  result := rfl
  status := rfl
  exception := rfl
  jumping := rfl
  supply := rfl
  size := s.size_setWorld f.world w
  current g hg := by
    rw [hframes, List.head?_cons, Option.mem_some_iff] at hg
    subst hg
    rw [worldAt_setWorld]
    split
    · exact h
    · exact .refl _
  others index hindex := by
    have hother : f.world ≠ index := hindex f (by rw [hframes]; rfl)
    rw [worldAt_setWorld, if_neg fun h => hother h.1]

end State.Consumed

namespace Exec

open State (Consumed)

variable {α β : Type}

/-- What consumes operands in every world does in that of the current frame. -/
lemma consumes_onWorld {change : World → α × World} (h : ∀ w : World, w.Consumed (change w).2) :
    Keeps Consumed (onWorld change) := by
  intro s
  unfold after onWorld
  cases hframes : s.frames with
  | nil => exact Std.Refl.refl s
  | cons f rest => exact .setWorld hframes (h _)

/-- What only takes items off the top of the stack consumes operands. -/
lemma consumes_onStack {change : EvaluationStack → α × EvaluationStack}
    (h : ∀ stack, ∃ popped, ∀ index, (change stack).2.view index = stack.view (popped + index)) :
    Keeps Consumed (onStack change) :=
  consumes_onWorld fun w => ⟨rfl, rfl, rfl, rfl, .refl _, h w.stack⟩

@[simp] lemma consumes_pop : Keeps Consumed pop :=
  consumes_onStack fun stack => ⟨1, fun index => by rw [stack.view_pop, Nat.add_comm]⟩

/-- Copying what is to be stored allocates objects only, also if it fails. -/
lemma consumes_cloneStruct (x : Item) : Keeps Consumed (cloneStruct x) := by
  intro s
  cases hframes : s.frames with
  | nil =>
    have hnone : (cloneStruct x).after s = s := by
      simp [after, cloneStruct, heap, world, Bind.bind, EStateM.bind, hframes]
    rw [hnone]
    exact Std.Refl.refl s
  | cons f rest =>
    have hextends := (s.worldAt f.world).heap.extends_of_cloneStruct x
    unfold cloneStruct after
    rw [bind_of_ok (heap_eq hframes)]
    generalize (s.worldAt f.world).heap.cloneStruct x = cloned at hextends ⊢
    obtain ⟨copy, heap⟩ := cloned
    have hset : s.Consumed (s.setWorld f.world { s.worldAt f.world with heap }) :=
      .setWorld hframes ⟨rfl, rfl, rfl, rfl, hextends, 0, fun index => by rw [Nat.zero_add]⟩
    simp only
    rw [bind_of_ok (setHeap_eq hframes heap)]
    cases copy with
    | ok y => exact hset
    | error e => exact hset

@[simp] lemma consumes_heap : Keeps Consumed heap := by
  simp [heap]

@[simp] lemma consumes_popInteger (opcode : Opcode) : Keeps Consumed (popInteger opcode) := by
  simp [popInteger]

@[simp] lemma consumes_popCount (opcode : Opcode) : Keeps Consumed (popCount opcode) := by
  simp [popCount]

@[simp] lemma consumes_popBoolean (opcode : Opcode) : Keeps Consumed (popBoolean opcode) := by
  simp [popBoolean]

end Exec

namespace Semantics

open Exec
open State (Consumed)

lemma consumes_popDepth (opcode : Opcode) : Keeps Consumed (popDepth opcode) := by
  simp [popDepth]

lemma consumes_popSize (opcode : Opcode) : Keeps Consumed (popSize opcode) := by
  simp [popSize]

lemma consumes_bytesOf (x : Item) : Keeps Consumed (bytesOf x) := by
  simp [bytesOf]

lemma consumes_popMessage : Keeps Consumed popMessage := by
  refine consumes_pop.bind fun x => consumes_heap.bind fun heap => ?_
  split
  · exact keeps_pure _
  · exact keeps_pure _

end Semantics

/-! ## Deferred instructions -/

namespace Exec

open State (Consumed)

variable {α β : Type}

/-- If the computation is unresolved, it has consumed operands only. -/
def Defers (x : Exec α) : Prop :=
  ∀ s e s', x s = .error e s' → e.isUnresolved = true → s.Consumed s'

namespace Defers

/-- A computation that is never unresolved may do anything. -/
lemma of_resolved {x : Exec α} (h : Resolved x) : Defers x := by
  intro s e s' herror he
  rw [h s e s' herror] at he
  cases he

/-- A computation that consumes operands only may be unresolved. -/
lemma of_consumes {x : Exec α} (h : Keeps Consumed x) : Defers x := by
  intro s e s' herror _
  have hconsumed := h s
  rwa [after_of_error herror] at hconsumed

/-- Up to where a computation is unresolved, it consumes operands only. -/
lemma bind {x : Exec α} {k : α → Exec β} (hx : Keeps Consumed x) (hk : ∀ a, Defers (k a)) :
    Defers (x >>= k) := by
  intro s e s' herror he
  simp only [Bind.bind, EStateM.bind] at herror
  have hconsumed := hx s
  cases hfirst : x s with
  | ok a s₁ =>
    rw [after_of_ok hfirst] at hconsumed
    rw [hfirst] at herror
    exact IsTrans.trans _ _ _ hconsumed (hk a s₁ e s' herror he)
  | error e₁ s₁ =>
    rw [after_of_error hfirst] at hconsumed
    rw [hfirst] at herror
    cases herror
    exact hconsumed

/-- An operand that has to be known is consumed before. -/
lemma throw (e : ExecutionError) : Defers (MonadExcept.throw e : Exec α) :=
  of_consumes (keeps_throw e)

end Defers

end Exec

namespace Semantics

open Exec (Defers consumes_pop consumes_heap consumes_popInteger consumes_popCount
  consumes_popBoolean consumes_cloneStruct keeps_liftM keeps_demand)

variable (config : Config) (i : Instruction)

/-! ### Control flow -/

lemma jumpWhen_defers (wanted : Bool) : Defers (jumpWhen wanted i) :=
  .bind (consumes_popBoolean _) fun _ => .of_resolved (.ite (jump_resolved i) (.pure _))

lemma jumpCompare_defers : Defers (jumpCompare i) := by
  refine .bind (consumes_popInteger _) fun y => .bind (consumes_popInteger _) fun x =>
    .of_resolved ?_
  split
  · exact jump_resolved i
  · exact .pure _
  · exact .throw rfl

lemma callPointer_defers : Defers (callPointer config i) := by
  refine .bind consumes_pop fun pointer => ?_
  split
  · exact .of_resolved (Exec.call_resolved config _)
  · exact .throw _
  · exact .throw _

lemma require_defers (text : Option String) : Defers (require text i) :=
  .bind (consumes_popBoolean _) fun _ => .of_resolved (.ite (.pure _) (.throw rfl))

lemma assertWithMessage_defers : Defers (assertWithMessage i) :=
  .bind consumes_popMessage fun text => require_defers i text

lemma syscall_defers : Defers (syscall i) := by
  refine .bind (keeps_liftM _) fun hash => ?_
  split
  · exact .throw _
  · exact .of_resolved (.bind (.fresh _) fun _ => .push _)
  · exact .of_resolved (.bind (.fresh _) fun _ => .push _)
  · exact .of_resolved (storageGet_resolved i)
  · exact .of_resolved (storagePut_resolved i)
  · exact .of_resolved (storageDelete_resolved i)

/-! ### Stack -/

lemma xdrop_defers : Defers (xdrop i) :=
  .bind (consumes_popDepth _) fun _ => .of_resolved (.modifyStack _)

lemma pick_defers : Defers (pick i) :=
  .bind (consumes_popDepth _) fun _ => .of_resolved (copyFrom_resolved _)

lemma roll_defers : Defers (roll i) :=
  .bind (consumes_popDepth _) fun _ => .of_resolved (.ite (.pure _) (moveUp_resolved _))

lemma reverseCounted_defers : Defers (reverseCounted i) :=
  .bind (consumes_popDepth _) fun _ => .of_resolved (.modifyStack _)

/-! ### Bytes -/

lemma memcpy_defers : Defers (memcpy i) := by
  refine .bind (consumes_popCount _) fun _ => .bind (consumes_popCount _) fun _ =>
    .bind consumes_pop fun source => .bind (consumes_bytesOf source) fun _ =>
      .bind (keeps_demand _ _) fun _ => .bind (keeps_liftM _) fun _ =>
        .bind (consumes_popCount _) fun _ => .bind consumes_pop fun target => ?_
  split
  · exact .bind consumes_heap fun _ => .bind (keeps_liftM _) fun _ => .of_resolved (.setHeap _)
  · exact .throw _
  · exact .throw _

lemma substring_defers : Defers (substring i) := by
  refine .bind (consumes_popCount _) fun count => .bind (consumes_popCount _) fun index =>
    .bind consumes_pop fun x => .bind (consumes_bytesOf x) fun bytes => .of_resolved ?_
  split
  · exact .push _
  · exact .bind (.lift (slice_resolved _ _ _ _)) fun _ => .pushBuffer _

lemma takeEnd_defers (part : Nat → Bytes → Bytes) : Defers (takeEnd part i) := by
  refine .bind (consumes_popCount _) fun count => .bind consumes_pop fun x =>
    .bind (consumes_bytesOf x) fun bytes => .of_resolved ?_
  split
  · exact .push _
  · exact .ite (.pushBuffer _) (.throw rfl)

/-! ### Compounds -/

/-- The heap is not changed before the change of an object has succeeded. -/
lemma modifyItems_defers (handle : Nat)
    (change : List Item → Except ExecutionError (List Item)) : Defers (modifyItems handle change) :=
  .bind consumes_heap fun _ => .bind (keeps_liftM _) fun _ => .of_resolved (.setHeap _)

lemma modifyBytes_defers (handle : Nat) (change : Bytes → Except ExecutionError Bytes) :
    Defers (modifyBytes handle change) :=
  .bind consumes_heap fun _ => .bind (keeps_liftM _) fun _ => .of_resolved (.setHeap _)

lemma pack_defers : Defers (pack i) :=
  .bind (consumes_popSize _) fun _ => .of_resolved (.bind (.popMany _) fun _ => .pushCompound _ _)

lemma unpack_defers : Defers (unpack i) :=
  .bind consumes_pop fun _ => .bind (keeps_liftM _) fun handle => .of_resolved <|
    .bind .heap fun heap => .bind (.lift (heap.items_resolved handle)) fun _ =>
      .bind (.modifyStack _) fun _ => .push _

lemma newSized_defers : Defers (newSized i) :=
  .bind (consumes_popSize _) fun _ => .of_resolved (.pushCompound _ _)

lemma newTyped_defers : Defers (newTyped i) := by
  refine .bind (keeps_liftM _) fun byte => ?_
  split
  · exact .throw _
  · exact .bind (consumes_popSize _) fun _ => .of_resolved (.pushCompound _ _)

lemma append_defers : Defers (append i) :=
  .bind consumes_pop fun _ => .bind consumes_pop fun _ => .bind (keeps_liftM _) fun handle =>
    .bind (consumes_cloneStruct _) fun _ => modifyItems_defers handle _

lemma setItem_defers : Defers (setItem i) := by
  refine .bind consumes_pop fun value => .bind consumes_pop fun key =>
    .bind consumes_pop fun compound => .bind (keeps_liftM _) fun found => ?_
  cases found with
  | items handle => exact .bind (consumes_cloneStruct _) fun _ => modifyItems_defers handle _
  | bytes handle => exact .bind (keeps_liftM _) fun _ => modifyBytes_defers handle _

lemma reverseItems_defers : Defers (reverseItems i) := by
  refine .bind consumes_pop fun compound => .bind (keeps_liftM _) fun found => ?_
  cases found with
  | items handle => exact modifyItems_defers handle _
  | bytes handle => exact modifyBytes_defers handle _

lemma remove_defers : Defers (remove i) :=
  .bind consumes_pop fun _ => .bind consumes_pop fun _ => .bind (keeps_liftM _) fun handle =>
    modifyItems_defers handle _

lemma clearItems_defers : Defers (clearItems i) :=
  .bind consumes_pop fun _ => .bind (keeps_liftM _) fun handle => modifyItems_defers handle _

/-- Once the compound is known, removing its last element is never unresolved. -/
lemma popItem_defers : Defers (popItem i) := by
  refine .bind consumes_pop fun compound => .bind (keeps_liftM _) fun handle => .of_resolved ?_
  refine .bind .heap fun heap => .bind (.bind .heap fun heap => .bind (.lift ?_) fun _ =>
    .setHeap _) fun _ => .bind (.lift (heap.items_resolved handle)) fun _ => .push _
  exact heap.modifyItems_resolved handle fun items =>
    .ite (fun _ => .error rfl) fun _ => .ok _

end Semantics

/-- Every handler that is unresolved has consumed operands only. -/
theorem Handler.run_defers (config : Config) (handler : Handler) (i : Instruction) :
    Exec.Defers (handler.run config i) := by
  cases hdemands : handler.demands with
  | false => exact .of_resolved (run_resolved config i hdemands)
  | true =>
    cases handler with
    | jumpIf | jumpIfNot => exact Semantics.jumpWhen_defers i _
    | jumpCompare => exact Semantics.jumpCompare_defers i
    | callPointer => exact Semantics.callPointer_defers config i
    | assert => exact Semantics.require_defers i none
    | assertWithMessage => exact Semantics.assertWithMessage_defers i
    | syscall => exact Semantics.syscall_defers i
    | xdrop => exact Semantics.xdrop_defers i
    | pick => exact Semantics.pick_defers i
    | roll => exact Semantics.roll_defers i
    | reverseCounted => exact Semantics.reverseCounted_defers i
    | memcpy => exact Semantics.memcpy_defers i
    | substring => exact Semantics.substring_defers i
    | leftPart | rightPart => exact Semantics.takeEnd_defers i _
    | pack => exact Semantics.pack_defers i
    | unpack => exact Semantics.unpack_defers i
    | newSized => exact Semantics.newSized_defers i
    | newTyped => exact Semantics.newTyped_defers i
    | append => exact Semantics.append_defers i
    | setItem => exact Semantics.setItem_defers i
    | reverseItems => exact Semantics.reverseItems_defers i
    | remove => exact Semantics.remove_defers i
    | clearItems => exact Semantics.clearItems_defers i
    | popItem => exact Semantics.popItem_defers i
    | unimplemented => exact .throw _
    | _ => cases hdemands

/-! ## Machines -/

namespace Machine

/-- A failure that has been located is at the offset, with the failure as its payload. -/
lemma eq_error_of_locate {ε α : Type} {offset : Nat} {result : Except ε α} {e : Located ε}
    (h : locate offset result = .error e) : e.offset = offset ∧ result = .error e.payload := by
  cases result with
  | ok a => cases h
  | error e₁ =>
    cases h
    exact ⟨rfl, rfl⟩

/-- A step that is unresolved has performed the next instruction, which has consumed operands
only. -/
lemma step_unresolved {m m' : Machine} {e : LocatedError} (hjumping : m.state.jumping = false)
    (hstep : m.step = (.error e, m')) (he : e.payload.isUnresolved = true) :
    ∃ i s, m.next = .ok (some i) ∧ e.offset = i.offset ∧ m.state.Consumed s ∧
      m' = { m with
        executed := m.executed + 1
        watchdog := (m.watchdog.poll (m.executed + 1)).2
        state := s } := by
  unfold step at hstep
  cases hnext : m.next with
  | error e₁ =>
    rw [hnext] at hstep
    cases hstep
    obtain ⟨cause, hcause⟩ := next_eq_error hnext
    rw [hcause] at he
    cases he
  | ok found =>
    cases found with
    | none =>
      rw [hnext] at hstep
      cases hstep
    | some i =>
      rw [hnext] at hstep
      change m.execute i = (.error e, m') at hstep
      by_cases hpermits : m.Permits
      · rw [execute_of_permits hpermits] at hstep
        obtain ⟨hlocated, rfl⟩ := Prod.mk.inj hstep
        obtain ⟨hoffset, hperforms⟩ := eq_error_of_locate hlocated
        have hpair : performInstruction m.config m.table i m.state =
            (.error e.payload, (performInstruction m.config m.table i m.state).2) :=
          Prod.ext hperforms rfl
        obtain ⟨s, hdispatch, hstate⟩ := performInstruction_error he hpair
        have hconsumed : m.state.Consumed s :=
          Handler.run_defers m.config (m.table.handler i.opcode) i _ _ _ hdispatch he
        have hmark : { s with jumping := false } = s := by
          rw [← hjumping, ← hconsumed.jumping]
        rw [hstate, hmark]
        exact ⟨i, s, rfl, hoffset, hconsumed, rfl⟩
      · rcases execute_of_not_permits hpermits i with ⟨-, hrefused⟩ | ⟨-, -, hrefused⟩
        · rw [hrefused] at hstep
          cases hstep
          cases he
        · rw [hrefused] at hstep
          cases hstep
          cases he

/-- An unresolved instruction leaves everything but its operands in place.  In a state that is
reached from a loaded script, a step that is unresolved fails at the offset of the next instruction.
It has been counted, and of the state it has taken items off the evaluation stack and added objects
to the heap, and nothing else: the frames, the static fields, the view of storage, the recorded
accesses, the pending exception, the values returned so far, the status and all objects are the
same. -/
theorem Reaches.step_consumes {config : Config} {script : Script} {watchdog : Watchdog}
    {supply entry : Nat} {m₀ m m' : Machine} {e : LocatedError}
    (hload : (create config watchdog supply).loadScript script entry = (.ok (), m₀))
    (hreaches : Reaches (fun _ => True) m₀ m) (hstep : m.step = (.error e, m'))
    (he : e.payload.isUnresolved = true) :
    ∃ i s, m.next = .ok (some i) ∧ e.offset = i.offset ∧ m.state.Consumed s ∧
      m' = { m with
        executed := m.executed + 1
        watchdog := (m.watchdog.poll (m.executed + 1)).2
        state := s } := by
  obtain ⟨rfl, -, -⟩ := loadScript_ok hload
  exact step_unresolved (hreaches.jumping rfl) hstep he

/-- An empty array, and an argument that nobody has given, which says what to remove from it. -/
def removingScript : Script := ⟨[0xC2, 0x78, 0xD2]⟩

/-- The machine that executes the script, after some steps. -/
def removingMachine : Nat → Machine
  | 0 => loaded removingScript {} .lazy 0 0
  | count + 1 => (removingMachine count).step.2

/-- What to remove is not known.  Both operands have been popped by then, and the frame still stands
at the instruction. -/
theorem step_consumes_removingScript :
    (create {} .lazy 0).loadScript removingScript 0 = (.ok (), removingMachine 0) ∧
      Reaches (fun _ => True) (removingMachine 0) (removingMachine 2) ∧
      (removingMachine 2).step = (.error ⟨2, .nonConstantOperand .remove⟩, removingMachine 3) ∧
      (ExecutionError.nonConstantOperand .remove).isUnresolved = true ∧
      (removingMachine 2).state.Consumed (removingMachine 3).state ∧
      ((removingMachine 2).state.worldAt 0).stack.items.length = 2 ∧
      ((removingMachine 3).state.worldAt 0).stack.items.length = 0 ∧
      (removingMachine 3).state.position? = some 2 := by
  have hload : (create {} .lazy 0).loadScript removingScript 0 = (.ok (), removingMachine 0) := rfl
  have hreaches : Reaches (fun _ => True) (removingMachine 0) (removingMachine 2) :=
    .step (.step .start fun _ _ => trivial) fun _ _ => trivial
  have hfails : (removingMachine 2).step.1 = .error ⟨2, .nonConstantOperand .remove⟩ := by
    decide +kernel
  have hstep : (removingMachine 2).step =
      (.error ⟨2, .nonConstantOperand .remove⟩, removingMachine 3) := Prod.ext hfails rfl
  have he : (ExecutionError.nonConstantOperand .remove).isUnresolved = true := rfl
  obtain ⟨i, s, -, -, hconsumed, hmachine⟩ := hreaches.step_consumes hload hstep he
  refine ⟨hload, hreaches, hstep, he, ?_, by decide +kernel, by decide +kernel, by decide +kernel⟩
  rw [hmachine]
  exact hconsumed

end Machine

end SymbolicScript
