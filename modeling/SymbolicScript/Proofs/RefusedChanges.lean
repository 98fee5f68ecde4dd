import SymbolicScript.Proofs.BlockRuns
import SymbolicScript.Proofs.BoundedControl

/-!
# Changes that are refused

An instruction that changes the elements of a compound pops its operands, and it may copy what it is
going to store.  Only then it finds out whether the compound is frozen.  If so it fails, and what it
has done by then is to pop operands and to allocate copies: all objects that were there are the same
(`Handler.run_refuses`), and a machine that comes to the instruction fails with it
(`Machine.step_refuses`).

Up to the refusal the invariant says how many items have been popped (`State.Popped`).  That is how
the operand is told from the stack on which the instruction has begun.
-/

namespace SymbolicScript

open Exec (Leaves)

/-- A world that has an object exists. -/
lemma State.lt_size_of_object {s : State} {index handle : Nat} {object : HeapObject}
    (h : (s.worldAt index).heap.objects[handle]? = some object) : index < s.worlds.size := by
  by_contra hle
  have hmissing : s.worldAt index = .ofScript ⟨[]⟩ := by
    unfold worldAt
    rw [Array.getD_eq_getD_getElem?, Array.getElem?_eq_none (Nat.le_of_not_lt hle)]
    rfl
  rw [hmissing] at h
  cases h

/-! ## Popping the operands -/

/-- Since the state `s₀` as many items have been popped off the stack of the frame `f`, and no
object has changed. -/
structure State.Popped (s₀ : State) (f : Frame) (count : Nat) (s : State) : Prop where
  /-- The frame is the current one. -/
  current : ∃ rest, s.frames = f :: rest
  /-- It has a world. -/
  world : f.world < s.worlds.size
  /-- The stack is the one of the state `s₀` below as many items. -/
  view : ∀ i, (s.worldAt f.world).stack.view i = (s₀.worldAt f.world).stack.view (count + i)
  /-- The objects are the same. -/
  objects : s₀.KeepsObjects s

namespace State.Popped

variable {s₀ s : State} {f : Frame} {count : Nat}

/-- No operand has been popped yet. -/
lemma start {rest : List Frame} (hframes : s.frames = f :: rest)
    (hworld : f.world < s.worlds.size) : s.Popped f 0 s where
  current := ⟨rest, hframes⟩
  world := hworld
  view i := by rw [Nat.zero_add]
  objects := .refl s

/-- One more item has been popped. -/
lemma withStack (h : s₀.Popped f count s) {stack : EvaluationStack}
    (hview : ∀ i, stack.view i = (s.worldAt f.world).stack.view (i + 1)) :
    s₀.Popped f (count + 1) (s.withStack f.world stack) where
  current := h.current
  world := by
    unfold State.withStack
    rw [size_setWorld]
    exact h.world
  view i := by
    rw [worldAt_withStack h.world, hview, h.view, Nat.add_assoc, Nat.add_comm 1]
  objects := h.objects.setWorld (.refl _)

/-- The heap has grown. -/
lemma withHeap (h : s₀.Popped f count s) {heap : Heap}
    (hheap : (s.worldAt f.world).heap.Extends heap) :
    s₀.Popped f count (s.setWorld f.world { s.worldAt f.world with heap }) where
  current := h.current
  world := by
    rw [size_setWorld]
    exact h.world
  view i := by
    rw [worldAt_setWorld, if_pos ⟨rfl, h.world⟩]
    exact h.view i
  objects := h.objects.setWorld hheap

end State.Popped

namespace Exec

variable {α : Type} {s₀ s : State} {f : Frame} {count : Nat}

/-- Popping gives the next operand. -/
lemma leaves_pop (h : s₀.Popped f count s) :
    Leaves (s₀.Popped f (count + 1)) (· = (s₀.worldAt f.world).stack.view count) (pop s) := by
  obtain ⟨rest, hframes⟩ := h.current
  rw [pop_eq hframes]
  exact ⟨h.withStack fun i => EvaluationStack.view_pop _ i,
    (EvaluationStack.pop_fst _).trans (h.view 0)⟩

/-- Copying what is to be stored changes no object, also if it fails. -/
lemma leaves_cloneStruct (h : s₀.Popped f count s) (x : Item) :
    Leaves (s₀.Popped f count) (fun _ => True) (cloneStruct x s) := by
  obtain ⟨rest, hframes⟩ := h.current
  have hclone := (s.worldAt f.world).heap.extends_of_cloneStruct x
  unfold cloneStruct
  rw [bind_of_ok (heap_eq hframes)]
  generalize (s.worldAt f.world).heap.cloneStruct x = cloned at hclone ⊢
  obtain ⟨copy, heap⟩ := cloned
  change Leaves _ _ ((setHeap heap >>= fun _ => ofExcept copy) s)
  rw [bind_of_ok (setHeap_eq hframes heap)]
  exact Maintains.lift (fun _ _ => trivial) _ (h.withHeap hclone)

/-- The outcome is a failure that has changed no object. -/
abbrev Refuses (s₀ : State) (outcome : EStateM.Result ExecutionError State α) : Prop :=
  Leaves s₀.KeepsObjects (fun _ => False) outcome

/-- A computation that refuses fails. -/
lemma Refuses.exists_error {outcome : EStateM.Result ExecutionError State α}
    (h : Refuses s₀ outcome) : ∃ e s', outcome = .error e s' ∧ s₀.KeepsObjects s' := by
  cases outcome with
  | ok a s' => exact h.2.elim
  | error e s' => exact ⟨e, s', rfl, h⟩

/-- A computation may pop an operand and then refuse. -/
lemma Refuses.bind_pop {k : Item → Exec α} (h : s₀.Popped f count s)
    (hk : ∀ s', s₀.Popped f (count + 1) s' →
      Refuses s₀ (k ((s₀.worldAt f.world).stack.view count) s')) : Refuses s₀ ((pop >>= k) s) := by
  refine (leaves_pop h).bind_of (fun _ h => h.objects) ?_
  rintro _ s' hs' rfl
  exact hk s' hs'

end Exec

/-! ## Refusals -/

namespace Semantics

open Exec (Refuses)

/-- The handle of the object that an instruction works on. -/
def Target.handle : Target → Nat
  | items handle | bytes handle => handle

/-- An operand that refers to an object has the handle of the object. -/
lemma handle?_of_target {opcode : Opcode} {x : Item} {found : Target}
    (h : target opcode x = .ok found) : x.handle? = some found.handle := by
  unfold target at h
  unfold Item.handle?
  split at h <;> cases h
  case h_1 handle hknown => rw [hknown]; rfl
  case h_2 handle hknown => rw [hknown]; rfl
  case h_3 handle hknown => rw [hknown]; rfl

/-- An operand that refers to an array or a struct has its handle. -/
lemma handle?_of_itemsTarget {opcode : Opcode} {x : Item} {handle : Nat}
    (h : itemsTarget opcode x = .ok handle) : x.handle? = some handle := by
  obtain ⟨found, htarget, hhandle⟩ := except_bind_eq_ok.1 h
  cases found with
  | items _ =>
    cases hhandle
    exact handle?_of_target htarget
  | bytes _ => cases hhandle

variable {s₀ s : State} {f : Frame} {count handle : Nat}

/-- Where the operand refers to an object, the instruction goes on with its handle. -/
lemma refuses_bind_itemsTarget {opcode : Opcode} {x : Item} {k : Nat → Exec Unit}
    (hx : x.handle? = some handle) (h : s₀.Popped f count s) (hk : Refuses s₀ (k handle s)) :
    Refuses s₀ (((liftM (itemsTarget opcode x) : Exec Nat) >>= k) s) := by
  refine Exec.leaves_lift_bind h.objects fun found hfound => ?_
  have hhandle := handle?_of_itemsTarget hfound
  rw [hx] at hhandle
  cases hhandle
  exact hk

/-- Likewise if the object may be a buffer. -/
lemma refuses_bind_target {opcode : Opcode} {x : Item} {k : Target → Exec Unit}
    (hx : x.handle? = some handle) (h : s₀.Popped f count s)
    (hitems : Refuses s₀ (k (.items handle) s)) (hbytes : Refuses s₀ (k (.bytes handle) s)) :
    Refuses s₀ (((liftM (target opcode x) : Exec Target) >>= k) s) := by
  refine Exec.leaves_lift_bind h.objects fun found hfound => ?_
  have hhandle := handle?_of_target hfound
  rw [hx] at hhandle
  cases found with
  | items _ =>
    cases hhandle
    exact hitems
  | bytes _ =>
    cases hhandle
    exact hbytes

section

variable {object : HeapObject}
  (hobject : (s₀.worldAt f.world).heap.objects[handle]? = some object)
  (hfrozen : object.isReadOnly = true)
include hobject hfrozen

/-- The elements of a frozen object cannot be changed. -/
lemma modifyItems_refuses (h : s₀.Popped f count s)
    (change : List Item → Except ExecutionError (List Item)) :
    Refuses s₀ (modifyItems handle change s) := by
  obtain ⟨rest, hframes⟩ := h.current
  unfold modifyItems
  rw [bind_of_ok (Exec.heap_eq hframes)]
  refine Exec.leaves_lift_bind h.objects fun heap hmodify => ?_
  obtain ⟨kind, items, changed, hmutable, -, -⟩ := Heap.modifyItems_eq_ok.1 hmodify
  rw [h.objects.getElem? hobject trivial] at hmutable
  cases hmutable
  cases hfrozen

/-- A frozen object has no bytes that could be changed. -/
lemma modifyBytes_refuses (h : s₀.Popped f count s)
    (change : Bytes → Except ExecutionError Bytes) :
    Refuses s₀ (modifyBytes handle change s) := by
  obtain ⟨rest, hframes⟩ := h.current
  unfold modifyBytes
  rw [bind_of_ok (Exec.heap_eq hframes)]
  refine Exec.leaves_lift_bind h.objects fun heap hmodify => ?_
  obtain ⟨bytes, changed, hbuffer, -, -⟩ := Heap.modifyBytes_eq_ok.1 hmodify
  rw [h.objects.getElem? hobject trivial] at hbuffer
  cases hbuffer
  cases hfrozen

variable (i : Instruction)

lemma append_refuses (h : s₀.Popped f 0 s)
    (hoperand : ((s₀.worldAt f.world).stack.view 1).handle? = some handle) :
    Refuses s₀ (append i s) :=
  Refuses.bind_pop h fun _ h => Refuses.bind_pop h fun _ h =>
    refuses_bind_itemsTarget hoperand h <|
      (Exec.leaves_cloneStruct h _).bind_of (fun _ h => h.objects) fun _ _ h _ =>
        modifyItems_refuses hobject hfrozen h _

lemma setItem_refuses (h : s₀.Popped f 0 s)
    (hoperand : ((s₀.worldAt f.world).stack.view 2).handle? = some handle) :
    Refuses s₀ (setItem i s) := by
  refine Refuses.bind_pop h fun _ h => Refuses.bind_pop h fun _ h => Refuses.bind_pop h fun _ h =>
    refuses_bind_target hoperand h ?_ ?_
  · exact (Exec.leaves_cloneStruct h _).bind_of (fun _ h => h.objects) fun _ _ h _ =>
      modifyItems_refuses hobject hfrozen h _
  · exact Exec.leaves_lift_bind h.objects fun _ _ => modifyBytes_refuses hobject hfrozen h _

lemma reverseItems_refuses (h : s₀.Popped f 0 s)
    (hoperand : ((s₀.worldAt f.world).stack.view 0).handle? = some handle) :
    Refuses s₀ (reverseItems i s) :=
  Refuses.bind_pop h fun _ h => refuses_bind_target hoperand h
    (modifyItems_refuses hobject hfrozen h _) (modifyBytes_refuses hobject hfrozen h _)

lemma remove_refuses (h : s₀.Popped f 0 s)
    (hoperand : ((s₀.worldAt f.world).stack.view 1).handle? = some handle) :
    Refuses s₀ (remove i s) :=
  Refuses.bind_pop h fun _ h => Refuses.bind_pop h fun _ h =>
    refuses_bind_itemsTarget hoperand h (modifyItems_refuses hobject hfrozen h _)

lemma clearItems_refuses (h : s₀.Popped f 0 s)
    (hoperand : ((s₀.worldAt f.world).stack.view 0).handle? = some handle) :
    Refuses s₀ (clearItems i s) :=
  Refuses.bind_pop h fun _ h =>
    refuses_bind_itemsTarget hoperand h (modifyItems_refuses hobject hfrozen h _)

/-- The last element is not pushed before it has been removed. -/
lemma popItem_refuses (h : s₀.Popped f 0 s)
    (hoperand : ((s₀.worldAt f.world).stack.view 0).handle? = some handle) :
    Refuses s₀ (popItem i s) := by
  refine Refuses.bind_pop h fun s' h => refuses_bind_itemsTarget hoperand h ?_
  obtain ⟨rest, hframes⟩ := h.current
  rw [bind_of_ok (Exec.heap_eq hframes)]
  exact (modifyItems_refuses hobject hfrozen h _).bind fun _ hfalse => hfalse.elim

end

end Semantics

/-- How many items below the top of the stack a handler finds the compound that it changes. -/
def Handler.compoundDepth? : Handler → Option Nat
  | setItem => some 2
  | append | remove => some 1
  | reverseItems | clearItems | popItem => some 0
  | _ => none

/-- A handler that changes a compound refuses to change a frozen one. -/
theorem Handler.run_refuses (config : Config) {handler : Handler} {depth : Nat}
    (hdepth : handler.compoundDepth? = some depth) (i : Instruction) {s : State} {f : Frame}
    {rest : List Frame} (hframes : s.frames = f :: rest) {handle : Nat}
    (hoperand : ((s.worldAt f.world).stack.view depth).handle? = some handle)
    {object : HeapObject} (hobject : (s.worldAt f.world).heap.objects[handle]? = some object)
    (hfrozen : object.isReadOnly = true) : Exec.Refuses s (handler.run config i s) := by
  have hstart := State.Popped.start hframes (State.lt_size_of_object hobject)
  cases handler with
  | append =>
    cases hdepth
    exact Semantics.append_refuses hobject hfrozen i hstart hoperand
  | setItem =>
    cases hdepth
    exact Semantics.setItem_refuses hobject hfrozen i hstart hoperand
  | remove =>
    cases hdepth
    exact Semantics.remove_refuses hobject hfrozen i hstart hoperand
  | reverseItems =>
    cases hdepth
    exact Semantics.reverseItems_refuses hobject hfrozen i hstart hoperand
  | clearItems =>
    cases hdepth
    exact Semantics.clearItems_refuses hobject hfrozen i hstart hoperand
  | popItem =>
    cases hdepth
    exact Semantics.popItem_refuses hobject hfrozen i hstart hoperand
  | _ => cases hdepth

/-- The opcodes that change a compound by default, with the depth of the compound. -/
example : (Opcode.all.filterMap fun op =>
    (JumpTable.standard.handler op).compoundDepth?.map fun depth => (op, depth)) =
      [(.append, 1), (.setItem, 2), (.reverseItems, 0), (.remove, 1), (.clearItems, 0),
        (.popItem, 0)] := by decide

/-! ## Machines -/

namespace Machine

/-- Where dispatching an instruction is refused, executing it fails and changes no object. -/
lemma execute_refuses {m : Machine} {i : Instruction}
    (h : Exec.Refuses m.state (m.table.dispatch m.config i m.state)) :
    ∃ e m', m.execute i = (.error e, m') ∧ m.state.KeepsObjects m'.state := by
  obtain ⟨e, s', hdispatch, hkeeps⟩ := h.exists_error
  unfold execute
  simp only
  split
  · exact ⟨_, _, rfl, .refl _⟩
  · split
    · exact ⟨_, _, rfl, .refl _⟩
    · cases hperform : performInstruction m.config m.table i m.state with
      | mk result state =>
        have hperforms := performInstruction_performs m.config m.table i m.state
        rw [hperform] at hperforms
        cases hperforms with
        | fails hfails _ =>
          rw [hdispatch] at hfails
          cases hfails
          exact ⟨_, _, rfl, hkeeps⟩
        | jumps hok _ | advances hok _ _ | leaves hok _ _ =>
          rw [hdispatch] at hok
          cases hok

/-- A machine that comes to change a frozen compound fails, and no object changes. -/
theorem step_refuses {m : Machine} {i : Instruction} {depth handle : Nat} {f : Frame}
    {rest : List Frame} {object : HeapObject} (hnext : m.next = .ok (some i))
    (hdepth : (m.table.handler i.opcode).compoundDepth? = some depth)
    (hframes : m.state.frames = f :: rest)
    (hoperand : ((m.state.worldAt f.world).stack.view depth).handle? = some handle)
    (hobject : (m.state.worldAt f.world).heap.objects[handle]? = some object)
    (hfrozen : object.isReadOnly = true) :
    ∃ e m', m.step = (.error e, m') ∧ m.state.KeepsObjects m'.state := by
  rw [step_of_next hnext]
  exact execute_refuses (Handler.run_refuses m.config hdepth i hframes hoperand hobject hfrozen)

end Machine

end SymbolicScript
