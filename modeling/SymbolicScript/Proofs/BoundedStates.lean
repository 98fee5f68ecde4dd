import SymbolicScript.Proofs.BoundedResults
import SymbolicScript.Proofs.InstructionSteps

/-!
# States within bounds

A state is within bounds if every item that it holds anywhere is: on its stacks, in its variables
and frames, in the objects of its heaps, in the records of storage and accesses, and in the pending
exception.  A state that has evolved from another one is within bounds and, what is more, has kept
the frozen objects of all heaps (`State.EvolvesTo`).

Computations are shown to lead from evolved states to evolved states, whether they succeed or fail
(`Exec.Evolves`).  Only the heap needs care.  A heap that is put in the place of another one has
been made from that one, and so it has to be seen together with the state that it was read from
(`Exec.evolves_heap`).
-/

namespace SymbolicScript

open Exec (Leaves Maintains)

variable {b : Bounds}

/-! ## Objects that stay the same -/

/-- The objects of all heaps that satisfy the predicate are still the same. -/
def State.HeapsKeep (p : HeapObject → Prop) (s s' : State) : Prop :=
  ∀ index, (s.worldAt index).heap.Keeps p (s'.worldAt index).heap

/-- All objects of all heaps are still the same. -/
abbrev State.KeepsObjects (s s' : State) : Prop :=
  s.HeapsKeep (fun _ => True) s'

/-- All frozen objects of all heaps are still the same. -/
abbrev State.KeepsFrozen (s s' : State) : Prop :=
  s.HeapsKeep (fun object => object.isReadOnly = true) s'

namespace State.HeapsKeep

variable {p : HeapObject → Prop} {s s' s'' : State}

lemma refl (s : State) : s.HeapsKeep p s :=
  fun _ => .refl _

lemma trans (h : s.HeapsKeep p s') (h' : s'.HeapsKeep p s'') : s.HeapsKeep p s'' :=
  fun index => (h index).trans (h' index)

/-- An object that is kept is found again. -/
lemma getElem? (h : s.HeapsKeep p s') {index handle : Nat} {object : HeapObject}
    (hobject : (s.worldAt index).heap.objects[handle]? = some object) (hp : p object) :
    (s'.worldAt index).heap.objects[handle]? = some object :=
  h index handle object hobject hp

/-- A world may be replaced by one whose heap keeps the objects. -/
lemma setWorld {index : Nat} {w : World} (h : s.HeapsKeep p s')
    (hheap : (s'.worldAt index).heap.Keeps p w.heap) : s.HeapsKeep p (s'.setWorld index w) := by
  intro k
  rw [worldAt_setWorld]
  split
  · next hk =>
    rw [← hk.1]
    exact (h index).trans hheap
  · exact h k

end State.HeapsKeep

/-! ## States -/

/-- All items of a frame are within the bounds. -/
structure Frame.Within (b : Bounds) (f : Frame) : Prop where
  /-- The local variables. -/
  locals : f.locals.All (Item.Within b)
  /-- The arguments. -/
  arguments : f.arguments.All (Item.Within b)

/-- All items of a world are within the bounds. -/
structure World.Within (b : Bounds) (w : World) : Prop where
  /-- The evaluation stack. -/
  stack : w.stack.All (Item.Within b)
  /-- The static fields. -/
  statics : w.statics.All (Item.Within b)
  /-- The heap. -/
  heap : w.heap.Within b
  /-- The view of storage. -/
  storage : ∀ view, w.storage = some view → view.All (Item.Within b)
  /-- The recorded accesses. -/
  tracker : ∀ t, w.tracker = some t → t.All (Item.Within b)

/-- All items of a state are within the bounds. -/
structure State.Within (b : Bounds) (s : State) : Prop where
  /-- The worlds. -/
  world : ∀ index, (s.worldAt index).Within b
  /-- The frames. -/
  frame : ∀ f ∈ s.frames, f.Within b
  /-- The result stack. -/
  result : s.result.All (Item.Within b)
  /-- The pending exception. -/
  exception : ∀ x, s.exception = some x → x.Within b

/-- All items of the state are within the bounds, and the objects that were frozen in the state `s₀`
are the same. -/
structure State.EvolvesTo (b : Bounds) (s₀ s : State) : Prop extends s.Within b where
  /-- The frozen objects of all heaps are the same. -/
  frozen : s₀.KeepsFrozen s

/-- The frame of a routine has no items yet. -/
lemma Frame.callee_within (f : Frame) (offset : Nat) : (f.callee offset).Within b :=
  ⟨.untouched _, .untouched _⟩

/-- Every state is within the bounds that demand nothing. -/
lemma State.within_none (s : State) : s.Within .none where
  world _ :=
    { stack := fun x _ => x.within_none
      statics := .of_forall Item.within_none _
      heap := Heap.within_none _
      storage := fun _ _ key _ _ => ⟨key.within_none, fun x _ => x.within_none⟩
      tracker := fun _ _ => ⟨fun a _ _ => a.item.within_none, fun a _ _ => a.item.within_none⟩ }
  frame _ _ := ⟨.of_forall Item.within_none _, .of_forall Item.within_none _⟩
  result x _ := x.within_none
  exception x _ := x.within_none

namespace World.Within

variable {w : World}

/-- A world that nothing has happened in holds no items. -/
lemma ofScript (script : Script) : (World.ofScript script).Within b where
  stack := .empty
  statics := .untouched _
  heap := .empty
  storage := nofun
  tracker := nofun

/-- The view of storage that is known, or the empty one. -/
lemma getD_storage (h : w.Within b) : (w.storage.getD .empty).All (Item.Within b) := by
  cases hstorage : w.storage with
  | none => exact .empty
  | some view => exact h.storage view hstorage

/-- The records that there are, or the empty ones. -/
lemma getD_tracker (h : w.Within b) : (w.tracker.getD .empty).All (Item.Within b) := by
  cases htracker : w.tracker with
  | none => exact .empty
  | some t => exact h.tracker t htracker

end World.Within

namespace State.EvolvesTo

variable {s₀ s : State}

/-- Nothing has happened yet. -/
lemma start (h : s.Within b) : s.EvolvesTo b s :=
  ⟨h, .refl s⟩

/-- A world may be replaced by one that keeps the frozen objects. -/
lemma setWorld {index : Nat} {w : World} (h : s₀.EvolvesTo b s) (hw : w.Within b)
    (hheap : (s.worldAt index).heap.KeepsFrozen w.heap) :
    s₀.EvolvesTo b (s.setWorld index w) where
  world i := by
    rw [worldAt_setWorld]
    split
    · exact hw
    · exact h.world i
  frame := h.frame
  result := h.result
  exception := h.exception
  frozen := h.frozen.setWorld hheap

/-- The frames may be replaced by frames within the bounds. -/
lemma setFrames (h : s₀.EvolvesTo b s) {frames : List Frame} (hframes : ∀ f ∈ frames, f.Within b) :
    s₀.EvolvesTo b { s with frames } :=
  { h with frame := hframes }

/-- Handing over the stack of a world. -/
lemma handOver (h : s₀.EvolvesTo b s) (source : Nat) : s₀.EvolvesTo b (Exec.handOver source s) := by
  have hworld : ∀ {w : World} {stack : EvaluationStack}, w.Within b →
      stack.All (Item.Within b) → World.Within b { w with stack } := fun hw hstack =>
    { hw with stack := hstack }
  unfold Exec.handOver
  simp only
  split
  · next caller rest hframes =>
    obtain ⟨hleft, hmoved⟩ := (h.world source).stack.moveTo EvaluationStack.extension_within
      (h.world caller.world).stack none
    refine (h.setWorld (hworld (h.world source) hleft) (.refl _)).setWorld
      (hworld (h.world caller.world) hmoved) ?_
    rw [worldAt_setWorld]
    split
    · next hi =>
      rw [hi.1]
      exact .refl _
    · exact .refl _
  · obtain ⟨hleft, hmoved⟩ :=
      (h.world source).stack.moveTo EvaluationStack.extension_within h.result none
    exact { h.setWorld (hworld (h.world source) hleft) (.refl _) with result := hmoved }

end State.EvolvesTo

/-- The heap is the one of the current frame. -/
def State.HasHeap (s : State) (heap : Heap) : Prop :=
  ∃ f rest, s.frames = f :: rest ∧ heap = (s.worldAt f.world).heap

/-! ## Computations -/

namespace Exec

variable {α β : Type} {s₀ s : State} {P : α → Prop} {Q : β → Prop}

/-- The computation leads from states that have evolved from `s₀` to such states, whether it
succeeds or fails, and its results are of the given kind. -/
abbrev Evolves (b : Bounds) (s₀ : State) (x : Exec α) (P : α → Prop) : Prop :=
  Maintains (State.EvolvesTo b s₀) x P

/-- A pure result of which nothing needs to be known. -/
lemma evolves_any (result : Except ExecutionError α) :
    Evolves b s₀ (liftM result : Exec α) fun _ => True :=
  .lift fun _ _ => trivial

lemma evolves_freshId : Evolves b s₀ freshId fun _ => True :=
  fun _ hs => ⟨{ hs with }, trivial⟩

/-! ### The current frame and its world -/

lemma evolves_frame : Evolves b s₀ frame (Frame.Within b) := by
  intro s hs
  unfold Exec.frame
  cases hframes : s.frames with
  | nil => exact hs
  | cons f rest => exact ⟨hs, hs.frame f (by simp [hframes])⟩

lemma evolves_setFrame {f : Frame} (hf : f.Within b) : Evolves b s₀ (setFrame f) fun _ => True := by
  intro s hs
  unfold Exec.setFrame
  cases hframes : s.frames with
  | nil => exact hs
  | cons f' rest =>
    have hrest : ∀ k ∈ rest, k.Within b := fun k hk => hs.frame k (by simp [hframes, hk])
    exact ⟨hs.setFrames (List.forall_mem_cons.2 ⟨hf, hrest⟩), trivial⟩

/-- The current frame may get other try blocks. -/
lemma evolves_setTries {f : Frame} (hf : f.Within b) (tries : List TryEntry) :
    Evolves b s₀ (setFrame { f with tries }) fun _ => True :=
  evolves_setFrame { hf with }

/-- Looking at the world of the current frame and changing it, but not its heap. -/
lemma evolves_onWorld {change : World → α × World}
    (h : ∀ w : World, w.Within b → P (change w).1 ∧ (change w).2.Within b)
    (hheap : ∀ w, (change w).2.heap = w.heap) : Evolves b s₀ (onWorld change) P := by
  intro s hs
  unfold Exec.onWorld
  cases s.frames with
  | nil => exact hs
  | cons f rest =>
    obtain ⟨ha, hw⟩ := h (s.worldAt f.world) (hs.world f.world)
    have hkept : (s.worldAt f.world).heap.KeepsFrozen (change (s.worldAt f.world)).2.heap := by
      rw [hheap]
      exact .refl _
    exact ⟨hs.setWorld hw hkept, ha⟩

lemma evolves_modifyWorld {change : World → World}
    (h : ∀ w : World, w.Within b → (change w).Within b) (hheap : ∀ w, (change w).heap = w.heap) :
    Evolves b s₀ (modifyWorld change) fun _ => True :=
  evolves_onWorld (fun w hw => ⟨trivial, h w hw⟩) hheap

lemma evolves_world : Evolves b s₀ world (World.Within b) := by
  intro s hs
  unfold Exec.world
  cases s.frames with
  | nil => exact hs
  | cons f rest => exact ⟨hs, hs.world f.world⟩

/-! ### The heap -/

/-- Reading the heap, where it does not matter which one it is. -/
lemma evolves_readHeap : Evolves b s₀ heap (Heap.Within b) :=
  evolves_world.bind fun _ hw => .pure hw.heap

/-- The heap that is read is the one of the state that the computation goes on with. -/
lemma evolves_heap {k : Heap → Exec β}
    (hk : ∀ heap s, s₀.EvolvesTo b s → s.HasHeap heap → heap.Within b →
      Leaves (State.EvolvesTo b s₀) Q (k heap s)) : Evolves b s₀ (heap >>= k) Q := by
  intro s hs
  cases hframes : s.frames with
  | nil =>
    have hfails : (heap >>= k) s = .error .noCurrentContext s := by
      simp [Bind.bind, EStateM.bind, heap, world, hframes]
    rw [hfails]
    exact hs
  | cons f rest =>
    rw [bind_of_ok (heap_eq hframes)]
    exact hk _ s hs ⟨f, rest, hframes, rfl⟩ (hs.world f.world).heap

/-- The heap may be replaced by one within the bounds that keeps the frozen objects. -/
lemma leaves_setHeap {heap heap' : Heap} (hs : s₀.EvolvesTo b s) (hheap : s.HasHeap heap)
    (hwithin : heap'.Within b) (hkeeps : heap.KeepsFrozen heap') :
    Leaves (State.EvolvesTo b s₀) (fun _ => True) (setHeap heap' s) := by
  obtain ⟨f, rest, hframes, rfl⟩ := hheap
  rw [setHeap_eq hframes]
  exact ⟨hs.setWorld { hs.world f.world with heap := hwithin } hkeeps, trivial⟩

/-! ### Items on the evaluation stack -/

lemma evolves_onStack {change : EvaluationStack → α × EvaluationStack}
    (h : ∀ s : EvaluationStack, s.All (Item.Within b) →
      P (change s).1 ∧ (change s).2.All (Item.Within b)) : Evolves b s₀ (onStack change) P :=
  evolves_onWorld
    (fun w hw => ⟨(h w.stack hw.stack).1, { hw with stack := (h w.stack hw.stack).2 }⟩) fun _ => rfl

lemma evolves_modifyStack {change : EvaluationStack → EvaluationStack}
    (h : ∀ s : EvaluationStack, s.All (Item.Within b) → (change s).All (Item.Within b)) :
    Evolves b s₀ (modifyStack change) fun _ => True :=
  evolves_onStack fun s hs => ⟨trivial, h s hs⟩

lemma evolves_push {x : Item} (hx : x.Within b) : Evolves b s₀ (push x) fun _ => True :=
  evolves_modifyStack fun _ hs => hs.push hx.constant

lemma evolves_pop : Evolves b s₀ pop (Item.Within b) :=
  evolves_onStack fun _ hs => hs.removeAt EvaluationStack.extension_within 0

lemma evolves_peek (index : Nat) : Evolves b s₀ (peek index) (Item.Within b) :=
  evolves_onStack fun _ hs => hs.peek EvaluationStack.extension_within index

lemma evolves_popMany (count : Nat) :
    Evolves b s₀ (popMany count) fun items => ∀ x ∈ items, x.Within b :=
  evolves_onStack fun _ hs => hs.popMany EvaluationStack.extension_within count

lemma evolves_demand (opcode : Opcode) {x : Option α} (hx : ∀ a, x = some a → P a) :
    Evolves b s₀ (demand opcode x) P := by
  cases x with
  | none => exact .throw _
  | some a => exact .pure (hx a rfl)

lemma evolves_popBoolean (opcode : Opcode) : Evolves b s₀ (popBoolean opcode) fun _ => True :=
  evolves_pop.bind fun x _ => (evolves_any x.toBoolean?).bind fun _ _ =>
    evolves_demand opcode fun _ _ => trivial

lemma evolves_fresh (type : ItemType) : Evolves b s₀ (fresh type) (Item.Within b) :=
  evolves_freshId.bind fun _ _ => .pure (.unknown _ _)

/-! ### Objects on the heap -/

lemma evolves_pushBuffer {bytes : Bytes} (hbytes : b.length bytes.length) :
    Evolves b s₀ (pushBuffer bytes) fun _ => True :=
  evolves_heap fun heap _ hs hheap hwithin =>
    (leaves_setHeap hs hheap (hwithin.add (.buffer hbytes))
      ((Heap.Extends.refl heap).add _).keepsFrozen).bind fun _ _ =>
    evolves_push (.object (.buffer bytes) heap.size)

lemma evolves_pushCompound (kind : CompoundKind) {items : List Item}
    (hlength : b.count items.length) (hitems : ∀ x ∈ items, x.Within b) :
    Evolves b s₀ (pushCompound kind items) fun _ => True :=
  evolves_heap fun heap _ hs hheap hwithin =>
    (leaves_setHeap hs hheap (hwithin.add (.compound hlength hitems))
      ((Heap.Extends.refl heap).add _).keepsFrozen).bind fun _ _ =>
    evolves_push (.object (.compound kind items false) heap.size)

/-! ### What has to be admitted -/

section

variable {config : Config} (hb : b.Admits config)
include hb

/-- A popped integer is within the bounds. -/
lemma evolves_popInteger (opcode : Opcode) : Evolves b s₀ (popInteger opcode) b.integer := by
  refine evolves_pop.bind fun x hx => ?_
  have hinteger : Evolves b s₀ (liftM x.toInteger? : Exec (Option Int)) fun number =>
      ∀ value, number = some value → b.integer value :=
    .lift fun number hnumber value hvalue => hx.toInteger? hb.fits (hvalue ▸ hnumber)
  exact hinteger.bind fun _ hvalue => evolves_demand opcode hvalue

/-- A popped count is within the bounds as an integer. -/
lemma evolves_popCount (opcode : Opcode) :
    Evolves b s₀ (popCount opcode) fun n => b.integer n := by
  refine (evolves_popInteger hb opcode).bind fun value hvalue =>
    .ite (fun hbounds => .pure ?_) fun _ => .throw _
  rwa [Int.toNat_of_nonneg hbounds.1]

/-- What is stored in a compound is within the bounds. -/
lemma evolves_cloneStruct {x : Item} (hx : x.Within b) :
    Evolves b s₀ (cloneStruct x) (Item.Within b) :=
  evolves_heap fun _ _ hs hheap hwithin =>
    have hclone := hwithin.cloneStruct hb hx
    (leaves_setHeap hs hheap hclone.1.2 hclone.1.1.keepsFrozen).bind fun _ _ => .lift hclone.2

end

/-! ### Records of accesses -/

lemma evolves_recordRead {a : Access} (ha : a.item.Within b) (offset : Nat) :
    Evolves b s₀ (recordRead a offset) fun _ => True :=
  evolves_modifyWorld (fun _ hw => { hw with
    tracker := by
      rintro _ ⟨⟩
      exact hw.getD_tracker.recordRead ha offset }) fun _ => rfl

lemma evolves_recordWrite {a : Access} (ha : a.item.Within b) (offset : Nat) :
    Evolves b s₀ (recordWrite a offset) fun _ => True :=
  evolves_modifyWorld (fun _ hw => { hw with
    tracker := by
      rintro _ ⟨⟩
      exact hw.getD_tracker.recordWrite ha offset }) fun _ => rfl

end Exec

end SymbolicScript
