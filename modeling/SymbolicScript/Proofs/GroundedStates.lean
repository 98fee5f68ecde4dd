import SymbolicScript.Proofs.Footprint
import SymbolicScript.Proofs.GroundedCopies
import SymbolicScript.Proofs.GroundedResults

/-!
# Grounded states

A state is grounded if every item that it holds anywhere is: on its stacks, in its variables and
frames, in its heap, in the records of storage and accesses, and in the pending exception.  There is
one world only, so all handles are meant for its heap.

A computation is safe if it leads from a grounded state to a grounded one, whether it succeeds or
fails, and fails for other reasons than a handle (`Exec.Safe`).  The ground may grow on the way, and
what is said of the result is said in the ground that has been reached.  Most computations do not
let it grow, so that what is known of items before stays known without further ado (`Exec.Still`).
-/

namespace SymbolicScript

variable {g g' : Ground}

/-! ## States -/

/-- All items of a frame are grounded. -/
structure Frame.Grounded (g : Ground) (f : Frame) : Prop where
  /-- The frame belongs to the first world. -/
  world : f.world = 0
  /-- The local variables. -/
  locals : f.locals.All (Item.Grounded g)
  /-- The arguments. -/
  arguments : f.arguments.All (Item.Grounded g)

/-- The world offers what the ground says, and all its items are grounded. -/
structure World.Grounded (g : Ground) (w : World) : Prop where
  /-- The script has the length that the ground says. -/
  length : w.script.length = g.length
  /-- The heap has the objects that the ground says. -/
  heap : w.heap.Grounded g
  /-- The evaluation stack. -/
  stack : w.stack.All (Item.Grounded g)
  /-- The static fields. -/
  statics : w.statics.All (Item.Grounded g)
  /-- The view of storage. -/
  storage : ∀ view, w.storage = some view → view.Grounded g
  /-- The recorded accesses. -/
  tracker : ∀ t, w.tracker = some t → t.Grounded g

/-- There is one world, it offers what the ground says, and all items are grounded. -/
structure State.Grounded (g : Ground) (s : State) : Prop where
  /-- There is one world. -/
  worlds : s.worlds.size = 1
  /-- The world. -/
  world : (s.worldAt 0).Grounded g
  /-- The frames. -/
  frame : ∀ f ∈ s.frames, f.Grounded g
  /-- The result stack. -/
  result : s.result.All (Item.Grounded g)
  /-- The pending exception. -/
  exception : ∀ x, s.exception = some x → x.Grounded g

lemma Frame.Grounded.mono {f : Frame} (h : f.Grounded g) (hle : g ≤ g') : f.Grounded g' where
  world := h.world
  locals := h.locals.imp fun _ hx => hx.mono hle
  arguments := h.arguments.imp fun _ hx => hx.mono hle

/-- The frame of a routine has no items yet. -/
lemma Frame.Grounded.callee {f : Frame} (h : f.Grounded g) (offset : Nat) :
    (f.callee offset).Grounded g :=
  ⟨h.world, .untouched _, .untouched _⟩

namespace World.Grounded

variable {w : World}

/-- The world may get a heap that lets the ground grow. -/
lemma grow (h : w.Grounded g) (hle : g ≤ g') {heap : Heap} (hheap : heap.Grounded g') :
    ({ w with heap } : World).Grounded g' where
  length := h.length.trans (Ground.length_eq hle).symm
  heap := hheap
  stack := h.stack.imp fun _ hx => hx.mono hle
  statics := h.statics.imp fun _ hx => hx.mono hle
  storage view hview := (h.storage view hview).mono hle
  tracker t ht := (h.tracker t ht).mono hle

/-- The view of storage that is known, or the empty one. -/
lemma getD_storage (h : w.Grounded g) : (w.storage.getD .empty).Grounded g := by
  cases hstorage : w.storage with
  | none => exact .empty
  | some view => exact h.storage view hstorage

/-- The records that there are, or the empty ones. -/
lemma getD_tracker (h : w.Grounded g) : (w.tracker.getD .empty).Grounded g := by
  cases htracker : w.tracker with
  | none => exact .empty
  | some t => exact h.tracker t htracker

end World.Grounded

namespace State.Grounded

variable {s : State}

/-- The world may be replaced by one that lets the ground grow. -/
lemma setWorld {w : World} (h : s.Grounded g) (hle : g ≤ g') (hw : w.Grounded g') :
    (s.setWorld 0 w).Grounded g' where
  worlds := (s.size_setWorld 0 w).trans h.worlds
  world := by
    rw [worldAt_setWorld, if_pos ⟨rfl, by rw [h.worlds]; exact Nat.one_pos⟩]
    exact hw
  frame f hf := (h.frame f hf).mono hle
  result := h.result.imp fun _ hx => hx.mono hle
  exception x hx := (h.exception x hx).mono hle

/-- The frames may be replaced by grounded ones. -/
lemma setFrames (h : s.Grounded g) {frames : List Frame} (hframes : ∀ f ∈ frames, f.Grounded g) :
    ({ s with frames } : State).Grounded g :=
  { h with frame := hframes }

/-- Handing over the stack of the world. -/
lemma handOver (h : s.Grounded g) : (Exec.handOver 0 s).Grounded g := by
  have hworld : ∀ {w : World} {stack : EvaluationStack}, w.Grounded g →
      stack.All (Item.Grounded g) → World.Grounded g { w with stack } := fun hw hstack =>
    { hw with stack := hstack }
  unfold Exec.handOver
  simp only
  split
  · next caller rest hframes =>
    have hcaller : caller.world = 0 := (h.frame caller (by simp [hframes])).world
    rw [hcaller]
    obtain ⟨hleft, hmoved⟩ :=
      h.world.stack.moveTo EvaluationStack.extension_grounded h.world.stack none
    exact (h.setWorld le_rfl (hworld h.world hleft)).setWorld le_rfl (hworld h.world hmoved)
  · obtain ⟨hleft, hmoved⟩ := h.world.stack.moveTo EvaluationStack.extension_grounded h.result none
    exact { h.setWorld le_rfl (hworld h.world hleft) with result := hmoved }

end State.Grounded

/-! ## The judgement -/

namespace Exec

variable {α β : Type}

/-- The outcome leaves a grounded state behind, and a result satisfies the predicate in the ground
that has been reached.  An error is not about a handle. -/
def SafeOutcome (g : Ground) (Q : Ground → α → Prop) :
    EStateM.Result ExecutionError State α → Prop
  | .ok a s => ∃ g', g ≤ g' ∧ s.Grounded g' ∧ Q g' a
  | .error e s => ∃ g', g ≤ g' ∧ s.Grounded g' ∧ e.isDangling = false

/-- What is safe from a ground on that has grown is safe from the former one on. -/
lemma SafeOutcome.of_le {Q : Ground → α → Prop} {outcome : EStateM.Result ExecutionError State α}
    (h : SafeOutcome g' Q outcome) (hle : g ≤ g') : SafeOutcome g Q outcome := by
  cases outcome with
  | ok a s =>
    obtain ⟨g'', hle', hs, ha⟩ := h
    exact ⟨g'', hle.trans hle', hs, ha⟩
  | error e s =>
    obtain ⟨g'', hle', hs, he⟩ := h
    exact ⟨g'', hle.trans hle', hs, he⟩

/-- The computation leads from a state grounded in `g` to a grounded one, and does not fail because
of a handle. -/
def Safe (g : Ground) (x : Exec α) (Q : Ground → α → Prop) : Prop :=
  ∀ s, s.Grounded g → SafeOutcome g Q (x s)

/-- The computation is safe and does not let the ground grow. -/
def Still (g : Ground) (x : Exec α) (P : α → Prop) : Prop :=
  Safe g x fun g' a => g' = g ∧ P a

namespace Safe

variable {P Q : Ground → α → Prop} {R : Ground → β → Prop}

/-- A sequence is safe if its second part is, wherever the first part has led. -/
lemma bind {x : Exec α} {k : α → Exec β} (hx : Safe g x Q)
    (hk : ∀ g' a, g ≤ g' → Q g' a → Safe g' (k a) R) : Safe g (x >>= k) R := by
  intro s hs
  have hfirst := hx s hs
  simp only [Bind.bind, EStateM.bind]
  cases hresult : x s with
  | ok a s₁ =>
    rw [hresult] at hfirst
    obtain ⟨g₁, hle, hs₁, ha⟩ := hfirst
    exact (hk g₁ a hle ha s₁ hs₁).of_le hle
  | error e s₁ =>
    rw [hresult] at hfirst
    exact hfirst

/-- Nothing needs to be claimed of the result. -/
lemma any {x : Exec α} (h : Safe g x Q) : Safe g x fun _ _ => True := by
  intro s hs
  have hsafe := h s hs
  cases hresult : x s with
  | ok a s' =>
    rw [hresult] at hsafe
    obtain ⟨g', hle, hs', -⟩ := hsafe
    exact ⟨g', hle, hs', trivial⟩
  | error e s' =>
    rw [hresult] at hsafe
    exact hsafe

lemma pure (a : α) : Safe g (Pure.pure a) fun _ _ => True :=
  fun _ hs => ⟨g, le_rfl, hs, trivial⟩

lemma throw {e : ExecutionError} (he : e.isDangling = false) :
    Safe g (MonadExcept.throw e) Q :=
  fun _ hs => ⟨g, le_rfl, hs, he⟩

lemma ite {c : Prop} [Decidable c] {x y : Exec α} (hx : c → Safe g x Q) (hy : ¬c → Safe g y Q) :
    Safe g (if c then x else y) Q := by
  split
  · next h => exact hx h
  · next h => exact hy h

/-- A check that may fail is followed by something safe, which may rely on the check. -/
lemma check {c : Prop} [Decidable c] {e : ExecutionError} {k : Unit → Exec α}
    (he : e.isDangling = false) (hk : ¬c → ∀ u, Safe g (k u) Q) :
    Safe g (if c then MonadExcept.throw e >>= k else k ()) Q := by
  split
  · exact fun s hs => ⟨g, le_rfl, hs, he⟩
  · next h => exact hk h ()

/-- The heap may be replaced by one that lets the ground grow. -/
lemma setHeap {heap : Heap} (hle : g ≤ g') (hheap : heap.Grounded g') :
    Safe g (setHeap heap) fun g'' _ => g'' = g' := by
  intro s hs
  unfold Exec.setHeap modifyWorld onWorld
  cases hframes : s.frames with
  | nil => exact ⟨g, le_rfl, hs, rfl⟩
  | cons f rest =>
    have hf : f.world = 0 := (hs.frame f (by simp [hframes])).world
    simp only
    rw [hf]
    exact ⟨g', hle, hs.setWorld hle (hs.world.grow hle hheap), rfl⟩

end Safe

namespace Still

variable {P : α → Prop} {Q : β → Prop} {R : Ground → β → Prop}

/-- Behind a computation that does not let the ground grow, the ground is the same. -/
lemma before {x : Exec α} {k : α → Exec β} (hx : Still g x P) (hk : ∀ a, P a → Safe g (k a) R) :
    Safe g (x >>= k) R :=
  Safe.bind hx fun _ a _ ha => ha.1 ▸ hk a ha.2

lemma bind {x : Exec α} {k : α → Exec β} (hx : Still g x P) (hk : ∀ a, P a → Still g (k a) Q) :
    Still g (x >>= k) Q :=
  hx.before hk

/-- Nothing needs to be claimed of the result. -/
lemma any {x : Exec α} (h : Still g x P) : Safe g x fun _ _ => True :=
  Safe.any h

lemma throw {e : ExecutionError} (he : e.isDangling = false) :
    Still g (MonadExcept.throw e) P :=
  Safe.throw he

lemma ite {c : Prop} [Decidable c] {x y : Exec α} (hx : c → Still g x P) (hy : ¬c → Still g y P) :
    Still g (if c then x else y) P :=
  Safe.ite hx hy

lemma check {c : Prop} [Decidable c] {e : ExecutionError} {k : Unit → Exec α}
    (he : e.isDangling = false) (hk : ¬c → ∀ u, Still g (k u) P) :
    Still g (if c then MonadExcept.throw e >>= k else k ()) P :=
  Safe.check he hk

lemma pure {a : α} (ha : P a) : Still g (Pure.pure a) P :=
  fun _ hs => ⟨g, le_rfl, hs, rfl, ha⟩

/-- A pure result. -/
lemma lift {result : Except ExecutionError α} (h : SymbolicScript.Safe P result) :
    Still g (liftM result : Exec α) P := by
  intro s hs
  cases result with
  | ok a => exact ⟨g, le_rfl, hs, rfl, h⟩
  | error e => exact ⟨g, le_rfl, hs, h⟩

/-- The state that is read is grounded. -/
lemma get : Still g (MonadState.get : Exec State) (State.Grounded g) :=
  fun _ hs => ⟨g, le_rfl, hs, rfl, hs⟩

/-- A change of the state has to keep it grounded. -/
lemma modify {change : State → State} (h : ∀ s, s.Grounded g → (change s).Grounded g) :
    Still g (modify change : Exec Unit) fun _ => True :=
  fun s hs => ⟨g, le_rfl, h s hs, rfl, trivial⟩

lemma freshId : Still g freshId fun _ => True :=
  fun _ hs => ⟨g, le_rfl, { hs with }, rfl, trivial⟩

/-! ### The current frame and its world -/

lemma frame : Still g frame (Frame.Grounded g) := by
  intro s hs
  unfold Exec.frame
  cases hframes : s.frames with
  | nil => exact ⟨g, le_rfl, hs, rfl⟩
  | cons f rest => exact ⟨g, le_rfl, hs, rfl, hs.frame f (by simp [hframes])⟩

lemma setFrame {f : Frame} (hf : f.Grounded g) : Still g (setFrame f) fun _ => True := by
  intro s hs
  unfold Exec.setFrame
  cases hframes : s.frames with
  | nil => exact ⟨g, le_rfl, hs, rfl⟩
  | cons f' rest =>
    have hrest : ∀ k ∈ rest, k.Grounded g := fun k hk => hs.frame k (by simp [hframes, hk])
    exact ⟨g, le_rfl, hs.setFrames (List.forall_mem_cons.2 ⟨hf, hrest⟩), rfl, trivial⟩

/-- The current frame may get other try blocks. -/
lemma setTries {f : Frame} (hf : f.Grounded g) (tries : List TryEntry) :
    Still g (Exec.setFrame { f with tries }) fun _ => True :=
  setFrame { hf with }

/-- Looking at the world of the current frame and changing it. -/
lemma onWorld {change : World → α × World}
    (h : ∀ w : World, w.Grounded g → P (change w).1 ∧ (change w).2.Grounded g) :
    Still g (onWorld change) P := by
  intro s hs
  unfold Exec.onWorld
  cases hframes : s.frames with
  | nil => exact ⟨g, le_rfl, hs, rfl⟩
  | cons f rest =>
    have hf : f.world = 0 := (hs.frame f (by simp [hframes])).world
    obtain ⟨ha, hw⟩ := h (s.worldAt 0) hs.world
    simp only
    rw [hf]
    exact ⟨g, le_rfl, hs.setWorld le_rfl hw, rfl, ha⟩

lemma modifyWorld {change : World → World} (h : ∀ w : World, w.Grounded g → (change w).Grounded g) :
    Still g (modifyWorld change) fun _ => True :=
  onWorld fun w hw => ⟨trivial, h w hw⟩

lemma world : Still g world (World.Grounded g) := by
  intro s hs
  unfold Exec.world
  cases hframes : s.frames with
  | nil => exact ⟨g, le_rfl, hs, rfl⟩
  | cons f rest =>
    have hf : f.world = 0 := (hs.frame f (by simp [hframes])).world
    simp only
    rw [hf]
    exact ⟨g, le_rfl, hs, rfl, hs.world⟩

lemma heap : Still g heap (Heap.Grounded g) :=
  world.bind fun _ hw => pure hw.heap

/-- The heap may be replaced by one with objects of the same types. -/
lemma setHeap {heap : Heap} (hheap : heap.Grounded g) : Still g (setHeap heap) fun _ => True :=
  modifyWorld fun _ hw => { hw with heap := hheap }

/-! ### Items on the evaluation stack -/

lemma onStack {change : EvaluationStack → α × EvaluationStack}
    (h : ∀ s : EvaluationStack, s.All (Item.Grounded g) →
      P (change s).1 ∧ (change s).2.All (Item.Grounded g)) : Still g (onStack change) P :=
  onWorld fun w hw => ⟨(h w.stack hw.stack).1, { hw with stack := (h w.stack hw.stack).2 }⟩

lemma modifyStack {change : EvaluationStack → EvaluationStack}
    (h : ∀ s : EvaluationStack, s.All (Item.Grounded g) → (change s).All (Item.Grounded g)) :
    Still g (modifyStack change) fun _ => True :=
  onStack fun s hs => ⟨trivial, h s hs⟩

lemma push {x : Item} (hx : x.Grounded g) : Still g (push x) fun _ => True :=
  modifyStack fun _ hs => hs.push hx.constant

lemma pop : Still g pop (Item.Grounded g) :=
  onStack fun _ hs => hs.removeAt EvaluationStack.extension_grounded 0

lemma peek (index : Nat) : Still g (peek index) (Item.Grounded g) :=
  onStack fun _ hs => hs.peek EvaluationStack.extension_grounded index

lemma popMany (count : Nat) : Still g (popMany count) fun items => ∀ x ∈ items, x.Grounded g :=
  onStack fun _ hs => hs.popMany EvaluationStack.extension_grounded count

lemma demand (opcode : Opcode) (x : Option α) : Still g (demand opcode x) fun _ => True := by
  cases x with
  | none => exact .throw rfl
  | some a => exact pure trivial

lemma popInteger (opcode : Opcode) : Still g (popInteger opcode) fun _ => True :=
  pop.bind fun x _ => (lift x.safe_toInteger?).bind fun _ _ => demand opcode _

lemma popCount (opcode : Opcode) : Still g (popCount opcode) fun _ => True :=
  (popInteger opcode).bind fun _ _ => .ite (fun _ => pure trivial) fun _ => .throw rfl

lemma popBoolean (opcode : Opcode) : Still g (popBoolean opcode) fun _ => True :=
  pop.bind fun x _ => (lift x.safe_toBoolean?).bind fun _ _ => demand opcode _

lemma fresh (type : ItemType) : Still g (fresh type) (Item.Grounded g) :=
  freshId.bind fun _ _ => pure (.unknown _ _)

/-! ### Records of accesses -/

lemma recordRead {a : Access} (ha : a.item.Grounded g) (offset : Nat) :
    Still g (recordRead a offset) fun _ => True :=
  modifyWorld fun _ hw => { hw with
    tracker := by
      rintro _ ⟨⟩
      exact hw.getD_tracker.recordRead ha offset }

lemma recordWrite {a : Access} (ha : a.item.Grounded g) (offset : Nat) :
    Still g (recordWrite a offset) fun _ => True :=
  modifyWorld fun _ hw => { hw with
    tracker := by
      rintro _ ⟨⟩
      exact hw.getD_tracker.recordWrite ha offset }

end Still

/-! ### Objects on the heap -/

/-- What has been produced is put into the place of the heap, and its item on the stack. -/
lemma Safe.pushProduced {item : Item} {heap : Heap} (h : Heap.Produces g (item, heap)) :
    Safe g (Exec.setHeap heap >>= fun _ => push item) fun _ _ => True := by
  obtain ⟨g', hle, hitem, hheap⟩ := h
  refine (Safe.setHeap hle hheap).bind ?_
  rintro _ _ - rfl
  exact (Still.push hitem).any

lemma Safe.pushBuffer (bytes : Bytes) : Safe g (pushBuffer bytes) fun _ _ => True :=
  Still.heap.before fun _ hheap => pushProduced (hheap.newBuffer bytes)

lemma Safe.pushCompound (kind : CompoundKind) {items : List Item}
    (hitems : ∀ x ∈ items, x.Grounded g) : Safe g (pushCompound kind items) fun _ _ => True :=
  Still.heap.before fun _ hheap => pushProduced (hheap.newCompound kind hitems)

/-- What is stored in a compound is grounded in the ground that its copy has led to. -/
lemma Safe.cloneStruct {x : Item} (hx : x.Grounded g) :
    Safe g (cloneStruct x) fun g' y => y.Grounded g' := by
  refine Still.heap.before fun heap hheap => ?_
  obtain ⟨y, heap', hclone, g', hle, hy, hheap'⟩ := hheap.cloneStruct hx
  rw [hclone]
  refine (Safe.setHeap hle hheap').bind ?_
  rintro _ _ - rfl s hs
  exact ⟨_, le_rfl, hs, hy⟩

end Exec

end SymbolicScript
