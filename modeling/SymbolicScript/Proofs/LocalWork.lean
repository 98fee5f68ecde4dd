import SymbolicScript.Proofs.Footprint
import SymbolicScript.Proofs.Pointers

/-!
# Work on the stack and the heap

Most instructions are put together from a few pieces: they pop and push items, read and replace the
heap, take identities for fresh unknowns, and fail.  `Exec.Local L x Q` says that the computation
`x` is put together from these pieces.  Along the way it records where pointers come from: on a
stack and a heap whose pointers all point into the set `L`, the computation pushes no other
pointers, and its result satisfies `Q`.

The judgement is an inductive predicate, so that a fact about all such computations is proved piece
by piece, and not instruction by instruction.  The first such fact is proved here: nothing outside
of stack and heap changes, and no access is recorded (`Exec.Local.maintains`).
-/

namespace SymbolicScript

/-! ## The footprint -/

/-- The items on the stack and in the heap of the world point into the set. -/
structure World.MemoryInto (L : Nat → Prop) (w : World) : Prop where
  /-- The items on the evaluation stack point into the set. -/
  stack : w.stack.PointsInto L
  /-- The items in the heap point into the set. -/
  heap : w.heap.PointsInto L

/-- The items on the stack and in the heap of any world point into the set. -/
def State.MemoryInto (L : Nat → Prop) (s : State) : Prop :=
  ∀ i, (s.worldAt i).MemoryInto L

/-- What work on stack and heap may do to the state: it is confined, and records no access. -/
structure State.Reworked (s s' : State) : Prop extends s.Confined s' where
  /-- The recorded accesses are the same. -/
  tracker : ∀ i, (s'.worldAt i).tracker = (s.worldAt i).tracker

namespace State

instance : Std.Refl Reworked where
  refl s := ⟨Std.Refl.refl s, fun _ => rfl⟩

instance : IsTrans State Reworked where
  trans _ _ _ hst htu :=
    ⟨IsTrans.trans _ _ _ hst.toConfined htu.toConfined,
      fun i => (htu.tracker i).trans (hst.tracker i)⟩

/-- Replacing the stack of a world by one that changes at the top only, or its heap, is such work.
-/
lemma Reworked.of_setWorld {s : State} {i : Nat} {w : World} (h : (s.worldAt i).Confined w)
    (htracker : w.tracker = (s.worldAt i).tracker) : s.Reworked (s.setWorld i w) := by
  refine ⟨.of_setWorld h, fun j => ?_⟩
  rw [worldAt_setWorld]
  split
  · next hij => rw [htracker, hij.1]
  · rfl

variable {L : Nat → Prop} {s : State}

/-- Replacing the stack and the heap of a world. -/
lemma MemoryInto.setWorld {i : Nat} {w : World} (h : s.MemoryInto L) (hw : w.MemoryInto L) :
    (s.setWorld i w).MemoryInto L := by
  intro j
  rw [worldAt_setWorld]
  split
  · exact hw
  · exact h j

/-- All items point to some offset. -/
lemma memoryInto_true (s : State) : s.MemoryInto fun _ => True :=
  fun _ => ⟨fun _ _ _ _ => trivial, fun
    | _, .buffer _, _ => trivial
    | _, .compound _ _ _, _ => fun _ _ _ _ => trivial⟩

end State

/-! ## The judgement -/

namespace Exec

variable {L : Nat → Prop} {α β : Type}

/-- A computation that works on stack and heap only.  If all pointers there point into `L`, then so
do those that it leaves there, and a result satisfies the predicate. -/
inductive Local (L : Nat → Prop) : {α : Type} → Exec α → (α → Prop) → Prop
  /-- Nothing is done. -/
  | pure {α : Type} {Q : α → Prop} {a : α} (ha : Q a) : Local L (Pure.pure a) Q
  /-- The computation fails. -/
  | throw {α : Type} {Q : α → Prop} (e : ExecutionError) :
    Local L (MonadExcept.throw e : Exec α) Q
  /-- One computation follows another. -/
  | bind {α β : Type} {P : α → Prop} {Q : β → Prop} {x : Exec α} {k : α → Exec β}
    (hx : Local L x P) (hk : ∀ a, P a → Local L (k a) Q) : Local L (x >>= k) Q
  /-- The evaluation stack changes at the top. -/
  | onStack {α : Type} {Q : α → Prop} {change : EvaluationStack → α × EvaluationStack}
    (hreshaped : ∀ s : EvaluationStack, s.Reshaped (change s).2)
    (hitems : ∀ s : EvaluationStack, s.PointsInto L →
      Q (change s).1 ∧ (change s).2.PointsInto L) : Local L (onStack change) Q
  /-- The heap is read. -/
  | heap : Local L heap (Heap.PointsInto L)
  /-- The heap is replaced. -/
  | setHeap {new : Heap} (hnew : new.PointsInto L) : Local L (setHeap new) fun _ => True
  /-- An identity is taken. -/
  | freshId : Local L freshId fun _ => True
  /-- The length of the script is read. -/
  | scriptLength {β : Type} {Q : β → Prop} {k : Nat → Exec β} (hk : ∀ n, Local L (k n) Q) :
    Local L (world >>= fun w => k w.script.length) Q

namespace Local

variable {P Q : α → Prop} {R : β → Prop}

lemma ite {c : Prop} [Decidable c] {x y : Exec α} (hx : c → Local L x Q)
    (hy : ¬c → Local L y Q) : Local L (if c then x else y) Q := by
  split
  · next h => exact hx h
  · next h => exact hy h

/-- A check that may fail is followed by work that may rely on it. -/
lemma check {c : Prop} [Decidable c] {e : ExecutionError} {k : Unit → Exec α}
    (hk : ¬c → ∀ u, Local L (k u) Q) :
    Local L (if c then MonadExcept.throw e >>= k else k ()) Q :=
  ite (fun _ => (throw (Q := fun _ => False) e).bind fun _ h => h.elim) fun h => hk h ()

/-- A pure outcome. -/
lemma lift {result : Except ExecutionError α} (h : ∀ a, result = .ok a → Q a) :
    Local L (liftM result : Exec α) Q := by
  cases result with
  | ok a => exact pure (h a rfl)
  | error e => exact throw e

/-- A pure outcome of which nothing is to be known. -/
lemma lift_any (result : Except ExecutionError α) : Local L (liftM result : Exec α) fun _ => True :=
  lift fun _ _ => trivial

/-! ## Items on the stack -/

lemma modifyStack {change : EvaluationStack → EvaluationStack}
    (hreshaped : ∀ s : EvaluationStack, s.Reshaped (change s))
    (hitems : ∀ s : EvaluationStack, s.PointsInto L → (change s).PointsInto L) :
    Local L (modifyStack change) fun _ => True :=
  .onStack hreshaped fun s hs => ⟨trivial, hitems s hs⟩

lemma push {x : Item} (hx : x.PointsInto L) : Local L (push x) fun _ => True :=
  modifyStack (fun s => s.reshaped_push _) fun _ hs => hs.push hx.constant

lemma pop : Local L pop (Item.PointsInto L) :=
  .onStack (fun s => s.reshaped_removeAt 0) fun _ hs => hs.removeAt 0

lemma peek (index : Nat) : Local L (peek index) (Item.PointsInto L) :=
  .onStack (fun s => s.reshaped_peek index) fun _ hs => hs.peek index

lemma popMany (count : Nat) :
    Local L (popMany count) fun items => ∀ x ∈ items, x.PointsInto L :=
  .onStack (fun s => s.reshaped_popMany count) fun _ hs => hs.popMany count

lemma demand (opcode : Opcode) (x : Option α) : Local L (demand opcode x) fun _ => True := by
  cases x with
  | none => exact throw _
  | some a => exact pure trivial

lemma popInteger (opcode : Opcode) : Local L (popInteger opcode) fun _ => True :=
  pop.bind fun _ _ => (lift_any _).bind fun _ _ => demand opcode _

lemma popCount (opcode : Opcode) : Local L (popCount opcode) fun _ => True :=
  (popInteger opcode).bind fun _ _ => ite (fun _ => pure trivial) fun _ => throw _

lemma popBoolean (opcode : Opcode) : Local L (popBoolean opcode) fun _ => True :=
  pop.bind fun _ _ => (lift_any _).bind fun _ _ => demand opcode _

lemma fresh (type : ItemType) : Local L (fresh type) (Item.PointsInto L) :=
  freshId.bind fun _ _ => pure (.symbolic rfl)

/-! ## Objects on the heap -/

lemma pushBuffer (bytes : Bytes) : Local L (pushBuffer bytes) fun _ => True :=
  heap.bind fun _ hheap => (setHeap (hheap.newBuffer bytes).2).bind fun _ _ =>
    push (hheap.newBuffer bytes).1

lemma pushCompound (kind : CompoundKind) {items : List Item}
    (hitems : ∀ x ∈ items, x.PointsInto L) : Local L (pushCompound kind items) fun _ => True :=
  heap.bind fun _ hheap => (setHeap (hheap.newCompound kind hitems).2).bind fun _ _ =>
    push (hheap.newCompound kind hitems).1

lemma cloneStruct {x : Item} (hx : x.PointsInto L) :
    Local L (cloneStruct x) (Item.PointsInto L) :=
  heap.bind fun _ hheap => (setHeap (Heap.PointsInto.cloneStruct hheap hx).1).bind fun _ _ =>
    lift (Heap.PointsInto.cloneStruct hheap hx).2

/-! ## What local work changes -/

/-- Work on stack and heap keeps pointers inside the set, gives a result as announced, and changes
nothing else. -/
theorem maintains {x : Exec α} (h : Local L x Q) (s₀ : State) :
    Maintains (fun s => s.MemoryInto L ∧ s₀.Reworked s) x Q := by
  -- By induction on the work: sequences follow from their parts, and what is left are the few
  -- primitives that reach the world of the current frame.
  induction h with
  | pure ha => exact .pure ha
  | throw e => exact .throw e
  | bind _ _ ihx ihk => exact ihx.bind ihk
  | @onStack _ Q change hreshaped hitems =>
    rintro s ⟨hinto, hreworked⟩
    unfold Exec.onStack onWorld
    cases s.frames with
    | nil => exact ⟨hinto, hreworked⟩
    | cons f rest =>
      have hw := hinto f.world
      obtain ⟨hresult, hstack⟩ := hitems _ hw.stack
      have hconfined : (s.worldAt f.world).Confined
          { s.worldAt f.world with stack := (change (s.worldAt f.world).stack).2 } :=
        ⟨rfl, rfl, rfl, rfl, hreshaped _⟩
      exact ⟨⟨hinto.setWorld ⟨hstack, hw.heap⟩,
        IsTrans.trans _ _ _ hreworked (.of_setWorld hconfined rfl)⟩, hresult⟩
  | heap =>
    rintro s ⟨hinto, hreworked⟩
    cases hs : s.frames with
    | nil =>
      have hfails : Exec.heap s = .error .noCurrentContext s := by
        simp [Exec.heap, world, Bind.bind, EStateM.bind, hs]
      rw [hfails]
      exact ⟨hinto, hreworked⟩
    | cons f rest =>
      rw [heap_eq hs]
      exact ⟨⟨hinto, hreworked⟩, (hinto f.world).heap⟩
  | @setHeap new hnew =>
    rintro s ⟨hinto, hreworked⟩
    unfold Exec.setHeap modifyWorld onWorld
    cases s.frames with
    | nil => exact ⟨hinto, hreworked⟩
    | cons f rest =>
      have hconfined : (s.worldAt f.world).Confined { s.worldAt f.world with heap := new } :=
        ⟨rfl, rfl, rfl, rfl, .refl _⟩
      exact ⟨⟨hinto.setWorld ⟨(hinto f.world).stack, hnew⟩,
        IsTrans.trans _ _ _ hreworked (.of_setWorld hconfined rfl)⟩, trivial⟩
  | freshId =>
    rintro s ⟨hinto, hreworked⟩
    have hsupply : s.Reworked { s with supply := s.supply + 1 } :=
      ⟨keeps_freshId s, fun _ => rfl⟩
    exact ⟨⟨hinto, IsTrans.trans _ _ _ hreworked hsupply⟩, trivial⟩
  | @scriptLength _ Q k _ ih =>
    rintro s ⟨hinto, hreworked⟩
    cases hs : s.frames with
    | nil =>
      have hfails : (world >>= fun w => k w.script.length) s = .error .noCurrentContext s := by
        simp [world, Bind.bind, EStateM.bind, hs]
      rw [hfails]
      exact ⟨hinto, hreworked⟩
    | cons f rest =>
      rw [bind_of_ok (world_eq hs)]
      exact ih _ s ⟨hinto, hreworked⟩

/-- Work on stack and heap changes nothing else. -/
lemma reworked {x : Exec α} (h : Local (fun _ => True) x Q) : Keeps State.Reworked x := by
  intro s
  have hleaves := h.maintains s s ⟨s.memoryInto_true, Std.Refl.refl s⟩
  unfold after
  cases hx : x s with
  | ok a s' =>
    rw [hx] at hleaves
    exact hleaves.1.2
  | error e s' =>
    rw [hx] at hleaves
    exact hleaves.2

end Local

end Exec

end SymbolicScript
