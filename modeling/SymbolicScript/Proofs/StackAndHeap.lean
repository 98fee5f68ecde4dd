import Mathlib.Logic.Function.Iterate
import SymbolicScript.Proofs.BoundedArithmetic
import SymbolicScript.Proofs.StackView

/-!
# Following instructions through stack and heap

While an instruction on stack and heap is executed, the state differs from the one it has begun in
by the stack and the heap of one world (`State.holding`).  On such states every step of a
computation can be made at once: the item that is popped is the first of the view, and the heap that
is read is the one that the state holds.

The second half is about failures.  What a computation does before it fails may leave all objects as
they are, although a success changes one of them (`Exec.Spares`).
-/

namespace SymbolicScript

/-- Popping several items is popping so many times. -/
lemma EvaluationStack.popMany_snd (stack : EvaluationStack) (count : Nat) :
    (stack.popMany count).2 = (fun stack => stack.pop.2)^[count] stack := by
  induction count generalizing stack with
  | zero => rfl
  | succ count ih => rw [popMany_succ, Function.iterate_succ_apply, ih]

/-! ## States that differ in stack and heap -/

namespace State

/-- The state with another evaluation stack and another heap in a world. -/
def holding (s : State) (index : Nat) (stack : EvaluationStack) (heap : Heap) : State :=
  s.setWorld index { s.worldAt index with stack, heap }

variable {s : State} {index : Nat} {stack : EvaluationStack} {heap : Heap}

/-- Every state holds its own stack and heap. -/
lemma holding_self (s : State) (index : Nat) :
    s.holding index (s.worldAt index).stack (s.worldAt index).heap = s := by
  unfold holding setWorld worldAt
  by_cases h : index < s.worlds.size
  · have hworld : s.worlds.setIfInBounds index s.worlds[index] = s.worlds := by
      simp [Array.setIfInBounds, h]
    rw [Array.getD_eq_getD_getElem?, Array.getElem?_eq_getElem h]
    exact congrArg (fun worlds => { s with worlds }) hworld
  · simp [Array.setIfInBounds, h]

/-- The world has the stack and the heap, if it exists. -/
lemma worldAt_holding (h : index < s.worlds.size) (stack : EvaluationStack) (heap : Heap) :
    (s.holding index stack heap).worldAt index = { s.worldAt index with stack, heap } := by
  unfold holding
  rw [worldAt_setWorld, if_pos ⟨rfl, h⟩]

/-- Whatever the world holds can be replaced. -/
lemma setWorld_holding (w : World) :
    (s.holding index stack heap).setWorld index w = s.setWorld index w := by
  simp [holding, setWorld]

end State

namespace Exec

variable {α β : Type}

section Holding

variable {s s' : State} {f : Frame} {rest : List Frame} {stack : EvaluationStack} {heap : Heap}
  {b : β} (hframes : s.frames = f :: rest) (hworld : f.world < s.worlds.size)
include hframes hworld

/-- Work on the evaluation stack is done on the stack that the state holds. -/
lemma onStack_holding (change : EvaluationStack → α × EvaluationStack) :
    onStack change (s.holding f.world stack heap) =
      .ok (change stack).1 (s.holding f.world (change stack).2 heap) := by
  have hchange := onStack_eq (s := s.holding f.world stack heap) hframes change
  rw [State.worldAt_holding hworld] at hchange
  refine hchange.trans ?_
  unfold State.withStack
  rw [State.worldAt_holding hworld, State.setWorld_holding]
  rfl

/-- Behind such work the computation goes on. -/
lemma onStack_holding_bind (change : EvaluationStack → α × EvaluationStack) (k : α → Exec β) :
    (onStack change >>= k) (s.holding f.world stack heap) =
      k (change stack).1 (s.holding f.world (change stack).2 heap) :=
  bind_of_ok (onStack_holding hframes hworld change)

/-- Popping gives the first item of the view. -/
lemma pop_holding_bind (k : Item → Exec β) :
    (pop >>= k) (s.holding f.world stack heap) =
      k (stack.view 0) (s.holding f.world stack.pop.2 heap) := by
  rw [← EvaluationStack.pop_fst]
  exact onStack_holding_bind hframes hworld EvaluationStack.pop k

/-- The heap that is read is the one that the state holds. -/
lemma heap_holding_bind (k : Heap → Exec β) :
    (Exec.heap >>= k) (s.holding f.world stack heap) =
      k heap (s.holding f.world stack heap) := by
  rw [bind_of_ok (heap_eq (s := s.holding f.world stack heap) hframes),
    State.worldAt_holding hworld]

/-- The heap can be replaced. -/
lemma setHeap_holding (heap' : Heap) :
    setHeap heap' (s.holding f.world stack heap) = .ok () (s.holding f.world stack heap') := by
  rw [setHeap_eq (s := s.holding f.world stack heap) hframes, State.worldAt_holding hworld,
    State.setWorld_holding]
  rfl

/-- An item can be pushed. -/
lemma push_holding (x : Item) :
    push x (s.holding f.world stack heap) =
      .ok () (s.holding f.world (stack.push x.constant) heap) :=
  onStack_holding hframes hworld fun stack => ((), stack.push x.constant)

/-- A new buffer can be pushed. -/
lemma pushBuffer_holding (bytes : Bytes) :
    pushBuffer bytes (s.holding f.world stack heap) =
      .ok () (s.holding f.world (stack.push (.const (.buffer heap.size)))
        (heap.add (.buffer bytes))) := by
  unfold pushBuffer
  rw [heap_holding_bind hframes hworld]
  exact (bind_of_ok (setHeap_holding hframes hworld _)).trans
    (push_holding hframes hworld (.buffer heap.size))

/-- A new compound can be pushed. -/
lemma pushCompound_holding (kind : CompoundKind) (items : List Item) :
    pushCompound kind items (s.holding f.world stack heap) =
      .ok () (s.holding f.world (stack.push (.const (kind.item heap.size)))
        (heap.add (.compound kind items false))) := by
  have hconstant : (kind.item heap.size).constant = .const (kind.item heap.size) := by
    cases kind <;> rfl
  unfold pushCompound
  rw [heap_holding_bind hframes hworld, ← hconstant]
  exact (bind_of_ok (setHeap_holding hframes hworld _)).trans
    (push_holding hframes hworld (kind.item heap.size))

/-- What is stored in the place of an item can be made if the heap can make it. -/
lemma cloneStruct_holding_bind_eq_ok {x : Item} {k : Item → Exec β} :
    (cloneStruct x >>= k) (s.holding f.world stack heap) = .ok b s' ↔
      ∃ copy heap', heap.cloneStruct x = (.ok copy, heap') ∧
        k copy (s.holding f.world stack heap') = .ok b s' := by
  unfold cloneStruct
  rw [bind_assoc, heap_holding_bind hframes hworld]
  generalize heap.cloneStruct x = cloned
  obtain ⟨copy, heap'⟩ := cloned
  change (((setHeap heap' >>= fun _ => ofExcept copy) >>= k) _) = _ ↔ _
  rw [bind_assoc, bind_of_ok (setHeap_holding hframes hworld heap')]
  cases copy with
  | ok copy =>
    constructor
    · exact fun h => ⟨copy, heap', rfl, h⟩
    · rintro ⟨_, _, ⟨⟩, h⟩
      exact h
  | error e =>
    constructor
    · rintro ⟨⟩
    · rintro ⟨_, _, ⟨⟩, -⟩

/-- A number can be popped if it is known and not negative, and if a word can represent it. -/
lemma popCount_holding_bind_eq_ok {opcode : Opcode} {k : Nat → Exec β} :
    (popCount opcode >>= k) (s.holding f.world stack heap) = .ok b s' ↔
      ∃ n : Nat, (stack.view 0).toInteger? = .ok (some (n : Int)) ∧ n ≤ Limits.word ∧
        k n (s.holding f.world stack.pop.2 heap) = .ok b s' := by
  unfold popCount popInteger
  simp only [bind_assoc]
  rw [pop_holding_bind hframes hworld]
  cases hvalue : (stack.view 0).toInteger? with
  | error e =>
    constructor
    · rintro ⟨⟩
    · rintro ⟨_, ⟨⟩, -⟩
  | ok value? =>
    cases value? with
    | none =>
      constructor
      · rintro ⟨⟩
      · rintro ⟨_, ⟨⟩, -⟩
    | some value =>
      change ((if 0 ≤ value ∧ value ≤ Limits.word then pure value.toNat
        else throw (.outOfRange opcode value) : Exec Nat) >>= k) _ = _ ↔ _
      split
      · next hrange =>
        obtain ⟨n, rfl⟩ := Int.eq_ofNat_of_zero_le hrange.1
        constructor
        · exact fun h => ⟨n, rfl, Int.ofNat_le.1 hrange.2, h⟩
        · rintro ⟨m, hm, -, h⟩
          cases hm
          exact h
      · next hrange =>
        constructor
        · rintro ⟨⟩
        · rintro ⟨m, hm, hle, -⟩
          cases hm
          exact absurd ⟨Int.natCast_nonneg m, Int.ofNat_le.2 hle⟩ hrange

end Holding

/-- Behind a pure result that succeeds the computation goes on. -/
lemma lift_bind_eq_ok {result : Except ExecutionError α} {k : α → Exec β} {s s' : State} {b : β} :
    ((liftM result : Exec α) >>= k) s = .ok b s' ↔ ∃ a, result = .ok a ∧ k a s = .ok b s' := by
  rw [bind_eq_ok]
  constructor
  · rintro ⟨a, s₁, hresult, hk⟩
    obtain ⟨ha, rfl⟩ := liftM_eq_ok.1 hresult
    exact ⟨a, ha, hk⟩
  · rintro ⟨a, ha, hk⟩
    exact ⟨a, s, liftM_eq_ok.2 ⟨ha, rfl⟩, hk⟩

/-- What has to be known is known. -/
lemma demand_bind_eq_ok {opcode : Opcode} {a? : Option α} {k : α → Exec β} {s s' : State} {b : β} :
    (demand opcode a? >>= k) s = .ok b s' ↔ ∃ a, a? = some a ∧ k a s = .ok b s' := by
  cases a? with
  | none =>
    constructor
    · rintro ⟨⟩
    · rintro ⟨_, ⟨⟩, -⟩
  | some a =>
    constructor
    · exact fun h => ⟨a, rfl, h⟩
    · rintro ⟨_, ⟨⟩, h⟩
      exact h

/-- Without a frame there is no heap. -/
lemma heap_bind_eq_error {k : Heap → Exec β} {s : State} (hs : s.frames = []) :
    (heap >>= k) s = .error .noCurrentContext s := by
  simp [Bind.bind, EStateM.bind, heap, world, hs]

/-! ## Objects that stay the same -/

instance : Std.Refl State.KeepsObjects where
  refl := State.HeapsKeep.refl

instance : IsTrans State State.KeepsObjects where
  trans _ _ _ := State.HeapsKeep.trans

/-- Work on the evaluation stack changes no object. -/
lemma keepsObjects_onStack (change : EvaluationStack → α × EvaluationStack) :
    Keeps State.KeepsObjects (onStack change) := by
  intro s
  unfold after onStack onWorld
  cases s.frames with
  | nil => exact .refl s
  | cons f rest => exact (State.HeapsKeep.refl s).setWorld (.refl _)

lemma keepsObjects_pop : Keeps State.KeepsObjects pop :=
  keepsObjects_onStack _

lemma keepsObjects_push (x : Item) : Keeps State.KeepsObjects (push x) :=
  keepsObjects_onStack fun stack => ((), stack.push x.constant)

lemma keepsObjects_heap : Keeps State.KeepsObjects heap :=
  keeps_world.bind fun _ => keeps_pure _

lemma keepsObjects_popCount (opcode : Opcode) : Keeps State.KeepsObjects (popCount opcode) :=
  Keeps.bind
    (keepsObjects_pop.bind fun _ => (keeps_liftM _).bind fun _ => keeps_demand _ _)
    fun _ => (keeps_pure _).ite (keeps_throw _)

/-- Nor does putting a heap that has grown in the place of the one that has been read. -/
lemma keepsObjects_heap_bind {k : Heap → Exec β} (grown : Heap → Heap)
    (hgrown : ∀ heap : Heap, heap.Extends (grown heap))
    (hk : ∀ heap, ∃ next : Exec β, k heap = (setHeap (grown heap) >>= fun _ => next) ∧
      Keeps State.KeepsObjects next) : Keeps State.KeepsObjects (heap >>= k) := by
  intro s
  cases hframes : s.frames with
  | nil =>
    rw [after_of_error (heap_bind_eq_error hframes)]
    exact .refl s
  | cons f rest =>
    obtain ⟨next, hnext, hkeeps⟩ := hk (s.worldAt f.world).heap
    unfold after
    rw [bind_of_ok (heap_eq hframes), hnext, bind_of_ok (setHeap_eq hframes _)]
    have hset : s.KeepsObjects (s.setWorld f.world { s.worldAt f.world with
        heap := grown (s.worldAt f.world).heap }) :=
      (State.HeapsKeep.refl s).setWorld (hgrown _)
    exact hset.trans (hkeeps _)

lemma keepsObjects_pushBuffer (bytes : Bytes) : Keeps State.KeepsObjects (pushBuffer bytes) :=
  keepsObjects_heap_bind (fun heap => heap.add (.buffer bytes))
    (fun heap => (Heap.Extends.refl heap).add _) fun _ => ⟨_, rfl, keepsObjects_push _⟩

/-- Nor does copying what is to be stored, also if it fails half-way. -/
lemma keepsObjects_cloneStruct (x : Item) : Keeps State.KeepsObjects (cloneStruct x) :=
  keepsObjects_heap_bind (fun heap => (heap.cloneStruct x).2)
    (fun heap => heap.extends_of_cloneStruct x) fun _ => ⟨_, rfl, keeps_ofExcept _⟩

/-! ## Failures that change no object -/

/-- Where the computation fails, all objects are the same. -/
def Spares (x : Exec α) : Prop :=
  ∀ (s : State) (e : ExecutionError) (s' : State), x s = .error e s' → s.KeepsObjects s'

/-- A computation that changes no object at all. -/
lemma Keeps.spares {x : Exec α} (h : Keeps State.KeepsObjects x) : Spares x := by
  intro s e s' hfails
  have hkeeps := h s
  rwa [after_of_error hfails] at hkeeps

/-- What is done up to a change may not change an object itself. -/
lemma Keeps.bind_spares {x : Exec α} {k : α → Exec β} (hx : Keeps State.KeepsObjects x)
    (hk : ∀ a, Spares (k a)) : Spares (x >>= k) := by
  intro s e s' hfails
  have hkeeps := hx s
  simp only [Bind.bind, EStateM.bind] at hfails
  cases hfirst : x s with
  | ok a s₁ =>
    rw [hfirst] at hfails
    rw [after_of_ok hfirst] at hkeeps
    exact hkeeps.trans (hk a s₁ e s' hfails)
  | error e₁ s₁ =>
    rw [hfirst] at hfails
    cases hfails
    rwa [after_of_error hfirst] at hkeeps

/-- The change itself, a replacement of the heap, does nothing if it fails. -/
lemma spares_setHeap (heap : Heap) : Spares (setHeap heap) := by
  intro s e s' hfails
  unfold setHeap modifyWorld onWorld at hfails
  split at hfails
  · cases hfails
  · cases hfails
    exact .refl s

end Exec

/-! ## Changing one object -/

namespace Semantics

variable {s s' : State} {f : Frame} {rest : List Frame} {stack : EvaluationStack} {heap : Heap}
  {handle : Nat}

section Holding

variable (hframes : s.frames = f :: rest) (hworld : f.world < s.worlds.size)
include hframes hworld

/-- When the elements of a compound can be changed, and what becomes of the heap. -/
lemma modifyItems_holding_eq_ok {change : List Item → Except ExecutionError (List Item)} :
    modifyItems handle change (s.holding f.world stack heap) = .ok () s' ↔
      ∃ kind items changed, heap.objects[handle]? = some (.compound kind items false) ∧
        change items = .ok changed ∧
        s' = s.holding f.world stack (heap.put handle (.compound kind changed false)) := by
  unfold modifyItems
  rw [Exec.heap_holding_bind hframes hworld, Exec.lift_bind_eq_ok]
  simp only [Exec.setHeap_holding hframes hworld, EStateM.Result.ok.injEq, true_and]
  constructor
  · rintro ⟨heap', hheap, rfl⟩
    obtain ⟨kind, items, changed, hobject, hchanged, rfl⟩ := Heap.modifyItems_eq_ok.1 hheap
    exact ⟨kind, items, changed, hobject, hchanged, rfl⟩
  · rintro ⟨kind, items, changed, hobject, hchanged, rfl⟩
    exact ⟨_, Heap.modifyItems_eq_ok.2 ⟨kind, items, changed, hobject, hchanged, rfl⟩, rfl⟩

/-- Likewise the bytes of a buffer. -/
lemma modifyBytes_holding_eq_ok {change : Bytes → Except ExecutionError Bytes} :
    modifyBytes handle change (s.holding f.world stack heap) = .ok () s' ↔
      ∃ bytes changed, heap.objects[handle]? = some (.buffer bytes) ∧ change bytes = .ok changed ∧
        s' = s.holding f.world stack (heap.put handle (.buffer changed)) := by
  unfold modifyBytes
  rw [Exec.heap_holding_bind hframes hworld, Exec.lift_bind_eq_ok]
  simp only [Exec.setHeap_holding hframes hworld, EStateM.Result.ok.injEq, true_and]
  constructor
  · rintro ⟨heap', hheap, rfl⟩
    obtain ⟨bytes, changed, hobject, hchanged, rfl⟩ := Heap.modifyBytes_eq_ok.1 hheap
    exact ⟨bytes, changed, hobject, hchanged, rfl⟩
  · rintro ⟨bytes, changed, hobject, hchanged, rfl⟩
    exact ⟨_, Heap.modifyBytes_eq_ok.2 ⟨bytes, changed, hobject, hchanged, rfl⟩, rfl⟩

end Holding

/-- A change of elements that fails does nothing. -/
lemma spares_modifyItems (change : List Item → Except ExecutionError (List Item)) :
    Exec.Spares (modifyItems handle change) :=
  Exec.keepsObjects_heap.bind_spares fun _ => (Exec.keeps_liftM _).bind_spares fun _ =>
    Exec.spares_setHeap _

/-- A change of bytes that fails does nothing. -/
lemma spares_modifyBytes (change : Bytes → Except ExecutionError Bytes) :
    Exec.Spares (modifyBytes handle change) :=
  Exec.keepsObjects_heap.bind_spares fun _ => (Exec.keeps_liftM _).bind_spares fun _ =>
    Exec.spares_setHeap _

end Semantics

end SymbolicScript
