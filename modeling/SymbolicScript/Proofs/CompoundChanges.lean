import SymbolicScript.Proofs.RefusedChanges
import SymbolicScript.Proofs.SeparateCopies
import SymbolicScript.Proofs.StackAndHeap

/-!
# A change of a compound touches one object, or none

An instruction that changes a compound looks at the compound, the key and the value in some order of
its own, and if it stores a struct it allocates a copy in between.  Whatever it has done by the time
at which it fails, no object has changed that was there before.  If it succeeds, one object has
changed (`Handler.run_changes`): the one behind the handle of the compound, by the operation on
lists that the instruction stands for (`Handler.Rewrites`).  All items that refer to the object by
the handle see the change, and a struct that has been stored is a copy of its own.

The heap need not be valid.  If the handle of the compound dangles, it may come to refer to a part
of the copy that is stored, and then no object that was there before has changed at all.
-/

namespace SymbolicScript

/-- A handle below the size of a heap refers to an object. -/
lemma Heap.exists_object {heap : Heap} {handle : Nat} (h : handle < heap.size) :
    ∃ object, heap.objects[handle]? = some object :=
  ⟨_, Array.getElem?_eq_getElem h⟩

/-! ## Operations on one object -/

namespace Handler

/-- What a handler does to an object, given the items on the stack and the item that it stores. -/
inductive Rewrites (view : Nat → Item) (stored : Item) : Handler → HeapObject → HeapObject → Prop
  /-- The item is added at the end. -/
  | append {kind : CompoundKind} {items : List Item} (hroom : items.length < Limits.stackSize) :
    Rewrites view stored .append (.compound kind items false)
      (.compound kind (items ++ [stored]) false)
  /-- The item replaces the element at the key. -/
  | setItem {kind : CompoundKind} {items : List Item} {index : Nat}
    (hkey : (view 1).toInteger? = .ok (some (index : Int))) (hindex : index < items.length) :
    Rewrites view stored .setItem (.compound kind items false)
      (.compound kind (items.set index stored) false)
  /-- The byte, signed or not, replaces the one at the key. -/
  | setByte {bytes : Bytes} {index : Nat} {value : Int}
    (hkey : (view 1).toInteger? = .ok (some (index : Int))) (hindex : index < bytes.length)
    (hvalue : (view 0).toInteger? = .ok (some value)) (hrange : -128 ≤ value ∧ value ≤ 255) :
    Rewrites view stored .setItem (.buffer bytes)
      (.buffer (bytes.set index (UInt8.ofNat (value % 256).toNat)))
  /-- The element at the key is deleted. -/
  | remove {kind : CompoundKind} {items : List Item} {index : Nat}
    (hkey : (view 0).toInteger? = .ok (some (index : Int))) (hindex : index < items.length) :
    Rewrites view stored .remove (.compound kind items false)
      (.compound kind (items.eraseIdx index) false)
  /-- All elements are deleted. -/
  | clearItems {kind : CompoundKind} {items : List Item} :
    Rewrites view stored .clearItems (.compound kind items false) (.compound kind [] false)
  /-- The elements are reversed. -/
  | reverseItems {kind : CompoundKind} {items : List Item} :
    Rewrites view stored .reverseItems (.compound kind items false)
      (.compound kind items.reverse false)
  /-- The bytes are reversed. -/
  | reverseBytes {bytes : Bytes} :
    Rewrites view stored .reverseItems (.buffer bytes) (.buffer bytes.reverse)
  /-- The last element is dropped. -/
  | popItem {kind : CompoundKind} {items : List Item} (hitems : items ≠ []) :
    Rewrites view stored .popItem (.compound kind items false)
      (.compound kind items.dropLast false)

/-- Whether the handler stores an item in the object. -/
def stores : Handler → HeapObject → Bool
  | .append, _ | .setItem, .compound _ _ _ => true
  | _, _ => false

/-- How the handler changes the object behind a handle: the heap grows by the copy of what is
stored, if anything is, and then the object is replaced. -/
structure Changes (handler : Handler) (depth : Nat) (stack : EvaluationStack) (heap : Heap)
    (handle : Nat) (object object' : HeapObject) (stored : Item) (grown : Heap) : Prop where
  /-- The handle is that of the compound on the stack. -/
  operand : (stack.view depth).handle? = some handle
  /-- It refers to the object. -/
  found : grown.objects[handle]? = some object
  /-- What becomes of the object. -/
  rewrites : handler.Rewrites stack.view stored object object'
  /-- What is stored. -/
  cloned : handler.stores object = true → heap.cloneStruct (stack.view 0) = (.ok stored, grown)
  /-- The heap does not grow if nothing is. -/
  unstored : handler.stores object = false → grown = heap

/-- The handler has changed one object, and the stack. -/
def Changed (handler : Handler) (depth : Nat) (s : State) (f : Frame) (stack : EvaluationStack)
    (heap : Heap) (s' : State) : Prop :=
  ∃ handle object object' stored grown stack',
    handler.Changes depth stack heap handle object object' stored grown ∧
      s' = s.holding f.world stack' (grown.put handle object')

/-- No elements come into an object but the one that is stored. -/
lemma Rewrites.elements {view : Nat → Item} {stored : Item} {handler : Handler}
    {object object' : HeapObject} (h : handler.Rewrites view stored object object') :
    ∀ kind' items' readOnly', object' = .compound kind' items' readOnly' →
      ∃ kind items readOnly, object = .compound kind items readOnly ∧
        ∀ x ∈ items', x ∈ items ∨ x = stored := by
  rintro kind' items' readOnly' rfl
  cases h with
  | append =>
    exact ⟨_, _, _, rfl, fun x hx => (List.mem_append.1 hx).imp_right List.mem_singleton.1⟩
  | setItem => exact ⟨_, _, _, rfl, fun x hx => List.mem_or_eq_of_mem_set hx⟩
  | remove => exact ⟨_, _, _, rfl, fun x hx => .inl (List.mem_of_mem_eraseIdx hx)⟩
  | clearItems => exact ⟨_, _, _, rfl, fun x hx => absurd hx List.not_mem_nil⟩
  | reverseItems => exact ⟨_, _, _, rfl, fun x hx => .inl (List.mem_reverse.1 hx)⟩
  | @popItem _ items _ =>
    exact ⟨_, _, _, rfl, fun x hx => .inl ((List.dropLast_sublist items).subset hx)⟩

end Handler

namespace Semantics

variable {s s' : State} {f : Frame} {rest : List Frame} {stack : EvaluationStack} {heap : Heap}

/-! ## Reading the operands -/

/-- A key denotes a position if it is known and in range. -/
lemma position_eq_ok {opcode : Opcode} {key : Item} {length index : Nat} :
    position opcode key length = .ok index ↔
      key.toInteger? = .ok (some (index : Int)) ∧ index < length := by
  unfold position
  rw [except_bind_eq_ok]
  constructor
  · rintro ⟨value?, hvalue, hposition⟩
    cases value? with
    | none => cases hposition
    | some value =>
      simp only at hposition
      split at hposition
      · next hrange =>
        cases hposition
        rw [Int.toNat_of_nonneg hrange.1]
        exact ⟨hvalue, by omega⟩
      · cases hposition
  · rintro ⟨hvalue, hlt⟩
    refine ⟨_, hvalue, ?_⟩
    have hrange : 0 ≤ (index : Int) ∧ (index : Int) < length := by omega
    simp only [if_pos hrange, Int.toNat_natCast]
    rfl

/-- An item denotes a byte if it is known and fits into one, signed or not. -/
lemma byteValue_eq_ok {opcode : Opcode} {x : Item} {byte : UInt8}
    (h : byteValue opcode x = .ok byte) :
    ∃ value, x.toInteger? = .ok (some value) ∧ (-128 ≤ value ∧ value ≤ 255) ∧
      byte = UInt8.ofNat (value % 256).toNat := by
  obtain ⟨value?, hvalue, hbyte⟩ := except_bind_eq_ok.1 h
  cases value? with
  | none => cases hbyte
  | some value =>
    simp only at hbyte
    split at hbyte
    · next hrange =>
      cases hbyte
      exact ⟨value, hvalue, hrange, rfl⟩
    · cases hbyte

/-! ## Successes -/

section Changes

variable (hframes : s.frames = f :: rest) (hworld : f.world < s.worlds.size) (i : Instruction)
include hframes hworld

lemma append_changes (h : append i (s.holding f.world stack heap) = .ok () s') :
    Handler.append.Changed 1 s f stack heap s' := by
  unfold append at h
  simp only [Exec.pop_holding_bind hframes hworld, Exec.lift_bind_eq_ok,
    Exec.cloneStruct_holding_bind_eq_ok hframes hworld, EvaluationStack.view_pop] at h
  obtain ⟨handle, htarget, stored, grown, hstored, hmodify⟩ := h
  obtain ⟨kind, items, changed, hobject, hchanged, rfl⟩ :=
    (modifyItems_holding_eq_ok hframes hworld).1 hmodify
  split at hchanged
  · next hroom =>
    cases hchanged
    exact ⟨handle, _, _, stored, grown, _,
      { operand := handle?_of_itemsTarget htarget, found := hobject, rewrites := .append hroom,
        cloned := fun _ => hstored, unstored := nofun }, rfl⟩
  · cases hchanged

lemma setItem_changes (h : setItem i (s.holding f.world stack heap) = .ok () s') :
    Handler.setItem.Changed 2 s f stack heap s' := by
  unfold setItem at h
  simp only [Exec.pop_holding_bind hframes hworld, Exec.lift_bind_eq_ok,
    EvaluationStack.view_pop] at h
  obtain ⟨found, htarget, hchange⟩ := h
  have hoperand := handle?_of_target htarget
  cases found with
  | items handle =>
    obtain ⟨stored, grown, hstored, hmodify⟩ :=
      (Exec.cloneStruct_holding_bind_eq_ok hframes hworld).1 hchange
    obtain ⟨kind, items, changed, hobject, hchanged, rfl⟩ :=
      (modifyItems_holding_eq_ok hframes hworld).1 hmodify
    obtain ⟨index, hindex, hset⟩ := except_bind_eq_ok.1 hchanged
    cases hset
    obtain ⟨hkey, hlt⟩ := position_eq_ok.1 hindex
    exact ⟨handle, _, _, stored, grown, _,
      { operand := hoperand, found := hobject, rewrites := .setItem hkey hlt,
        cloned := fun _ => hstored, unstored := nofun }, rfl⟩
  | bytes handle =>
    obtain ⟨byte, hbyte, hmodify⟩ := Exec.lift_bind_eq_ok.1 hchange
    obtain ⟨bytes, changed, hobject, hchanged, rfl⟩ :=
      (modifyBytes_holding_eq_ok hframes hworld).1 hmodify
    obtain ⟨index, hindex, hset⟩ := except_bind_eq_ok.1 hchanged
    cases hset
    obtain ⟨hkey, hlt⟩ := position_eq_ok.1 hindex
    obtain ⟨value, hvalue, hrange, rfl⟩ := byteValue_eq_ok hbyte
    exact ⟨handle, _, _, .null, heap, _,
      { operand := hoperand, found := hobject, rewrites := .setByte hkey hlt hvalue hrange,
        cloned := nofun, unstored := fun _ => rfl }, rfl⟩

lemma remove_changes (h : remove i (s.holding f.world stack heap) = .ok () s') :
    Handler.remove.Changed 1 s f stack heap s' := by
  unfold remove at h
  simp only [Exec.pop_holding_bind hframes hworld, Exec.lift_bind_eq_ok,
    EvaluationStack.view_pop] at h
  obtain ⟨handle, htarget, hmodify⟩ := h
  obtain ⟨kind, items, changed, hobject, hchanged, rfl⟩ :=
    (modifyItems_holding_eq_ok hframes hworld).1 hmodify
  obtain ⟨index, hindex, herase⟩ := except_bind_eq_ok.1 hchanged
  cases herase
  obtain ⟨hkey, hlt⟩ := position_eq_ok.1 hindex
  exact ⟨handle, _, _, .null, heap, _,
    { operand := handle?_of_itemsTarget htarget, found := hobject, rewrites := .remove hkey hlt,
      cloned := nofun, unstored := fun _ => rfl }, rfl⟩

lemma clearItems_changes (h : clearItems i (s.holding f.world stack heap) = .ok () s') :
    Handler.clearItems.Changed 0 s f stack heap s' := by
  unfold clearItems at h
  simp only [Exec.pop_holding_bind hframes hworld, Exec.lift_bind_eq_ok] at h
  obtain ⟨handle, htarget, hmodify⟩ := h
  obtain ⟨kind, items, changed, hobject, ⟨⟩, rfl⟩ :=
    (modifyItems_holding_eq_ok hframes hworld).1 hmodify
  exact ⟨handle, _, _, .null, heap, _,
    { operand := handle?_of_itemsTarget htarget, found := hobject, rewrites := .clearItems,
      cloned := nofun, unstored := fun _ => rfl }, rfl⟩

lemma reverseItems_changes (h : reverseItems i (s.holding f.world stack heap) = .ok () s') :
    Handler.reverseItems.Changed 0 s f stack heap s' := by
  unfold reverseItems at h
  simp only [Exec.pop_holding_bind hframes hworld, Exec.lift_bind_eq_ok] at h
  obtain ⟨found, htarget, hchange⟩ := h
  have hoperand := handle?_of_target htarget
  cases found with
  | items handle =>
    obtain ⟨kind, items, changed, hobject, ⟨⟩, rfl⟩ :=
      (modifyItems_holding_eq_ok hframes hworld).1 hchange
    exact ⟨handle, _, _, .null, heap, _,
      { operand := hoperand, found := hobject, rewrites := .reverseItems,
        cloned := nofun, unstored := fun _ => rfl }, rfl⟩
  | bytes handle =>
    obtain ⟨bytes, changed, hobject, ⟨⟩, rfl⟩ :=
      (modifyBytes_holding_eq_ok hframes hworld).1 hchange
    exact ⟨handle, _, _, .null, heap, _,
      { operand := hoperand, found := hobject, rewrites := .reverseBytes,
        cloned := nofun, unstored := fun _ => rfl }, rfl⟩

lemma popItem_changes (h : popItem i (s.holding f.world stack heap) = .ok () s') :
    Handler.popItem.Changed 0 s f stack heap s' := by
  unfold popItem at h
  simp only [Exec.pop_holding_bind hframes hworld, Exec.lift_bind_eq_ok,
    Exec.heap_holding_bind hframes hworld] at h
  obtain ⟨handle, htarget, hpops⟩ := h
  obtain ⟨_, s₁, hmodify, hpushes⟩ := bind_eq_ok.1 hpops
  obtain ⟨kind, items, changed, hobject, hchanged, rfl⟩ :=
    (modifyItems_holding_eq_ok hframes hworld).1 hmodify
  obtain ⟨_, -, hpush⟩ := Exec.lift_bind_eq_ok.1 hpushes
  rw [Exec.push_holding hframes hworld] at hpush
  cases hpush
  split at hchanged
  · cases hchanged
  · next hnonempty =>
    cases hchanged
    refine ⟨handle, _, _, .null, heap, _,
      { operand := handle?_of_itemsTarget htarget, found := hobject, rewrites := .popItem ?_,
        cloned := nofun, unstored := fun _ => rfl }, rfl⟩
    rintro rfl
    exact hnonempty rfl

end Changes

end Semantics

/-! ## Where a success is possible -/

namespace Exec

variable {α : Type}

/-- The computation succeeds only in a frame that has a world. -/
def NeedsWorld (x : Exec Unit) : Prop :=
  ∀ s s', x s = .ok () s' → ∃ f rest, s.frames = f :: rest ∧ f.world < s.worlds.size

/-- What goes before the computation has left frames and worlds alone. -/
lemma NeedsWorld.of_bind {x : Exec α} {k : α → Exec Unit} (hx : Keeps State.Confined x)
    (hk : ∀ a, NeedsWorld (k a)) : NeedsWorld (x >>= k) := by
  intro s s' h
  obtain ⟨a, s₁, hfirst, hafter⟩ := bind_eq_ok.1 h
  have hconfined := hx s
  rw [after_of_ok hfirst] at hconfined
  obtain ⟨f, rest, hframes, hworld⟩ := hk a s₁ s' hafter
  exact ⟨f, rest, hconfined.frames ▸ hframes, hconfined.size ▸ hworld⟩

/-- What comes behind it does not matter. -/
lemma NeedsWorld.bind {x : Exec Unit} {k : Unit → Exec Unit} (hx : NeedsWorld x) :
    NeedsWorld (x >>= k) := by
  intro s s' h
  obtain ⟨_, s₁, hfirst, -⟩ := bind_eq_ok.1 h
  exact hx s s₁ hfirst

lemma keeps_cloneStruct (x : Item) : Keeps State.Confined (cloneStruct x) :=
  keeps_heap.bind fun _ => (keeps_setHeap _).bind fun _ => keeps_ofExcept _

/-- The object that a change of the heap replaces belongs to a world. -/
lemma needsWorld_heap_bind {k : Heap → Exec Unit}
    (hk : ∀ (heap : Heap) (s s' : State), k heap s = .ok () s' →
      ∃ (handle : Nat) (object : HeapObject), heap.objects[handle]? = some object) :
    NeedsWorld (heap >>= k) := by
  intro s s' h
  cases hframes : s.frames with
  | nil =>
    rw [heap_bind_eq_error hframes] at h
    cases h
  | cons f rest =>
    rw [bind_of_ok (heap_eq hframes)] at h
    obtain ⟨handle, object, hobject⟩ := hk _ _ _ h
    exact ⟨f, rest, rfl, State.lt_size_of_object hobject⟩

end Exec

namespace Semantics

variable {handle : Nat} (i : Instruction)

lemma needsWorld_modifyItems (change : List Item → Except ExecutionError (List Item)) :
    Exec.NeedsWorld (modifyItems handle change) := by
  refine Exec.needsWorld_heap_bind fun heap s s' h => ?_
  obtain ⟨heap', hheap, -⟩ := Exec.lift_bind_eq_ok.1 h
  obtain ⟨kind, items, changed, hobject, -, -⟩ := Heap.modifyItems_eq_ok.1 hheap
  exact ⟨handle, _, hobject⟩

lemma needsWorld_modifyBytes (change : Bytes → Except ExecutionError Bytes) :
    Exec.NeedsWorld (modifyBytes handle change) := by
  refine Exec.needsWorld_heap_bind fun heap s s' h => ?_
  obtain ⟨heap', hheap, -⟩ := Exec.lift_bind_eq_ok.1 h
  obtain ⟨bytes, changed, hobject, -, -⟩ := Heap.modifyBytes_eq_ok.1 hheap
  exact ⟨handle, _, hobject⟩

/-! ## Failures -/

/-- Once the last element has been removed, nothing fails any more. -/
lemma spares_removeLast {change : List Item → Except ExecutionError (List Item)} :
    Exec.Spares (do
      let heap ← Exec.heap
      modifyItems handle change
      Exec.push ((← heap.items handle).getLastD .null)) := by
  intro s e s' h
  cases hframes : s.frames with
  | nil =>
    rw [Exec.heap_bind_eq_error hframes] at h
    cases h
    exact .refl s
  | cons f rest =>
    rw [bind_of_ok (Exec.heap_eq hframes)] at h
    unfold modifyItems at h
    rw [bind_assoc, bind_of_ok (Exec.heap_eq hframes), bind_assoc] at h
    cases hmodify : (s.worldAt f.world).heap.modifyItems handle change with
    | error e =>
      rw [hmodify] at h
      cases h
      exact .refl s
    | ok heap' =>
      obtain ⟨kind, items, changed, hobject, -, -⟩ := Heap.modifyItems_eq_ok.1 hmodify
      rw [hmodify, Heap.items_eq_ok.2 ⟨kind, false, hobject⟩] at h
      change (Exec.setHeap heap' >>= fun _ => Exec.push (items.getLastD .null)) s = _ at h
      rw [bind_of_ok (Exec.setHeap_eq hframes heap')] at h
      have hpush := Exec.onStack_eq
        (s := s.setWorld f.world { s.worldAt f.world with heap := heap' }) hframes
        fun stack => ((), stack.push (items.getLastD .null).constant)
      cases h.symm.trans hpush

end Semantics

namespace Handler

variable {handler : Handler} {depth : Nat} (config : Config)
  (hdepth : handler.compoundDepth? = some depth) (i : Instruction)
include hdepth

/-- A handler that changes a compound changes one object where it succeeds. -/
lemma run_changed {s s' : State} {f : Frame} {rest : List Frame} (hframes : s.frames = f :: rest)
    (hworld : f.world < s.worlds.size) (h : handler.run config i s = .ok () s') :
    handler.Changed depth s f (s.worldAt f.world).stack (s.worldAt f.world).heap s' := by
  rw [← s.holding_self f.world] at h
  cases handler with
  | append =>
    cases hdepth
    exact Semantics.append_changes hframes hworld i h
  | setItem =>
    cases hdepth
    exact Semantics.setItem_changes hframes hworld i h
  | remove =>
    cases hdepth
    exact Semantics.remove_changes hframes hworld i h
  | clearItems =>
    cases hdepth
    exact Semantics.clearItems_changes hframes hworld i h
  | reverseItems =>
    cases hdepth
    exact Semantics.reverseItems_changes hframes hworld i h
  | popItem =>
    cases hdepth
    exact Semantics.popItem_changes hframes hworld i h
  | _ => cases hdepth

/-- It needs an object of the heap. -/
lemma run_needsWorld : Exec.NeedsWorld (handler.run config i) := by
  cases handler with
  | append =>
    exact .of_bind Exec.keeps_pop fun _ => .of_bind Exec.keeps_pop fun _ =>
      .of_bind (Exec.keeps_liftM _) fun _ => .of_bind (Exec.keeps_cloneStruct _) fun _ =>
        Semantics.needsWorld_modifyItems _
  | setItem =>
    refine .of_bind Exec.keeps_pop fun _ => .of_bind Exec.keeps_pop fun _ =>
      .of_bind Exec.keeps_pop fun _ => .of_bind (Exec.keeps_liftM _) fun found => ?_
    cases found with
    | items handle =>
      exact .of_bind (Exec.keeps_cloneStruct _) fun _ => Semantics.needsWorld_modifyItems _
    | bytes handle =>
      exact .of_bind (Exec.keeps_liftM _) fun _ => Semantics.needsWorld_modifyBytes _
  | remove =>
    exact .of_bind Exec.keeps_pop fun _ => .of_bind Exec.keeps_pop fun _ =>
      .of_bind (Exec.keeps_liftM _) fun _ => Semantics.needsWorld_modifyItems _
  | clearItems =>
    exact .of_bind Exec.keeps_pop fun _ => .of_bind (Exec.keeps_liftM _) fun _ =>
      Semantics.needsWorld_modifyItems _
  | reverseItems =>
    refine .of_bind Exec.keeps_pop fun _ => .of_bind (Exec.keeps_liftM _) fun found => ?_
    cases found with
    | items handle => exact Semantics.needsWorld_modifyItems _
    | bytes handle => exact Semantics.needsWorld_modifyBytes _
  | popItem =>
    exact .of_bind Exec.keeps_pop fun _ => .of_bind (Exec.keeps_liftM _) fun _ =>
      .of_bind Exec.keeps_heap fun _ => (Semantics.needsWorld_modifyItems _).bind
  | _ => cases hdepth

/-- Where it fails, no object has changed. -/
lemma run_spares : Exec.Spares (handler.run config i) := by
  cases handler with
  | append =>
    exact Exec.keepsObjects_pop.bind_spares fun _ => Exec.keepsObjects_pop.bind_spares fun _ =>
      (Exec.keeps_liftM _).bind_spares fun _ => (Exec.keepsObjects_cloneStruct _).bind_spares
        fun _ => Semantics.spares_modifyItems _
  | setItem =>
    refine Exec.keepsObjects_pop.bind_spares fun _ => Exec.keepsObjects_pop.bind_spares fun _ =>
      Exec.keepsObjects_pop.bind_spares fun _ => (Exec.keeps_liftM _).bind_spares fun found => ?_
    cases found with
    | items handle =>
      exact (Exec.keepsObjects_cloneStruct _).bind_spares fun _ => Semantics.spares_modifyItems _
    | bytes handle =>
      exact (Exec.keeps_liftM _).bind_spares fun _ => Semantics.spares_modifyBytes _
  | remove =>
    exact Exec.keepsObjects_pop.bind_spares fun _ => Exec.keepsObjects_pop.bind_spares fun _ =>
      (Exec.keeps_liftM _).bind_spares fun _ => Semantics.spares_modifyItems _
  | clearItems =>
    exact Exec.keepsObjects_pop.bind_spares fun _ => (Exec.keeps_liftM _).bind_spares fun _ =>
      Semantics.spares_modifyItems _
  | reverseItems =>
    refine Exec.keepsObjects_pop.bind_spares fun _ => (Exec.keeps_liftM _).bind_spares
      fun found => ?_
    cases found with
    | items handle => exact Semantics.spares_modifyItems _
    | bytes handle => exact Semantics.spares_modifyBytes _
  | popItem =>
    exact Exec.keepsObjects_pop.bind_spares fun _ => (Exec.keeps_liftM _).bind_spares fun _ =>
      Semantics.spares_removeLast
  | _ => cases hdepth

omit hdepth

/-- The handler changes only the object behind the handle, and what it stores there is separate from
all that was there. -/
structure ChangesOnly (handler : Handler) (depth : Nat) (w : World) (handle : Nat)
    (object object' : HeapObject) (stored : Item) (grown heap' : Heap) : Prop extends
    handler.Changes depth w.stack w.heap handle object object' stored grown where
  /-- The object is replaced. -/
  result : heap' = grown.put handle object'
  /-- If the handle has not dangled, the object was there. -/
  before : handle < w.heap.size → w.heap.objects[handle]? = some object
  /-- All other objects that were there are the same. -/
  others : ∀ k < w.heap.size, heap'.objects[k]? =
    if k = handle then some object' else w.heap.objects[k]?
  /-- An item that is no struct is stored as it is. -/
  plain : handler.stores object = true → (w.stack.view 0).structHandle? = none →
    stored = w.stack.view 0 ∧ grown = w.heap
  /-- A struct is stored as a copy. -/
  copied : handler.stores object = true → (w.stack.view 0).structHandle? ≠ none →
    w.heap.StoresCopy grown heap' (w.stack.view 0) stored

/-- The heap has grown before the object is replaced. -/
lemma Changes.extends_grown {handler : Handler} {depth : Nat} {stack : EvaluationStack}
    {heap grown : Heap} {handle : Nat} {object object' : HeapObject} {stored : Item}
    (h : handler.Changes depth stack heap handle object object' stored grown) :
    heap.Extends grown := by
  cases hstores : handler.stores object with
  | true =>
    have hextends := heap.extends_of_cloneStruct (stack.view 0)
    rwa [h.cloned hstores] at hextends
  | false =>
    rw [h.unstored hstores]
    exact .refl heap

/-- What is changed is one object, and a struct that is stored is separate. -/
lemma Changes.changesOnly {handler : Handler} {depth : Nat} {w : World} {grown : Heap}
    {handle : Nat} {object object' : HeapObject} {stored : Item}
    (h : handler.Changes depth w.stack w.heap handle object object' stored grown) :
    handler.ChangesOnly depth w handle object object' stored grown (grown.put handle object') where
  toChanges := h
  result := rfl
  before hlt := by
    obtain ⟨old, hold⟩ := Heap.exists_object hlt
    rw [hold, ← h.found, h.extends_grown.getElem? hold]
  others k hk := by
    obtain ⟨old, hold⟩ := Heap.exists_object hk
    split
    · next heq =>
      rw [heq, Heap.getElem?_put_self (Heap.lt_size_of_object h.found)]
    · next hne =>
      rw [Heap.getElem?_put_of_ne hne, hold, h.extends_grown.getElem? hold]
  plain hstores hnone := by
    have hcloned := h.cloned hstores
    unfold Heap.cloneStruct at hcloned
    rw [hnone] at hcloned
    cases hcloned
    exact ⟨rfl, rfl⟩
  copied hstores hstruct :=
    Heap.storesCopy_of_cloneStruct (h.cloned hstores) hstruct h.extends_grown h.found
      h.rewrites.elements

/-- A change of a compound touches one object, or none, on every state and every heap.  If the
handler succeeds, then exactly the object behind the handle of the compound has changed among those
that were there, to the result of the operation on its elements or bytes.  A struct that it stores
is a copy of its own, all of whose structs are new, so that later changes of the copy and of what
was there before do not show in each other.  If the handler fails, no object has changed. -/
theorem run_changes (config : Config) {handler : Handler} {depth : Nat}
    (hdepth : handler.compoundDepth? = some depth) (i : Instruction) (s : State) :
    (∀ s', handler.run config i s = .ok () s' →
      ∃ f rest handle object object' stored grown heap' stack',
        s.frames = f :: rest ∧ f.world < s.worlds.size ∧
          handler.ChangesOnly depth (s.worldAt f.world) handle object object' stored grown heap' ∧
          s' = s.holding f.world stack' heap') ∧
    ∀ e s', handler.run config i s = .error e s' → s.KeepsObjects s' := by
  refine ⟨fun s' h => ?_, run_spares config hdepth i s⟩
  obtain ⟨f, rest, hframes, hworld⟩ := run_needsWorld config hdepth i s s' h
  obtain ⟨handle, object, object', stored, grown, stack', hchanges, hs'⟩ :=
    run_changed config hdepth i hframes hworld h
  exact ⟨f, rest, handle, object, object', stored, grown, _, stack', hframes, hworld,
    hchanges.changesOnly, hs'⟩

/-- The frame of a machine that works on a struct. -/
def structFrame : Frame :=
  { world := 0, position := 0, returnCount := -1, locals := .untouched .local,
    arguments := .untouched .argument, tries := [] }

/-- A struct with one field. -/
def oneStruct : Heap := ⟨#[.compound .struct [.integer 7] false]⟩

/-- The struct and a copy of it. -/
def twoStructs : Heap :=
  ⟨#[.compound .struct [.integer 7] false, .compound .struct [.integer 7] false]⟩

/-- The struct with the copy as a second field. -/
def selfAppended : Heap :=
  ⟨#[.compound .struct [.integer 7, .struct 1] false, .compound .struct [.integer 7] false]⟩

/-- The struct lies on the stack twice, and is about to be appended to itself. -/
def selfAppending : State :=
  { State.initial 0 with
    worlds := #[{ World.ofScript ⟨[]⟩ with
      stack := ⟨[.struct 0, .struct 0], 0⟩
      heap := oneStruct }]
    frames := [structFrame] }

lemma cloneStruct_oneStruct :
    oneStruct.cloneStruct (.struct 0) = (.ok (.struct 1), twoStructs) := by
  have hitems (s : Heap.CopyState) :
      Heap.copyItems false Limits.word [.integer 7] s = .ok [.integer 7] s := by
    rw [Heap.copyItems, Heap.copyItems]
    rfl
  have hcopy : Heap.copyObject false (Limits.word + 1) 0 ⟨oneStruct, .empty⟩ =
      .ok (.struct 1) ⟨twoStructs, SortedMap.empty.insert 0 1⟩ := by
    rw [Heap.copyObject]
    change (do
      let copied ← Heap.copyItems false Limits.word [.integer 7]
      Heap.onHeap fun heap => heap.modifyItems 1 fun _ => .ok copied
      return .struct 1 : Heap.Copying Item)
        ⟨oneStruct.add (.compound .struct [] false), SortedMap.empty.insert 0 1⟩ = _
    rw [bind_of_ok (hitems _)]
    rfl
  have hdeep : (Heap.deepCopy false (.struct 0)).run ⟨oneStruct, .empty⟩ =
      .ok (.struct 1) ⟨twoStructs, SortedMap.empty.insert 0 1⟩ := hcopy
  unfold Heap.cloneStruct
  rw [hdeep]
  rfl

lemma run_selfAppending : Handler.append.run {} ⟨0, .append, []⟩ selfAppending =
    .ok () (selfAppending.holding 0 .empty selfAppended) := by
  have hframes : selfAppending.frames = [structFrame] := rfl
  have hworld : structFrame.world < selfAppending.worlds.size := Nat.one_pos
  change Semantics.append _ (selfAppending.holding structFrame.world
    ⟨[.struct 0, .struct 0], 0⟩ oneStruct) = _
  unfold Semantics.append
  simp only [Exec.pop_holding_bind hframes hworld, Exec.lift_bind_eq_ok,
    Exec.cloneStruct_holding_bind_eq_ok hframes hworld, EvaluationStack.view_pop]
  exact ⟨0, rfl, .struct 1, twoStructs, cloneStruct_oneStruct,
    (Semantics.modifyItems_holding_eq_ok hframes hworld).2
      ⟨.struct, [.integer 7], _, rfl, rfl, rfl⟩⟩

/-- The struct gets a copy of what it has been, with which it shares nothing; and an element that
it does not have cannot be removed. -/
theorem run_changes_selfAppending :
    Handler.append.compoundDepth? = some 1 ∧
    Handler.append.run {} ⟨0, .append, []⟩ selfAppending =
      .ok () (selfAppending.holding 0 .empty selfAppended) ∧
    (∃ object stored grown,
      Handler.append.ChangesOnly 1 (selfAppending.worldAt 0) 0 object
        (.compound .struct [.integer 7, .struct 1] false) stored grown selfAppended ∧
      oneStruct.StoresCopy grown selfAppended (.struct 0) stored) ∧
    Handler.remove.compoundDepth? = some 1 ∧
    ∃ e s', Handler.remove.run {} ⟨0, .remove, []⟩ selfAppending = .error e s' ∧
      selfAppending.KeepsObjects s' := by
  have happend : Handler.append.compoundDepth? = some 1 := rfl
  have hremove : Handler.remove.compoundDepth? = some 1 := rfl
  obtain ⟨hsucceeds, -⟩ := run_changes {} happend ⟨0, .append, []⟩ selfAppending
  obtain ⟨-, hfails⟩ := run_changes {} hremove ⟨0, .remove, []⟩ selfAppending
  refine ⟨happend, run_selfAppending, ?_, hremove, _, _, rfl, hfails _ _ rfl⟩
  obtain ⟨f, rest, handle, object, object', stored, grown, heap', stack', hframes, hworld, hchanges,
    hs'⟩ := hsucceeds _ run_selfAppending
  cases hframes
  -- The heap behind the instruction and the handle of its operand are known.
  have hheap : heap' = selfAppended := by
    have hworlds := congrArg (fun s : State => (s.worldAt 0).heap) hs'
    exact hworlds.symm
  have hhandle : handle = 0 := (Option.some.inj hchanges.operand).symm
  subst hheap hhandle
  have hobject' := hchanges.others 0 Nat.one_pos
  rw [if_pos rfl] at hobject'
  cases hobject'
  exact ⟨object, stored, grown, hchanges, hchanges.copied rfl nofun⟩

end Handler

end SymbolicScript
