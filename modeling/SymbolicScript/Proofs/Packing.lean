import SymbolicScript.Proofs.StackRearrangement

/-!
# Packing and unpacking

`PACK` and `PACKSTRUCT` take items off the evaluation stack, the topmost first, and make a compound
of them.  `UNPACK` puts the elements of a compound on the stack, the first one topmost, and their
number on top of them.  Each of the two undoes the other (`JumpTable.standard_packs_unpacks`): what
is packed and unpacked is the same sequence again, and what is unpacked and packed is a new compound
with the same elements.

On the stack alone this says that items that are popped can be put back
(`EvaluationStack.sequence_pushAll_popMany`), and that items that are put on it can be popped
(`EvaluationStack.popMany_pushAll`).  Neither depends on how many items are present, since a stack
that is too short extends itself by the unknowns that its sequence shows anyway.
-/

namespace SymbolicScript

/-- The kind of compound into which an opcode packs items. -/
def Opcode.packedKind? : Opcode → Option CompoundKind
  | .pack => some .array
  | .packStruct => some .struct
  | _ => none

/-- Wrapping items does not change what is inside them. -/
lemma Item.map_bare_constant (xs : List Item) :
    (xs.map Item.constant).map Item.bare = xs.map Item.bare := by
  rw [List.map_map]
  exact List.map_congr_left fun x _ => x.bare_constant

/-! ## The stack -/

namespace EvaluationStack

/-- Putting back what has been popped restores the sequence. -/
theorem sequence_pushAll_popMany (s : EvaluationStack) (n : Nat) :
    ((s.popMany n).2.pushAll (s.popMany n).1).sequence = s.sequence := by
  obtain ⟨htaken, hrest⟩ := s.sequence_popMany n
  rw [sequence_pushAll, htaken, hrest, Stream'.append_take_drop]

/-- The wrappers of items that are put on the stack do not show in its contents. -/
lemma contents_pushAll_constant (s : EvaluationStack) (xs : List Item) :
    (s.pushAll (xs.map Item.constant)).contents = (s.pushAll xs).contents := by
  rw [contents, contents, sequence_pushAll, sequence_pushAll, Stream'.map_append_stream,
    Stream'.map_append_stream, Item.map_bare_constant]

/-- Putting back what has been popped, with wrappers, and then one more item adds that item to the
contents. -/
lemma contents_popMany_pushAll_push (s : EvaluationStack) (n : Nat) (x : Item) :
    (((s.popMany n).2.pushAll ((s.popMany n).1.map Item.constant)).push x).contents =
      .cons x.bare s.contents := by
  have hrestored : ((s.popMany n).2.pushAll ((s.popMany n).1.map Item.constant)).contents =
      s.contents := by
    rw [contents_pushAll_constant, contents, sequence_pushAll_popMany, contents]
  rw [← hrestored, contents, sequence_push, Stream'.map_cons]
  rfl

end EvaluationStack

/-! ## The instructions -/

namespace Semantics

variable {s s' : State} {f : Frame} {rest : List Frame} {stack : EvaluationStack} {heap : Heap}
  {i : Instruction}

/-- An operand that is known to be an array or a struct refers to its elements. -/
lemma itemsTarget_of_known {opcode : Opcode} {x : Item} {kind : CompoundKind} {handle : Nat}
    (h : x.known? = some (kind.item handle)) : itemsTarget opcode x = .ok handle := by
  unfold itemsTarget target
  cases kind with
  | array =>
    rw [h]
    rfl
  | struct =>
    rw [h]
    rfl

section Holding

variable (hframes : s.frames = f :: rest) (hworld : f.world < s.worlds.size)
include hframes hworld

/-- A size can be popped if it is known and a compound can have it. -/
lemma popSize_holding_bind_eq_ok {β : Type} {opcode : Opcode} {k : Nat → Exec β} {b : β} :
    (popSize opcode >>= k) (s.holding f.world stack heap) = .ok b s' ↔
      ∃ n : Nat, n ≤ 2048 ∧ (stack.view 0).toInteger? = .ok (some (n : Int)) ∧
        k n (s.holding f.world stack.pop.2 heap) = .ok b s' := by
  unfold popSize
  rw [bind_assoc, Exec.popCount_holding_bind_eq_ok hframes hworld]
  constructor
  · rintro ⟨n, hvalue, -, h⟩
    by_cases hsize : n ≤ Limits.stackSize
    · rw [if_pos hsize] at h
      exact ⟨n, hsize, hvalue, h⟩
    · rw [if_neg hsize] at h
      cases h
  · rintro ⟨n, hsize, hvalue, h⟩
    have hword : n ≤ Limits.word := Nat.le_trans hsize (by decide)
    refine ⟨n, hvalue, hword, ?_⟩
    rw [if_pos (show n ≤ Limits.stackSize from hsize)]
    exact h

/-- When items can be packed, and what is left then. -/
lemma pack_holding_eq_ok {kind : CompoundKind} (hkind : kindOf (i.opcode = .packStruct) = kind) :
    pack i (s.holding f.world stack heap) = .ok () s' ↔
      ∃ n : Nat, n ≤ 2048 ∧ (stack.view 0).toInteger? = .ok (some (n : Int)) ∧
        s' = s.holding f.world ((stack.pop.2.popMany n).2.push (.const (kind.item heap.size)))
          (heap.add (.compound kind (stack.pop.2.popMany n).1 false)) := by
  unfold pack Exec.popMany
  rw [hkind, popSize_holding_bind_eq_ok hframes hworld]
  simp only [Exec.onStack_holding_bind hframes hworld, Exec.pushCompound_holding hframes hworld,
    EStateM.Result.ok.injEq, true_and, eq_comm (b := s')]

/-- A known compound is unpacked onto the rest of the stack. -/
lemma unpack_holding {kind kind' : CompoundKind} {handle : Nat} {items : List Item}
    {readOnly : Bool} (hknown : (stack.view 0).known? = some (kind.item handle))
    (hobject : heap.objects[handle]? = some (.compound kind' items readOnly)) :
    unpack i (s.holding f.world stack heap) =
      .ok () (s.holding f.world
        ((stack.pop.2.pushAll (items.map Item.constant)).push (.const (.integer items.length)))
        heap) := by
  have htarget : itemsTarget i.opcode (stack.view 0) = .ok handle :=
    itemsTarget_of_known hknown
  have hitems : heap.items handle = .ok items := Heap.items_eq_ok.2 ⟨kind', readOnly, hobject⟩
  unfold unpack Exec.modifyStack
  rw [Exec.pop_holding_bind hframes hworld, Exec.lift_bind_eq_ok]
  refine ⟨handle, htarget, ?_⟩
  rw [Exec.heap_holding_bind hframes hworld, Exec.lift_bind_eq_ok]
  refine ⟨items, hitems, ?_⟩
  rw [Exec.onStack_holding_bind hframes hworld]
  exact Exec.push_holding hframes hworld (.integer items.length)

variable (heap) in
/-- What has been packed can be unpacked. -/
lemma pack_unpack_holding {j : Instruction} {kind : CompoundKind} {n : Nat}
    (hkind : kindOf (i.opcode = .packStruct) = kind) (hn : n ≤ 2048)
    (hvalue : (stack.view 0).toInteger? = .ok (some (n : Int))) :
    (do pack i; unpack j) (s.holding f.world stack heap) =
      .ok () (s.holding f.world
        (((stack.pop.2.popMany n).2.pushAll ((stack.pop.2.popMany n).1.map Item.constant)).push
          (.const (.integer n)))
        (heap.add (.compound kind (stack.pop.2.popMany n).1 false))) := by
  have hlength : (stack.pop.2.popMany n).1.length = n := by
    rw [(stack.pop.2.sequence_popMany n).1, Stream'.length_take]
  have hobject : (heap.add (.compound kind (stack.pop.2.popMany n).1 false)).objects[heap.size]? =
      some (.compound kind (stack.pop.2.popMany n).1 false) := by
    rw [Heap.getElem?_add, if_pos rfl]
  have hpack : pack i (s.holding f.world stack heap) = .ok () (s.holding f.world
      ((stack.pop.2.popMany n).2.push (.const (kind.item heap.size)))
      (heap.add (.compound kind (stack.pop.2.popMany n).1 false))) :=
    (pack_holding_eq_ok hframes hworld hkind).2 ⟨n, hn, hvalue, rfl⟩
  have htop : (((stack.pop.2.popMany n).2.push (.const (kind.item heap.size))).view 0).known? =
      some (kind.item heap.size) := by
    rw [EvaluationStack.view_push_zero]
    cases kind <;> rfl
  rw [bind_of_ok hpack, unpack_holding hframes hworld htop hobject, hlength,
    EvaluationStack.pop_push]

/-- What has been unpacked can be packed, unless there is too much of it. -/
lemma unpack_pack_holding_eq_ok {j : Instruction} {kind kind' kind'' : CompoundKind} {handle : Nat}
    {items : List Item} {readOnly : Bool} (hkind : kindOf (i.opcode = .packStruct) = kind)
    (hknown : (stack.view 0).known? = some (kind'.item handle))
    (hobject : heap.objects[handle]? = some (.compound kind'' items readOnly)) :
    (do unpack j; pack i) (s.holding f.world stack heap) = .ok () s' ↔
      items.length ≤ 2048 ∧
        s' = s.holding f.world (stack.pop.2.push (.const (kind.item heap.size)))
          (heap.add (.compound kind (items.map Item.constant) false)) := by
  have hunpack := unpack_holding (i := j) hframes hworld hknown hobject
  have htaken := stack.pop.2.popMany_pushAll (items.map Item.constant)
  rw [List.length_map] at htaken
  rw [bind_of_ok hunpack, pack_holding_eq_ok hframes hworld hkind]
  simp only [EvaluationStack.view_push_zero, EvaluationStack.pop_push]
  constructor
  · rintro ⟨n, hn, hvalue, rfl⟩
    have hlength : items.length = n :=
      Int.ofNat_inj.1 (Option.some.inj (Except.ok.inj hvalue))
    subst hlength
    rw [htaken]
    exact ⟨hn, rfl⟩
  · rintro ⟨hn, rfl⟩
    refine ⟨items.length, hn, rfl, ?_⟩
    rw [htaken]

end Holding

end Semantics

namespace JumpTable

variable {s : State} {f : Frame} {rest : List Frame} {stack : EvaluationStack} {heap : Heap}

/-- The opcodes that pack are bound to packing into their kind of compound. -/
lemma standard_packs (config : Config) {p : Instruction} {kind : CompoundKind}
    (hp : p.opcode.packedKind? = some kind) :
    standard.dispatch config p = Semantics.pack p ∧
      Semantics.kindOf (p.opcode = .packStruct) = kind := by
  unfold Opcode.packedKind? at hp
  unfold dispatch
  split at hp <;> cases hp <;> rename_i hop <;> rw [hop] <;> exact ⟨rfl, rfl⟩

/-- Packing and unpacking undo each other, on every stack and every heap.

If a number from 0 to 2048 lies on top, then as many items below it, present or not, can be packed
into an array or a struct and unpacked again.  This leaves the same sequence with the number on top,
up to the wrappers of constants; one object has been allocated, which holds these items, and nothing
else has changed.  With anything else on top the two instructions do not succeed.

If an array or a struct lies on top, its elements can be unpacked and packed again exactly if there
are at most 2048 of them.  This leaves the rest of the stack as it was, with a new compound on top
that is of the kind of the packing opcode and has the same elements in the same order, up to
wrappers; nothing else has changed. -/
theorem standard_packs_unpacks (config : Config) {p u : Instruction} {kind : CompoundKind}
    (hp : p.opcode.packedKind? = some kind) (hu : u.opcode = .unpack)
    (hframes : s.frames = f :: rest) (hworld : f.world < s.worlds.size)
    (hstack : (s.worldAt f.world).stack = stack) (hheap : (s.worldAt f.world).heap = heap) :
    (∀ n : Nat, n ≤ 2048 → (stack.view 0).toInteger? = .ok (some (n : Int)) →
      ∃ restored,
        (do standard.dispatch config p; standard.dispatch config u) s =
          .ok () (s.holding f.world restored
            (heap.add (.compound kind (stack.sequence.tail.take n) false))) ∧
        restored.contents = .cons (.integer n) stack.contents.tail) ∧
    ((∃ s', (do standard.dispatch config p; standard.dispatch config u) s = .ok () s') ↔
      ∃ n : Nat, n ≤ 2048 ∧ (stack.view 0).toInteger? = .ok (some (n : Int))) ∧
    ∀ (kind' : CompoundKind) (handle : Nat) (elements : List Item) (readOnly : Bool),
      (stack.view 0).known? = some (kind'.item handle) →
      heap.objects[handle]? = some (.compound kind' elements readOnly) →
      (elements.length ≤ 2048 → ∃ copied,
        (do standard.dispatch config u; standard.dispatch config p) s =
          .ok () (s.holding f.world (stack.pop.2.push (.const (kind.item heap.size)))
            (heap.add (.compound kind copied false))) ∧
        copied.map Item.bare = elements.map Item.bare) ∧
      ((∃ s', (do standard.dispatch config u; standard.dispatch config p) s = .ok () s') ↔
        elements.length ≤ 2048) := by
  subst hstack hheap
  obtain ⟨hpack, hkind⟩ := standard_packs config hp
  have hunpack : standard.dispatch config u = Semantics.unpack u := by
    unfold dispatch
    rw [hu]
    rfl
  rw [hpack, hunpack]
  have hself := s.holding_self f.world
  refine ⟨fun n hn hvalue => ?_, ⟨?_, ?_⟩, fun kind' handle elements readOnly hknown hobject => ?_⟩
  · have htaken := ((s.worldAt f.world).stack.pop.2.sequence_popMany n).1
    rw [EvaluationStack.sequence_pop] at htaken
    have hround := Semantics.pack_unpack_holding (s.worldAt f.world).heap (j := u) hframes
      hworld hkind hn hvalue
    rw [hself, htaken] at hround
    refine ⟨_, hround, ?_⟩
    rw [← htaken, EvaluationStack.contents_popMany_pushAll_push, EvaluationStack.contents_pop]
    rfl
  · rintro ⟨s', hok⟩
    obtain ⟨_, s₁, hfirst, -⟩ := bind_eq_ok.1 hok
    rw [← hself] at hfirst
    obtain ⟨n, hn, hvalue, -⟩ := (Semantics.pack_holding_eq_ok hframes hworld hkind).1 hfirst
    exact ⟨n, hn, hvalue⟩
  · rintro ⟨n, hn, hvalue⟩
    have hround := Semantics.pack_unpack_holding (s.worldAt f.world).heap (j := u) hframes
      hworld hkind hn hvalue
    rw [hself] at hround
    exact ⟨_, hround⟩
  · have hround : ∀ s' : State, _ = EStateM.Result.ok () s' ↔ _ := fun s' =>
      Semantics.unpack_pack_holding_eq_ok (j := u) hframes hworld hkind hknown hobject
    rw [hself] at hround
    refine ⟨fun hlength => ?_, ?_, fun hlength => ?_⟩
    · exact ⟨_, (hround _).2 ⟨hlength, rfl⟩, Item.map_bare_constant elements⟩
    · rintro ⟨s', hok⟩
      exact ((hround s').1 hok).1
    · exact ⟨_, (hround _).2 ⟨hlength, rfl⟩⟩

/-- The frame of a machine that packs items. -/
def packingFrame : Frame :=
  { world := 0, position := 0, returnCount := -1, locals := .untouched .local,
    arguments := .untouched .argument, tries := [] }

/-- An array that contains itself, an unknown from below the stack, and a number. -/
def knottedHeap : Heap :=
  ⟨#[.compound .array [.array 0, EvaluationStack.extension 0, .integer 7] false]⟩

/-- A state with that array on its heap, and with items on the stack. -/
def packingState (items : List Item) : State :=
  { State.initial 0 with
    worlds := #[{ World.ofScript ⟨[]⟩ with stack := ⟨items, 1⟩, heap := knottedHeap }]
    frames := [packingFrame] }

/-- Three items are packed of which two lie below the stack, and come back; and the array that
contains itself is unpacked and packed into a struct that contains the array. -/
theorem standard_packs_unpacks_knotted :
    Opcode.packStruct.packedKind? = some .struct ∧
    (packingState [.const (.integer 3), .array 0]).frames = [packingFrame] ∧
    (packingState [.array 0]).frames = [packingFrame] ∧
    packingFrame.world < (packingState [.const (.integer 3), .array 0]).worlds.size ∧
    packingFrame.world < (packingState [.array 0]).worlds.size ∧
    (∃ restored,
      (do standard.dispatch {} ⟨0, .packStruct, []⟩; standard.dispatch {} ⟨1, .unpack, []⟩)
          (packingState [.const (.integer 3), .array 0]) =
        .ok () ((packingState [.const (.integer 3), .array 0]).holding 0 restored
          (knottedHeap.add (.compound .struct
            [.array 0, EvaluationStack.extension 1, EvaluationStack.extension 2] false))) ∧
      restored.contents.take 5 =
        [.integer 3, .array 0, EvaluationStack.extension 1, EvaluationStack.extension 2,
          EvaluationStack.extension 3]) ∧
    ∃ copied,
      (do standard.dispatch {} ⟨1, .unpack, []⟩; standard.dispatch {} ⟨0, .packStruct, []⟩)
          (packingState [.array 0]) =
        .ok () ((packingState [.array 0]).holding 0 ⟨[.const (.struct 1)], 1⟩
          (knottedHeap.add (.compound .struct copied false))) ∧
      copied.map Item.bare = [.array 0, EvaluationStack.extension 0, .integer 7] := by
  have hkind : (⟨0, .packStruct, []⟩ : Instruction).opcode.packedKind? = some .struct := rfl
  have hunpack : (⟨1, .unpack, []⟩ : Instruction).opcode = .unpack := rfl
  have hcounting : (packingState [.const (.integer 3), .array 0]).frames = [packingFrame] := rfl
  have hknotted : (packingState [.array 0]).frames = [packingFrame] := rfl
  have hworld (items : List Item) : packingFrame.world < (packingState items).worlds.size :=
    Nat.one_pos
  refine ⟨hkind, hcounting, hknotted, hworld _, hworld _, ?_, ?_⟩
  · obtain ⟨hrestores, -, -⟩ :=
      standard_packs_unpacks {} hkind hunpack hcounting (hworld _) rfl rfl
    obtain ⟨restored, hok, hcontents⟩ := hrestores 3 (by decide) rfl
    refine ⟨restored, hok, ?_⟩
    rw [hcontents]
    rfl
  · obtain ⟨-, -, hcopies⟩ :=
      standard_packs_unpacks {} hkind hunpack hknotted (hworld _) rfl rfl
    exact (hcopies .array 0 _ false rfl rfl).1 (by decide)

end JumpTable

end SymbolicScript
