import SymbolicScript.Proofs.GroundedStates

/-!
# Instructions on grounded states

The handlers that work on items and objects lead from a grounded state to a grounded one, and none
of them fails because of a handle.  Items come from five sources only: constants, the operand of
`PUSHA`, which is checked against the length of the script, unknowns and variables, operands of
derived variables, and objects that are allocated together with their items.

There is one lemma for each handler, and it follows the handler's text.  A handler that allocates
nothing is `Still`, and what has been popped from the stack stays grounded up to its end.  Where an
object is allocated, the handler is only `Safe`, and a handle popped before is carried over to the
ground behind the allocation.
-/

namespace SymbolicScript

namespace Semantics

open Exec (Still)

variable {g : Ground}

/-! ## Pieces -/

lemma grounded_popDepth (opcode : Opcode) : Still g (popDepth opcode) fun _ => True :=
  (Still.popCount opcode).bind fun _ _ => .ite (fun _ => .pure trivial) fun _ => .throw rfl

lemma grounded_popSize (opcode : Opcode) : Still g (popSize opcode) fun _ => True :=
  (Still.popCount opcode).bind fun _ _ => .ite (fun _ => .pure trivial) fun _ => .throw rfl

lemma grounded_popOperands (count : Nat) :
    Still g (popOperands count) fun operands => ∀ x ∈ operands, x.Grounded g :=
  (Still.popMany count).bind fun _ hitems => .pure fun x hx => hitems x (List.mem_reverse.1 hx)

lemma grounded_bytesOf {x : Item} (hx : x.Grounded g) : Still g (bytesOf x) fun _ => True :=
  Still.heap.bind fun _ hheap => .lift (hheap.safe_bytesOf hx)

lemma grounded_copyFrom (index : Nat) : Still g (copyFrom index) fun _ => True :=
  (Still.peek index).bind fun _ hx => .push hx

lemma grounded_removeAt (index : Nat) :
    Still g (Exec.modifyStack fun s => (s.removeAt index).2) fun _ => True :=
  .modifyStack fun _ hs => (hs.removeAt EvaluationStack.extension_grounded index).2

lemma grounded_moveUp (index : Nat) : Still g (moveUp index) fun _ => True :=
  .modifyStack fun _ hs =>
    have hremoved := hs.removeAt EvaluationStack.extension_grounded index
    hremoved.2.push hremoved.1

lemma grounded_tuck : Still g tuck fun _ => True :=
  .modifyStack fun _ hs =>
    have hpeeked := hs.peek EvaluationStack.extension_grounded 0
    hpeeked.2.insertAt EvaluationStack.extension_grounded hpeeked.1 2

lemma grounded_reverse (count : Nat) :
    Still g (Exec.modifyStack (·.reverse count)) fun _ => True :=
  .modifyStack fun _ hs => hs.reverse EvaluationStack.extension_grounded count

lemma grounded_clear : Still g clear fun _ => True :=
  .modifyStack fun s _ => .clear s

/-- Folding pushes a result of the operation, or a derived variable of the operands. -/
lemma grounded_fold {operation : List Int → Except ExecutionError Item}
    (hoperation : ∀ values, Safe (Item.Grounded g) (operation values)) (opcode : Opcode)
    {operands : List Item} (hoperands : ∀ x ∈ operands, x.Grounded g) :
    Still g (fold opcode operands operation) fun _ => True := by
  refine (Still.lift (safe_integers operands)).bind fun values _ => ?_
  cases values with
  | none => exact .push (.derived hoperands)
  | some values => exact (Still.lift (hoperation values)).bind fun _ hx => .push hx

lemma grounded_pushAnswer (answer : Option Bool) :
    Still g (pushAnswer answer) fun _ => True := by
  cases answer with
  | none => exact (Still.fresh .boolean).bind fun _ hx => .push hx
  | some value => exact .push (.boolean value)

lemma grounded_modifyItems {handle : Nat} (hhandle : (g.type? handle).isSome)
    {change : List Item → Except ExecutionError (List Item)}
    (hchange : ∀ items : List Item, (∀ x ∈ items, x.Grounded g) →
      Safe (fun changed => ∀ x ∈ changed, x.Grounded g) (change items)) :
    Still g (modifyItems handle change) fun _ => True :=
  Still.heap.bind fun _ hheap =>
    (Still.lift (hheap.safe_modifyItems hhandle hchange)).bind fun _ hheap' => .setHeap hheap'

lemma grounded_modifyBytes {handle : Nat} (hhandle : (g.type? handle).isSome)
    {change : Bytes → Except ExecutionError Bytes}
    (hchange : ∀ bytes, Safe (fun _ => True) (change bytes)) :
    Still g (modifyBytes handle change) fun _ => True :=
  Still.heap.bind fun _ hheap =>
    (Still.lift (hheap.safe_modifyBytes hhandle hchange)).bind fun _ hheap' => .setHeap hheap'

lemma grounded_popMessage : Still g popMessage fun _ => True := by
  refine Still.pop.bind fun _ _ => Still.heap.bind fun _ _ => ?_
  split
  · exact .pure trivial
  · exact .pure trivial

lemma grounded_require (text : Option String) (i : Instruction) :
    Still g (require text i) fun _ => True :=
  (Still.popBoolean _).bind fun _ _ => .ite (fun _ => .pure trivial) fun _ => .throw rfl

/-! ## Constants and operations on bytes -/

section

variable (config : Config) (i : Instruction)

/-- The pointer that an instruction pushes points into the script, or to its end. -/
lemma grounded_pushPointer : Still g (pushPointer i) fun _ => True :=
  (Still.lift i.safe_target).bind fun target _ => Still.world.bind fun w hw =>
    .ite (fun hbounds => .push (.pointer (by rw [← hw.length]; omega) (by omega)))
      fun _ => .throw rfl

lemma grounded_pushData : Still g (pushData config i) fun _ => True :=
  .check rfl fun _ _ => .push (.byteString _)

lemma grounded_newBuffer : Exec.Safe g (newBuffer config i) fun _ _ => True := by
  refine Still.pop.before fun length hlength => (Still.lift length.safe_toInteger?).before
    fun value _ => ?_
  cases value with
  | none => exact (Still.push (.derived (List.forall_mem_singleton.2 hlength))).any
  | some value =>
    exact .check rfl fun _ _ => (Still.lift (safe_checkSize _ _)).before fun _ _ => .pushBuffer _

lemma grounded_memcpy : Still g (memcpy i) fun _ => True := by
  unfold memcpy
  refine (Still.popCount _).bind fun _ _ => (Still.popCount _).bind fun _ _ =>
    Still.pop.bind fun _ hsource => (grounded_bytesOf hsource).bind fun _ _ =>
    (Still.demand _ _).bind fun _ _ => (Still.lift (safe_slice _ _ _ _)).bind fun _ _ =>
    (Still.popCount _).bind fun _ _ => Still.pop.bind fun target htarget => ?_
  split
  · next handle hknown =>
    have hhandle : g.type? handle = some .buffer := (htarget.known hknown).anchored
    exact grounded_modifyBytes (Option.isSome_of_eq_some hhandle) fun _ => safe_overwrite _ _ _ _
  · exact .throw rfl
  · exact .throw rfl

lemma grounded_concat : Exec.Safe g (concat config i) fun _ _ => True := by
  refine Still.pop.before fun y hy => Still.pop.before fun x hx => (grounded_bytesOf hx).before
    fun _ _ => (grounded_bytesOf hy).before fun _ _ => ?_
  split
  · exact (Still.lift (safe_checkSize _ _)).before fun _ _ => .pushBuffer _
  · exact (Still.push (.derived
      (List.forall_mem_cons.2 ⟨hx, List.forall_mem_singleton.2 hy⟩))).any

/-- A count is grounded. -/
lemma countItem_grounded (n : Nat) : (countItem n).Grounded g :=
  .constant (.integer _)

lemma grounded_substring : Exec.Safe g (substring i) fun _ _ => True := by
  refine (Still.popCount _).before fun count _ => (Still.popCount _).before fun index _ =>
    Still.pop.before fun x hx => (grounded_bytesOf hx).before fun bytes _ => ?_
  cases bytes with
  | none =>
    exact (Still.push (.derived (List.forall_mem_cons.2 ⟨hx, List.forall_mem_cons.2
      ⟨countItem_grounded index, List.forall_mem_singleton.2 (countItem_grounded count)⟩⟩))).any
  | some bytes => exact (Still.lift (safe_slice _ _ _ _)).before fun _ _ => .pushBuffer _

lemma grounded_takeEnd (part : Nat → Bytes → Bytes) :
    Exec.Safe g (takeEnd part i) fun _ _ => True := by
  refine (Still.popCount _).before fun count _ => Still.pop.before fun x hx =>
    (grounded_bytesOf hx).before fun bytes _ => ?_
  cases bytes with
  | none =>
    exact (Still.push (.derived (List.forall_mem_cons.2
      ⟨hx, List.forall_mem_singleton.2 (countItem_grounded count)⟩))).any
  | some bytes => exact .ite (fun _ => .pushBuffer _) fun _ => .throw rfl

/-! ## Arithmetic and logic -/

lemma grounded_unary : Still g (unary i) fun _ => True :=
  (grounded_popOperands 1).bind fun _ hoperands => grounded_fold (fun values => by
    split
    · exact safe_unaryResult _ _
    · rfl) _ hoperands

lemma grounded_binary : Still g (binary i) fun _ => True :=
  (grounded_popOperands 2).bind fun _ hoperands => .ite (fun _ => .push (.boolean _)) fun _ =>
    grounded_fold (fun values => by
      split
      · exact safe_binaryResult _ _ _
      · rfl) _ hoperands

lemma grounded_ternary : Still g (ternary i) fun _ => True :=
  (grounded_popOperands 3).bind fun _ hoperands => grounded_fold (fun values => by
    split
    · exact safe_ternaryResult _ _ _ _
    · rfl) _ hoperands

lemma grounded_logicalNot : Still g (logicalNot i) fun _ => True := by
  refine Still.pop.bind fun x hx => (Still.lift x.safe_toBoolean?).bind fun value _ => ?_
  cases value with
  | none => exact .push (.derived (List.forall_mem_singleton.2 hx))
  | some value => exact .push (.boolean _)

lemma grounded_logical : Still g (logical i) fun _ => True := by
  refine Still.pop.bind fun y hy => Still.pop.bind fun x hx =>
    (Still.lift x.safe_toBoolean?).bind fun _ _ => (Still.lift y.safe_toBoolean?).bind fun _ _ => ?_
  split
  · exact .push (.boolean _)
  · exact .push (.derived (List.forall_mem_cons.2 ⟨hx, List.forall_mem_singleton.2 hy⟩))

/-! ## Types and equality -/

lemma grounded_equal : Still g (equal i) fun _ => True :=
  Still.pop.bind fun _ hy => Still.pop.bind fun _ hx => Still.heap.bind fun _ hheap =>
    (Still.lift (hheap.safe_equals hx hy)).bind fun _ _ => grounded_pushAnswer _

lemma grounded_isNull : Still g isNull fun _ => True :=
  Still.pop.bind fun _ _ => grounded_pushAnswer _

lemma grounded_isType : Still g (isType i) fun _ => True :=
  (Still.lift (safe_typeOperand i)).bind fun _ _ => Still.pop.bind fun _ _ =>
    grounded_pushAnswer _

lemma grounded_convert : Exec.Safe g (convert i) fun _ _ => True :=
  (Still.lift (safe_typeOperand i)).before fun type _ => Still.pop.before fun _ hx =>
    Still.freshId.before fun id _ => Still.heap.before fun _ hheap =>
    (Still.lift (hheap.safe_convert id hx type)).before fun _ hproduced => .pushProduced hproduced

/-! ## Compounds -/

lemma grounded_pack : Exec.Safe g (pack i) fun _ _ => True :=
  (grounded_popSize _).before fun _ _ => (Still.popMany _).before fun _ hitems =>
    .pushCompound _ hitems

lemma grounded_unpack : Still g (unpack i) fun _ => True := by
  refine Still.pop.bind fun _ hcompound => (Still.lift (safe_itemsTarget hcompound _)).bind
    fun handle hhandle => Still.heap.bind fun heap hheap =>
    (Still.lift (hheap.safe_items hhandle)).bind fun items hitems => ?_
  have hpushed : ∀ x ∈ items.map Item.constant, x.Grounded g := by
    intro x hx
    obtain ⟨y, hy, rfl⟩ := List.mem_map.1 hx
    exact (hitems y hy).constant
  exact (Still.modifyStack fun _ hs => hs.pushAll hpushed).bind fun _ _ => .push (.integer _)

lemma grounded_newSized : Exec.Safe g (newSized i) fun _ _ => True :=
  (grounded_popSize _).before fun _ _ => .pushCompound _ fun x hx => by
    rw [List.eq_of_mem_replicate hx]
    exact .null

/-- The initial values of array elements are grounded. -/
lemma defaultItem_grounded (type : ItemType) : (defaultItem type).Grounded g := by
  cases type with
  | boolean => exact .constant (.boolean _)
  | integer => exact .constant (.integer _)
  | byteString => exact .constant (.byteString _)
  | _ => exact .constant .null

lemma grounded_newTyped : Exec.Safe g (newTyped i) fun _ _ => True := by
  refine (Still.lift (i.safe_unsignedToken 0 1)).before fun byte _ => ?_
  split
  · exact .throw rfl
  · exact (grounded_popSize _).before fun _ _ => .pushCompound _ fun x hx => by
      rw [List.eq_of_mem_replicate hx]
      exact defaultItem_grounded _

lemma grounded_size : Still g (size i) fun _ => True := by
  refine Still.pop.bind fun x hx => ?_
  split
  · exact .push (.derived (List.forall_mem_singleton.2 hx))
  · next value hknown =>
    exact Still.heap.bind fun _ hheap => (Still.lift (hheap.safe_sizeOf (hx.known hknown))).bind
      fun _ _ => .push (.integer _)

lemma grounded_pickItem : Still g (pickItem i) fun _ => True :=
  Still.pop.bind fun _ hkey => Still.pop.bind fun _ hx =>
    .ite (fun _ => .push (.derived
      (List.forall_mem_cons.2 ⟨hx, List.forall_mem_singleton.2 hkey⟩))) fun _ =>
    Still.heap.bind fun _ hheap => (Still.lift (hheap.safe_element hx _ _)).bind fun _ hy => .push hy

lemma grounded_append : Exec.Safe g (append i) fun _ _ => True := by
  refine Still.pop.before fun _ hx => Still.pop.before fun _ hcompound =>
    (Still.lift (safe_itemsTarget hcompound _)).before fun handle hhandle =>
    (Exec.Safe.cloneStruct hx).bind fun g' copy hle hcopy => ?_
  exact Still.any (grounded_modifyItems (Ground.isSome_mono hle hhandle) fun _ hitems => .ite
    (fun _ => List.forall_mem_append.2 ⟨hitems, List.forall_mem_singleton.2 hcopy⟩) fun _ => rfl)

lemma grounded_setItem : Exec.Safe g (setItem i) fun _ _ => True := by
  refine Still.pop.before fun value hvalue => Still.pop.before fun key _ =>
    Still.pop.before fun _ hcompound => (Still.lift (safe_target hcompound _)).before
    fun target htarget => ?_
  cases target with
  | items handle =>
    refine (Exec.Safe.cloneStruct hvalue).bind fun g' copy hle hcopy => ?_
    refine Still.any (grounded_modifyItems (Ground.isSome_mono hle htarget) fun items hitems =>
      (safe_position _ _ _).bind fun index _ x hx => ?_)
    rcases List.mem_or_eq_of_mem_set hx with hold | rfl
    · exact hitems x hold
    · exact hcopy
  | bytes handle =>
    exact (Still.lift (safe_byteValue _ _)).before fun _ _ =>
      Still.any (grounded_modifyBytes htarget fun _ => (safe_position _ _ _).bind
        fun _ _ => trivial)

lemma grounded_reverseItems : Still g (reverseItems i) fun _ => True := by
  refine Still.pop.bind fun _ hcompound => (Still.lift (safe_target hcompound _)).bind
    fun target htarget => ?_
  cases target with
  | items handle =>
    exact grounded_modifyItems htarget fun _ hitems x hx => hitems x (List.mem_reverse.1 hx)
  | bytes handle => exact grounded_modifyBytes htarget fun _ => trivial

lemma grounded_remove : Still g (remove i) fun _ => True :=
  Still.pop.bind fun _ _ => Still.pop.bind fun _ hcompound =>
    (Still.lift (safe_itemsTarget hcompound _)).bind fun _ hhandle =>
    grounded_modifyItems hhandle fun _ hitems => (safe_position _ _ _).bind fun _ _ x hx =>
      hitems x (List.mem_of_mem_eraseIdx hx)

lemma grounded_clearItems : Still g (clearItems i) fun _ => True :=
  Still.pop.bind fun _ hcompound =>
    (Still.lift (safe_itemsTarget hcompound _)).bind fun _ hhandle =>
    grounded_modifyItems hhandle fun _ _ => List.forall_mem_nil _

lemma grounded_popItem : Still g (popItem i) fun _ => True :=
  Still.pop.bind fun _ hcompound =>
    (Still.lift (safe_itemsTarget hcompound _)).bind fun _ hhandle =>
    Still.heap.bind fun _ hheap =>
    Still.bind (grounded_modifyItems hhandle fun _ hitems => .ite (fun _ => rfl) fun _ x hx =>
      hitems x (List.dropLast_subset _ hx)) fun _ _ =>
    (Still.lift (hheap.safe_items hhandle)).bind fun _ hitems => .push (.getLastD hitems)

/-! ## Variables -/

lemma grounded_variablesOf (kind : SlotKind) :
    Still g (variablesOf kind) (Variables.All (Item.Grounded g)) := by
  cases kind with
  | static => exact Still.world.bind fun _ hw => .pure hw.statics
  | «local» => exact Still.frame.bind fun _ hf => .pure hf.locals
  | argument => exact Still.frame.bind fun _ hf => .pure hf.arguments

lemma grounded_setVariables (kind : SlotKind) {v : Variables} (hv : v.All (Item.Grounded g)) :
    Still g (setVariables kind v) fun _ => True := by
  cases kind with
  | static => exact .modifyWorld fun _ hw => { hw with statics := hv }
  | «local» => exact Still.frame.bind fun _ hf => .setFrame { hf with locals := hv }
  | argument => exact Still.frame.bind fun _ hf => .setFrame { hf with arguments := hv }

lemma grounded_isTracked (kind : SlotKind) : Still g (isTracked kind) fun _ => True :=
  Still.get.bind fun _ _ => .pure trivial

lemma grounded_load (kind : SlotKind) (first : Opcode) :
    Still g (load kind first i) fun _ => True :=
  (Still.lift (safe_variableIndex first i)).bind fun index _ =>
    (grounded_variablesOf kind).bind fun _ hv => (Still.lift (hv.safe_load index)).bind fun _ hx =>
    (grounded_isTracked kind).bind fun _ _ =>
    .ite (fun _ => (Still.recordRead (.slot kind index) _).bind fun _ _ => .push hx)
      fun _ => .push hx

lemma grounded_store (kind : SlotKind) (first : Opcode) :
    Still g (store kind first i) fun _ => True :=
  (Still.lift (safe_variableIndex first i)).bind fun index _ => Still.pop.bind fun _ hx =>
    (grounded_variablesOf kind).bind fun _ hv =>
    (Still.lift (hv.safe_store hx index)).bind fun _ hv' =>
    (grounded_setVariables kind hv').bind fun _ _ => (grounded_isTracked kind).bind fun _ _ =>
    .ite (fun _ => .recordWrite (.slot kind index) _) fun _ => .pure trivial

lemma grounded_allocateStatics : Still g (allocateStatics i) fun _ => True :=
  (Still.lift (i.safe_unsignedToken 0 1)).bind fun count _ => .check rfl fun _ _ =>
    (grounded_variablesOf .static).bind fun v _ => (Still.lift (v.safe_allocate count)).bind
      fun _ hv => grounded_setVariables .static hv

lemma grounded_allocateFrame : Still g (allocateFrame i) fun _ => True :=
  (Still.lift (i.safe_unsignedToken 0 1)).bind fun locals _ =>
    (Still.lift (i.safe_unsignedToken 1 1)).bind fun arguments _ => .check rfl fun _ _ =>
    Still.frame.bind fun f _ => .check rfl fun _ _ => .check rfl fun _ _ =>
    (Still.popMany arguments).bind fun _ hvalues =>
    (Still.lift (f.locals.safe_allocate locals)).bind fun _ hv =>
    (grounded_setVariables .local hv).bind fun _ _ =>
    (Still.lift (f.arguments.safe_allocateWith hvalues)).bind fun _ hv' =>
    grounded_setVariables .argument hv'

/-! ## Storage -/

/-- A popped key is the popped item, or its bytes. -/
lemma grounded_popKey : Still g popKey (Item.Grounded g) := by
  refine Still.pop.bind fun key hkey => Still.heap.bind fun _ hheap =>
    (Still.lift (hheap.safe_bytesOf hkey)).bind fun bytes _ => ?_
  cases bytes with
  | none => exact .pure hkey
  | some bytes => exact .pure (.constant (.byteString bytes))

lemma grounded_modifyStorage {change : StorageView → StorageView}
    (hchange : ∀ view : StorageView, view.Grounded g → (change view).Grounded g) :
    Still g (modifyStorage change) fun _ => True :=
  .modifyWorld fun _ hw => { hw with
    storage := by
      rintro _ ⟨⟩
      exact hchange _ hw.getD_storage }

lemma grounded_storageGet : Still g (storageGet i) fun _ => True :=
  Still.pop.bind fun _ _ => grounded_popKey.bind fun _ hkey =>
    (Still.recordRead hkey.storage _).bind fun _ _ =>
    (grounded_modifyStorage fun _ h => h).bind fun _ _ => Still.world.bind fun _ hw =>
    Still.freshId.bind fun id _ => .push (hw.getD_storage.get hkey id)

lemma grounded_storagePut : Still g (storagePut i) fun _ => True :=
  Still.pop.bind fun _ _ => grounded_popKey.bind fun _ hkey => Still.pop.bind fun _ hvalue =>
    (Still.recordWrite hkey.storage _).bind fun _ _ => grounded_modifyStorage fun _ h =>
    h.set hkey (by
      rintro _ ⟨⟩
      exact hvalue)

lemma grounded_storageDelete : Still g (storageDelete i) fun _ => True :=
  Still.pop.bind fun _ _ => grounded_popKey.bind fun _ hkey =>
    (Still.recordWrite hkey.storage _).bind fun _ _ => grounded_modifyStorage fun _ h =>
    h.set hkey nofun

lemma grounded_syscall : Still g (syscall i) fun _ => True := by
  refine (Still.lift (i.safe_unsignedToken 0 4)).bind fun hash _ => ?_
  split
  · exact .throw rfl
  · exact (Still.fresh _).bind fun _ hx => .push hx
  · exact (Still.fresh _).bind fun _ hx => .push hx
  · exact grounded_storageGet i
  · exact grounded_storagePut i
  · exact grounded_storageDelete i

end

end Semantics

end SymbolicScript
