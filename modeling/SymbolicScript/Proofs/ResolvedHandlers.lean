import SymbolicScript.Proofs.CompoundLockstep
import SymbolicScript.Proofs.Resolved

/-!
# Handlers that are never unresolved

An instruction is unresolved if one of its operands has to be known and is not, or if it has no
semantics.  A handler can demand an operand in its text only, so that it is decided handler by
handler which of them can be unresolved at all (`Handler.demands`).  All others fold known operands,
push a symbolic item where an operand is symbolic, or fail for another reason
(`Handler.run_resolved`).
-/

namespace SymbolicScript

variable {α : Type}

namespace Exec

namespace Resolved

/-! ## Work on the current world -/

lemma onStack (change : EvaluationStack → α × EvaluationStack) :
    Resolved (Exec.onStack change) :=
  onWorld _

lemma modifyStack (change : EvaluationStack → EvaluationStack) :
    Resolved (Exec.modifyStack change) :=
  onStack _

lemma modifyWorld (change : World → World) : Resolved (Exec.modifyWorld change) :=
  onWorld _

lemma push (x : Item) : Resolved (Exec.push x) :=
  modifyStack _

lemma pop : Resolved Exec.pop :=
  onStack _

lemma peek (index : Nat) : Resolved (Exec.peek index) :=
  onStack _

lemma popMany (count : Nat) : Resolved (Exec.popMany count) :=
  onStack _

lemma heap : Resolved Exec.heap :=
  .bind .world fun _ => .pure _

lemma freshId : Resolved Exec.freshId := by
  rintro s e s' ⟨⟩

lemma fresh (type : ItemType) : Resolved (Exec.fresh type) :=
  .bind .freshId fun _ => .pure _

lemma pushBuffer (bytes : Bytes) : Resolved (Exec.pushBuffer bytes) :=
  .bind .heap fun _ => .bind (.setHeap _) fun _ => .push _

lemma pushCompound (kind : CompoundKind) (items : List Item) :
    Resolved (Exec.pushCompound kind items) :=
  .bind .heap fun _ => .bind (.setHeap _) fun _ => .push _

/-! ## Transfers of control -/

lemma seek (target : Int) : Resolved (Exec.seek target) :=
  .bind .frame fun f => .bind .world fun _ => .bind (.lift (f.seek_resolved _ _)) fun _ =>
    .setFrame _

lemma markJump : Resolved Exec.markJump :=
  .modify _

lemma jumpTo (target : Int) : Resolved (Exec.jumpTo target) :=
  .bind .world fun _ => .ite (.bind (.seek _) fun _ => .markJump) (.throw rfl)

lemma handleException : Resolved Exec.handleException := by
  refine .bind .get fun s => ?_
  split
  · exact .bind (.modify _) fun _ => .throw rfl
  · split
    · exact .throw rfl
    · refine .bind (.modify _) fun _ => ?_
      have htake : Resolved takeException := by
        rintro s e s' ⟨⟩
      split
      · exact .bind htake fun _ => .bind (.push _) fun _ => .bind (.setFrame _) fun _ =>
          .bind (.seek _) fun _ => .markJump
      · exact .bind (.setFrame _) fun _ => .bind (.seek _) fun _ => .markJump

lemma raise (x : Item) : Resolved (Exec.raise x) :=
  .bind (.modify _) fun _ => .handleException

end Resolved

end Exec

namespace Semantics

variable (config : Config) (i : Instruction)

/-! ## Constants and stack -/

lemma pushPointer_resolved : Exec.Resolved (pushPointer i) :=
  .bind (.lift i.target_resolved) fun _ => .bind .world fun _ => .ite (.push _) (.throw rfl)

lemma pushData_resolved : Exec.Resolved (pushData config i) :=
  .check rfl fun _ => .push _

lemma drop_resolved : Exec.Resolved drop :=
  .bind .pop fun _ => .pure _

lemma nip_resolved : Exec.Resolved nip :=
  .modifyStack _

lemma tuck_resolved : Exec.Resolved tuck :=
  .modifyStack _

lemma moveUp_resolved (index : Nat) : Exec.Resolved (moveUp index) :=
  .modifyStack _

lemma reverseFixed_resolved : Exec.Resolved (reverseFixed i) :=
  .modifyStack _

lemma copyFrom_resolved (index : Nat) : Exec.Resolved (copyFrom index) :=
  .bind (.peek _) fun _ => .push _

/-! ## Control flow -/

lemma jump_resolved : Exec.Resolved (jump i) :=
  .bind (.lift i.target_resolved) fun _ => .jumpTo _

lemma popMessage_resolved : Exec.Resolved popMessage := by
  refine .bind .pop fun x => .bind .heap fun heap => ?_
  split
  · exact .pure _
  · exact .pure _

lemma abortWithMessage_resolved : Exec.Resolved abortWithMessage :=
  .bind popMessage_resolved fun _ => .throw rfl

lemma raise_resolved : Exec.Resolved raise :=
  .bind .pop fun _ => .raise _

lemma beginTry_resolved : Exec.Resolved (beginTry i) :=
  .bind (.lift (i.signedToken_resolved _ _)) fun _ =>
    .bind (.lift (i.signedToken_resolved _ _)) fun _ => .check rfl fun _ =>
      .bind (.lift (handlerTarget_resolved i _)) fun _ =>
        .bind (.lift (handlerTarget_resolved i _)) fun _ => .bind .frame fun _ =>
          .check rfl fun _ => .setFrame _

lemma endTry_resolved : Exec.Resolved (endTry i) := by
  refine .bind (.lift i.target_resolved) fun target => .check rfl fun _ => .bind .frame fun f => ?_
  split
  · exact .throw rfl
  · refine .check rfl fun _ => ?_
    split
    · exact .bind (.setFrame _) fun _ => .jumpTo _
    · exact .bind (.setFrame _) fun _ => .jumpTo _

lemma endFinally_resolved : Exec.Resolved (endFinally i) := by
  refine .bind .frame fun f => ?_
  split
  · exact .throw rfl
  · refine .bind (.setFrame _) fun _ => .bind .get fun s => .ite .handleException ?_
    split
    · exact .jumpTo _
    · exact .throw rfl

/-! ## Variables -/

lemma variablesOf_resolved (kind : SlotKind) : Exec.Resolved (variablesOf kind) := by
  cases kind with
  | static => exact .bind .world fun _ => .pure _
  | «local» => exact .bind .frame fun _ => .pure _
  | argument => exact .bind .frame fun _ => .pure _

lemma setVariables_resolved (kind : SlotKind) (v : Variables) :
    Exec.Resolved (setVariables kind v) := by
  cases kind with
  | static => exact .modifyWorld _
  | «local» => exact .bind .frame fun _ => .setFrame _
  | argument => exact .bind .frame fun _ => .setFrame _

lemma isTracked_resolved (kind : SlotKind) : Exec.Resolved (isTracked kind) :=
  .bind .get fun _ => .pure _

lemma load_resolved (kind : SlotKind) (first : Opcode) : Exec.Resolved (load kind first i) :=
  .bind (.lift (variableIndex_resolved i first)) fun _ =>
    .bind (variablesOf_resolved kind) fun v => .bind (.lift (v.load_resolved _)) fun _ =>
      .bind (isTracked_resolved kind) fun _ =>
        .ite (.bind (.modifyWorld _) fun _ => .push _) (.push _)

lemma store_resolved (kind : SlotKind) (first : Opcode) : Exec.Resolved (store kind first i) :=
  .bind (.lift (variableIndex_resolved i first)) fun _ => .bind .pop fun _ =>
    .bind (variablesOf_resolved kind) fun v => .bind (.lift (v.store_resolved _ _)) fun _ =>
      .bind (setVariables_resolved kind _) fun _ => .bind (isTracked_resolved kind) fun _ =>
        .ite (.modifyWorld _) (.pure _)

lemma allocateStatics_resolved : Exec.Resolved (allocateStatics i) :=
  .bind (.lift (i.unsignedToken_resolved _ _)) fun _ => .check rfl fun _ =>
    .bind (variablesOf_resolved .static) fun v => .bind (.lift (v.allocateWith_resolved _)) fun _ =>
      setVariables_resolved .static _

lemma allocateFrame_resolved : Exec.Resolved (allocateFrame i) :=
  .bind (.lift (i.unsignedToken_resolved _ _)) fun _ =>
    .bind (.lift (i.unsignedToken_resolved _ _)) fun _ => .check rfl fun _ =>
      .bind .frame fun f => .check rfl fun _ => .check rfl fun _ => .bind (.popMany _) fun _ =>
        .bind (.lift (f.locals.allocateWith_resolved _)) fun _ =>
          .bind (setVariables_resolved .local _) fun _ =>
            .bind (.lift (f.arguments.allocateWith_resolved _)) fun _ =>
              setVariables_resolved .argument _

/-! ## Types and equality -/

lemma pushAnswer_resolved (answer : Option Bool) : Exec.Resolved (pushAnswer answer) := by
  cases answer with
  | some value => exact .push _
  | none => exact .bind (.fresh _) fun _ => .push _

lemma equal_resolved : Exec.Resolved (equal i) :=
  .bind .pop fun _ => .bind .pop fun _ => .bind .heap fun heap =>
    .bind (.lift (heap.equals_resolved _ _)) fun _ => pushAnswer_resolved _

lemma isNull_resolved : Exec.Resolved isNull :=
  .bind .pop fun _ => pushAnswer_resolved _

lemma isType_resolved : Exec.Resolved (isType i) :=
  .bind (.lift (typeOperand_resolved i)) fun _ => .bind .pop fun _ => pushAnswer_resolved _

lemma convert_resolved : Exec.Resolved (convert i) :=
  .bind (.lift (typeOperand_resolved i)) fun _ => .bind .pop fun _ => .bind .freshId fun _ =>
    .bind .heap fun heap => .bind (.lift (heap.convert_resolved _ _ _)) fun _ =>
      .bind (.setHeap _) fun _ => .push _

/-! ## Arithmetic and logic -/

lemma popOperands_resolved (count : Nat) : Exec.Resolved (popOperands count) :=
  .bind (.popMany _) fun _ => .pure _

/-- Operands that are folded are known, and others give a derived variable. -/
lemma fold_resolved {operation : List Int → Except ExecutionError Item}
    (h : ∀ values, Resolved (operation values)) (opcode : Opcode) (operands : List Item) :
    Exec.Resolved (fold opcode operands operation) := by
  refine .bind (.lift (integers_resolved operands)) fun values => ?_
  cases values with
  | some values => exact .bind (.lift (h values)) fun _ => .push _
  | none => exact .push _

lemma unary_resolved : Exec.Resolved (unary i) := by
  refine .bind (popOperands_resolved 1) fun operands => fold_resolved (fun values => ?_) _ _
  split
  · exact (unaryResult_plain _ _).resolved
  · exact .error rfl

lemma binary_resolved : Exec.Resolved (binary i) := by
  refine .bind (popOperands_resolved 2) fun operands => .ite (.push _)
    (fold_resolved (fun values => ?_) _ _)
  split
  · exact (binaryResult_plain _ _ _).resolved
  · exact .error rfl

lemma ternary_resolved : Exec.Resolved (ternary i) := by
  refine .bind (popOperands_resolved 3) fun operands => fold_resolved (fun values => ?_) _ _
  split
  · exact (ternaryResult_plain _ _ _ _).resolved
  · exact .error rfl

lemma logicalNot_resolved : Exec.Resolved (logicalNot i) := by
  refine .bind .pop fun x => .bind (.lift x.toBoolean?_resolved) fun value => ?_
  cases value with
  | some value => exact .push _
  | none => exact .push _

lemma logical_resolved : Exec.Resolved (logical i) := by
  refine .bind .pop fun y => .bind .pop fun x => .bind (.lift x.toBoolean?_resolved) fun a =>
    .bind (.lift y.toBoolean?_resolved) fun b => ?_
  split
  · exact .push _
  · exact .push _

/-! ## Bytes and compounds -/

lemma bytesOf_resolved (x : Item) : Exec.Resolved (bytesOf x) :=
  .bind .heap fun heap => .lift (heap.bytesOf_resolved x)

lemma newBuffer_resolved : Exec.Resolved (newBuffer config i) := by
  refine .bind .pop fun length => .bind (.lift length.toInteger?_resolved) fun value => ?_
  cases value with
  | none => exact .push _
  | some value =>
    exact .check rfl fun _ => .bind (.lift (checkSize_resolved config _)) fun _ => .pushBuffer _

lemma concat_resolved : Exec.Resolved (concat config i) := by
  refine .bind .pop fun y => .bind .pop fun x => .bind (bytesOf_resolved x) fun first =>
    .bind (bytesOf_resolved y) fun second => ?_
  split
  · exact .bind (.lift (checkSize_resolved config _)) fun _ => .pushBuffer _
  · exact .push _

lemma size_resolved : Exec.Resolved (size i) := by
  refine .bind .pop fun x => ?_
  split
  · exact .push _
  · exact .bind .heap fun heap => .bind (.lift (sizeOf_resolved heap _)) fun _ => .push _

/-- An item is looked into only if it and the key are known. -/
lemma pickItem_resolved : Exec.Resolved (pickItem i) := by
  refine .bind .pop fun key => .bind .pop fun x => ?_
  split
  · exact .push _
  · next hknown =>
    have hkey : key.isSymbolic = false := by
      rw [Bool.or_eq_true, not_or, Bool.not_eq_true, Bool.not_eq_true] at hknown
      exact hknown.2
    exact .bind .heap fun heap => .bind (.lift (element_resolved heap hkey)) fun _ => .push _

/-! ## Storage -/

lemma popKey_resolved : Exec.Resolved popKey := by
  refine .bind .pop fun key => .bind .heap fun heap =>
    .bind (.lift (heap.bytesOf_resolved key)) fun bytes => ?_
  cases bytes with
  | some bytes => exact .pure _
  | none => exact .pure _

lemma storageGet_resolved : Exec.Resolved (storageGet i) :=
  .bind .pop fun _ => .bind popKey_resolved fun _ => .bind (.modifyWorld _) fun _ =>
    .bind (.modifyWorld _) fun _ => .bind .world fun _ => .bind .freshId fun _ => .push _

lemma storagePut_resolved : Exec.Resolved (storagePut i) :=
  .bind .pop fun _ => .bind popKey_resolved fun _ => .bind .pop fun _ =>
    .bind (.modifyWorld _) fun _ => .modifyWorld _

lemma storageDelete_resolved : Exec.Resolved (storageDelete i) :=
  .bind .pop fun _ => .bind popKey_resolved fun _ => .bind (.modifyWorld _) fun _ =>
    .modifyWorld _

end Semantics

namespace Handler

/-- Whether a handler demands an operand that it has to know, or a service that it knows, or has no
semantics. -/
def demands : Handler → Bool
  | jumpIf | jumpIfNot | jumpCompare | callPointer | assert | assertWithMessage | syscall
  | xdrop | pick | roll | reverseCounted | memcpy | substring | leftPart | rightPart
  | pack | unpack | newSized | newTyped | append | setItem | reverseItems | remove | clearItems
  | popItem | unimplemented => true
  | _ => false

/-- A handler that demands nothing is never unresolved. -/
theorem run_resolved {handler : Handler} (config : Config) (i : Instruction)
    (h : handler.demands = false) : Exec.Resolved (handler.run config i) := by
  cases handler with
  | pushInteger | pushBoolean | pushNull | pushSmall => exact .push _
  | pushPointer => exact Semantics.pushPointer_resolved i
  | pushData => exact Semantics.pushData_resolved config i
  | nop => exact .pure _
  | jump => exact Semantics.jump_resolved i
  | call => exact Semantics.call_resolved config i
  | abort => exact .throw rfl
  | abortWithMessage => exact Semantics.abortWithMessage_resolved
  | raise => exact Semantics.raise_resolved
  | beginTry => exact Semantics.beginTry_resolved i
  | endTry => exact Semantics.endTry_resolved i
  | endFinally => exact Semantics.endFinally_resolved i
  | ret => exact Exec.ret_resolved
  | depth => exact .push _
  | drop => exact Semantics.drop_resolved
  | nip => exact Semantics.nip_resolved
  | clear => exact .modifyStack _
  | tuck => exact Semantics.tuck_resolved
  | swap | rot => exact Semantics.moveUp_resolved _
  | reverseFixed => exact Semantics.reverseFixed_resolved i
  | dup | dupSecond => exact Semantics.copyFrom_resolved _
  | allocateStatics => exact Semantics.allocateStatics_resolved i
  | allocateFrame => exact Semantics.allocateFrame_resolved i
  | load kind => exact Semantics.load_resolved i kind _
  | store kind => exact Semantics.store_resolved i kind _
  | newBuffer => exact Semantics.newBuffer_resolved config i
  | concat => exact Semantics.concat_resolved config i
  | unary => exact Semantics.unary_resolved i
  | binary => exact Semantics.binary_resolved i
  | ternary => exact Semantics.ternary_resolved i
  | logicalNot => exact Semantics.logicalNot_resolved i
  | logical => exact Semantics.logical_resolved i
  | equal => exact Semantics.equal_resolved i
  | isNull => exact Semantics.isNull_resolved
  | isType => exact Semantics.isType_resolved i
  | convert => exact Semantics.convert_resolved i
  | newEmpty => exact .pushCompound _ _
  | size => exact Semantics.size_resolved i
  | pickItem => exact Semantics.pickItem_resolved i
  | undefined => exact .throw rfl
  | _ => cases h

end Handler

end SymbolicScript
