import SymbolicScript.Proofs.LocalWork

/-!
# Handlers that work on the stack and the heap

Every handler that neither transfers control nor looks at variables or storage is local work in the
sense of `Exec.Local` (`Handler.run_local`).  The only place where a pointer comes from is the
operand of `PUSHA`; all that the other handlers do with pointers is to move them.
-/

namespace SymbolicScript

namespace Handler

/-- Whether a handler may send control elsewhere than to the next instruction, or raises an
exception. -/
def transfers : Handler → Bool
  | jump | jumpIf | jumpIfNot | jumpCompare | call | callPointer | abort | abortWithMessage
  | raise | beginTry | endTry | endFinally | ret => true
  | _ => false

/-- Whether a handler stores to variables, initializes variables or calls the host. -/
def storesData : Handler → Bool
  | store _ | allocateStatics | allocateFrame | syscall => true
  | _ => false

/-- Whether a handler works on the evaluation stack and the heap only. -/
def worksLocally : Handler → Bool
  | load _ => false
  | handler => !handler.transfers && !handler.storesData

end Handler

namespace Semantics

open Exec (Local)

variable {L : Nat → Prop} {α β : Type}

/-! ## Results -/

/-- Whatever comes out satisfies the predicate. -/
def Yields (Q : α → Prop) (result : Except ExecutionError α) : Prop :=
  ∀ a, result = .ok a → Q a

namespace Yields

variable {Q : α → Prop}

lemma ok {a : α} (ha : Q a) : Yields Q (.ok a) := by
  rintro _ ⟨⟩
  exact ha

lemma error (e : ExecutionError) : Yields Q (.error e) :=
  nofun

/-- What comes out of a sequence comes out of its last part. -/
lemma bind {result : Except ExecutionError β} {k : β → Except ExecutionError α}
    (hk : ∀ b, result = .ok b → Yields Q (k b)) : Yields Q (result >>= k) := by
  intro a ha
  obtain ⟨b, hb, hkb⟩ := except_bind_eq_ok.1 ha
  exact hk b hb a hkb

lemma ite {c : Prop} [Decidable c] {x y : Except ExecutionError α} (hx : Yields Q x)
    (hy : Yields Q y) : Yields Q (if c then x else y) := by
  split
  · exact hx
  · exact hy

end Yields

lemma yields_bounded (opcode : Opcode) (value : Int) :
    Yields (Item.PointsInto L) (bounded opcode value) :=
  .ite (.ok (.integer value)) (.error _)

/-- The result of an instruction on one integer is no pointer. -/
lemma yields_unaryResult (opcode : Opcode) (x : Int) :
    Yields (Item.PointsInto L) (unaryResult opcode x) := by
  unfold unaryResult
  split
  case h_2 => exact .ok (.integer _)
  case h_7 => exact .ite (.error _) (yields_bounded _ _)
  case h_8 => exact .ok (.boolean _)
  case h_9 => exact .error _
  all_goals exact yields_bounded _ _

/-- The result of an instruction on two integers is no pointer. -/
lemma yields_binaryResult (opcode : Opcode) (x y : Int) :
    Yields (Item.PointsInto L) (binaryResult opcode x y) := by
  unfold binaryResult
  split
  case h_7 | h_8 | h_9 | h_10 | h_11 => exact .bind fun _ _ => yields_bounded _ _
  case h_18 | h_19 => exact .ok (.integer _)
  case h_20 => exact .error _
  case h_1 | h_2 | h_3 | h_4 | h_5 | h_6 => exact yields_bounded _ _
  all_goals exact .ok (.boolean _)

/-- The result of an instruction on three integers is no pointer. -/
lemma yields_ternaryResult (opcode : Opcode) (a b c : Int) :
    Yields (Item.PointsInto L) (ternaryResult opcode a b c) := by
  unfold ternaryResult
  split
  · exact .bind fun _ _ => yields_bounded _ _
  · exact .bind fun _ _ => yields_bounded _ _
  · exact .ok (.boolean _)
  · exact .error _

/-- An element of a compound points where the items in the heap point. -/
lemma yields_element {heap : Heap} (hheap : heap.PointsInto L) (opcode : Opcode) (x key : Item) :
    Yields (Item.PointsInto L) (element opcode heap x key) := by
  unfold element
  split
  · exact .bind fun items hitems => .bind fun index _ => .ok (.getD (hheap.items hitems) .null _)
  · exact .bind fun bytes _ => .bind fun index _ => .ok (.integer _)

/-! ## Pieces -/

lemma local_popDepth (opcode : Opcode) : Local L (popDepth opcode) fun _ => True :=
  (Local.popCount opcode).bind fun _ _ => .ite (fun _ => .pure trivial) fun _ => .throw _

lemma local_popSize (opcode : Opcode) : Local L (popSize opcode) fun _ => True :=
  (Local.popCount opcode).bind fun _ _ => .ite (fun _ => .pure trivial) fun _ => .throw _

lemma local_popOperands (count : Nat) :
    Local L (popOperands count) fun operands => ∀ x ∈ operands, x.PointsInto L :=
  (Local.popMany count).bind fun _ hitems => .pure fun x hx => hitems x (List.mem_reverse.1 hx)

lemma local_bytesOf (x : Item) : Local L (bytesOf x) fun _ => True :=
  Local.heap.bind fun _ _ => .lift_any _

lemma local_copyFrom (index : Nat) : Local L (copyFrom index) fun _ => True :=
  (Local.peek index).bind fun _ hx => .push hx

lemma local_removeAt (index : Nat) :
    Local L (Exec.modifyStack fun s => (s.removeAt index).2) fun _ => True :=
  .modifyStack (fun s => s.reshaped_removeAt index) fun _ hs => (hs.removeAt index).2

lemma local_moveUp (index : Nat) : Local L (moveUp index) fun _ => True :=
  .modifyStack (fun s => (s.reshaped_removeAt index).trans (EvaluationStack.reshaped_push _ _))
    fun _ hs => (hs.removeAt index).2.push (hs.removeAt index).1

lemma local_tuck : Local L tuck fun _ => True :=
  .modifyStack (fun s => (s.reshaped_peek 0).trans (EvaluationStack.reshaped_insertAt _ _ _))
    fun _ hs => (hs.peek 0).2.insertAt (hs.peek 0).1 2

lemma local_reverse (count : Nat) :
    Local L (Exec.modifyStack (·.reverse count)) fun _ => True :=
  .modifyStack (fun s => s.reshaped_reverse count) fun _ hs => hs.reverse count

lemma local_clear : Local L clear fun _ => True :=
  .modifyStack (fun s => s.reshaped_clear) fun s _ => .clear s

/-- Folding pushes a result of the operation, or a derived variable, which is no pointer. -/
lemma local_fold {operation : List Int → Except ExecutionError Item}
    (hoperation : ∀ values, Yields (Item.PointsInto L) (operation values)) (opcode : Opcode)
    (operands : List Item) : Local L (fold opcode operands operation) fun _ => True := by
  refine (Local.lift_any _).bind fun values _ => ?_
  cases values with
  | none => exact .push (.symbolic rfl)
  | some values => exact (Local.lift (hoperation values)).bind fun _ hx => .push hx

lemma local_pushAnswer (answer : Option Bool) : Local L (pushAnswer answer) fun _ => True := by
  cases answer with
  | none => exact (Local.fresh .boolean).bind fun _ hx => .push hx
  | some value => exact .push (.boolean value)

lemma local_modifyItems {change : List Item → Except ExecutionError (List Item)} (handle : Nat)
    (hchange : ∀ items : List Item, (∀ x ∈ items, x.PointsInto L) →
      Yields (fun changed => ∀ x ∈ changed, x.PointsInto L) (change items)) :
    Local L (modifyItems handle change) fun _ => True :=
  Local.heap.bind fun _ hheap =>
    (Local.lift fun _ hmodify => hheap.modifyItems (fun items changed hitems hchanged =>
      hchange items hitems changed hchanged) hmodify).bind fun _ hheap' => .setHeap hheap'

lemma local_modifyBytes (handle : Nat) (change : Bytes → Except ExecutionError Bytes) :
    Local L (modifyBytes handle change) fun _ => True :=
  Local.heap.bind fun _ hheap =>
    (Local.lift fun _ hmodify => hheap.modifyBytes hmodify).bind fun _ hheap' => .setHeap hheap'

lemma local_popMessage : Local L popMessage fun _ => True := by
  refine Local.pop.bind fun _ _ => Local.heap.bind fun _ _ => ?_
  split
  · exact .pure trivial
  · exact .pure trivial

lemma local_popKey : Local L popKey fun _ => True := by
  refine Local.pop.bind fun _ _ => Local.heap.bind fun _ _ => (Local.lift_any _).bind
    fun bytes _ => ?_
  cases bytes with
  | none => exact .pure trivial
  | some bytes => exact .pure trivial

lemma local_require (text : Option String) (i : Instruction) :
    Local L (require text i) fun _ => True :=
  (Local.popBoolean _).bind fun _ _ => .ite (fun _ => .pure trivial) fun _ => .throw _

/-! ## Instructions -/

variable (config : Config) (i : Instruction)

/-- The pointer that an instruction pushes points to its target. -/
lemma local_pushPointer (htarget : ∀ target, i.target = .ok target → 0 ≤ target →
    target ≤ maxOffset → L target.toNat) : Local L (pushPointer i) fun _ => True :=
  (Local.lift htarget).bind fun target hL =>
    .scriptLength (k := fun available =>
      if 0 ≤ target ∧ target ≤ available ∧ target ≤ maxOffset then
        Exec.push (.pointer target.toNat)
      else
        throw (.invalidPointer target))
      fun _ => .ite (fun h => .push (.pointer (hL h.1 h.2.2))) fun _ => .throw _

lemma local_pushData : Local L (pushData config i) fun _ => True :=
  .check fun _ _ => .push (.byteString _)

lemma local_newBuffer : Local L (newBuffer config i) fun _ => True := by
  refine Local.pop.bind fun length _ => (Local.lift_any _).bind fun value _ => ?_
  cases value with
  | none => exact .push (.symbolic rfl)
  | some value => exact .check fun _ _ => (Local.lift_any _).bind fun _ _ => .pushBuffer _

lemma local_memcpy : Local L (memcpy i) fun _ => True := by
  unfold memcpy
  refine (Local.popCount _).bind fun _ _ => (Local.popCount _).bind fun _ _ =>
    Local.pop.bind fun _ _ => (local_bytesOf _).bind fun _ _ => (Local.demand _ _).bind fun _ _ =>
    (Local.lift_any _).bind fun _ _ => (Local.popCount _).bind fun _ _ =>
    Local.pop.bind fun target _ => ?_
  split
  · exact local_modifyBytes _ _
  · exact .throw _
  · exact .throw _

lemma local_concat : Local L (concat config i) fun _ => True := by
  refine Local.pop.bind fun _ _ => Local.pop.bind fun _ _ => (local_bytesOf _).bind fun _ _ =>
    (local_bytesOf _).bind fun _ _ => ?_
  split
  · exact (Local.lift_any _).bind fun _ _ => .pushBuffer _
  · exact .push (.symbolic rfl)

lemma local_substring : Local L (substring i) fun _ => True := by
  refine (Local.popCount _).bind fun _ _ => (Local.popCount _).bind fun _ _ =>
    Local.pop.bind fun _ _ => (local_bytesOf _).bind fun bytes _ => ?_
  cases bytes with
  | none => exact .push (.symbolic rfl)
  | some bytes => exact (Local.lift_any _).bind fun _ _ => .pushBuffer _

lemma local_takeEnd (part : Nat → Bytes → Bytes) : Local L (takeEnd part i) fun _ => True := by
  refine (Local.popCount _).bind fun _ _ => Local.pop.bind fun _ _ =>
    (local_bytesOf _).bind fun bytes _ => ?_
  cases bytes with
  | none => exact .push (.symbolic rfl)
  | some bytes => exact .ite (fun _ => .pushBuffer _) fun _ => .throw _

lemma local_unary : Local L (unary i) fun _ => True :=
  (local_popOperands 1).bind fun _ _ => local_fold (fun values => by
    split
    · exact yields_unaryResult _ _
    · exact .error _) _ _

lemma local_binary : Local L (binary i) fun _ => True :=
  (local_popOperands 2).bind fun _ _ => .ite (fun _ => .push (.boolean _)) fun _ =>
    local_fold (fun values => by
      split
      · exact yields_binaryResult _ _ _
      · exact .error _) _ _

lemma local_ternary : Local L (ternary i) fun _ => True :=
  (local_popOperands 3).bind fun _ _ => local_fold (fun values => by
    split
    · exact yields_ternaryResult _ _ _ _
    · exact .error _) _ _

lemma local_logicalNot : Local L (logicalNot i) fun _ => True := by
  refine Local.pop.bind fun _ _ => (Local.lift_any _).bind fun value _ => ?_
  cases value with
  | none => exact .push (.symbolic rfl)
  | some value => exact .push (.boolean _)

lemma local_logical : Local L (logical i) fun _ => True := by
  refine Local.pop.bind fun _ _ => Local.pop.bind fun _ _ => (Local.lift_any _).bind fun _ _ =>
    (Local.lift_any _).bind fun _ _ => ?_
  split
  · exact .push (.boolean _)
  · exact .push (.symbolic rfl)

lemma local_equal : Local L (equal i) fun _ => True :=
  Local.pop.bind fun _ _ => Local.pop.bind fun _ _ => Local.heap.bind fun _ _ =>
    (Local.lift_any _).bind fun _ _ => local_pushAnswer _

lemma local_isNull : Local L isNull fun _ => True :=
  Local.pop.bind fun _ _ => local_pushAnswer _

lemma local_isType : Local L (isType i) fun _ => True :=
  (Local.lift_any _).bind fun _ _ => Local.pop.bind fun _ _ => local_pushAnswer _

lemma local_convert : Local L (convert i) fun _ => True :=
  (Local.lift_any _).bind fun _ _ => Local.pop.bind fun _ hx => Local.freshId.bind fun _ _ =>
    Local.heap.bind fun _ hheap =>
    (Local.lift (Q := fun r => r.1.PointsInto L ∧ r.2.PointsInto L) fun ⟨_, _⟩ hr =>
      hheap.convert hx hr).bind fun _ hr =>
    (Local.setHeap hr.2).bind fun _ _ => .push hr.1

lemma local_pack : Local L (pack i) fun _ => True :=
  (local_popSize _).bind fun _ _ => (Local.popMany _).bind fun _ hitems => .pushCompound _ hitems

lemma local_unpack : Local L (unpack i) fun _ => True := by
  refine Local.pop.bind fun _ _ => (Local.lift_any _).bind fun handle _ =>
    Local.heap.bind fun heap hheap => (Local.lift fun items hitems => hheap.items hitems).bind
    fun items hitems => ?_
  have hpushed : ∀ x ∈ items.map Item.constant, x.PointsInto L := by
    intro x hx
    obtain ⟨y, hy, rfl⟩ := List.mem_map.1 hx
    exact (hitems y hy).constant
  exact (Local.modifyStack (fun s => s.reshaped_pushAll _) fun s hs => hs.pushAll hpushed).bind
    fun _ _ => .push (.integer _)

lemma local_newSized : Local L (newSized i) fun _ => True :=
  (local_popSize _).bind fun _ _ => .pushCompound _ fun x hx => by
    rw [List.eq_of_mem_replicate hx]
    exact .null

/-- No initial value of an array element is a pointer. -/
lemma defaultItem_pointsInto (type : ItemType) : (defaultItem type).PointsInto L := by
  cases type <;> nofun

lemma local_newTyped : Local L (newTyped i) fun _ => True := by
  refine (Local.lift_any _).bind fun byte _ => ?_
  split
  · exact .throw _
  · exact (local_popSize _).bind fun _ _ => .pushCompound _ fun x hx => by
      rw [List.eq_of_mem_replicate hx]
      exact defaultItem_pointsInto _

lemma local_size : Local L (size i) fun _ => True := by
  refine Local.pop.bind fun x _ => ?_
  split
  · exact .push (.symbolic rfl)
  · exact Local.heap.bind fun _ _ => (Local.lift_any _).bind fun _ _ => .push (.integer _)

lemma local_pickItem : Local L (pickItem i) fun _ => True :=
  Local.pop.bind fun _ _ => Local.pop.bind fun _ _ => .ite (fun _ => .push (.symbolic rfl)) fun _ =>
    Local.heap.bind fun _ hheap => (Local.lift (yields_element hheap _ _ _)).bind fun _ hx =>
    .push hx

lemma local_append : Local L (append i) fun _ => True :=
  Local.pop.bind fun _ hx => Local.pop.bind fun _ _ => (Local.lift_any _).bind fun _ _ =>
    (Local.cloneStruct hx).bind fun _ hcopy => local_modifyItems _ fun _ hitems =>
    .ite (.ok (List.forall_mem_append.2 ⟨hitems, List.forall_mem_singleton.2 hcopy⟩)) (.error _)

lemma local_setItem : Local L (setItem i) fun _ => True := by
  refine Local.pop.bind fun _ hvalue => Local.pop.bind fun _ _ => Local.pop.bind fun _ _ =>
    (Local.lift_any _).bind fun target _ => ?_
  cases target with
  | items handle =>
    refine (Local.cloneStruct hvalue).bind fun copy hcopy => local_modifyItems _ fun items hitems =>
      .bind fun index _ => .ok fun x hx => ?_
    rcases List.mem_or_eq_of_mem_set hx with hold | rfl
    · exact hitems x hold
    · exact hcopy
  | bytes handle => exact (Local.lift_any _).bind fun _ _ => local_modifyBytes _ _

lemma local_reverseItems : Local L (reverseItems i) fun _ => True := by
  refine Local.pop.bind fun _ _ => (Local.lift_any _).bind fun target _ => ?_
  cases target with
  | items handle =>
    exact local_modifyItems _ fun _ hitems => .ok fun x hx => hitems x (List.mem_reverse.1 hx)
  | bytes handle => exact local_modifyBytes _ _

lemma local_remove : Local L (remove i) fun _ => True :=
  Local.pop.bind fun _ _ => Local.pop.bind fun _ _ => (Local.lift_any _).bind fun _ _ =>
    local_modifyItems _ fun _ hitems => .bind fun _ _ => .ok fun x hx =>
      hitems x (List.mem_of_mem_eraseIdx hx)

lemma local_clearItems : Local L (clearItems i) fun _ => True :=
  Local.pop.bind fun _ _ => (Local.lift_any _).bind fun _ _ =>
    local_modifyItems _ fun _ _ => .ok nofun

lemma local_popItem : Local L (popItem i) fun _ => True :=
  Local.pop.bind fun _ _ => (Local.lift_any _).bind fun _ _ => Local.heap.bind fun _ hheap =>
    (local_modifyItems _ fun _ hitems => .ite (.error _) (.ok fun x hx =>
      hitems x (List.dropLast_subset _ hx))).bind fun _ _ =>
    (Local.lift fun _ hitems => hheap.items hitems).bind fun items hitems => .push (by
      have hlast : items.getLastD .null ∈ Item.null :: items := List.getLastD_mem_cons
      rcases List.mem_cons.1 hlast with hnull | hmem
      · rw [hnull]
        exact .null
      · exact hitems _ hmem)

end Semantics

/-- A handler that neither transfers control nor looks at variables or storage works on stack and
heap only, and the only pointer that it may push is the target of the instruction. -/
theorem Handler.run_local {L : Nat → Prop} {handler : Handler} (config : Config) {i : Instruction}
    (hlocal : handler.worksLocally = true)
    (hpointer : handler = .pushPointer → ∀ target, i.target = .ok target → 0 ≤ target →
      target ≤ maxOffset → L target.toNat) :
    Exec.Local L (handler.run config i) fun _ => True := by
  cases handler with
  | jump | jumpIf | jumpIfNot | jumpCompare | call | callPointer | abort | abortWithMessage
  | raise | beginTry | endTry | endFinally | ret => cases hlocal
  | store | load | allocateStatics | allocateFrame | syscall => cases hlocal
  | pushInteger => exact .push (.integer _)
  | pushBoolean => exact .push (.boolean _)
  | pushPointer => exact Semantics.local_pushPointer i (hpointer rfl)
  | pushNull => exact .push .null
  | pushData => exact Semantics.local_pushData config i
  | pushSmall => exact .push (.integer _)
  | nop => exact .pure trivial
  | assert => exact Semantics.local_require none i
  | assertWithMessage =>
    exact Semantics.local_popMessage.bind fun text _ => Semantics.local_require text i
  | depth => exact .push (.symbolic rfl)
  | drop => exact Exec.Local.pop.bind fun _ _ => .pure trivial
  | nip => exact Semantics.local_removeAt 1
  | xdrop => exact (Semantics.local_popDepth _).bind fun n _ => Semantics.local_removeAt n
  | clear => exact Semantics.local_clear
  | dup => exact Semantics.local_copyFrom 0
  | dupSecond => exact Semantics.local_copyFrom 1
  | pick => exact (Semantics.local_popDepth _).bind fun n _ => Semantics.local_copyFrom n
  | tuck => exact Semantics.local_tuck
  | swap => exact Semantics.local_moveUp 1
  | rot => exact Semantics.local_moveUp 2
  | roll =>
    exact (Semantics.local_popDepth _).bind fun n _ =>
      .ite (fun _ => .pure trivial) fun _ => Semantics.local_moveUp n
  | reverseFixed => exact Semantics.local_reverse _
  | reverseCounted => exact (Semantics.local_popDepth _).bind fun n _ => Semantics.local_reverse n
  | newBuffer => exact Semantics.local_newBuffer config i
  | memcpy => exact Semantics.local_memcpy i
  | concat => exact Semantics.local_concat config i
  | substring => exact Semantics.local_substring i
  | leftPart | rightPart => exact Semantics.local_takeEnd i _
  | unary => exact Semantics.local_unary i
  | binary => exact Semantics.local_binary i
  | ternary => exact Semantics.local_ternary i
  | logicalNot => exact Semantics.local_logicalNot i
  | logical => exact Semantics.local_logical i
  | equal => exact Semantics.local_equal i
  | isNull => exact Semantics.local_isNull
  | isType => exact Semantics.local_isType i
  | convert => exact Semantics.local_convert i
  | pack => exact Semantics.local_pack i
  | unpack => exact Semantics.local_unpack i
  | newEmpty => exact .pushCompound _ nofun
  | newSized => exact Semantics.local_newSized i
  | newTyped => exact Semantics.local_newTyped i
  | size => exact Semantics.local_size i
  | pickItem => exact Semantics.local_pickItem i
  | append => exact Semantics.local_append i
  | setItem => exact Semantics.local_setItem i
  | reverseItems => exact Semantics.local_reverseItems i
  | remove => exact Semantics.local_remove i
  | clearItems => exact Semantics.local_clearItems i
  | popItem => exact Semantics.local_popItem i
  | unimplemented | undefined => exact .throw _

end SymbolicScript
