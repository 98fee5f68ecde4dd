import SymbolicScript.Heap.Conversion
import SymbolicScript.Heap.Equality
import SymbolicScript.Proofs.GroundedItems
import SymbolicScript.Proofs.InstructionSteps

/-!
# Results that are safe

Many parts of instructions are pure: they look at items and at the heap and give a result or an
error.  Such a result is `Safe` for a predicate if it satisfies the predicate where there is one,
and if the error, where there is one, does not complain about a handle.  This file shows that on a
grounded heap all results that depend on grounded items are safe, and that everything that they put
on a stack or into the heap is grounded again.

The error that is excluded is raised in one place only, where an object is looked up.  For most
computations it is therefore enough that they look at no heap; the others get their handles from
grounded items.
-/

namespace SymbolicScript

variable {α β : Type}

/-- The error says that a handle refers to no object. -/
def ExecutionError.isDangling : ExecutionError → Bool
  | invalidHeapHandle _ => true
  | _ => false

/-- A result satisfies the predicate, and an error is not about a handle. -/
def Safe (P : α → Prop) : Except ExecutionError α → Prop
  | .ok a => P a
  | .error e => e.isDangling = false

namespace Safe

variable {P Q : α → Prop} {R : β → Prop}

/-- Less may be claimed of the result. -/
lemma imp {result : Except ExecutionError α} (h : Safe P result) (hPQ : ∀ a, P a → Q a) :
    Safe Q result := by
  cases result with
  | ok a => exact hPQ a h
  | error e => exact h

/-- Nothing needs to be claimed of the result. -/
lemma any {result : Except ExecutionError α} (h : Safe P result) : Safe (fun _ => True) result :=
  h.imp fun _ _ => trivial

/-- What is known of a successful result may be added. -/
lemma of_ok {result : Except ExecutionError α} (h : Safe P result)
    (hQ : ∀ a, result = .ok a → Q a) : Safe Q result := by
  cases result with
  | ok a => exact hQ a rfl
  | error e => exact h

lemma bind {x : Except ExecutionError α} {k : α → Except ExecutionError β} (hx : Safe P x)
    (hk : ∀ a, P a → Safe R (k a)) : Safe R (x >>= k) := by
  cases x with
  | ok a => exact hk a hx
  | error e => exact hx

lemma map {x : Except ExecutionError α} (f : α → β) (hx : Safe P x) :
    Safe (fun _ => True) (x.map f) := by
  cases x with
  | ok a => trivial
  | error e => exact hx

lemma ite {c : Prop} [Decidable c] {x y : Except ExecutionError α} (hx : c → Safe P x)
    (hy : ¬c → Safe P y) : Safe P (if c then x else y) := by
  split
  · next h => exact hx h
  · next h => exact hy h

/-- Attaching an offset to an error and dropping it again changes nothing. -/
lemma unlocate {x : Except ExecutionError α} (hx : Safe P x) (offset : Nat) :
    Safe P ((locate offset x).mapError Located.payload) := by
  cases x with
  | ok a => exact hx
  | error e => exact hx

/-- The error is about no handle. -/
lemma error_ne {e : ExecutionError} (h : Safe P (.error e)) (handle : Nat) :
    e ≠ .invalidHeapHandle handle := by
  rintro rfl
  cases h

end Safe

/-! ## Results that look at no heap -/

namespace Instruction

variable (i : Instruction)

lemma safe_token (start width : Nat) : Safe (fun _ => True) (i.token start width) :=
  .ite (fun _ => trivial) fun _ => rfl

lemma safe_signedToken (start width : Nat) : Safe (fun _ => True) (i.signedToken start width) :=
  (i.safe_token start width).map _

lemma safe_unsignedToken (start width : Nat) :
    Safe (fun _ => True) (i.unsignedToken start width) :=
  (i.safe_token start width).map _

lemma safe_branchTargets : Safe (fun _ => True) i.branchTargets := by
  unfold branchTargets
  split
  · trivial
  · exact (i.safe_signedToken _ _).bind fun _ _ => trivial
  · exact (i.safe_signedToken _ _).bind fun _ _ => (i.safe_signedToken _ _).bind fun _ _ => trivial

lemma safe_target : Safe (fun _ => True) i.target := by
  refine i.safe_branchTargets.bind fun targets _ => ?_
  cases targets with
  | nil => rfl
  | cons target _ => trivial

end Instruction

namespace Item

lemma safe_toBoolean? (x : Item) : Safe (fun _ => True) x.toBoolean? := by
  unfold toBoolean?
  split
  case h_5 => exact .ite (fun _ => trivial) fun _ => rfl
  all_goals trivial

lemma safe_toInteger? (x : Item) : Safe (fun _ => True) x.toInteger? := by
  unfold toInteger?
  split
  case h_4 => exact .ite (fun _ => trivial) fun _ => rfl
  case h_5 => rfl
  all_goals trivial

end Item

namespace Variables

variable {g : Ground} {v : Variables}

/-- The value of a variable is grounded if the given values are. -/
lemma All.safe_load (h : v.All (Item.Grounded g)) (index : Nat) :
    Safe (Item.Grounded g) (v.load index) := by
  have hsafe : Safe (fun _ => True) (v.load index) := by
    unfold Variables.load Slot.load
    split
    · trivial
    · split
      · trivial
      · rfl
  exact hsafe.of_ok fun x hx => h.load (.slot _ _) hx

lemma All.safe_store (h : v.All (Item.Grounded g)) {x : Item} (hx : x.Grounded g) (index : Nat) :
    Safe (Variables.All (Item.Grounded g)) (v.store index x) := by
  have hsafe : Safe (fun _ => True) (v.store index x) := by
    unfold Variables.store Slot.store
    split
    · trivial
    · split
      · trivial
      · rfl
  exact hsafe.of_ok fun _ hstore => h.store hx hstore

lemma safe_allocateWith (v : Variables) {items : List Item} (hitems : ∀ x ∈ items, x.Grounded g) :
    Safe (Variables.All (Item.Grounded g)) (v.allocateWith items) := by
  have hsafe : Safe (fun _ => True) (v.allocateWith items) := .ite (fun _ => rfl) fun _ => trivial
  exact hsafe.of_ok fun _ hallocate => .allocateWith hitems hallocate

lemma safe_allocate (v : Variables) (size : Nat) :
    Safe (Variables.All (Item.Grounded g)) (v.allocate size) :=
  v.safe_allocateWith fun x hx => by
    rw [List.eq_of_mem_replicate hx]
    exact .null

end Variables

namespace Semantics

variable {g : Ground}

/-! ### Folding -/

lemma safe_integers (operands : List Item) : Safe (fun _ => True) (integers operands) := by
  induction operands with
  | nil => trivial
  | cons x rest ih =>
    refine x.safe_toInteger?.bind fun value _ => ?_
    cases value with
    | none => trivial
    | some value => exact ih.bind fun _ _ => trivial

lemma safe_bounded (opcode : Opcode) (value : Int) :
    Safe (Item.Grounded g) (bounded opcode value) :=
  .ite (fun _ => .integer value) fun _ => rfl

lemma safe_nonzero (opcode : Opcode) (value : Int) : Safe (fun _ => True) (nonzero opcode value) :=
  .ite (fun _ => rfl) fun _ => trivial

lemma safe_shiftAmount (opcode : Opcode) (value : Int) :
    Safe (fun _ => True) (shiftAmount opcode value) :=
  .ite (fun _ => trivial) fun _ => rfl

lemma safe_modularPower (opcode : Opcode) (value exponent modulus : Int) :
    Safe (fun _ => True) (modularPower opcode value exponent modulus) := by
  refine (safe_nonzero opcode modulus).bind fun modulus _ => .ite (fun _ => ?_) fun _ =>
    .ite (fun _ => rfl) fun _ => trivial
  unfold modularInverse
  refine .ite (fun _ => rfl) fun _ => .ite (fun _ => rfl) fun _ => ?_
  split
  · trivial
  · rfl

/-- The result of an instruction on one integer. -/
lemma safe_unaryResult (opcode : Opcode) (x : Int) :
    Safe (Item.Grounded g) (unaryResult opcode x) := by
  unfold unaryResult
  split
  case h_2 => exact .integer _
  case h_7 => exact .ite (fun _ => rfl) fun _ => safe_bounded _ _
  case h_8 => exact .boolean _
  case h_9 => rfl
  all_goals exact safe_bounded _ _

/-- The result of an instruction on two integers. -/
lemma safe_binaryResult (opcode : Opcode) (x y : Int) :
    Safe (Item.Grounded g) (binaryResult opcode x y) := by
  unfold binaryResult
  split
  case h_7 | h_8 => exact (safe_nonzero _ _).bind fun _ _ => safe_bounded _ _
  case h_9 | h_10 | h_11 => exact (safe_shiftAmount _ _).bind fun _ _ => safe_bounded _ _
  case h_18 | h_19 => exact .integer _
  case h_20 => rfl
  case h_1 | h_2 | h_3 | h_4 | h_5 | h_6 => exact safe_bounded _ _
  all_goals exact .boolean _

/-- The result of an instruction on three integers. -/
lemma safe_ternaryResult (opcode : Opcode) (a b c : Int) :
    Safe (Item.Grounded g) (ternaryResult opcode a b c) := by
  unfold ternaryResult
  split
  · exact (safe_nonzero _ _).bind fun _ _ => safe_bounded _ _
  · exact (safe_modularPower _ _ _ _).bind fun _ _ => safe_bounded _ _
  · exact .boolean _
  · rfl

/-! ### Operands of instructions -/

lemma safe_checkSize (config : Config) (size : Nat) :
    Safe (fun _ => True) (checkSize config size) :=
  .ite (fun _ => rfl) fun _ => trivial

lemma safe_slice (opcode : Opcode) (bytes : Bytes) (index count : Nat) :
    Safe (fun _ => True) (slice opcode bytes index count) :=
  .ite (fun _ => trivial) fun _ => rfl

lemma safe_overwrite (opcode : Opcode) (index : Nat) (source bytes : Bytes) :
    Safe (fun _ => True) (overwrite opcode index source bytes) :=
  .ite (fun _ => trivial) fun _ => rfl

lemma safe_position (opcode : Opcode) (key : Item) (length : Nat) :
    Safe (fun _ => True) (position opcode key length) := by
  refine key.safe_toInteger?.bind fun value _ => ?_
  cases value with
  | none => rfl
  | some value => exact .ite (fun _ => trivial) fun _ => rfl

lemma safe_byteValue (opcode : Opcode) (x : Item) : Safe (fun _ => True) (byteValue opcode x) := by
  refine x.safe_toInteger?.bind fun value _ => ?_
  cases value with
  | none => rfl
  | some value => exact .ite (fun _ => trivial) fun _ => rfl

lemma safe_typeOperand (i : Instruction) : Safe (fun _ => True) (typeOperand i) := by
  refine (i.safe_unsignedToken 0 1).bind fun byte _ => ?_
  split
  · rfl
  · rfl
  · trivial

lemma safe_variableIndex (first : Opcode) (i : Instruction) :
    Safe (fun _ => True) (variableIndex first i) :=
  .ite (fun _ => trivial) fun _ => i.safe_unsignedToken 0 1

lemma safe_handlerTarget (i : Instruction) (relative : Int) :
    Safe (fun _ => True) (handlerTarget i relative) :=
  .ite (fun _ => trivial) fun _ => .ite (fun _ => trivial) fun _ => rfl

/-- What the operand of an instruction on compounds refers to. -/
def Target.Grounded (g : Ground) : Target → Prop
  | .items handle | .bytes handle => (g.type? handle).isSome

lemma safe_target {x : Item} (hx : x.Grounded g) (opcode : Opcode) :
    Safe (Target.Grounded g) (target opcode x) := by
  unfold target
  split
  case h_1 hknown | h_2 hknown | h_3 hknown =>
    exact Option.isSome_of_eq_some (hx.known hknown).anchored
  case h_4 => rfl
  case h_5 => rfl

lemma safe_itemsTarget {x : Item} (hx : x.Grounded g) (opcode : Opcode) :
    Safe (fun handle => (g.type? handle).isSome) (itemsTarget opcode x) := by
  refine (safe_target hx opcode).bind fun target htarget => ?_
  cases target with
  | items handle => exact htarget
  | bytes handle => rfl

end Semantics

/-! ## Frames -/

lemma Frame.safe_seek (f : Frame) (script : Script) (target : Int) :
    Safe (fun f' => f' = { f with position := target.toNat }) (f.seek script target) :=
  .ite (fun _ => rfl) fun _ => rfl

/-- The frame of a routine that is called. -/
lemma Frame.safe_cloneAt (f : Frame) (script : Script) (offset : Nat) :
    Safe (fun callee => callee = f.callee offset)
      ((f.cloneAt script offset).mapError Located.payload) := by
  have hsafe : Safe (fun _ => True) ((f.cloneAt script offset).mapError Located.payload) :=
    (safe_seek _ _ _).any.unlocate offset
  exact hsafe.of_ok fun callee hcallee => cloneAt_eq_ok hcallee

/-! ## Results that look at the heap -/

namespace Heap.Grounded

variable {g : Ground} {heap : Heap} {handle : Nat}

/-- An object is found behind every handle that refers to something. -/
lemma safe_object (h : heap.Grounded g) (hhandle : (g.type? handle).isSome) :
    Safe (HeapObject.All (Item.Grounded g)) (heap.object handle) := by
  obtain ⟨type, htype⟩ := Option.isSome_iff_exists.1 hhandle
  obtain ⟨object, hobject, -⟩ := h.object_of_type htype
  rw [object_eq_ok.2 hobject]
  exact h.elements handle object hobject

lemma safe_items (h : heap.Grounded g) (hhandle : (g.type? handle).isSome) :
    Safe (fun items => ∀ x ∈ items, x.Grounded g) (heap.items handle) := by
  refine (h.safe_object hhandle).bind fun object hobject => ?_
  cases object with
  | buffer bytes => rfl
  | compound kind items readOnly => exact hobject

lemma safe_bytes (h : heap.Grounded g) (hhandle : (g.type? handle).isSome) :
    Safe (fun _ => True) (heap.bytes handle) := by
  refine (h.safe_object hhandle).bind fun object _ => ?_
  cases object with
  | buffer bytes => trivial
  | compound kind items readOnly => rfl

lemma safe_bytesOf (h : heap.Grounded g) {x : Item} (hx : x.Grounded g) :
    Safe (fun _ => True) (heap.bytesOf x) := by
  unfold bytesOf
  split
  case h_3 handle hknown =>
    have hhandle : g.type? handle = some .buffer := (hx.known hknown).anchored
    exact (h.safe_bytes (Option.isSome_of_eq_some hhandle)).map _
  case h_6 => rfl
  all_goals trivial

lemma safe_sizeOf (h : heap.Grounded g) {value : Item} (hvalue : value.Grounded g) :
    Safe (fun _ => True) (Semantics.sizeOf heap value) := by
  unfold Semantics.sizeOf
  split
  case h_4 => exact (h.safe_bytesOf hvalue).map _
  all_goals
    exact (h.safe_object (Option.isSome_of_eq_some hvalue.anchored)).map _

/-- An element of a compound is grounded. -/
lemma safe_element (h : heap.Grounded g) {x : Item} (hx : x.Grounded g) (opcode : Opcode)
    (key : Item) : Safe (Item.Grounded g) (Semantics.element opcode heap x key) := by
  have htarget := Semantics.safe_target hx opcode
  unfold Semantics.element
  split
  · next handle hitems =>
    rw [hitems] at htarget
    exact (h.safe_items htarget).bind fun items hall =>
      (Semantics.safe_position _ _ _).bind fun index _ => .getD hall index
  · exact (h.safe_bytesOf hx).bind fun bytes _ => (Semantics.safe_position _ _ _).bind
      fun index _ => .integer _

/-! ### Changing objects -/

lemma safe_modifyItems (h : heap.Grounded g) (hhandle : (g.type? handle).isSome)
    {change : List Item → Except ExecutionError (List Item)}
    (hchange : ∀ items : List Item, (∀ x ∈ items, x.Grounded g) →
      Safe (fun changed => ∀ x ∈ changed, x.Grounded g) (change items)) :
    Safe (Heap.Grounded g) (heap.modifyItems handle change) := by
  have hsafe : Safe (fun _ => True) (heap.modifyItems handle change) := by
    refine (h.safe_object hhandle).bind fun object hobject => ?_
    split
    · rfl
    · next items => exact (hchange items hobject).bind fun _ _ => trivial
    · rfl
  refine hsafe.of_ok fun heap' hheap => h.modifyItems (fun items changed hitems hchanged => ?_) hheap
  have hresult := hchange items hitems
  rw [hchanged] at hresult
  exact hresult

lemma safe_modifyBytes (h : heap.Grounded g) (hhandle : (g.type? handle).isSome)
    {change : Bytes → Except ExecutionError Bytes}
    (hchange : ∀ bytes, Safe (fun _ => True) (change bytes)) :
    Safe (Heap.Grounded g) (heap.modifyBytes handle change) := by
  have hsafe : Safe (fun _ => True) (heap.modifyBytes handle change) :=
    (h.safe_bytes hhandle).bind fun bytes _ => (hchange bytes).bind fun _ _ => trivial
  exact hsafe.of_ok fun heap' hheap => h.modifyBytes hheap

/-! ### Equality -/

/-- A pair of handles that refer to something. -/
def PairGrounded (g : Ground) (pair : Nat × Nat) : Prop :=
  (g.type? pair.1).isSome ∧ (g.type? pair.2).isSome

/-- Two grounded structs give such a pair. -/
lemma pairGrounded_of_known {a b : Item} {p q : Nat} (ha : a.Grounded g) (hb : b.Grounded g)
    (hp : a.known? = some (.struct p)) (hq : b.known? = some (.struct q)) :
    PairGrounded g (p, q) :=
  ⟨Option.isSome_of_eq_some (ha.known hp).anchored,
    Option.isSome_of_eq_some (hb.known hq).anchored⟩

/-- The handles of nested structs that are left to compare refer to something. -/
lemma compareFields_pairGrounded {fields : List (Item × Item)}
    (hfields : ∀ x ∈ fields, x.1.Grounded g ∧ x.2.Grounded g) {pairs remaining : List (Nat × Nat)}
    {uncertain uncertain' : Bool} (hpairs : ∀ pair ∈ pairs, PairGrounded g pair)
    (h : compareFields pairs uncertain fields = .remaining remaining uncertain') :
    ∀ pair ∈ remaining, PairGrounded g pair := by
  induction fields generalizing pairs uncertain with
  | nil =>
    cases h
    exact hpairs
  | cons field rest ih =>
    obtain ⟨⟨hx, hy⟩, hrest⟩ := List.forall_mem_cons.1 hfields
    unfold compareFields at h
    split at h
    · next hp hq =>
      exact ih hrest (List.forall_mem_cons.2 ⟨pairGrounded_of_known hx hy hp hq, hpairs⟩) h
    · split at h
      · exact ih hrest hpairs h
      · cases h
    · exact ih hrest hpairs h

lemma safe_comparePairs (h : heap.Grounded g) {seen pending : List (Nat × Nat)} {uncertain : Bool}
    (hpending : ∀ pair ∈ pending, PairGrounded g pair) :
    Safe (fun _ => True) (heap.comparePairs seen uncertain pending) := by
  fun_induction comparePairs heap seen uncertain pending with
  | case1 => trivial
  | case2 _ _ _ _ _ _ ih => exact ih (List.forall_mem_cons.1 hpending).2
  | case3 _ _ _ _ _ _ e hx =>
    have hitems := h.safe_items (List.forall_mem_cons.1 hpending).1.1
    rw [hx] at hitems
    exact hitems
  | case4 _ _ _ _ _ _ _ e _ hy =>
    have hitems := h.safe_items (List.forall_mem_cons.1 hpending).1.2
    rw [hy] at hitems
    exact hitems
  | case5 => trivial
  | case6 => trivial
  | case7 _ _ _ _ _ _ left right hx hy _ _ _ hremaining ih =>
    obtain ⟨-, hrest⟩ := List.forall_mem_cons.1 hpending
    refine ih (compareFields_pairGrounded (fun x hx' => ?_) hrest hremaining)
    have hmem := List.of_mem_zip hx'
    exact ⟨h.elements.items hx _ hmem.1, h.elements.items hy _ hmem.2⟩

lemma safe_equals (h : heap.Grounded g) {a b : Item} (ha : a.Grounded g) (hb : b.Grounded g) :
    Safe (fun _ => True) (heap.equals a b) := by
  unfold equals
  split
  · next hp hq =>
    exact h.safe_comparePairs (List.forall_mem_singleton.2 (pairGrounded_of_known ha hb hp hq))
  · trivial
  · trivial

/-! ### Conversion -/

lemma newBuffer (h : heap.Grounded g) (bytes : Bytes) : Produces g (heap.newBuffer bytes) :=
  h.add (.buffer bytes) trivial

lemma newCompound (h : heap.Grounded g) (kind : CompoundKind) {items : List Item}
    (hitems : ∀ x ∈ items, x.Grounded g) : Produces g (heap.newCompound kind items) :=
  h.add (.compound kind items false) hitems

/-- A plain value together with the heap as it is. -/
lemma unchanged (h : heap.Grounded g) {x : Item} (hx : x.Grounded g) : Produces g (x, heap) :=
  ⟨g, le_rfl, hx, h⟩

/-- The heap does not change, or an object is added to it. -/
lemma safe_convertKnown (h : heap.Grounded g) {value : Item} (hvalue : value.Grounded g)
    (target : ItemType) : Safe (Produces g) (heap.convertKnown value target) := by
  unfold convertKnown
  split
  case h_1 => rfl
  case h_2 => exact (Item.safe_toBoolean? _).bind fun _ _ => h.unchanged (.constant (.boolean _))
  case h_3 | h_4 | h_5 =>
    exact (Item.safe_toInteger? _).bind fun _ _ => h.unchanged (.constant (.integer _))
  case h_6 handle =>
    have hhandle : g.type? handle = some .buffer := hvalue.anchored
    have hinteger (bytes : Bytes) : Safe (fun _ => True) (bufferInteger bytes) :=
      .ite (fun _ => trivial) fun _ => rfl
    exact (h.safe_bytes (Option.isSome_of_eq_some hhandle)).bind fun bytes _ =>
      (hinteger bytes).bind fun _ _ => h.unchanged (.constant (.integer _))
  case h_7 | h_8 | h_9 | h_10 =>
    exact (h.safe_bytesOf hvalue).bind fun _ _ => h.unchanged (.constant (.byteString _))
  case h_11 | h_12 | h_13 => exact (h.safe_bytesOf hvalue).bind fun _ _ => h.newBuffer _
  case h_14 | h_15 =>
    exact (h.safe_items (Option.isSome_of_eq_some hvalue.anchored)).bind
      fun _ hitems => h.newCompound _ hitems
  case h_16 => rfl

lemma safe_convert (h : heap.Grounded g) (id : Nat) {x : Item} (hx : x.Grounded g)
    (target : ItemType) : Safe (Produces g) (heap.convert id x target) := by
  unfold convert
  split
  · exact h.unchanged (.unknown _ _)
  · next value hknown =>
    exact .ite (fun _ => h.unchanged hx) fun _ => h.safe_convertKnown (hx.known hknown) target

end Heap.Grounded

end SymbolicScript
