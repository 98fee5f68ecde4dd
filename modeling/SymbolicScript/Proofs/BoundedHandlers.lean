import SymbolicScript.Proofs.BoundedArithmetic

/-!
# Instructions within bounds

The handlers that work on items and objects lead from states within bounds to states within bounds,
and they keep the frozen objects.  Integers come from few places besides arithmetic: constants,
lengths of byte strings and compounds, bytes of buffers, conversions, and counts that become
operands of derived variables.  Byte strings and buffers are created with a check of their size, or
they are parts of others, and no compound gets more elements than the stack may have items.

There is one lemma for each handler, and it follows the handler's text.
-/

namespace SymbolicScript

namespace Semantics

open Exec (Evolves)

variable {b : Bounds} {s₀ : State} {config : Config}

/-! ## Moving items -/

lemma evolves_copyFrom (index : Nat) : Evolves b s₀ (copyFrom index) fun _ => True :=
  (Exec.evolves_peek index).bind fun _ hx => Exec.evolves_push hx

lemma evolves_removeAt (index : Nat) :
    Evolves b s₀ (Exec.modifyStack fun s => (s.removeAt index).2) fun _ => True :=
  Exec.evolves_modifyStack fun _ hs => (hs.removeAt EvaluationStack.extension_within index).2

lemma evolves_moveUp (index : Nat) : Evolves b s₀ (moveUp index) fun _ => True :=
  Exec.evolves_modifyStack fun _ hs =>
    have hremoved := hs.removeAt EvaluationStack.extension_within index
    hremoved.2.push hremoved.1

lemma evolves_tuck : Evolves b s₀ tuck fun _ => True :=
  Exec.evolves_modifyStack fun _ hs =>
    have hpeeked := hs.peek EvaluationStack.extension_within 0
    hpeeked.2.insertAt EvaluationStack.extension_within hpeeked.1 2

lemma evolves_reverse (count : Nat) :
    Evolves b s₀ (Exec.modifyStack (·.reverse count)) fun _ => True :=
  Exec.evolves_modifyStack fun _ hs => hs.reverse EvaluationStack.extension_within count

lemma evolves_clear : Evolves b s₀ clear fun _ => True :=
  Exec.evolves_modifyStack fun s _ => .clear s

/-! ## Answers and pointers -/

lemma evolves_popMessage : Evolves b s₀ popMessage fun _ => True := by
  refine Exec.evolves_pop.bind fun _ _ => Exec.evolves_readHeap.bind fun _ _ => ?_
  split
  · exact .pure trivial
  · exact .pure trivial

lemma evolves_require (text : Option String) (i : Instruction) :
    Evolves b s₀ (require text i) fun _ => True :=
  (Exec.evolves_popBoolean _).bind fun _ _ => .ite (fun _ => .pure trivial) fun _ => .throw _

lemma evolves_pushAnswer (answer : Option Bool) :
    Evolves b s₀ (pushAnswer answer) fun _ => True := by
  cases answer with
  | none => exact (Exec.evolves_fresh .boolean).bind fun _ hx => Exec.evolves_push hx
  | some value => exact Exec.evolves_push (.boolean value)

lemma evolves_isNull : Evolves b s₀ isNull fun _ => True :=
  Exec.evolves_pop.bind fun _ _ => evolves_pushAnswer _

variable (i : Instruction)

lemma evolves_equal : Evolves b s₀ (equal i) fun _ => True :=
  Exec.evolves_pop.bind fun _ _ => Exec.evolves_pop.bind fun _ _ =>
    Exec.evolves_readHeap.bind fun _ _ => (Exec.evolves_any _).bind fun _ _ => evolves_pushAnswer _

lemma evolves_isType : Evolves b s₀ (isType i) fun _ => True :=
  (Exec.evolves_any _).bind fun _ _ => Exec.evolves_pop.bind fun _ _ => evolves_pushAnswer _

lemma evolves_pushPointer : Evolves b s₀ (pushPointer i) fun _ => True :=
  (Exec.evolves_any _).bind fun _ _ => Exec.evolves_world.bind fun _ _ =>
    .ite (fun _ => Exec.evolves_push (.pointer _)) fun _ => .throw _

/-! ## Variables -/

lemma evolves_variablesOf (kind : SlotKind) :
    Evolves b s₀ (variablesOf kind) (Variables.All (Item.Within b)) := by
  cases kind with
  | static => exact Exec.evolves_world.bind fun _ hw => .pure hw.statics
  | «local» => exact Exec.evolves_frame.bind fun _ hf => .pure hf.locals
  | argument => exact Exec.evolves_frame.bind fun _ hf => .pure hf.arguments

lemma evolves_setVariables (kind : SlotKind) {v : Variables} (hv : v.All (Item.Within b)) :
    Evolves b s₀ (setVariables kind v) fun _ => True := by
  cases kind with
  | static => exact Exec.evolves_modifyWorld (fun _ hw => { hw with statics := hv }) fun _ => rfl
  | «local» =>
    exact Exec.evolves_frame.bind fun _ hf => Exec.evolves_setFrame { hf with locals := hv }
  | argument =>
    exact Exec.evolves_frame.bind fun _ hf => Exec.evolves_setFrame { hf with arguments := hv }

lemma evolves_isTracked (kind : SlotKind) : Evolves b s₀ (isTracked kind) fun _ => True :=
  Exec.Maintains.get.bind fun _ _ => .pure trivial

lemma evolves_load (kind : SlotKind) (first : Opcode) :
    Evolves b s₀ (load kind first i) fun _ => True := by
  refine (Exec.evolves_any _).bind fun index _ => (evolves_variablesOf kind).bind fun v hv => ?_
  have hload : Evolves b s₀ (liftM (v.load index) : Exec Item) (Item.Within b) :=
    .lift fun _ hload => hv.load (.slot _ _) hload
  exact hload.bind fun _ hx => (evolves_isTracked kind).bind fun _ _ =>
    .ite (fun _ => (Exec.evolves_recordRead (.slot kind index) _).bind fun _ _ =>
      Exec.evolves_push hx) fun _ => Exec.evolves_push hx

lemma evolves_store (kind : SlotKind) (first : Opcode) :
    Evolves b s₀ (store kind first i) fun _ => True := by
  refine (Exec.evolves_any _).bind fun index _ => Exec.evolves_pop.bind fun x hx =>
    (evolves_variablesOf kind).bind fun v hv => ?_
  have hstore : Evolves b s₀ (liftM (v.store index x) : Exec Variables)
      (Variables.All (Item.Within b)) := .lift fun _ hstore => hv.store hx hstore
  exact hstore.bind fun _ hv' => (evolves_setVariables kind hv').bind fun _ _ =>
    (evolves_isTracked kind).bind fun _ _ =>
    .ite (fun _ => Exec.evolves_recordWrite (.slot kind index) _) fun _ => .pure trivial

/-- Variables may be initialized with items within the bounds. -/
lemma evolves_allocateWith (kind : SlotKind) (v : Variables) {items : List Item}
    (hitems : ∀ x ∈ items, x.Within b) :
    Evolves b s₀ (do setVariables kind (← v.allocateWith items)) fun _ => True :=
  have hallocate : Evolves b s₀ (liftM (v.allocateWith items) : Exec Variables)
      (Variables.All (Item.Within b)) := .lift fun _ hallocate => .allocateWith hitems hallocate
  hallocate.bind fun _ hv => evolves_setVariables kind hv

/-- Variables may be initialized with nulls. -/
lemma evolves_allocate (kind : SlotKind) (v : Variables) (count : Nat) :
    Evolves b s₀ (do setVariables kind (← v.allocate count)) fun _ => True :=
  evolves_allocateWith kind v fun x hx => by
    rw [List.eq_of_mem_replicate hx]
    exact .null

lemma evolves_allocateStatics : Evolves b s₀ (allocateStatics i) fun _ => True :=
  (Exec.evolves_any _).bind fun _ _ => .check fun _ _ =>
    (evolves_variablesOf .static).bind fun v _ => evolves_allocate .static v _

lemma evolves_allocateFrame : Evolves b s₀ (allocateFrame i) fun _ => True := by
  refine (Exec.evolves_any _).bind fun locals _ => (Exec.evolves_any _).bind fun arguments _ =>
    .check fun _ _ => Exec.evolves_frame.bind fun f _ => .check fun _ _ => .check fun _ _ =>
    (Exec.evolves_popMany arguments).bind fun values hvalues => ?_
  have hlocals : Evolves b s₀ (liftM (f.locals.allocate locals) : Exec Variables)
      (Variables.All (Item.Within b)) := .lift fun _ hallocate => .allocate .null hallocate
  exact hlocals.bind fun _ hv => (evolves_setVariables .local hv).bind fun _ _ =>
    evolves_allocateWith .argument f.arguments hvalues

/-! ## Objects and storage -/

/-- Changing the elements of a compound, where that succeeds. -/
lemma evolves_modifyItems {handle : Nat} {change : List Item → Except ExecutionError (List Item)}
    (hchange : ∀ items changed, b.count items.length → (∀ x ∈ items, x.Within b) →
      change items = .ok changed → b.count changed.length ∧ ∀ x ∈ changed, x.Within b) :
    Evolves b s₀ (modifyItems handle change) fun _ => True :=
  Exec.evolves_heap fun _ _ hs hheap hwithin => Exec.leaves_lift_bind hs fun _ hchanged =>
    Exec.leaves_setHeap hs hheap (hwithin.modifyItems hchange hchanged)
      (Heap.keepsFrozen_of_modifyItems hchanged)

/-- Changing the bytes of a buffer, but not how many there are. -/
lemma evolves_modifyBytes {handle : Nat} {change : Bytes → Except ExecutionError Bytes}
    (hchange : ∀ bytes changed, change bytes = .ok changed → changed.length = bytes.length) :
    Evolves b s₀ (modifyBytes handle change) fun _ => True :=
  Exec.evolves_heap fun _ _ hs hheap hwithin => Exec.leaves_lift_bind hs fun _ hchanged =>
    Exec.leaves_setHeap hs hheap (hwithin.modifyBytes hchange hchanged)
      (Heap.keepsFrozen_of_modifyBytes hchanged)

/-- Overwriting bytes changes their number at most where it fails. -/
lemma length_overwrite {opcode : Opcode} {index : Nat} {source bytes changed : Bytes}
    (h : overwrite opcode index source bytes = .ok changed) : changed.length = bytes.length := by
  unfold overwrite at h
  split at h
  · cases h
    simp only [List.length_append, List.length_take, List.length_drop]
    omega
  · cases h

lemma evolves_reverseItems : Evolves b s₀ (reverseItems i) fun _ => True := by
  refine Exec.evolves_pop.bind fun _ _ => (Exec.evolves_any _).bind fun target _ => ?_
  cases target with
  | items handle =>
    refine evolves_modifyItems ?_
    rintro items _ hlength hitems ⟨⟩
    exact ⟨by rwa [List.length_reverse], fun x hx => hitems x (List.mem_reverse.1 hx)⟩
  | bytes handle =>
    refine evolves_modifyBytes ?_
    rintro bytes _ ⟨⟩
    exact List.length_reverse

/-- A compound with as many equal elements as popped. -/
lemma evolves_pushReplicate (kind : CompoundKind) {size : Nat} (hsize : b.count size) {x : Item}
    (hx : x.Within b) : Evolves b s₀ (Exec.pushCompound kind (List.replicate size x))
      fun _ => True :=
  Exec.evolves_pushCompound _ (by rwa [List.length_replicate]) fun y hy => by
    rwa [List.eq_of_mem_replicate hy]

lemma evolves_modifyStorage {change : StorageView → StorageView}
    (hchange : ∀ view : StorageView, view.All (Item.Within b) →
      (change view).All (Item.Within b)) :
    Evolves b s₀ (modifyStorage change) fun _ => True :=
  Exec.evolves_modifyWorld (fun _ hw => { hw with
    storage := by
      rintro _ ⟨⟩
      exact hchange _ hw.getD_storage }) fun _ => rfl

section

variable (hb : b.Admits config)
include hb

/-! ## Counts and constants -/

lemma evolves_popDepth (opcode : Opcode) : Evolves b s₀ (popDepth opcode) fun _ => True :=
  (Exec.evolves_popCount hb opcode).bind fun _ _ => .ite (fun _ => .pure trivial) fun _ => .throw _

/-- A popped size is a number of elements within the bounds. -/
lemma evolves_popSize (opcode : Opcode) : Evolves b s₀ (popSize opcode) b.count :=
  (Exec.evolves_popCount hb opcode).bind fun size _ =>
    .ite (fun hsize => .pure (hb.elements size hsize)) fun _ => .throw _

/-- The bytes of an item within bounds. -/
lemma evolves_bytesOf {x : Item} (hx : x.Within b) :
    Evolves b s₀ (bytesOf x) fun bytes => b.length (bytes.getD []).length :=
  Exec.evolves_readHeap.bind fun _ hheap => .lift fun _ hbytes => hheap.bytesOf hb hx hbytes

lemma evolves_pushData : Evolves b s₀ (pushData config i) fun _ => True :=
  .check fun hlength _ =>
    Exec.evolves_push (.byteString (hb.item _ (Nat.le_of_not_lt hlength)))

/-- The constant that the opcode itself says is small. -/
lemma evolves_pushSmall : Evolves b s₀ (pushSmall i) fun _ => True := by
  have hbyte := i.opcode.byte.toNat_lt
  have hzero := Opcode.push0.byte.toNat_lt
  have hmax : Limits.word = 18446744073709551615 := rfl
  exact Exec.evolves_push (.integer (hb.fits _ (fits_of_natAbs_le_word (by omega))))

/-! ## Bytes -/

/-- A size that is not too large is a length within the bounds. -/
lemma evolves_checkSize (size : Nat) :
    Evolves b s₀ (liftM (checkSize config size) : Exec Unit) fun _ => b.length size :=
  .lift fun _ hchecked => by
    unfold checkSize at hchecked
    split at hchecked
    · cases hchecked
    · next hsize => exact hb.item _ (Nat.le_of_not_lt hsize)

lemma evolves_newBuffer : Evolves b s₀ (newBuffer config i) fun _ => True := by
  refine Exec.evolves_pop.bind fun length hlength => (Exec.evolves_any _).bind fun value _ => ?_
  cases value with
  | none => exact Exec.evolves_push (.derived (List.forall_mem_singleton.2 hlength))
  | some value =>
    exact .check fun _ _ => (evolves_checkSize hb value.toNat).bind fun _ hsize =>
      Exec.evolves_pushBuffer (by rwa [List.length_replicate])

/-- A part of bytes within bounds. -/
lemma slice_within {opcode : Opcode} {bytes part : Bytes} {index count : Nat}
    (hbytes : b.length bytes.length) (hpart : slice opcode bytes index count = .ok part) :
    b.length part.length := by
  unfold slice at hpart
  split at hpart
  · cases hpart
    refine hb.part _ _ ?_ hbytes
    simp only [List.length_take, List.length_drop]
    omega
  · cases hpart

lemma evolves_memcpy : Evolves b s₀ (memcpy i) fun _ => True := by
  unfold memcpy
  refine (Exec.evolves_popCount hb _).bind fun _ _ => (Exec.evolves_popCount hb _).bind fun _ _ =>
    Exec.evolves_pop.bind fun _ hsource => (evolves_bytesOf hb hsource).bind fun _ _ =>
    (Exec.evolves_demand (P := fun _ => True) _ fun _ _ => trivial).bind fun _ _ =>
    (Exec.evolves_any _).bind fun _ _ =>
    (Exec.evolves_popCount hb _).bind fun _ _ => Exec.evolves_pop.bind fun target _ => ?_
  split
  · exact evolves_modifyBytes fun _ _ => length_overwrite
  · exact .throw _
  · exact .throw _

lemma evolves_concat : Evolves b s₀ (concat config i) fun _ => True := by
  refine Exec.evolves_pop.bind fun y hy => Exec.evolves_pop.bind fun x hx =>
    (evolves_bytesOf hb hx).bind fun first hfirst =>
    (evolves_bytesOf hb hy).bind fun second hsecond => ?_
  split
  · next first second =>
    exact (evolves_checkSize hb _).bind fun _ hsize =>
      Exec.evolves_pushBuffer (by rwa [List.length_append])
  · exact Exec.evolves_push (.derived (List.forall_mem_cons.2 ⟨hx, List.forall_mem_singleton.2 hy⟩))

lemma evolves_substring : Evolves b s₀ (substring i) fun _ => True := by
  refine (Exec.evolves_popCount hb _).bind fun count hcount =>
    (Exec.evolves_popCount hb _).bind fun index hindex =>
    Exec.evolves_pop.bind fun x hx => (evolves_bytesOf hb hx).bind fun bytes hbytes => ?_
  have hitem : ∀ n : Nat, b.integer n → (countItem n).Within b := fun _ hn =>
    .constant (.integer hn)
  cases bytes with
  | none =>
    exact Exec.evolves_push (.derived (List.forall_mem_cons.2 ⟨hx, List.forall_mem_cons.2
      ⟨hitem index hindex, List.forall_mem_singleton.2 (hitem count hcount)⟩⟩))
  | some bytes =>
    have hpart : Evolves b s₀ (liftM (slice i.opcode bytes index count) : Exec Bytes)
        fun part => b.length part.length := .lift fun _ hpart => slice_within hb hbytes hpart
    exact hpart.bind fun _ hlength => Exec.evolves_pushBuffer hlength

lemma evolves_takeEnd {part : Nat → Bytes → Bytes}
    (hpart : ∀ count bytes, (part count bytes).length ≤ bytes.length) :
    Evolves b s₀ (takeEnd part i) fun _ => True := by
  refine (Exec.evolves_popCount hb _).bind fun count hcount => Exec.evolves_pop.bind fun x hx =>
    (evolves_bytesOf hb hx).bind fun bytes hbytes => ?_
  cases bytes with
  | none =>
    have hitem : (countItem count).Within b := .constant (.integer hcount)
    exact Exec.evolves_push
      (.derived (List.forall_mem_cons.2 ⟨hx, List.forall_mem_singleton.2 hitem⟩))
  | some bytes =>
    exact .ite (fun _ => Exec.evolves_pushBuffer (hb.part _ _ (hpart count bytes) hbytes))
      fun _ => .throw _

/-! ## Types -/

lemma evolves_convert : Evolves b s₀ (convert i) fun _ => True :=
  (Exec.evolves_any _).bind fun _ _ => Exec.evolves_pop.bind fun _ hx =>
    Exec.evolves_freshId.bind fun _ _ => Exec.evolves_heap fun _ _ hs hheap hwithin =>
    Exec.leaves_lift_bind hs fun _ hproduced =>
    have hconverted := hwithin.convert hb hx hproduced
    (Exec.leaves_setHeap hs hheap hconverted.2
      (Heap.extends_of_convert hproduced).keepsFrozen).bind fun _ _ =>
    Exec.evolves_push hconverted.1

/-! ## Compounds -/

lemma evolves_pack : Evolves b s₀ (pack i) fun _ => True := by
  refine (evolves_popSize hb _).bind fun size hsize => ?_
  have hpopped : Evolves b s₀ (Exec.popMany size) fun items =>
      b.count items.length ∧ ∀ x ∈ items, x.Within b :=
    Exec.evolves_onStack fun s hs => by
      refine ⟨⟨?_, (hs.popMany EvaluationStack.extension_within size).1⟩,
        (hs.popMany EvaluationStack.extension_within size).2⟩
      rw [EvaluationStack.popMany_fst, List.length_map, List.length_range]
      exact hsize
  exact hpopped.bind fun _ hitems => Exec.evolves_pushCompound _ hitems.1 hitems.2

lemma evolves_unpack : Evolves b s₀ (unpack i) fun _ => True := by
  refine Exec.evolves_pop.bind fun _ _ => (Exec.evolves_any _).bind fun handle _ =>
    Exec.evolves_readHeap.bind fun heap hheap => ?_
  have hitems : Evolves b s₀ (liftM (heap.items handle) : Exec (List Item)) fun items =>
      b.count items.length ∧ ∀ x ∈ items, x.Within b := .lift fun _ hitems => hheap.items hitems
  refine hitems.bind fun items hwithin => ?_
  have hpushed : ∀ x ∈ items.map Item.constant, x.Within b := by
    intro x hx
    obtain ⟨y, hy, rfl⟩ := List.mem_map.1 hx
    exact (hwithin.2 y hy).constant
  exact (Exec.evolves_modifyStack fun _ hs => hs.pushAll hpushed).bind fun _ _ =>
    Exec.evolves_push (.integer (hb.sizeOfCompound _ hwithin.1))

lemma evolves_newEmpty : Evolves b s₀ (newEmpty i) fun _ => True :=
  Exec.evolves_pushCompound _ hb.noElements (List.forall_mem_nil _)

lemma evolves_newSized : Evolves b s₀ (newSized i) fun _ => True :=
  (evolves_popSize hb _).bind fun _ hsize => evolves_pushReplicate _ hsize .null

/-- The initial values of array elements are within the bounds. -/
lemma defaultItem_within (type : ItemType) : (defaultItem type).Within b := by
  cases type with
  | boolean => exact .constant (.boolean _)
  | integer => exact .constant (.integer (hb.fits 0 (fits_of_natAbs_le_word (by decide))))
  | byteString => exact .constant (.byteString hb.noBytes)
  | _ => exact .constant .null

lemma evolves_newTyped : Evolves b s₀ (newTyped i) fun _ => True := by
  refine (Exec.evolves_any _).bind fun byte _ => ?_
  split
  · exact .throw _
  · next type _ =>
    exact (evolves_popSize hb _).bind fun _ hsize =>
      evolves_pushReplicate .array hsize (defaultItem_within hb type)

lemma evolves_size : Evolves b s₀ (size i) fun _ => True := by
  refine Exec.evolves_pop.bind fun x hx => ?_
  split
  · exact Exec.evolves_push (.derived (List.forall_mem_singleton.2 hx))
  · next value hknown =>
    refine Exec.evolves_readHeap.bind fun heap hheap => ?_
    have hsize : Evolves b s₀ (liftM (sizeOf heap value) : Exec Nat) fun n => b.integer n :=
      .lift fun _ hsize => hheap.sizeOf hb (hx.known hknown) hsize
    exact hsize.bind fun _ hn => Exec.evolves_push (.integer hn)

lemma evolves_pickItem : Evolves b s₀ (pickItem i) fun _ => True := by
  refine Exec.evolves_pop.bind fun key hkey => Exec.evolves_pop.bind fun x hx =>
    .ite (fun _ => Exec.evolves_push (.derived
      (List.forall_mem_cons.2 ⟨hx, List.forall_mem_singleton.2 hkey⟩))) fun _ =>
    Exec.evolves_readHeap.bind fun heap hheap => ?_
  have helement : Evolves b s₀ (liftM (element i.opcode heap x key) : Exec Item)
      (Item.Within b) := .lift fun _ helement => hheap.element hb helement
  exact helement.bind fun _ hy => Exec.evolves_push hy

lemma evolves_append : Evolves b s₀ (append i) fun _ => True := by
  refine Exec.evolves_pop.bind fun _ hx => Exec.evolves_pop.bind fun _ _ =>
    (Exec.evolves_any _).bind fun _ _ => (Exec.evolves_cloneStruct hb hx).bind fun copy hcopy =>
    evolves_modifyItems fun items changed _ hitems hchanged => ?_
  split at hchanged
  · next hroom =>
    cases hchanged
    refine ⟨hb.elements _ ?_, List.forall_mem_append.2 ⟨hitems, List.forall_mem_singleton.2 hcopy⟩⟩
    rw [List.length_append]
    exact hroom
  · cases hchanged

lemma evolves_setItem : Evolves b s₀ (setItem i) fun _ => True := by
  refine Exec.evolves_pop.bind fun value hvalue => Exec.evolves_pop.bind fun key _ =>
    Exec.evolves_pop.bind fun _ _ => (Exec.evolves_any _).bind fun target _ => ?_
  cases target with
  | items handle =>
    refine (Exec.evolves_cloneStruct hb hvalue).bind fun copy hcopy =>
      evolves_modifyItems fun items changed hlength hitems hchanged => ?_
    obtain ⟨index, -, hset⟩ := except_bind_eq_ok.1 hchanged
    cases hset
    refine ⟨by rwa [List.length_set], fun x hx => ?_⟩
    rcases List.mem_or_eq_of_mem_set hx with hold | rfl
    · exact hitems x hold
    · exact hcopy
  | bytes handle =>
    refine (Exec.evolves_any _).bind fun byte _ =>
      evolves_modifyBytes fun bytes changed hchanged => ?_
    obtain ⟨index, -, hset⟩ := except_bind_eq_ok.1 hchanged
    cases hset
    exact List.length_set

lemma evolves_remove : Evolves b s₀ (remove i) fun _ => True := by
  refine Exec.evolves_pop.bind fun _ _ => Exec.evolves_pop.bind fun _ _ =>
    (Exec.evolves_any _).bind fun _ _ =>
    evolves_modifyItems fun items changed hlength hitems hchanged => ?_
  obtain ⟨index, -, herased⟩ := except_bind_eq_ok.1 hchanged
  cases herased
  exact ⟨hb.fewer _ _ (List.length_eraseIdx_le _ _) hlength, fun x hx =>
    hitems x (List.mem_of_mem_eraseIdx hx)⟩

lemma evolves_clearItems : Evolves b s₀ (clearItems i) fun _ => True := by
  refine Exec.evolves_pop.bind fun _ _ => (Exec.evolves_any _).bind fun _ _ =>
    evolves_modifyItems ?_
  rintro items _ - - ⟨⟩
  exact ⟨hb.noElements, List.forall_mem_nil _⟩

lemma evolves_popItem : Evolves b s₀ (popItem i) fun _ => True := by
  refine Exec.evolves_pop.bind fun _ _ => (Exec.evolves_any _).bind fun handle _ =>
    Exec.evolves_readHeap.bind fun heap hheap => ?_
  have hmodify : Evolves b s₀ (modifyItems handle fun items =>
      if items.isEmpty then .error (.outOfRange i.opcode (-1)) else .ok items.dropLast)
      fun _ => True := evolves_modifyItems fun items changed hlength hitems hchanged => by
    split at hchanged
    · cases hchanged
    · cases hchanged
      refine ⟨hb.fewer _ _ ?_ hlength, fun x hx => hitems x (List.dropLast_subset _ hx)⟩
      rw [List.length_dropLast]
      omega
  refine hmodify.bind fun _ _ => ?_
  have hitems : Evolves b s₀ (liftM (heap.items handle) : Exec (List Item)) fun items =>
      ∀ x ∈ items, x.Within b := .lift fun _ hitems => (hheap.items hitems).2
  exact hitems.bind fun _ hwithin => Exec.evolves_push (.getLastD hwithin)

/-! ## Storage -/

/-- A popped key is the popped item, or its bytes. -/
lemma evolves_popKey : Evolves b s₀ popKey (Item.Within b) := by
  refine Exec.evolves_pop.bind fun key hkey => Exec.evolves_readHeap.bind fun heap hheap => ?_
  have hread : Evolves b s₀ (liftM (heap.bytesOf key) : Exec (Option Bytes))
      fun bytes => b.length (bytes.getD []).length :=
    .lift fun _ hbytes => hheap.bytesOf hb hkey hbytes
  refine hread.bind fun bytes hbytes => ?_
  cases bytes with
  | none => exact .pure hkey
  | some bytes => exact .pure (.constant (.byteString hbytes))

lemma evolves_storageGet : Evolves b s₀ (storageGet i) fun _ => True :=
  Exec.evolves_pop.bind fun _ _ => (evolves_popKey hb).bind fun _ hkey =>
    (Exec.evolves_recordRead hkey.storage _).bind fun _ _ =>
    (evolves_modifyStorage fun _ h => h).bind fun _ _ => Exec.evolves_world.bind fun _ hw =>
    Exec.evolves_freshId.bind fun _ _ =>
    Exec.evolves_push (hw.getD_storage.get hkey.storage .null (.unknown _ _))

lemma evolves_storagePut : Evolves b s₀ (storagePut i) fun _ => True :=
  Exec.evolves_pop.bind fun _ _ => (evolves_popKey hb).bind fun _ hkey =>
    Exec.evolves_pop.bind fun _ hvalue => (Exec.evolves_recordWrite hkey.storage _).bind fun _ _ =>
    evolves_modifyStorage fun _ h => h.set hkey (by
      rintro _ ⟨⟩
      exact hvalue)

lemma evolves_storageDelete : Evolves b s₀ (storageDelete i) fun _ => True :=
  Exec.evolves_pop.bind fun _ _ => (evolves_popKey hb).bind fun _ hkey =>
    (Exec.evolves_recordWrite hkey.storage _).bind fun _ _ =>
    evolves_modifyStorage fun _ h => h.set hkey nofun

lemma evolves_syscall : Evolves b s₀ (syscall i) fun _ => True := by
  refine (Exec.evolves_any _).bind fun hash _ => ?_
  split
  · exact .throw _
  · exact (Exec.evolves_fresh _).bind fun _ hx => Exec.evolves_push hx
  · exact (Exec.evolves_fresh _).bind fun _ hx => Exec.evolves_push hx
  · exact evolves_storageGet i hb
  · exact evolves_storagePut i hb
  · exact evolves_storageDelete i hb

end

end Semantics

end SymbolicScript
