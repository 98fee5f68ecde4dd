import SymbolicScript.Heap.Conversion
import SymbolicScript.Proofs.HeapAccess
import SymbolicScript.Proofs.IntegerRange

/-!
# Conversions between primitives are coherent

The same bytes are read in three ways: as an integer, as a truth value, and as a buffer.  There is
one way in which integers are written as bytes, their shortest form.  This file proves that all of
them agree (`Heap.conversions_coherent`).

The reason is that the shortest form of the integer that some bytes denote is a canonical form of
these bytes.  It denotes the same integer (`TwosComplement.toInt_minimal`), it is no longer than the
bytes, and it is the only one of its length (`TwosComplement.toInt_injective`).  And bytes denote
zero only if they are zeros themselves (`TwosComplement.toInt_eq_zero_iff`), so that their truth
value can be told without reading them as an integer.
-/

namespace SymbolicScript

namespace TwosComplement

variable {bytes bytes' : Bytes} {value : Int}

/-! ## The shortest form -/

/-- The shortest form of an integer denotes it. -/
@[simp] lemma toInt_minimal (value : Int) : toInt (minimal value) = value := by
  unfold minimal
  split
  · next hzero =>
    rw [hzero]
    rfl
  · exact toInt_encodeIn ((width_le_iff one_le_width).1 (Nat.le_refl _))

/-- The shortest form is no longer than any bytes that denote the integer. -/
lemma length_minimal_le (h : toInt bytes = value) : (minimal value).length ≤ bytes.length := by
  subst h
  cases bytes with
  | nil => exact (Nat.le_refl _)
  | cons byte rest =>
    exact (length_minimal_le_iff (Nat.le_add_left 1 rest.length)).2 (fits_toInt _)

/-- Bytes of the same number that denote the same integer are the same. -/
lemma toInt_injective (hlength : bytes.length = bytes'.length) (h : toInt bytes = toInt bytes') :
    bytes = bytes' := by
  have hlt := LittleEndian.toNat_lt bytes
  have hlt' := LittleEndian.toNat_lt bytes'
  have hnumbers : LittleEndian.toNat bytes = LittleEndian.toNat bytes' := by
    unfold toInt at h
    simp only [hlength] at h hlt
    -- A number from the upper half and one from the lower half differ by their signs.
    split at h <;> split at h <;> omega
  rw [← LittleEndian.ofNat_toNat bytes, ← LittleEndian.ofNat_toNat bytes', hlength, hnumbers]

/-! ## Zero -/

/-- Bytes are zero as a number if all of them are. -/
lemma toNat_eq_zero_iff (bytes : Bytes) :
    LittleEndian.toNat bytes = 0 ↔ ∀ byte ∈ bytes, byte = 0 := by
  induction bytes with
  | nil => simp [LittleEndian.toNat]
  | cons byte rest ih =>
    have hbyte : byte.toNat = 0 ↔ byte = 0 := UInt8.toNat_inj (b := 0)
    rw [LittleEndian.toNat, List.forall_mem_cons, ← ih, ← hbyte]
    omega

/-- Also as an integer. -/
lemma toInt_eq_zero_iff (bytes : Bytes) : toInt bytes = 0 ↔ ∀ byte ∈ bytes, byte = 0 := by
  have hlt := LittleEndian.toNat_lt bytes
  rw [← toNat_eq_zero_iff]
  unfold toInt
  simp only
  split <;> omega

/-- So whether a byte differs from zero tells whether the integer does. -/
lemma any_ne_zero_eq (bytes : Bytes) :
    bytes.any (fun byte => decide (byte ≠ 0)) = decide (toInt bytes ≠ 0) := by
  rw [Bool.eq_iff_iff, List.any_eq_true, decide_eq_true_iff, ne_eq, toInt_eq_zero_iff]
  simp

end TwosComplement

namespace Heap

/-! ## One conversion after the other -/

/-- Converts an item to several types, one after the other. -/
def convertAll (heap : Heap) (id : Nat) (x : Item) :
    List ItemType → Except ExecutionError (Item × Heap)
  | [] => .ok (x, heap)
  | type :: rest => do
    let (y, heap) ← heap.convert id x type
    heap.convertAll (id + 1) y rest

/-- The plain value that an item has once it has been converted to several types. -/
def valueAs (heap : Heap) (id : Nat) (x : Item) (types : List ItemType) :
    Except ExecutionError (Option Item) :=
  (heap.convertAll id x types).map fun produced => produced.1.known?

variable {heap heap' : Heap} {id handle : Nat} {x y : Item} {value : Int} {bytes : Bytes}
  {type : ItemType} {types : List ItemType}

lemma valueAs_nil : heap.valueAs id x [] = .ok x.known? :=
  rfl

lemma valueAs_cons (h : heap.convert id x type = .ok (y, heap')) :
    heap.valueAs id x (type :: types) = heap'.valueAs (id + 1) y types := by
  unfold valueAs
  rw [convertAll, h]
  rfl

lemma valueAs_error {e : ExecutionError} (h : heap.convert id x type = .error e) :
    heap.valueAs id x (type :: types) = .error e := by
  unfold valueAs
  rw [convertAll, h]
  rfl

/-! ## What a conversion gives -/

/-- A plain value of another type is converted. -/
lemma convert_of_known {plain : Item} (type : ItemType) (hx : x.known? = some plain)
    (htype : plain.type ≠ type) : heap.convert id x type = heap.convertKnown plain type := by
  unfold convert
  rw [hx]
  exact if_neg htype

/-- An item that has the type is not changed. -/
lemma convert_of_type {plain : Item} (type : ItemType) (hx : x.known? = some plain)
    (htype : plain.type = type) : heap.convert id x type = .ok (x, heap) := by
  unfold convert
  rw [hx]
  exact if_pos htype

section Integer

variable (hx : x.known? = some (.integer value))
include hx

lemma convert_integer_byteString : heap.convert id x .byteString =
    .ok (.const (.byteString (TwosComplement.minimal value)), heap) :=
  convert_of_known _ hx nofun

lemma convert_integer_buffer : heap.convert id x .buffer =
    .ok (heap.newBuffer (TwosComplement.minimal value)) :=
  convert_of_known _ hx nofun

lemma convert_integer_boolean : heap.convert id x .boolean =
    .ok (.const (.boolean (decide (value ≠ 0))), heap) :=
  convert_of_known _ hx nofun

end Integer

section ByteString

variable (hx : x.known? = some (.byteString bytes))
include hx

lemma convert_byteString_integer : heap.convert id x .integer =
    if bytes.length ≤ Limits.integerBytes then
      .ok (.const (.integer (TwosComplement.toInt bytes)), heap)
    else .error (.invalidCast .byteString .integer) := by
  rw [convert_of_known .integer hx nofun]
  change (Item.toInteger? (.byteString bytes) >>= _) = _
  unfold Item.toInteger?
  simp only [Item.known?]
  split <;> rfl

lemma convert_byteString_boolean : heap.convert id x .boolean =
    if bytes.length ≤ Limits.integerBytes then
      .ok (.const (.boolean (decide (TwosComplement.toInt bytes ≠ 0))), heap)
    else .error (.invalidCast .byteString .boolean) := by
  rw [convert_of_known .boolean hx nofun, ← TwosComplement.any_ne_zero_eq]
  change (Item.toBoolean? (.byteString bytes) >>= _) = _
  unfold Item.toBoolean?
  simp only [Item.known?]
  split <;> rfl

end ByteString

/-- A buffer is converted to the integer that its bytes denote. -/
lemma convert_buffer_integer (hx : x.known? = some (.buffer handle))
    (hobject : heap.objects[handle]? = some (.buffer bytes))
    (hlength : bytes.length ≤ Limits.integerBytes) :
    heap.convert id x .integer = .ok (.const (.integer (TwosComplement.toInt bytes)), heap) := by
  rw [convert_of_known .integer hx nofun]
  change (heap.bytes handle >>= fun found => bufferInteger found >>= _) = _
  rw [bytes_eq_ok.2 hobject]
  change (bufferInteger bytes >>= _) = _
  unfold bufferInteger
  rw [if_pos hlength]
  rfl

/-- A truth value has one byte. -/
lemma convert_boolean_byteString {truth : Bool} (hx : x.known? = some (.boolean truth)) :
    heap.convert id x .byteString =
      .ok (.const (.byteString [if truth then 1 else 0]), heap) :=
  convert_of_known _ hx nofun

/-! ## Conversions agree -/

/-- An integer that has been converted to its bytes can be converted back. -/
lemma valueAs_integer_back (hx : x.known? = some (.integer value)) (hvalue : InRange value) :
    heap.valueAs id x [.byteString, .integer] = .ok (some (.integer value)) ∧
      heap.valueAs id x [.buffer, .integer] = .ok (some (.integer value)) := by
  have hlength : (TwosComplement.minimal value).length ≤ Limits.integerBytes :=
    (TwosComplement.length_minimal_le_iff (by decide)).2 (inRange_iff.1 hvalue)
  constructor
  · rw [valueAs_cons (convert_integer_byteString hx),
      valueAs_cons ((convert_byteString_integer rfl).trans (if_pos hlength)),
      TwosComplement.toInt_minimal]
    rfl
  · have hobject : (heap.add (.buffer (TwosComplement.minimal value))).objects[heap.size]? =
        some (.buffer (TwosComplement.minimal value)) := by
      rw [getElem?_add, if_pos rfl]
    rw [valueAs_cons (convert_integer_buffer hx),
      valueAs_cons (convert_buffer_integer rfl hobject hlength), TwosComplement.toInt_minimal]
    rfl

/-- The integer that a byte string is converted to. -/
lemma valueAs_integer_of_byteString (hx : x.known? = some (.byteString bytes))
    (hlength : bytes.length ≤ Limits.integerBytes) :
    heap.valueAs id x [.integer] = .ok (some (.integer (TwosComplement.toInt bytes))) := by
  rw [valueAs_cons ((convert_byteString_integer hx).trans (if_pos hlength))]
  rfl

/-- The byte string that comes back. -/
lemma valueAs_byteString_back (hx : x.known? = some (.byteString bytes))
    (hlength : bytes.length ≤ Limits.integerBytes) :
    heap.valueAs id x [.integer, .byteString] =
      .ok (some (.byteString (TwosComplement.minimal (TwosComplement.toInt bytes)))) := by
  rw [valueAs_cons ((convert_byteString_integer hx).trans (if_pos hlength)),
    valueAs_cons (convert_integer_byteString rfl)]
  rfl

/-- The truth value of a primitive is that of its bytes. -/
lemma valueAs_boolean_through {plain : Item} (hx : x.known? = some plain)
    (hplain : (∃ truth, plain = .boolean truth) ∨
      (∃ value, plain = .integer value ∧ InRange value) ∨
      ∃ bytes, plain = .byteString bytes) :
    heap.valueAs id x [.byteString, .boolean] = heap.valueAs id x [.boolean] := by
  rcases hplain with ⟨truth, rfl⟩ | ⟨value, rfl, hvalue⟩ | ⟨bytes, rfl⟩
  · have hlength : ([if truth then 1 else 0] : Bytes).length ≤ Limits.integerBytes := by
      rw [List.length_singleton]
      decide
    rw [valueAs_cons (convert_boolean_byteString hx),
      valueAs_cons (convert_of_type .boolean hx rfl),
      valueAs_cons ((convert_byteString_boolean rfl).trans (if_pos hlength)), valueAs_nil,
      valueAs_nil, hx]
    cases truth <;> rfl
  · have hlength : (TwosComplement.minimal value).length ≤ Limits.integerBytes :=
      (TwosComplement.length_minimal_le_iff (by decide)).2 (inRange_iff.1 hvalue)
    rw [valueAs_cons (convert_integer_byteString hx), valueAs_cons (convert_integer_boolean hx),
      valueAs_cons ((convert_byteString_boolean rfl).trans (if_pos hlength)),
      TwosComplement.toInt_minimal]
    rfl
  · rw [valueAs_cons (convert_of_type .byteString hx rfl)]
    have hbytes (id : Nat) : heap.convert id x .boolean = _ := convert_byteString_boolean hx
    split at hbytes
    · rw [valueAs_cons (hbytes _), valueAs_cons (hbytes _)]
      rfl
    · rw [valueAs_error (hbytes _), valueAs_error (hbytes _)]

/-- Conversions between primitives are coherent, on every heap and for plain and wrapped items.  An
integer of 256 bits survives the way through its bytes, also in a buffer.  A byte string of up to 32
bytes comes back from an integer as the one shortest byte string that denotes this integer, and then
stays as it is; a buffer with its bytes is converted to the same integer, and its truth value is
whether the integer differs from zero.  The truth value of a primitive is that of its bytes, and
longer byte strings are neither integers nor truth values. -/
theorem conversions_coherent (heap : Heap) (id : Nat) :
    (∀ (x : Item) (value : Int), x.known? = some (.integer value) → InRange value →
      heap.valueAs id x [.byteString, .integer] = .ok (some (.integer value)) ∧
      heap.valueAs id x [.buffer, .integer] = .ok (some (.integer value))) ∧
    (∀ (x : Item) (bytes : Bytes), x.known? = some (.byteString bytes) →
      bytes.length ≤ Limits.integerBytes →
      ∃ (value : Int) (shortest : Bytes),
        heap.valueAs id x [.integer] = .ok (some (.integer value)) ∧
        heap.valueAs id x [.integer, .byteString] = .ok (some (.byteString shortest)) ∧
        shortest.length ≤ bytes.length ∧
        heap.valueAs id (.byteString shortest) [.integer] = .ok (some (.integer value)) ∧
        (∀ other : Bytes,
          heap.valueAs id (.byteString other) [.integer] = .ok (some (.integer value)) →
            shortest.length < other.length ∨ other = shortest) ∧
        heap.valueAs id (.byteString shortest) [.integer, .byteString] =
          .ok (some (.byteString shortest)) ∧
        (∀ (y : Item) (handle : Nat), y.known? = some (.buffer handle) →
          heap.objects[handle]? = some (.buffer bytes) →
            heap.valueAs id y [.integer] = .ok (some (.integer value))) ∧
        x.toBoolean? = .ok (some (decide (value ≠ 0))) ∧
        heap.valueAs id x [.boolean] = .ok (some (.boolean (decide (value ≠ 0))))) ∧
    (∀ x plain : Item, x.known? = some plain →
      (∃ truth, plain = .boolean truth) ∨
          (∃ value, plain = .integer value ∧ InRange value) ∨
          (∃ bytes, plain = .byteString bytes) →
      heap.valueAs id x [.byteString, .boolean] = heap.valueAs id x [.boolean]) ∧
    (∀ (x : Item) (bytes : Bytes), x.known? = some (.byteString bytes) →
      Limits.integerBytes < bytes.length →
      heap.valueAs id x [.integer] = .error (.invalidCast .byteString .integer) ∧
      heap.valueAs id x [.boolean] = .error (.invalidCast .byteString .boolean)) := by
  refine ⟨fun x value hx hvalue => valueAs_integer_back hx hvalue, fun x bytes hx hlength => ?_,
    fun x plain hx hplain => valueAs_boolean_through hx hplain, fun x bytes hx hlength => ?_⟩
  · have hshorter : (TwosComplement.minimal (TwosComplement.toInt bytes)).length ≤ bytes.length :=
      TwosComplement.length_minimal_le rfl
    have hback (id : Nat) : heap.valueAs id
        (.byteString (TwosComplement.minimal (TwosComplement.toInt bytes))) [.integer] =
          .ok (some (.integer (TwosComplement.toInt bytes))) := by
      rw [valueAs_integer_of_byteString rfl (Nat.le_trans hshorter hlength),
        TwosComplement.toInt_minimal]
    refine ⟨TwosComplement.toInt bytes, TwosComplement.minimal (TwosComplement.toInt bytes),
      valueAs_integer_of_byteString hx hlength, valueAs_byteString_back hx hlength, hshorter,
      hback id, fun other hother => ?_, ?_, fun y handle hy hobject => ?_, ?_, ?_⟩
    · -- the shortest one
      have hdenotes : TwosComplement.toInt other = TwosComplement.toInt bytes := by
        by_cases hle : other.length ≤ Limits.integerBytes
        · rw [valueAs_integer_of_byteString rfl hle] at hother
          exact Item.integer.inj (Option.some.inj (Except.ok.inj hother))
        · rw [valueAs_error ((convert_byteString_integer rfl).trans (if_neg hle))] at hother
          cases hother
      rcases Nat.lt_or_eq_of_le (TwosComplement.length_minimal_le hdenotes) with hlt | heq
      · exact .inl hlt
      · refine .inr (TwosComplement.toInt_injective heq.symm ?_)
        rw [TwosComplement.toInt_minimal, hdenotes]
    · rw [valueAs_byteString_back rfl (Nat.le_trans hshorter hlength),
        TwosComplement.toInt_minimal]
    · rw [valueAs_cons (convert_buffer_integer hy hobject hlength)]
      rfl
    · unfold Item.toBoolean?
      rw [hx, ← TwosComplement.any_ne_zero_eq]
      exact if_pos hlength
    · rw [valueAs_cons ((convert_byteString_boolean hx).trans (if_pos hlength))]
      rfl
  · have hlong : ¬bytes.length ≤ Limits.integerBytes := Nat.not_le.2 hlength
    exact ⟨valueAs_error ((convert_byteString_integer hx).trans (if_neg hlong)),
      valueAs_error ((convert_byteString_boolean hx).trans (if_neg hlong))⟩

/-- A byte string with a redundant sign byte, which denotes -128. -/
def redundantBytes : Bytes := [0x80, 0xff]

/-- It comes back without the sign byte, the least integer survives, and 33 zeros are too long. -/
theorem conversions_coherent_redundantBytes :
    empty.valueAs 0 (.const (.byteString redundantBytes)) [.integer, .byteString] =
      .ok (some (.byteString [0x80])) ∧
    (∃ value, empty.valueAs 0 (.const (.byteString redundantBytes)) [.integer] =
        .ok (some (.integer value)) ∧
      (Item.const (.byteString redundantBytes)).toBoolean? = .ok (some (decide (value ≠ 0)))) ∧
    empty.valueAs 0 (.integer (-(Nat.pow 2 255))) [.buffer, .integer] =
      .ok (some (.integer (-(Nat.pow 2 255)))) ∧
    empty.valueAs 0 (.integer 128) [.byteString, .boolean] =
      empty.valueAs 0 (.integer 128) [.boolean] ∧
    empty.valueAs 0 (.byteString (List.replicate 33 0)) [.boolean] =
      .error (.invalidCast .byteString .boolean) := by
  obtain ⟨hintegers, hbytes, hprimitives, hlong⟩ := conversions_coherent empty 0
  obtain ⟨value, shortest, hvalue, hback, -, -, -, -, -, htruth, -⟩ :=
    hbytes (.const (.byteString redundantBytes)) redundantBytes rfl (by decide)
  refine ⟨?_, ⟨value, hvalue, htruth⟩, (hintegers _ _ rfl (by decide)).2,
    hprimitives _ _ rfl (.inr (.inl ⟨128, rfl, by decide⟩)), (hlong _ _ rfl (by decide)).2⟩
  have hshortest : shortest = [0x80] := by
    have hcomputed : empty.valueAs 0 (.const (.byteString redundantBytes)) [.integer, .byteString] =
        .ok (some (.byteString [0x80])) := by rfl
    rw [hback] at hcomputed
    cases hcomputed
    rfl
  rw [hback, hshortest]

end Heap

end SymbolicScript
