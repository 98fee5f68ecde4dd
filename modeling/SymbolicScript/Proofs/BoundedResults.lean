import SymbolicScript.Machine.Handler
import SymbolicScript.Proofs.BoundedItems
import SymbolicScript.Proofs.CopyInvariants
import SymbolicScript.Proofs.HeapGrowth
import SymbolicScript.Proofs.IntegerOperands

/-!
# Results within bounds

What instructions compute from items that are within bounds is within bounds again.  Most results of
arithmetic are checked for their size before they are pushed.  The others need a reason: the sign of
an integer and the bytes of a buffer are small, the smaller of two integers is one of the two, and a
byte string becomes an integer only if it has no more bytes than an integer may have.

Copies and conversions keep lengths and elements, and they change no object that has been there.
-/

namespace SymbolicScript

open TwosComplement (Fits)

variable {b : Bounds}

/-- Integers that count something, and their negatives, fit. -/
lemma fits_of_natAbs_le_word {value : Int} (h : value.natAbs ≤ Limits.word) :
    Fits Limits.integerBytes value := by
  have hword : Fits 9 value := by
    have hspan : Nat.pow 256 9 = 4722366482869645213696 := rfl
    have hmax : Limits.word = 18446744073709551615 := rfl
    unfold Fits
    omega
  exact hword.mono (by decide)

namespace Bounds.Admits

variable {config : Config} (hb : b.Admits config)
include hb

/-- The empty byte string is within the bounds. -/
lemma noBytes : b.length 0 :=
  hb.item 0 (Nat.zero_le _)

/-- A single byte, which is what the integer 1 becomes, is within the bounds. -/
lemma oneByte : b.length 1 :=
  hb.minimal 1 (hb.fits 1 (fits_of_natAbs_le_word (by decide)))

/-- The compound without elements is within the bounds. -/
lemma noElements : b.count 0 :=
  hb.elements 0 (Nat.zero_le _)

/-- The length of an object within the bounds is within them as an integer. -/
lemma objectLength {object : HeapObject} (h : object.Within b) : b.integer object.length := by
  cases object with
  | buffer bytes => exact hb.size _ h.length
  | compound kind items readOnly => exact hb.sizeOfCompound _ h.length

end Bounds.Admits

/-! ## Integers of items -/

/-- The integer that an item within bounds counts as is within them. -/
lemma Item.Within.toInteger? (hfits : ∀ value, Fits Limits.integerBytes value → b.integer value)
    {x : Item} (hx : x.Within b) {value : Int} (h : x.toInteger? = .ok (some value)) :
    b.integer value := by
  unfold Item.toInteger? at h
  split at h
  case h_1 => cases h
  case h_2 number hknown =>
    cases h
    exact (hx.known hknown).bounded
  case h_3 truth _ =>
    cases h
    refine hfits _ (fits_of_natAbs_le_word ?_)
    cases truth <;> decide
  case h_4 bytes _ =>
    split at h
    · next hlength =>
      cases h
      exact hfits _ ((TwosComplement.fits_toInt bytes).mono hlength)
    · cases h
  case h_5 => cases h

namespace Semantics

variable (hfits : ∀ value, Fits Limits.integerBytes value → b.integer value)
include hfits

/-- The integers that items within bounds count as are within them. -/
lemma integers_within {operands : List Item} (hoperands : ∀ x ∈ operands, x.Within b)
    {values : List Int} (h : integers operands = .ok (some values)) :
    ∀ value ∈ values, b.integer value := by
  intro value hvalue
  obtain ⟨x, hx, hread⟩ := exists_mem_of_forall₂ (integers_eq_some_iff.1 h).flip hvalue
  exact (hoperands x hx).toInteger? hfits hread

/-! ## Arithmetic -/

/-- A result whose size is checked is within the bounds. -/
lemma within_of_bounded {opcode : Opcode} {value : Int} {x : Item}
    (h : bounded opcode value = .ok x) : x.Within b := by
  unfold bounded at h
  split at h
  · next hlength =>
    cases h
    exact .integer (hfits value ((TwosComplement.length_minimal_le_iff (by decide)).1 hlength))
  · cases h

/-- The result of an instruction on one integer. -/
lemma unaryResult_within {opcode : Opcode} {value : Int} {x : Item}
    (h : unaryResult opcode value = .ok x) : x.Within b := by
  unfold unaryResult at h
  split at h
  case h_2 =>
    cases h
    refine .integer (hfits _ (fits_of_natAbs_le_word ?_))
    rcases Int.lt_trichotomy value 0 with hneg | rfl | hpos
    · rw [Int.sign_eq_neg_one_of_neg hneg]
      decide
    · decide
    · rw [Int.sign_eq_one_of_pos hpos]
      decide
  case h_7 =>
    split at h
    · cases h
    · exact within_of_bounded hfits h
  case h_8 =>
    cases h
    exact .boolean _
  case h_9 => cases h
  all_goals exact within_of_bounded hfits h

/-- The result of an instruction on two integers. -/
lemma binaryResult_within {opcode : Opcode} {value value' : Int} {x : Item}
    (hvalue : b.integer value) (hvalue' : b.integer value')
    (h : binaryResult opcode value value' = .ok x) : x.Within b := by
  unfold binaryResult at h
  split at h
  case h_1 | h_2 | h_3 | h_4 | h_5 | h_6 => exact within_of_bounded hfits h
  case h_7 | h_8 | h_9 | h_10 | h_11 =>
    obtain ⟨_, -, hresult⟩ := except_bind_eq_ok.1 h
    exact within_of_bounded hfits hresult
  case h_18 =>
    cases h
    refine .integer ?_
    rw [Int.min_def]
    split <;> assumption
  case h_19 =>
    cases h
    refine .integer ?_
    rw [Int.max_def]
    split <;> assumption
  case h_20 => cases h
  all_goals
    cases h
    exact .boolean _

/-- The result of an instruction on three integers. -/
lemma ternaryResult_within {opcode : Opcode} {value value' value'' : Int} {x : Item}
    (h : ternaryResult opcode value value' value'' = .ok x) : x.Within b := by
  unfold ternaryResult at h
  split at h
  case h_1 | h_2 =>
    obtain ⟨_, -, hresult⟩ := except_bind_eq_ok.1 h
    exact within_of_bounded hfits hresult
  case h_3 =>
    cases h
    exact .boolean _
  case h_4 => cases h

end Semantics

/-! ## Results that look at the heap -/

namespace Heap.Within

variable {config : Config} (hb : b.Admits config) {heap : Heap} (h : heap.Within b)
include hb h

/-- The bytes of an item within bounds are within them. -/
lemma bytesOf {x : Item} (hx : x.Within b) {bytes : Option Bytes}
    (hbytes : heap.bytesOf x = .ok bytes) : b.length (bytes.getD []).length := by
  unfold Heap.bytesOf at hbytes
  split at hbytes
  case h_1 =>
    cases hbytes
    exact hb.noBytes
  case h_2 hknown =>
    cases hbytes
    exact (hx.known hknown).bounded
  case h_3 =>
    obtain ⟨found, hfound, rfl⟩ := except_map_eq_ok.1 hbytes
    exact h.bytes hfound
  case h_4 hknown =>
    cases hbytes
    exact hb.minimal _ (hx.known hknown).bounded
  case h_5 truth _ =>
    cases hbytes
    cases truth <;> exact hb.oneByte
  case h_6 => cases hbytes

/-- The number of elements or bytes of a value. -/
lemma sizeOf {value : Item} (hvalue : value.Within b) {n : Nat}
    (hsize : Semantics.sizeOf heap value = .ok n) : b.integer n := by
  unfold Semantics.sizeOf at hsize
  split at hsize
  case h_4 =>
    obtain ⟨bytes, hbytes, rfl⟩ := except_map_eq_ok.1 hsize
    exact hb.size _ (bytesOf hb h hvalue hbytes)
  all_goals
    obtain ⟨object, hobject, rfl⟩ := except_map_eq_ok.1 hsize
    exact hb.objectLength (h _ object (object_eq_ok.1 hobject))

/-- An element of a compound, or a byte of any other item. -/
lemma element {opcode : Opcode} {x key y : Item}
    (helement : Semantics.element opcode heap x key = .ok y) : y.Within b := by
  unfold Semantics.element at helement
  split at helement
  · obtain ⟨items, hitems, hrest⟩ := except_bind_eq_ok.1 helement
    obtain ⟨index, -, hy⟩ := except_bind_eq_ok.1 hrest
    cases hy
    exact .getD (h.items hitems).2 index
  · obtain ⟨bytes, -, hrest⟩ := except_bind_eq_ok.1 helement
    obtain ⟨index, -, hy⟩ := except_bind_eq_ok.1 hrest
    cases hy
    have hbyte := ((bytes.getD []).getD index 0).toNat_lt
    have hmax : Limits.word = 18446744073709551615 := rfl
    exact .integer (hb.fits _ (fits_of_natAbs_le_word (by omega)))

/-- What a plain value converts to, and the heap behind the conversion. -/
lemma converted {value : Item} (hvalue : value.Within b) {produced : Item × Heap}
    (hconverted : heap.Converted value produced) :
    produced.1.Within b ∧ produced.2.Within b := by
  cases hconverted with
  | boolean truth => exact ⟨.constant (.boolean truth), h⟩
  | @integer number hnumber =>
    refine ⟨.constant (.integer ?_), h⟩
    cases number with
    | none => exact hb.fits _ (fits_of_natAbs_le_word (by decide))
    | some number => exact hvalue.toInteger? hb.fits hnumber
  | @bufferInteger bytes hlength =>
    exact ⟨.constant (.integer (hb.fits _ ((TwosComplement.fits_toInt bytes).mono hlength))), h⟩
  | byteString hbytes => exact ⟨.constant (.byteString (bytesOf hb h hvalue hbytes)), h⟩
  | @buffer bytes hbytes =>
    exact ⟨.object (.buffer (bytes.getD [])) _, h.add (.buffer (bytesOf hb h hvalue hbytes))⟩
  | @compound kind handle items hitems =>
    obtain ⟨hlength, helements⟩ := h.items hitems
    exact ⟨.object (.compound kind items false) _, h.add (.compound hlength helements)⟩

/-- What an item converts to, and the heap behind the conversion. -/
lemma convert {id : Nat} {x : Item} (hx : x.Within b) {type : ItemType} {produced : Item × Heap}
    (hconvert : heap.convert id x type = .ok produced) :
    produced.1.Within b ∧ produced.2.Within b := by
  rcases convert_eq_ok hconvert with rfl | rfl | ⟨value, hknown, hconverted⟩
  · exact ⟨hx, h⟩
  · exact ⟨.unknown _ _, h⟩
  · exact converted hb h (hx.known hknown) hconverted

end Heap.Within

/-! ## Copies -/

namespace Heap

variable {config : Config} (hb : b.Admits config) {base : Heap}
include hb

/-- While copies are made, the objects that have been there stay the same, and the heap stays within
the bounds. -/
lemma copyInvariant_within : CopyInvariant base.size
    (fun heap => base.Extends heap ∧ heap.Within b) (Item.Within b) b.count where
  elements hheap hobject :=
    have hwithin := hheap.2 _ _ hobject
    ⟨hwithin.length, hwithin.elements⟩
  item := .object
  size hheap := hheap.1.size_le
  allocate _ hheap :=
    ⟨hheap.1.add _, hheap.2.add (.compound hb.noElements (List.forall_mem_nil _))⟩
  store hheap hfresh hlength hcopied hmodify :=
    ⟨hheap.1.modifyItems hfresh hmodify, hheap.2.modifyItems (by
      rintro _ _ - - ⟨⟩
      exact ⟨hlength, hcopied⟩) hmodify⟩
  freeze hheap hfresh hfreeze := ⟨hheap.1.freeze hfresh hfreeze, hheap.2.freeze hfreeze⟩

/-- What is stored when an item within bounds is put into a compound, and the heap behind it, which
has all objects that were there. -/
lemma Within.cloneStruct (h : base.Within b) {x : Item} (hx : x.Within b) :
    (base.Extends (base.cloneStruct x).2 ∧ (base.cloneStruct x).2.Within b) ∧
      ∀ y, (base.cloneStruct x).1 = .ok y → y.Within b :=
  (copyInvariant_within hb).cloneStruct ⟨.refl base, h⟩ hx

end Heap

/-- Copying what is to be stored changes no object. -/
lemma Heap.extends_of_cloneStruct (heap : Heap) (x : Item) :
    heap.Extends (heap.cloneStruct x).2 :=
  (heap.within_none.cloneStruct (Bounds.none_admits {}) x.within_none).1.1

/-- Making a deep copy changes no object, whether it succeeds or fails. -/
lemma Heap.extends_of_deepCopy (heap : Heap) (copies : SortedMap Nat Nat) (freeze : Bool)
    (x : Item) :
    Exec.Leaves (fun s : CopyState => heap.Extends s.heap) (fun _ => True)
      (Heap.deepCopy freeze x ⟨heap, copies⟩) := by
  have hinvariant : CopyInvariant heap.size (fun h => heap.Extends h ∧ h.Within .none)
      (Item.Within .none) Bounds.none.count := copyInvariant_within (Bounds.none_admits {})
  have hcopy := hinvariant.deepCopy freeze x.within_none ⟨heap, copies⟩
    ⟨.refl heap, heap.within_none⟩
  cases hrun : Heap.deepCopy freeze x ⟨heap, copies⟩ with
  | ok y s =>
    rw [hrun] at hcopy
    exact ⟨hcopy.1.1, trivial⟩
  | error e s =>
    rw [hrun] at hcopy
    exact hcopy.1

end SymbolicScript
