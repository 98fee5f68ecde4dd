import SymbolicScript.Proofs.Decoding

/-!
# Decoding inverts encoding

An instruction is written as the byte of its opcode, the length of its operand if the layout counts
it, and the operand.  Reading it back finds the same opcode and operand, wherever the bytes stand
and whatever surrounds them, and writing what was read gives the bytes that were read
(`Instruction.decode_inverse_encode`).

Both directions rest on what a layout admits (`OperandLayout.Admits`).  A counted length is written
without loss exactly if it is below the power of 256 that its width has room for, and since a width
has one, two or four bytes the size of the whole instruction is a second bound only for the last.
-/

namespace SymbolicScript

/-- The layout has room for an operand of the given length: the one that it fixes, or one that the
length in front of it can announce and that leaves the size of the instruction in range. -/
def OperandLayout.Admits : OperandLayout → Nat → Prop
  | .fixed width, length => length = width
  | .counted width, length => length < Nat.pow 256 width ∧ 1 + width + length ≤ maxOffset

instance (layout : OperandLayout) (length : Nat) : Decidable (layout.Admits length) :=
  match layout with
  | .fixed width => inferInstanceAs (Decidable (length = width))
  | .counted width =>
    inferInstanceAs (Decidable (length < Nat.pow 256 width ∧ 1 + width + length ≤ maxOffset))

/-- No fixed operand is longer than an integer of full width. -/
lemma Opcode.width_le_of_fixed {op : Opcode} {width : Nat} (h : op.layout = .fixed width) :
    width ≤ 32 := by
  cases op <;> cases h <;> decide

/-- The length in front of an operand has one, two or four bytes. -/
lemma Opcode.width_of_counted {op : Opcode} {width : Nat} (h : op.layout = .counted width) :
    width = 1 ∨ width = 2 ∨ width = 4 := by
  cases op <;> cases h <;> decide

namespace Instruction

variable {opcode : Opcode} {bytes operand rest : Bytes} {offset : Nat} {i : Instruction}

/-- The greatest operand length is the last one that the width has room for. -/
lemma le_capacity_iff {width length : Nat} (h : opcode.layout = .counted width) :
    length ≤ capacity width ↔ length < Nat.pow 256 width := by
  rcases Opcode.width_of_counted h with rfl | rfl | rfl
  · change length ≤ 255 ↔ length < 256
    omega
  · change length ≤ 65535 ↔ length < 65536
    omega
  · change length ≤ 4294967295 ↔ length < 4294967296
    omega

/-- A result behind a check is the result, where the check passes. -/
lemma except_ite_eq_ok {ε α : Type} {c : Prop} [Decidable c] {x : Except ε α} {e : ε} {a : α} :
    (if c then x else .error e) = .ok a ↔ c ∧ x = .ok a := by
  split
  · next h => simp [h]
  · next h => simp [h]

/-- The size of an admitted instruction is in range. -/
lemma size_le_maxOffset (h : opcode.layout.Admits operand.length) :
    size ⟨offset, opcode, operand⟩ ≤ maxOffset := by
  unfold size
  cases hlayout : opcode.layout with
  | fixed width =>
    have hwidth := Opcode.width_le_of_fixed hlayout
    rw [hlayout] at h
    have hlength : operand.length = width := h
    simp only [OperandLayout.lengthWidth, maxOffset]
    omega
  | counted width =>
    rw [hlayout] at h
    exact h.2

/-- What is assembled is the opcode with the operand, if the layout admits the operand. -/
lemma assemble_eq_ok :
    assemble opcode operand = .ok i ↔
      i = ⟨0, opcode, operand⟩ ∧ opcode.layout.Admits operand.length := by
  have hsize : opcode.layout.Admits operand.length →
      size ⟨0, opcode, operand⟩ ≤ maxOffset := size_le_maxOffset
  unfold assemble
  cases hlayout : opcode.layout with
  | fixed width =>
    rw [hlayout] at hsize
    simp only [except_ite_eq_ok, Except.ok.injEq]
    constructor
    · rintro ⟨hlength, -, rfl⟩
      exact ⟨rfl, hlength⟩
    · rintro ⟨rfl, hlength⟩
      exact ⟨hlength, hsize hlength, rfl⟩
  | counted width =>
    rw [hlayout] at hsize
    simp only [except_ite_eq_ok, Except.ok.injEq, le_capacity_iff hlayout]
    constructor
    · rintro ⟨hlength, hle, rfl⟩
      unfold size at hle
      simp only [hlayout, OperandLayout.lengthWidth] at hle
      exact ⟨rfl, hlength, hle⟩
    · rintro ⟨rfl, hadmits⟩
      exact ⟨hadmits.1, hsize hadmits, rfl⟩

/-- An instruction is written in as many bytes as its size says. -/
@[simp] lemma length_encode : i.encode.length = i.size := by
  unfold encode size
  rw [List.length_cons, List.length_append, LittleEndian.length_ofNat]
  omega

/-- An instruction has at least the byte of its opcode. -/
lemma size_pos : 1 ≤ i.size := by
  unfold size
  omega

/-! ## Reading what was written -/

/-- Bytes in front of others are taken as an operand. -/
lemma takeOperand_append {needed : Nat} (h : operand.length = needed) :
    takeOperand opcode needed (operand ++ rest) = .ok operand := by
  rw [takeOperand_eq_ok, ← h]
  exact ⟨by simp, List.take_left⟩

/-- An admitted operand is read back, whatever follows it. -/
lemma readOperand_append (h : opcode.layout.Admits operand.length) :
    readOperand opcode
      (LittleEndian.ofNat opcode.layout.lengthWidth operand.length ++ operand ++ rest) =
        .ok operand := by
  unfold readOperand
  cases hlayout : opcode.layout with
  | fixed width =>
    rw [hlayout] at h
    exact takeOperand_append h
  | counted width =>
    rw [hlayout] at h
    have hcount : LittleEndian.toNat (LittleEndian.ofNat width operand.length) =
        operand.length := by
      rw [LittleEndian.toNat_ofNat, Nat.mod_eq_of_lt h.1]
    have hwidth := LittleEndian.length_ofNat width operand.length
    simp only [OperandLayout.lengthWidth]
    rw [List.append_assoc]
    refine except_bind_eq_ok.2 ⟨_, takeOperand_append hwidth, ?_⟩
    rw [hcount, List.drop_left' hwidth]
    exact takeOperand_append rfl

/-- An instruction that is admitted is decoded from its own bytes, whatever follows them. -/
lemma decodeFront_encode (h : i.opcode.layout.Admits i.operand.length) :
    decodeFront offset (i.encode ++ rest) = .ok (some (i.moveTo offset)) := by
  refine decodeFront_eq_some.2 ⟨i.opcode, i.operand, Opcode.ofByte?_byte i.opcode, ?_, rfl, ?_⟩
  · exact readOperand_append h
  · exact size_le_maxOffset h

/-! ## Writing what was read -/

/-- An operand that is read is admitted, and with its length it is the front of the bytes. -/
lemma readOperand_eq_ok (h : readOperand opcode bytes = .ok operand)
    (hsize : size ⟨offset, opcode, operand⟩ ≤ maxOffset) :
    opcode.layout.Admits operand.length ∧
      LittleEndian.ofNat opcode.layout.lengthWidth operand.length ++ operand =
        bytes.take (opcode.layout.lengthWidth + operand.length) := by
  unfold readOperand at h
  unfold size at hsize
  split at h
  · next width hlayout =>
    have hlength := length_of_takeOperand h
    obtain ⟨-, htake⟩ := takeOperand_eq_ok.1 h
    rw [hlayout]
    refine ⟨hlength, ?_⟩
    simp only [OperandLayout.lengthWidth, Nat.zero_add, hlength, htake]
    rfl
  · next width hlayout =>
    obtain ⟨count, hcount, hrest⟩ := except_bind_eq_ok.1 h
    have hwidth := length_of_takeOperand hcount
    have hlength := length_of_takeOperand hrest
    obtain ⟨-, hfront⟩ := takeOperand_eq_ok.1 hcount
    obtain ⟨-, hback⟩ := takeOperand_eq_ok.1 hrest
    have hcounts : LittleEndian.ofNat width operand.length = count := by
      rw [hlength, ← hwidth]
      exact LittleEndian.ofNat_toNat count
    rw [hlayout] at hsize ⊢
    refine ⟨⟨?_, hsize⟩, ?_⟩
    · rw [hlength, ← hwidth]
      exact LittleEndian.toNat_lt count
    · simp only [OperandLayout.lengthWidth]
      rw [List.take_add, hfront, hcounts, hlength, hback]

/-- A decoded instruction is admitted, and its bytes are the front of those that it was decoded
from. -/
lemma encode_of_decodeFront (h : decodeFront offset bytes = .ok (some i)) :
    i.opcode.layout.Admits i.operand.length ∧ i.encode = bytes.take i.size := by
  cases bytes with
  | nil => cases h
  | cons byte rest =>
    obtain ⟨opcode, operand, hbyte, hoperand, rfl, hsize⟩ := decodeFront_eq_some.1 h
    obtain ⟨hadmits, hbytes⟩ := readOperand_eq_ok hoperand hsize
    refine ⟨hadmits, ?_⟩
    have hsucc : size ⟨offset, opcode, operand⟩ =
        (opcode.layout.lengthWidth + operand.length) + 1 := by
      simp only [size]
      omega
    unfold encode
    rw [hsucc, List.take_succ_cons, Opcode.byte_of_ofByte? hbyte, hbytes]

/-! ## Both ways at every position -/

/-- Encoding and decoding are inverse at every position.  A decoded instruction occupies at least
one byte, lies inside the bytes and is written as those that it occupies.  An instruction that can
be assembled is decoded from its own bytes, whatever stands in front of them and behind them.  And
an instruction can be assembled exactly if the layout of its opcode admits the operand. -/
theorem decode_inverse_encode :
    (∀ (bytes : Bytes) (offset : Nat) (i : Instruction), decode bytes offset = .ok (some i) →
      i.encode = (bytes.drop offset).take i.size ∧ 1 ≤ i.size ∧
        offset + i.size ≤ bytes.length) ∧
    (∀ (opcode : Opcode) (operand : Bytes) (i : Instruction),
      assemble opcode operand = .ok i → ∀ before after : Bytes,
        ∃ j, decode (before ++ i.encode ++ after) before.length = .ok (some j) ∧
          j.offset = before.length ∧ j.opcode = opcode ∧ j.operand = operand ∧
          j.size = i.size) ∧
    ∀ (opcode : Opcode) (operand : Bytes),
      (∃ i, assemble opcode operand = .ok i) ↔ opcode.layout.Admits operand.length := by
  refine ⟨?_, ?_, ?_⟩
  · intro bytes offset i hdecode
    obtain ⟨-, hsize, -⟩ := decodeFront_size hdecode
    have hpos : 1 ≤ i.size := size_pos
    rw [List.length_drop] at hsize
    exact ⟨(encode_of_decodeFront hdecode).2, hpos, by omega⟩
  · intro opcode operand i hassemble before after
    obtain ⟨rfl, hadmits⟩ := assemble_eq_ok.1 hassemble
    refine ⟨⟨before.length, opcode, operand⟩, ?_, rfl, rfl, rfl, rfl⟩
    unfold decode
    rw [List.append_assoc, List.drop_left]
    exact decodeFront_encode hadmits
  · intro opcode operand
    constructor
    · rintro ⟨i, hassemble⟩
      exact (assemble_eq_ok.1 hassemble).2
    · exact fun hadmits => ⟨_, assemble_eq_ok.2 ⟨rfl, hadmits⟩⟩

/-- Data whose bytes are themselves those of data pushes is decoded between others of them.  And 255
bytes are the most that a length of one byte announces. -/
theorem decode_inverse_encode_pushData1 :
    assemble .pushData1 [0x0C, 0x0D] = .ok ⟨0, .pushData1, [0x0C, 0x0D]⟩ ∧
      (∃ j, decode ([0x0C, 0x0E] ++ encode ⟨0, .pushData1, [0x0C, 0x0D]⟩ ++ [0x0C]) 2 =
          .ok (some j) ∧
        j.offset = 2 ∧ j.opcode = .pushData1 ∧ j.operand = [0x0C, 0x0D] ∧ j.size = 4) ∧
      (∃ i, assemble .pushData1 (.replicate 255 0) = .ok i) ∧
      (¬∃ i, assemble .pushData1 (.replicate 256 0) = .ok i) ∧
      ∃ i, assemble .pushData2 (.replicate 256 0) = .ok i := by
  obtain ⟨-, hdecode, haccepts⟩ := decode_inverse_encode
  have hassemble : assemble .pushData1 [0x0C, 0x0D] = .ok ⟨0, .pushData1, [0x0C, 0x0D]⟩ := rfl
  refine ⟨hassemble, hdecode _ _ _ hassemble [0x0C, 0x0E] [0x0C], ?_⟩
  simp only [haccepts, List.length_replicate]
  decide

end Instruction

end SymbolicScript
