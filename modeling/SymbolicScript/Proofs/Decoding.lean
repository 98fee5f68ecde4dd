import Mathlib.Tactic.Common
import SymbolicScript.Proofs.Outcomes
import SymbolicScript.Script.Basic

/-!
# What decoding an instruction reads

An instruction is decoded from the bytes that it occupies.  It lies inside the script
(`Script.instructionAt_size`), and a script that has the same bytes in its place has the same
instruction there, whatever the other bytes are (`Script.instructionAt_congr`).
-/

namespace SymbolicScript

namespace Instruction

variable {opcode : Opcode} {bytes bytes' operand : Bytes} {offset : Nat} {i : Instruction}

/-! ## Operands -/

/-- An operand is taken from the front of the bytes. -/
lemma takeOperand_eq_ok {needed : Nat} :
    takeOperand opcode needed bytes = .ok operand ↔
      needed ≤ bytes.length ∧ bytes.take needed = operand := by
  unfold takeOperand
  split
  · next h => simp [h]
  · next h => simp [h]

/-- An operand that is taken has the length that was asked for. -/
lemma length_of_takeOperand {needed : Nat} (h : takeOperand opcode needed bytes = .ok operand) :
    operand.length = needed := by
  obtain ⟨hle, rfl⟩ := takeOperand_eq_ok.1 h
  rw [List.length_take]
  omega

/-- A front that one list of bytes has in common with another is at least as long in both. -/
lemma le_length_of_take_eq {n : Nat} (hn : n ≤ bytes.length) (h : bytes'.take n = bytes.take n) :
    n ≤ bytes'.length := by
  have hlength := congrArg List.length h
  rw [List.length_take, List.length_take] at hlength
  omega

/-- A shorter front is in common as well. -/
lemma take_eq_of_le {m n : Nat} (hm : m ≤ n) (h : bytes'.take n = bytes.take n) :
    bytes'.take m = bytes.take m := by
  have hmin : min m n = m := by omega
  rw [← hmin, ← List.take_take, h, List.take_take]

/-- An operand with its length lies inside the bytes. -/
lemma readOperand_length (h : readOperand opcode bytes = .ok operand) :
    opcode.layout.lengthWidth + operand.length ≤ bytes.length := by
  unfold readOperand at h
  split at h
  · next width hlayout =>
    have hlength := length_of_takeOperand h
    have hle := (takeOperand_eq_ok.1 h).1
    simp only [hlayout, OperandLayout.lengthWidth]
    omega
  · next width hlayout =>
    obtain ⟨length, hfront, hrest⟩ := except_bind_eq_ok.1 h
    have hwidth := (takeOperand_eq_ok.1 hfront).1
    have hlength := length_of_takeOperand hrest
    have hle := (takeOperand_eq_ok.1 hrest).1
    rw [List.length_drop] at hle
    simp only [hlayout, OperandLayout.lengthWidth]
    omega

/-- An operand is read from the bytes that it occupies together with its length. -/
lemma readOperand_congr (h : readOperand opcode bytes = .ok operand)
    (hfront : bytes'.take (opcode.layout.lengthWidth + operand.length) =
      bytes.take (opcode.layout.lengthWidth + operand.length)) :
    readOperand opcode bytes' = .ok operand := by
  have hinside := le_length_of_take_eq (readOperand_length h) hfront
  unfold readOperand at h ⊢
  split at h
  · next width hlayout =>
    have hlength := length_of_takeOperand h
    obtain ⟨-, hoperand⟩ := takeOperand_eq_ok.1 h
    simp only [hlayout, OperandLayout.lengthWidth, hlength, Nat.zero_add] at hfront hinside
    exact takeOperand_eq_ok.2 ⟨hinside, hfront.trans hoperand⟩
  · next width hlayout =>
    obtain ⟨length, hcount, hrest⟩ := except_bind_eq_ok.1 h
    have hlength := length_of_takeOperand hrest
    obtain ⟨-, rfl⟩ := takeOperand_eq_ok.1 hcount
    obtain ⟨-, hoperand⟩ := takeOperand_eq_ok.1 hrest
    simp only [hlayout, OperandLayout.lengthWidth] at hfront hinside
    have hwidth := take_eq_of_le (Nat.le_add_right width operand.length) hfront
    refine except_bind_eq_ok.2 ⟨bytes.take width, takeOperand_eq_ok.2 ⟨by omega, hwidth⟩, ?_⟩
    refine takeOperand_eq_ok.2 ⟨by rw [List.length_drop]; omega, ?_⟩
    rw [← hlength] at hoperand ⊢
    calc (bytes'.drop width).take operand.length
        = (bytes'.take (width + operand.length)).drop width := by
          rw [List.drop_take, Nat.add_sub_cancel_left]
      _ = (bytes.take (width + operand.length)).drop width := by rw [hfront]
      _ = (bytes.drop width).take operand.length := by
          rw [List.drop_take, Nat.add_sub_cancel_left]
      _ = operand := hoperand

/-! ## Instructions -/

/-- Attaching an offset to the errors leaves the successes alone. -/
lemma locate_eq_ok {ε α : Type} {x : Except ε α} {a : α} :
    locate offset x = .ok a ↔ x = .ok a := by
  cases x <;> simp [locate]

/-- An instruction is decoded from the byte of its opcode and the operand behind it. -/
lemma decodeFront_eq_some {byte : UInt8} {rest : Bytes} :
    decodeFront offset (byte :: rest) = .ok (some i) ↔
      ∃ opcode operand, Opcode.ofByte? byte = some opcode ∧
        readOperand opcode rest = .ok operand ∧ i = ⟨offset, opcode, operand⟩ ∧
        i.size ≤ maxOffset := by
  unfold decodeFront
  rw [locate_eq_ok, except_bind_eq_ok]
  constructor
  · rintro ⟨opcode, hopcode, hdecode⟩
    obtain ⟨operand, hoperand, hsize⟩ := except_bind_eq_ok.1 hdecode
    simp only at hsize
    split at hsize
    · next hle =>
      cases hsize
      cases hbyte : Opcode.ofByte? byte with
      | none =>
        rw [hbyte] at hopcode
        cases hopcode
      | some opcode' =>
        rw [hbyte] at hopcode
        cases hopcode
        exact ⟨opcode, operand, rfl, hoperand, rfl, hle⟩
    · cases hsize
  · rintro ⟨opcode, operand, hbyte, hoperand, rfl, hle⟩
    refine ⟨opcode, by rw [hbyte]; rfl, except_bind_eq_ok.2 ⟨operand, hoperand, ?_⟩⟩
    rw [if_pos hle]
    rfl

/-- Nothing is decoded exactly from no bytes. -/
lemma decodeFront_eq_none : decodeFront offset bytes = .ok none ↔ bytes = [] := by
  cases bytes with
  | nil => simp [decodeFront]
  | cons byte rest =>
    simp only [reduceCtorEq, iff_false]
    intro hnone
    unfold decodeFront at hnone
    rw [locate_eq_ok] at hnone
    obtain ⟨opcode, -, hdecode⟩ := except_bind_eq_ok.1 hnone
    obtain ⟨operand, -, hsize⟩ := except_bind_eq_ok.1 hdecode
    simp only at hsize
    split at hsize
    · cases hsize
    · cases hsize

/-- A decoded instruction stands at its offset and lies inside the bytes. -/
lemma decodeFront_size (h : decodeFront offset bytes = .ok (some i)) :
    i.offset = offset ∧ i.size ≤ bytes.length ∧ i.size ≤ maxOffset := by
  cases bytes with
  | nil => cases h
  | cons byte rest =>
    obtain ⟨opcode, operand, -, hoperand, rfl, hle⟩ := decodeFront_eq_some.1 h
    have hlength := readOperand_length hoperand
    refine ⟨rfl, ?_, hle⟩
    simp only [size, List.length_cons]
    omega

/-- An instruction is decoded from the bytes that it occupies. -/
lemma decodeFront_congr (h : decodeFront offset bytes = .ok (some i))
    (hfront : bytes'.take i.size = bytes.take i.size) :
    decodeFront offset bytes' = .ok (some i) := by
  cases bytes with
  | nil => cases h
  | cons byte rest =>
    obtain ⟨opcode, operand, hbyte, hoperand, rfl, hle⟩ := decodeFront_eq_some.1 h
    have hsize : size ⟨offset, opcode, operand⟩ =
        (opcode.layout.lengthWidth + operand.length) + 1 := by
      simp only [size]
      omega
    rw [hsize] at hfront
    cases bytes' with
    | nil => cases hfront
    | cons byte' rest' =>
      rw [List.take_succ_cons, List.take_succ_cons] at hfront
      obtain ⟨rfl, hrest⟩ := List.cons.inj hfront
      exact decodeFront_eq_some.2
        ⟨opcode, operand, hbyte, readOperand_congr hoperand hrest, rfl, hle⟩

end Instruction

/-! ## Scripts -/

/-- The two scripts have the same bytes in the place of the instruction. -/
def Script.AgreesOn (script script' : Script) (i : Instruction) : Prop :=
  ∀ k, i.offset ≤ k → k < i.offset + i.size → script'.bytes[k]? = script.bytes[k]?

namespace Script

variable {script script' : Script} {offset : Nat} {i : Instruction}

/-- An instruction that is decoded at an offset stands there and ends inside the script. -/
lemma instructionAt_size (h : script.instructionAt offset = .ok (some i)) :
    i.offset = offset ∧ offset + i.size ≤ script.length ∧ i.size ≤ maxOffset := by
  obtain ⟨hoffset, hsize, hmax⟩ := Instruction.decodeFront_size h
  have hpos : 1 ≤ i.size := by
    unfold Instruction.size
    omega
  rw [List.length_drop] at hsize
  unfold length
  exact ⟨hoffset, by omega, hmax⟩

/-- What follows a decoded instruction lies inside the script or at its end. -/
lemma nextOffset_le_length (h : script.instructionAt offset = .ok (some i)) :
    i.nextOffset ≤ script.length := by
  obtain ⟨rfl, hsize, -⟩ := instructionAt_size h
  unfold Instruction.nextOffset
  omega

/-- Where one script has an instruction, another one with the same bytes in its place has it too. -/
lemma instructionAt_congr (h : script.instructionAt offset = .ok (some i))
    (hagrees : script.AgreesOn script' i) : script'.instructionAt offset = .ok (some i) := by
  obtain ⟨rfl, -, -⟩ := instructionAt_size h
  refine Instruction.decodeFront_congr h ?_
  refine List.ext_getElem? fun k => ?_
  rw [List.getElem?_take, List.getElem?_take]
  split
  · next hk =>
    rw [List.getElem?_drop, List.getElem?_drop]
    exact hagrees _ (Nat.le_add_right _ _) (by omega)
  · rfl

/-- Nothing is decoded exactly at the end of a script and behind it. -/
lemma instructionAt_eq_none :
    script.instructionAt offset = .ok none ↔ script.length ≤ offset := by
  unfold instructionAt Instruction.decode length
  rw [Instruction.decodeFront_eq_none, List.drop_eq_nil_iff]

end Script

end SymbolicScript
