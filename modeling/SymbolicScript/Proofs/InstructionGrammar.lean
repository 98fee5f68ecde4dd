import Mathlib.Algebra.GroupWithZero.Nat
import SymbolicScript.Proofs.Encoding
import SymbolicScript.Script.Cursor

/-!
# The grammar of scripts

A script is a sequence of instructions written one behind the other.  Validation accepts exactly the
byte strings of this form, and the iteration over the instructions hands out the sequence, which the
bytes determine (`Script.validate_grammar`).  Where validation fails, the iteration hands out the
longest sequence that the bytes begin with, and then the fault that stands behind it.

Everything follows from cutting the bytes once: into the encodings of a sequence and a rest at whose
front no instruction is decoded (`Instruction.sequence_or_fault`).  The walk of the validation and
the iteration both pass over the sequence and stop at the rest, and the encodings of any other
sequence that the bytes begin with end before it.
-/

namespace SymbolicScript

namespace Instruction

variable {bytes rest : Bytes} {offset : Nat} {i : Instruction} {is js : List Instruction}

/-! ## Sequences of instructions -/

/-- The instruction is one that can be assembled. -/
def Assembled (i : Instruction) : Prop :=
  assemble i.opcode i.operand = .ok i

/-- The bytes of the instructions, one behind the other. -/
def encoded (is : List Instruction) : Bytes :=
  is.flatMap encode

/-- The instructions one behind the other from an offset on: each stands as far behind it as the
instructions before it are long. -/
def placed (offset : Nat) (is : List Instruction) : List Instruction :=
  is.mapIdx fun k i => i.moveTo (offset + ((is.take k).map size).sum)

/-- An assembled instruction stands at offset zero, and its layout admits its operand. -/
lemma assembled_iff : i.Assembled ↔ i.offset = 0 ∧ i.opcode.layout.Admits i.operand.length := by
  obtain ⟨start, opcode, operand⟩ := i
  unfold Assembled
  rw [assemble_eq_ok]
  simp

/-- An assembled instruction is at offset zero already. -/
lemma Assembled.moveTo_zero (h : i.Assembled) : i.moveTo 0 = i := by
  have hoffset := (assembled_iff.1 h).1
  unfold moveTo
  rw [← hoffset]

@[simp] lemma encoded_nil : encoded [] = [] :=
  rfl

@[simp] lemma encoded_cons : encoded (i :: is) = i.encode ++ encoded is :=
  rfl

@[simp] lemma placed_cons :
    placed offset (i :: is) = i.moveTo offset :: placed (offset + i.size) is := by
  unfold placed
  simp [List.mapIdx_cons, Nat.add_assoc]

/-- Behind an instruction the bytes go on with its encoding in front. -/
lemma drop_size : (i.encode ++ rest).drop i.size = rest := by
  rw [← length_encode]
  exact List.drop_left

/-! ## Cutting bytes into instructions -/

/-- An instruction that can be assembled is decoded from its own bytes, whatever follows them. -/
lemma Assembled.decodeFront (h : i.Assembled) :
    decodeFront offset (i.encode ++ rest) = .ok (some (i.moveTo offset)) :=
  decodeFront_encode (assembled_iff.1 h).2

/-- Faults of decoding are found at the offset where the bytes stand. -/
lemma offset_of_decodeFront_error {e : Located DisassemblyError}
    (h : decodeFront offset bytes = .error e) : e.offset = offset := by
  unfold decodeFront at h
  split at h
  · cases h
  · unfold locate at h
    split at h
    · cases h
    · cases h
      rfl

/-- Bytes from which an instruction is decoded begin with the encoding of an assembled one. -/
lemma exists_of_decodeFront (h : decodeFront offset bytes = .ok (some i)) :
    ∃ (j : Instruction) (rest : Bytes), j.Assembled ∧ bytes = j.encode ++ rest := by
  obtain ⟨hadmits, hencode⟩ := encode_of_decodeFront h
  refine ⟨i.moveTo 0, bytes.drop i.size, assembled_iff.2 ⟨rfl, hadmits⟩, ?_⟩
  have hsame : (i.moveTo 0).encode = bytes.take i.size := hencode
  rw [hsame, List.take_append_drop]

/-- No instruction stands at the front of the bytes. -/
def Unreadable (bytes : Bytes) : Prop :=
  ∀ offset i, decodeFront offset bytes ≠ .ok (some i)

/-- All bytes begin with a sequence of instructions behind which no further one can be decoded. -/
lemma exists_sequence (bytes : Bytes) :
    ∃ is rest, (∀ i ∈ is, i.Assembled) ∧ bytes = encoded is ++ rest ∧ Unreadable rest := by
  by_cases hfront : Unreadable bytes
  · exact ⟨[], bytes, nofun, rfl, hfront⟩
  · unfold Unreadable at hfront
    push Not at hfront
    obtain ⟨offset, i, hdecode⟩ := hfront
    obtain ⟨j, after, hj, rfl⟩ := exists_of_decodeFront hdecode
    have hshorter : after.length < (j.encode ++ after).length := by
      have hpos : 1 ≤ j.size := size_pos
      rw [List.length_append, length_encode]
      omega
    obtain ⟨is, rest, his, rfl, hrest⟩ := exists_sequence after
    refine ⟨j :: is, rest, List.forall_mem_cons.2 ⟨hj, his⟩, ?_, hrest⟩
    rw [encoded_cons, List.append_assoc]
termination_by bytes.length

/-- A sequence that the bytes begin with is part of the one behind which nothing can be decoded. -/
lemma prefix_of_encoded (his : ∀ i ∈ is, i.Assembled) (hjs : ∀ j ∈ js, j.Assembled)
    (hrest : Unreadable rest) (h : encoded js <+: encoded is ++ rest) : js <+: is := by
  -- Both sequences are read off the same bytes, one instruction after the other.
  induction js generalizing is with
  | nil => exact List.nil_prefix
  | cons j js ih =>
    obtain ⟨hj, hjs'⟩ := List.forall_mem_cons.1 hjs
    obtain ⟨behind, hbehind⟩ := h
    rw [encoded_cons, List.append_assoc] at hbehind
    have hdecode : decodeFront 0 (j.encode ++ (encoded js ++ behind)) = .ok (some (j.moveTo 0)) :=
      hj.decodeFront
    rw [hbehind] at hdecode
    cases is with
    | nil => exact absurd hdecode (hrest 0 _)
    | cons i is =>
      obtain ⟨hi, his'⟩ := List.forall_mem_cons.1 his
      rw [encoded_cons, List.append_assoc] at hbehind hdecode
      rw [hi.decodeFront, hi.moveTo_zero, hj.moveTo_zero] at hdecode
      cases hdecode
      have hsame := List.append_cancel_left hbehind
      exact List.cons_prefix_cons.2 ⟨rfl, ih his' hjs' ⟨behind, hsame⟩⟩

/-- Bytes are a sequence of instructions, or they go on behind the longest one with a fault. -/
lemma sequence_or_fault (bytes : Bytes) :
    ∃ is : List Instruction, (∀ i ∈ is, i.Assembled) ∧
      (bytes = encoded is ∨
        ∃ rest e, bytes = encoded is ++ rest ∧
          decodeFront (encoded is).length rest = .error e ∧
          ∀ js : List Instruction, (∀ j ∈ js, j.Assembled) → encoded js <+: bytes → js <+: is) := by
  obtain ⟨is, rest, his, hbytes, hrest⟩ := exists_sequence bytes
  refine ⟨is, his, ?_⟩
  cases hdecode : decodeFront (encoded is).length rest with
  | error e =>
    refine .inr ⟨rest, e, hbytes, hdecode, fun js hjs hprefix => ?_⟩
    rw [hbytes] at hprefix
    exact prefix_of_encoded his hjs hrest hprefix
  | ok decoded =>
    cases decoded with
    | none =>
      rw [decodeFront_eq_none.1 hdecode, List.append_nil] at hbytes
      exact .inl hbytes
    | some i => exact absurd hdecode (hrest _ i)

/-- Sequences with the same bytes are the same. -/
lemma encoded_injective (his : ∀ i ∈ is, i.Assembled) (hjs : ∀ j ∈ js, j.Assembled)
    (h : encoded js = encoded is) : js = is := by
  have hnothing : Unreadable [] := nofun
  have hforth : js <+: is := prefix_of_encoded his hjs hnothing (by simp [h])
  have hback : is <+: js := prefix_of_encoded hjs his hnothing (by simp [h])
  exact hforth.eq_of_length_le hback.length_le

end Instruction

namespace Script

open Instruction

variable {script : Script} {bytes rest : Bytes} {offset : Nat} {i : Instruction}
  {is : List Instruction} {e : Located DisassemblyError}

/-! ## Walking over a sequence -/

/-- The walk hands out the instruction at the front and goes on behind it. -/
lemma walkFrom_of_decodeFront (h : decodeFront offset bytes = .ok (some i)) :
    walkFrom offset bytes =
      (i :: (walkFrom (offset + i.size) (bytes.drop i.size)).1,
        (walkFrom (offset + i.size) (bytes.drop i.size)).2) := by
  cases bytes with
  | nil => cases h
  | cons byte rest =>
    have hsucc : i.size = (i.size - 1) + 1 := by
      have hpos : 1 ≤ i.size := size_pos
      omega
    have hdrop : (byte :: rest).drop i.size = rest.drop (i.size - 1) := by
      rw [hsucc, List.drop_succ_cons, Nat.add_sub_cancel]
    rw [walkFrom, h, hdrop]

/-- The walk stops at a fault. -/
lemma walkFrom_of_error (h : decodeFront offset bytes = .error e) :
    walkFrom offset bytes = ([], some e) := by
  cases bytes with
  | nil => cases h
  | cons byte rest => rw [walkFrom, h]

/-- The walk passes over a sequence of instructions and goes on behind it. -/
lemma walkFrom_encoded (his : ∀ i ∈ is, i.Assembled) :
    walkFrom offset (encoded is ++ rest) =
      (placed offset is ++ (walkFrom (offset + (encoded is).length) rest).1,
        (walkFrom (offset + (encoded is).length) rest).2) := by
  induction is generalizing offset with
  | nil => rfl
  | cons i is ih =>
    obtain ⟨hi, his'⟩ := List.forall_mem_cons.1 his
    have hsize : (i.moveTo offset).size = i.size := rfl
    rw [encoded_cons, List.append_assoc, walkFrom_of_decodeFront hi.decodeFront, hsize, drop_size,
      ih his', placed_cons, List.length_append, length_encode, Nat.add_assoc]
    rfl

/-! ## Iterating over a sequence -/

/-- Where the bytes of an instruction stand in a script, it is decoded, and the following one stands
behind them.  The greatest offset does not get in the way, since the bytes lie inside the script. -/
lemma instructionAt_of_encode (hi : i.Assembled) (hlength : script.length ≤ maxOffset)
    (hbytes : script.bytes.drop offset = i.encode ++ rest) :
    script.instructionAt offset = .ok (some (i.moveTo offset)) ∧
      (i.moveTo offset).nextOffset = offset + i.size ∧
      script.bytes.drop (offset + i.size) = rest := by
  have hdecode : script.instructionAt offset = .ok (some (i.moveTo offset)) := by
    unfold instructionAt decode
    rw [hbytes]
    exact hi.decodeFront
  have hinside : offset + i.size ≤ script.length := (instructionAt_size hdecode).2.1
  refine ⟨hdecode, Nat.min_eq_left (Nat.le_trans hinside hlength), ?_⟩
  rw [← List.drop_drop, hbytes, drop_size]

/-- What the iteration hands out is determined by where it stands. -/
lemma Cursor.Yields.unique {c : Cursor}
    {xs ys : List (Except (Located DisassemblyError) Instruction)} (hxs : Yields script c xs)
    (hys : Yields script c ys) : xs = ys := by
  induction hxs generalizing ys with
  | finished hx =>
    cases hys with
    | finished => rfl
    | item hy => cases hx.symm.trans hy
  | item hx _ ih =>
    cases hys with
    | finished hy => cases hx.symm.trans hy
    | item hy hrest =>
      cases hx.symm.trans hy
      rw [ih hrest]

/-- At the end of the script nothing is handed out. -/
lemma Cursor.yields_of_end (h : script.length ≤ offset) : Yields script ⟨some offset⟩ [] := by
  refine .finished ?_
  simp only [next, instructionAt_eq_none.2 h]

/-- A fault is handed out, and then nothing any more. -/
lemma Cursor.yields_of_error (h : script.instructionAt offset = .error e) :
    Yields script ⟨some offset⟩ [.error e] := by
  have hnext : Cursor.next script ⟨some offset⟩ = (some (.error e), ⟨none⟩) := by
    simp only [next, h]
  refine .item (by rw [hnext]) (.finished ?_)
  rw [hnext]
  rfl

/-- The iteration passes over a sequence of instructions and goes on behind it. -/
lemma Cursor.yields_encoded (his : ∀ i ∈ is, i.Assembled) (hlength : script.length ≤ maxOffset)
    (hbytes : script.bytes.drop offset = encoded is ++ rest)
    {xs : List (Except (Located DisassemblyError) Instruction)}
    (hrest : Yields script ⟨some (offset + (encoded is).length)⟩ xs) :
    Yields script ⟨some offset⟩ ((placed offset is).map .ok ++ xs) := by
  induction is generalizing offset with
  | nil => exact hrest
  | cons i is ih =>
    obtain ⟨hi, his'⟩ := List.forall_mem_cons.1 his
    rw [encoded_cons, List.append_assoc] at hbytes
    obtain ⟨hdecode, hbehind, hafter⟩ := instructionAt_of_encode hi hlength hbytes
    have hnext : Cursor.next script ⟨some offset⟩ =
        (some (.ok (i.moveTo offset)), ⟨some (offset + i.size)⟩) := by
      simp only [next, hdecode, hbehind]
    rw [encoded_cons, List.length_append, length_encode, ← Nat.add_assoc] at hrest
    rw [placed_cons]
    refine .item (by rw [hnext]) ?_
    rw [hnext]
    exact ih his' hafter hrest

/-! ## Validation -/

/-- The linear decode of a sequence of instructions finds just these. -/
lemma instructions_of_encoded (his : ∀ i ∈ is, i.Assembled) (hbytes : script.bytes = encoded is) :
    script.instructions = .ok (placed 0 is) := by
  have hwalk : script.walk = (placed 0 is, none) := by
    unfold walk
    rw [hbytes, ← List.append_nil (encoded is), walkFrom_encoded his, walkFrom, List.append_nil]
  unfold instructions
  rw [hwalk]

/-- A script that is a sequence of instructions is valid, and the iteration hands out just these. -/
lemma validate_of_encoded (hlength : script.length ≤ maxOffset) (his : ∀ i ∈ is, i.Assembled)
    (hbytes : script.bytes = encoded is) :
    script.validate = .ok () ∧ Cursor.start.Yields script ((placed 0 is).map .ok) := by
  constructor
  · unfold validate
    rw [if_neg (Nat.not_lt.2 hlength), instructions_of_encoded his hbytes]
    rfl
  · have hfront : script.bytes.drop 0 = encoded is ++ [] := by
      rw [List.drop_zero, hbytes, List.append_nil]
    rw [← List.append_nil (List.map _ _)]
    refine Cursor.yields_encoded his hlength hfront (Cursor.yields_of_end ?_)
    refine Nat.le_of_eq ?_
    unfold length
    rw [hbytes, Nat.zero_add]

/-- A script that goes on with a fault behind a sequence of instructions is not valid, and the
iteration hands out the fault behind the sequence. -/
lemma validate_of_fault (hlength : script.length ≤ maxOffset) (his : ∀ i ∈ is, i.Assembled)
    (hbytes : script.bytes = encoded is ++ rest)
    (hfault : decodeFront (encoded is).length rest = .error e) :
    script.validate = .error e ∧
      Cursor.start.Yields script ((placed 0 is).map .ok ++ [.error e]) := by
  have hbehind : decodeFront (0 + (encoded is).length) rest = .error e := by
    rwa [Nat.zero_add]
  constructor
  · have hwalk : script.walk = (placed 0 is, some e) := by
      unfold walk
      rw [hbytes, walkFrom_encoded his, walkFrom_of_error hbehind, List.append_nil]
    unfold validate instructions
    rw [if_neg (Nat.not_lt.2 hlength), hwalk]
    rfl
  · have hfront : script.bytes.drop 0 = encoded is ++ rest := hbytes
    refine Cursor.yields_encoded his hlength hfront (Cursor.yields_of_error ?_)
    unfold instructionAt decode
    rw [Nat.zero_add, hbytes, List.drop_left]
    exact hfault

/-- Validation accepts exactly the sequences of instructions.  The bytes determine the sequence, and
the iteration over a valid script hands out just its instructions, each at the offset where the ones
before it end.  If validation fails, the iteration hands out the longest sequence that the bytes
begin with, of which every other such sequence is a part, and then the fault of the validation,
which lies where that sequence ends. -/
theorem validate_grammar (hlength : script.length ≤ maxOffset) :
    (script.validate = .ok () ↔
      ∃ is : List Instruction, (∀ i ∈ is, i.Assembled) ∧ script.bytes = encoded is) ∧
    (∀ is : List Instruction, (∀ i ∈ is, i.Assembled) → script.bytes = encoded is →
      (∀ js : List Instruction, (∀ j ∈ js, j.Assembled) → script.bytes = encoded js → js = is) ∧
      ∀ xs, Cursor.start.Yields script xs ↔ xs = (placed 0 is).map .ok) ∧
    ∀ e, script.validate = .error e →
      ∃ is : List Instruction, (∀ i ∈ is, i.Assembled) ∧ encoded is <+: script.bytes ∧
        (∀ js : List Instruction, (∀ j ∈ js, j.Assembled) → encoded js <+: script.bytes →
          js <+: is) ∧
        e.offset = (encoded is).length ∧
        ∀ xs, Cursor.start.Yields script xs ↔ xs = (placed 0 is).map .ok ++ [.error e] := by
  have yields_iff : ∀ {xs}, Cursor.start.Yields script xs →
      ∀ ys, Cursor.start.Yields script ys ↔ ys = xs :=
    fun hxs ys => ⟨fun hys => hys.unique hxs, fun hys => hys ▸ hxs⟩
  have valid_of_sequence : ∀ {is : List Instruction}, (∀ i ∈ is, i.Assembled) →
      script.bytes = encoded is → script.validate = .ok () :=
    fun his hencoded => (validate_of_encoded hlength his hencoded).1
  obtain ⟨is, his, hcases⟩ := sequence_or_fault script.bytes
  refine ⟨⟨fun hvalid => ?_, fun ⟨js, hjs, hencoded⟩ => valid_of_sequence hjs hencoded⟩, ?_, ?_⟩
  · rcases hcases with hencoded | ⟨rest, e, hbytes, hfault, -⟩
    · exact ⟨is, his, hencoded⟩
    · cases hvalid.symm.trans (validate_of_fault hlength his hbytes hfault).1
  · intro ks hks hencoded
    refine ⟨fun js hjs hencoded' => ?_, ?_⟩
    · exact encoded_injective hks hjs (hencoded'.symm.trans hencoded)
    · exact yields_iff (validate_of_encoded hlength hks hencoded).2
  · intro e hinvalid
    rcases hcases with hencoded | ⟨rest, e', hbytes, hfault, hlongest⟩
    · cases (valid_of_sequence his hencoded).symm.trans hinvalid
    · obtain ⟨hvalidate, hyields⟩ := validate_of_fault hlength his hbytes hfault
      cases hinvalid.symm.trans hvalidate
      exact ⟨is, his, ⟨rest, hbytes.symm⟩, hlongest, offset_of_decodeFront_error hfault,
        yields_iff hyields⟩

/-- A push, and data that is announced as longer than what is left of the script. -/
def truncatedScript : Script := ⟨[0x11, 0x0C, 0x05, 0x01]⟩

/-- The script ends inside its second instruction, which is where validation fails. -/
theorem validate_grammar_truncatedScript :
    truncatedScript.length ≤ maxOffset ∧
      truncatedScript.validate = .error ⟨1, .truncatedOperand .pushData1 5 1⟩ ∧
      ∃ is : List Instruction, (∀ i ∈ is, i.Assembled) ∧ encoded is <+: truncatedScript.bytes ∧
        (∀ js : List Instruction, (∀ j ∈ js, j.Assembled) →
          encoded js <+: truncatedScript.bytes → js <+: is) ∧
        1 = (encoded is).length ∧
        ∀ xs, Cursor.start.Yields truncatedScript xs ↔
          xs = (placed 0 is).map .ok ++ [.error ⟨1, .truncatedOperand .pushData1 5 1⟩] := by
  have hlength : truncatedScript.length ≤ maxOffset := by decide
  have hinvalid : truncatedScript.validate = .error ⟨1, .truncatedOperand .pushData1 5 1⟩ := by
    decide +kernel
  exact ⟨hlength, hinvalid, (validate_grammar hlength).2.2 _ hinvalid⟩

end Script

end SymbolicScript
