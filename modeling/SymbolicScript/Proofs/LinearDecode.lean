import Mathlib.Data.List.Chain
import SymbolicScript.Proofs.BlockStarts
import SymbolicScript.Proofs.Encoding

/-!
# The linear decode of a script

Each instruction of the linear decode begins where the one in front of it ends
(`Script.isChain_of_instructions`), so the offsets ascend, and two instructions are neighbours
exactly if one stands at the offset behind the other (`Script.infix_iff_nextOffset`).  The greatest
offset plays no part in this as long as the script is no longer than that: every instruction then
ends inside the script, and `Instruction.nextOffset`, which is held at the greatest offset, is where
it ends (`Script.nextOffset_of_mem`).

The branch targets of a decoded instruction can always be told (`Script.exists_branchTargets`),
since the layout of an opcode that refers to other offsets has room for them.
-/

namespace SymbolicScript

namespace Instruction

variable {i : Instruction}

/-- An operand with a relative offset in it has room for that offset. -/
lemma width_of_single {op : Opcode} {width : Nat} (h : targetForm op = .single width) :
    op.layout = .fixed width := by
  cases op <;> cases h <;> rfl

/-- An operand with two relative offsets in it has room for both. -/
lemma width_of_handlers {op : Opcode} {width : Nat} (h : targetForm op = .handlers width) :
    op.layout = .fixed (width + width) := by
  cases op <;> cases h <;> rfl

/-- A number that lies inside the operand is read. -/
lemma exists_signedToken (start width : Nat) (h : start + width ≤ i.operand.length) :
    ∃ v, i.signedToken start width = .ok v := by
  unfold signedToken token
  rw [if_pos h]
  exact ⟨_, rfl⟩

/-- An instruction with an operand that its layout admits has branch targets, if perhaps none. -/
lemma exists_branchTargets (h : i.opcode.layout.Admits i.operand.length) :
    ∃ targets, i.branchTargets = .ok targets := by
  unfold branchTargets
  cases hform : targetForm i.opcode with
  | none => exact ⟨[], rfl⟩
  | single width =>
    rw [width_of_single hform] at h
    have hlength : i.operand.length = width := h
    obtain ⟨v, hv⟩ := exists_signedToken (i := i) 0 width (by omega)
    exact ⟨_, except_bind_eq_ok.2 ⟨v, hv, rfl⟩⟩
  | handlers width =>
    rw [width_of_handlers hform] at h
    have hlength : i.operand.length = width + width := h
    obtain ⟨v, hv⟩ := exists_signedToken (i := i) 0 width (by omega)
    obtain ⟨w, hw⟩ := exists_signedToken (i := i) width width (by omega)
    exact ⟨_, except_bind_eq_ok.2 ⟨v, hv, except_bind_eq_ok.2 ⟨w, hw, rfl⟩⟩⟩

end Instruction

namespace Script

variable {script : Script} {is : List Instruction} {i j : Instruction}

/-! ## One instruction behind the other -/

/-- The instructions of a walk stand one behind the other, the first one at the offset of the
walk. -/
lemma isChain_walkFrom (offset : Nat) (bytes : Bytes) :
    (∀ i ∈ (walkFrom offset bytes).1.head?, i.offset = offset) ∧
      (walkFrom offset bytes).1.IsChain fun i j => j.offset = i.offset + i.size := by
  induction offset, bytes using walkFrom.induct with
  | case1 offset =>
    rw [walkFrom]
    refine ⟨fun j hj => ?_, .nil⟩
    cases hj
  | case2 offset byte rest hdecode =>
    rw [walkFrom, hdecode]
    refine ⟨fun j hj => ?_, .nil⟩
    cases hj
  | case3 offset byte rest i hdecode ih =>
    rw [walkFrom, hdecode]
    obtain ⟨hhead, hchain⟩ := ih
    have hoffset := (Instruction.decodeFront_size hdecode).1
    refine ⟨fun j hj => ?_, List.isChain_cons.2 ⟨fun j hj => ?_, hchain⟩⟩
    · cases hj
      exact hoffset
    · rw [hhead j hj, hoffset]
  | case4 offset byte rest e hdecode =>
    rw [walkFrom, hdecode]
    refine ⟨fun j hj => ?_, .nil⟩
    cases hj

/-- The instructions of the linear decode are those of a walk from the start. -/
lemma walkFrom_of_instructions (hdecode : script.instructions = .ok is) :
    (walkFrom 0 script.bytes).1 = is := by
  unfold instructions walk at hdecode
  split at hdecode
  · next found hfound =>
    cases hdecode
    rw [hfound]
  · cases hdecode

/-- Each instruction of the linear decode begins where the one in front of it ends. -/
lemma isChain_of_instructions (hdecode : script.instructions = .ok is) :
    is.IsChain fun i j => j.offset = i.offset + i.size :=
  walkFrom_of_instructions hdecode ▸ (isChain_walkFrom 0 script.bytes).2

/-- The first instruction of the linear decode stands at the start of the script. -/
lemma offset_of_head (hdecode : script.instructions = .ok is) (h : is.head? = some i) :
    i.offset = 0 :=
  (isChain_walkFrom 0 script.bytes).1 i (by rw [walkFrom_of_instructions hdecode]; exact h)

/-- The offsets of the linear decode ascend. -/
lemma sorted_of_instructions (hdecode : script.instructions = .ok is) :
    is.Pairwise fun i j => i.offset < j.offset := by
  have hchain : is.IsChain fun i j => i.offset < j.offset :=
    (isChain_of_instructions hdecode).imp fun i j hij => by
      have hpos : 1 ≤ i.size := Instruction.size_pos
      omega
  have : Trans (fun i j : Instruction => i.offset < j.offset)
      (fun i j : Instruction => i.offset < j.offset)
      fun i j : Instruction => i.offset < j.offset := ⟨Nat.lt_trans⟩
  exact hchain.pairwise

/-- No two instructions of the linear decode stand at the same offset. -/
lemma eq_of_offset (hdecode : script.instructions = .ok is) (hi : i ∈ is) (hj : j ∈ is)
    (h : i.offset = j.offset) : i = j := by
  have hati := instructionAt_of_mem hdecode hi
  rw [h, instructionAt_of_mem hdecode hj] at hati
  cases hati
  rfl

/-- Only the first instruction of the linear decode stands at the start of the script. -/
lemma head_of_offset_zero (hdecode : script.instructions = .ok is) (hi : i ∈ is)
    (h : i.offset = 0) : is.head? = some i := by
  cases is with
  | nil => cases hi
  | cons first rest =>
    have hfirst := offset_of_head hdecode (i := first) rfl
    rw [List.head?_cons, eq_of_offset hdecode hi List.mem_cons_self (h.trans hfirst.symm)]

/-! ## The offset behind an instruction -/

/-- An instruction of the linear decode ends inside the script. -/
lemma offset_add_size_le (hdecode : script.instructions = .ok is) (hi : i ∈ is) :
    i.offset + i.size ≤ script.length :=
  (instructionAt_size (instructionAt_of_mem hdecode hi)).2.1

/-- The offset behind an instruction of the linear decode is where the instruction ends. -/
lemma nextOffset_of_mem (hlength : script.length ≤ maxOffset)
    (hdecode : script.instructions = .ok is) (hi : i ∈ is) :
    i.nextOffset = i.offset + i.size :=
  Nat.min_eq_left (Nat.le_trans (offset_add_size_le hdecode hi) hlength)

/-- One of two instructions of the linear decode directly follows the other exactly if it stands at
the offset behind that. -/
lemma infix_iff_nextOffset (hlength : script.length ≤ maxOffset)
    (hdecode : script.instructions = .ok is) (hi : i ∈ is) (hj : j ∈ is) :
    [j, i] <:+: is ↔ i.offset = j.nextOffset := by
  have hchain := isChain_of_instructions hdecode
  rw [nextOffset_of_mem hlength hdecode hj]
  refine ⟨fun h => by simpa using hchain.infix h, fun h => ?_⟩
  obtain ⟨before, after, rfl⟩ := List.append_of_mem hj
  have hsorted := sorted_of_instructions hdecode
  cases after with
  | nil =>
    -- The last instruction ends behind the start of every other one.
    have hpos : 1 ≤ j.size := Instruction.size_pos
    rcases List.mem_append.1 hi with hfront | hlast
    · have hlt := (List.pairwise_append.1 hsorted).2.2 i hfront j List.mem_cons_self
      omega
    · rw [List.mem_singleton.1 hlast] at h
      omega
  | cons next after =>
    have hadjacent : [j, next] <:+: before ++ j :: next :: after := ⟨before, after, by simp⟩
    have hnext : next.offset = j.offset + j.size := by simpa using hchain.infix hadjacent
    rwa [eq_of_offset hdecode hi (hadjacent.subset (by simp)) (h.trans hnext.symm)]

/-! ## Branch targets -/

/-- The layout of an instruction of the linear decode admits its operand. -/
lemma admits_of_mem (hdecode : script.instructions = .ok is) (hi : i ∈ is) :
    i.opcode.layout.Admits i.operand.length :=
  (Instruction.encode_of_decodeFront (instructionAt_of_mem hdecode hi)).1

/-- An instruction of the linear decode has branch targets, if perhaps none. -/
lemma exists_branchTargets (hdecode : script.instructions = .ok is) (hi : i ∈ is) :
    ∃ targets, i.branchTargets = .ok targets :=
  Instruction.exists_branchTargets (admits_of_mem hdecode hi)

end Script

end SymbolicScript
