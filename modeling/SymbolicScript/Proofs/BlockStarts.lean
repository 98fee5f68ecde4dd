import SymbolicScript.Proofs.Decoding
import SymbolicScript.Script.Block

/-!
# Where basic blocks start

The blocks of a script cut its linear decode in front of every leader.  This file proves that an
instruction at the offset of a leader is therefore the first one of a block
(`Script.blockStart_of_leader`), and that the leaders are what control can be sent to: the first
offset, and for each instruction of the linear decode its branch targets and, if it is a terminator,
the offset behind it (`Script.basicBlocks_leadsInto`).
-/

namespace SymbolicScript

/-! ## The linear decode -/

namespace Script

variable {script : Script} {instructions : List Instruction} {i : Instruction}

/-- An instruction that a walk comes to is decoded from the bytes behind those passed. -/
lemma decodeFront_of_mem_walkFrom {offset : Nat} {bytes : Bytes}
    (h : i ∈ (walkFrom offset bytes).1) :
    ∃ passed, i.offset = offset + passed ∧
      Instruction.decodeFront i.offset (bytes.drop passed) = .ok (some i) := by
  induction offset, bytes using walkFrom.induct with
  | case1 offset =>
    rw [walkFrom] at h
    cases h
  | case2 offset byte rest hdecode =>
    rw [walkFrom, hdecode] at h
    cases h
  | case3 offset byte rest j hdecode ih =>
    rw [walkFrom, hdecode] at h
    have hj := Instruction.decodeFront_size hdecode
    rcases List.mem_cons.1 h with rfl | htail
    · refine ⟨0, hj.1, ?_⟩
      rw [hj.1]
      exact hdecode
    · obtain ⟨passed, hoffset, hfront⟩ := ih htail
      have hsize : j.size + passed = (j.size - 1 + passed) + 1 := by
        unfold Instruction.size
        omega
      refine ⟨j.size + passed, by omega, ?_⟩
      rw [hsize, List.drop_succ_cons, ← List.drop_drop]
      exact hfront
  | case4 offset byte rest e hdecode =>
    rw [walkFrom, hdecode] at h
    cases h

/-- The linear decode finds at every offset what is decoded there. -/
lemma instructionAt_of_mem (hdecode : script.instructions = .ok instructions)
    (hi : i ∈ instructions) : script.instructionAt i.offset = .ok (some i) := by
  have hwalk : (walkFrom 0 script.bytes).1 = instructions := by
    unfold Script.instructions walk at hdecode
    split at hdecode
    · next found hfound =>
      cases hdecode
      rw [hfound]
    · cases hdecode
  rw [← hwalk] at hi
  obtain ⟨passed, hoffset, hfront⟩ := decodeFront_of_mem_walkFrom hi
  have hpassed : i.offset = passed := by omega
  unfold instructionAt Instruction.decode
  rw [hpassed] at hfront ⊢
  exact hfront

end Script

/-! ## Cutting in front of leaders -/

namespace Script

variable {instructions : List Instruction} {i : Instruction}

/-- The first run begins with the first instruction. -/
lemma cut_cons (leads : Instruction → Bool) (i : Instruction) (rest : List Instruction) :
    ∃ run runs, cut leads (i :: rest) = (i :: run) :: runs := by
  induction rest generalizing i with
  | nil => exact ⟨[], [], rfl⟩
  | cons next rest ih =>
    obtain ⟨run, runs, hcut⟩ := ih next
    rw [cut.eq_2 leads i _ _ next rest hcut]
    split
    · exact ⟨[], (next :: run) :: runs, rfl⟩
    · exact ⟨next :: run, runs, rfl⟩

/-- A leading instruction is the first one of a run. -/
lemma exists_run_of_leads (leads : Instruction → Bool) (hi : i ∈ instructions)
    (hleads : leads i = true) :
    ∃ run, i :: run ∈ cut leads instructions := by
  induction instructions with
  | nil => cases hi
  | cons j rest ih =>
    rcases List.mem_cons.1 hi with rfl | hrest
    · obtain ⟨run, runs, hcut⟩ := cut_cons leads i rest
      exact ⟨run, by simp [hcut]⟩
    · obtain ⟨run', hrun'⟩ := ih hrest
      cases rest with
      | nil => cases hrest
      | cons next rest =>
        obtain ⟨run, runs, hcut⟩ := cut_cons leads next rest
        refine ⟨run', ?_⟩
        rw [hcut] at hrun'
        rw [cut.eq_2 leads j _ _ next rest hcut]
        rcases List.mem_cons.1 hrun' with hfirst | hlater
        · have hnext : i = next := (List.cons.inj hfirst).1
          rw [← hnext, if_pos hleads, hnext, ← hfirst, hnext]
          simp
        · split
          · exact List.mem_cons_of_mem _ hrun'
          · exact List.mem_cons_of_mem _ hlater

end Script

/-! ## Leaders -/

/-- If an instruction stands at the offset, a block starts there. -/
def BlockStart (instructions : List Instruction) (blocks : List BasicBlock) (offset : Nat) : Prop :=
  offset ∈ instructions.map Instruction.offset →
    ∃ b ∈ blocks, b.instructions ≠ [] ∧ b.start = offset

/-- All offsets to which an instruction can send control, other than the next one of an instruction
that is no terminator, belong to the set. -/
structure Instruction.LeadsInto (L : Nat → Prop) (i : Instruction) : Prop where
  /-- The branch targets belong to the set. -/
  target : ∀ targets, i.branchTargets = .ok targets → ∀ t ∈ targets, 0 ≤ t → t ≤ maxOffset →
    L t.toNat
  /-- What follows a terminator belongs to the set, unless that is a return, which never goes on
  there. -/
  next : i.opcode.isTerminator = true → i.opcode ≠ .ret → L i.nextOffset

/-- A block of given instructions has these instructions. -/
lemma BasicBlock.ofInstructions_eq_ok {instructions : List Instruction} {b : BasicBlock}
    (h : ofInstructions instructions = .ok b) : b.instructions = instructions := by
  unfold ofInstructions at h
  split at h
  · cases h
    rfl
  · cases h

namespace Script

variable {script : Script} {instructions : List Instruction} {entries leaders : List Nat}
  {blocks : List BasicBlock}

/-- The blocks are cut from the linear decode in front of the leaders. -/
lemma basicBlocks_eq_ok (hdecode : script.instructions = .ok instructions)
    (hblocks : script.basicBlocks entries = .ok blocks) :
    ∃ found, leadersOf instructions = .ok found ∧
      (cut (fun i => (0 :: entries ++ found).contains i.offset) instructions).mapM
        BasicBlock.ofInstructions = .ok blocks := by
  unfold basicBlocks at hblocks
  rw [hdecode] at hblocks
  obtain ⟨decoded, hsame, hafter⟩ := except_bind_eq_ok.1 hblocks
  cases hsame
  exact except_bind_eq_ok.1 hafter

/-- A block starts at the offset of a leader, if an instruction stands there. -/
lemma blockStart_of_leader
    (hblocks : (cut (fun i => leaders.contains i.offset) instructions).mapM
      BasicBlock.ofInstructions = .ok blocks) {offset : Nat} (hleader : offset ∈ leaders) :
    BlockStart instructions blocks offset := by
  intro hoffset
  obtain ⟨i, hi, rfl⟩ := List.mem_map.1 hoffset
  obtain ⟨run, hrun⟩ := exists_run_of_leads (fun j => leaders.contains j.offset) hi
    (List.contains_iff_mem.2 hleader)
  obtain ⟨b, hb, hblock⟩ := exists_of_mem_mapM hblocks hrun
  have hinstructions := BasicBlock.ofInstructions_eq_ok hblock
  refine ⟨b, hb, ?_, ?_⟩
  · rw [hinstructions]
    exact List.cons_ne_nil _ _
  · unfold BasicBlock.start
    rw [hinstructions]
    rfl

/-- The leaders contain everything to which one of the instructions can send control. -/
lemma leadsInto_of_leadersOf (hleaders : leadersOf instructions = .ok leaders) {i : Instruction}
    (hi : i ∈ instructions) : i.LeadsInto (· ∈ leaders) := by
  unfold leadersOf at hleaders
  obtain ⟨found, hfound, hflat⟩ := except_bind_eq_ok.1 hleaders
  cases hflat
  obtain ⟨own, hown, hof⟩ := exists_of_mem_mapM hfound hi
  obtain ⟨targets, htargets, hresult⟩ := except_bind_eq_ok.1 hof
  cases hresult
  rw [Instruction.locate_eq_ok] at htargets
  constructor
  · intro targets' htargets' t ht hnonneg hmax
    cases htargets.symm.trans htargets'
    refine List.mem_flatten.2 ⟨_, hown, List.mem_append_left _ (List.mem_map_of_mem ?_)⟩
    simp [ht, hnonneg, hmax]
  · intro hterminator _
    refine List.mem_flatten.2 ⟨_, hown, List.mem_append_right _ ?_⟩
    rw [if_pos hterminator]
    exact List.mem_singleton_self _

/-- Blocks start at the first offset and wherever an instruction of the script can send control. -/
theorem basicBlocks_leadsInto (hdecode : script.instructions = .ok instructions)
    (hblocks : script.basicBlocks entries = .ok blocks) :
    BlockStart instructions blocks 0 ∧
      ∀ i ∈ instructions, i.LeadsInto (BlockStart instructions blocks) := by
  obtain ⟨found, hfound, hcut⟩ := basicBlocks_eq_ok hdecode hblocks
  have hstart {offset : Nat} (hleader : offset ∈ 0 :: entries ++ found) :
      BlockStart instructions blocks offset := blockStart_of_leader hcut hleader
  refine ⟨hstart (by simp), fun i hi => ?_⟩
  have hi' := leadsInto_of_leadersOf hfound hi
  constructor
  · intro targets htargets t ht hnonneg hmax
    exact hstart (List.mem_append_right _ (hi'.target targets htargets t ht hnonneg hmax))
  · intro hterminator hret
    exact hstart (List.mem_append_right _ (hi'.next hterminator hret))

end Script

end SymbolicScript
