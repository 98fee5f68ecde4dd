import SymbolicScript.Proofs.LinearDecode
import SymbolicScript.Proofs.SortedSearch

/-!
# The partition into basic blocks

The basic blocks of a script are its linear decode, cut where it has to be cut and nowhere else
(`Script.PartitionedAt`): in front of the instructions that `Script.BeginsBlock` names.  The leaders
are collected as offsets in front of the cutting, and among them are many at which no instruction of
the linear decode stands.  These do no harm, because the cutting only asks for the offsets of
instructions.

What is left to show is that cutting never fails (`Script.basicBlocks_partition`): the offset behind
a terminator is a leader, so the instruction behind a terminator begins a new run, and no terminator
stands inside a run.
-/

namespace SymbolicScript

namespace Script

variable {script : Script} {is run : List Instruction} {i j : Instruction}
  {entries found : List Nat} {blocks : List BasicBlock} {b : BasicBlock}

/-! ## Runs -/

/-- The runs are the instructions, cut. -/
lemma flatten_cut (leads : Instruction → Bool) (is : List Instruction) :
    (cut leads is).flatten = is := by
  induction is with
  | nil => rfl
  | cons i rest ih =>
    cases rest with
    | nil => rfl
    | cons next rest =>
      obtain ⟨run, runs, hcut⟩ := cut_cons leads next rest
      rw [hcut] at ih
      rw [cut.eq_2 leads i _ _ next rest hcut, ← ih]
      split
      · rfl
      · rfl

/-- The first run begins with the first instruction and every other run with one that leads; no
further instruction of a run leads. -/
lemma exists_runs (leads : Instruction → Bool) (i : Instruction) (rest : List Instruction) :
    ∃ tail runs, cut leads (i :: rest) = (i :: tail) :: runs ∧ (∀ j ∈ tail, leads j = false) ∧
      ∀ run ∈ runs, ∃ first others, run = first :: others ∧ leads first = true ∧
        ∀ j ∈ others, leads j = false := by
  induction rest generalizing i with
  | nil => exact ⟨[], [], rfl, nofun, nofun⟩
  | cons next rest ih =>
    obtain ⟨tail, runs, hcut, htail, hruns⟩ := ih next
    rw [cut.eq_2 leads i _ _ next rest hcut]
    cases hleads : leads next with
    | true =>
      refine ⟨[], (next :: tail) :: runs, rfl, nofun, List.forall_mem_cons.2 ⟨?_, hruns⟩⟩
      exact ⟨next, tail, rfl, hleads, htail⟩
    | false => exact ⟨next :: tail, runs, rfl, List.forall_mem_cons.2 ⟨hleads, htail⟩, hruns⟩

/-- A run has a first instruction, which leads unless it is the first one of all, and no further one
of its instructions leads. -/
lemma exists_of_mem_cut {leads : Instruction → Bool} (h : run ∈ cut leads is) :
    ∃ i tail, run = i :: tail ∧ (is.head? = some i ∨ leads i = true) ∧
      ∀ j ∈ tail, leads j = false := by
  cases is with
  | nil => cases h
  | cons first rest =>
    obtain ⟨tail, runs, hcut, htail, hruns⟩ := exists_runs leads first rest
    rw [hcut] at h
    rcases List.mem_cons.1 h with rfl | hlater
    · exact ⟨first, tail, rfl, .inl rfl, htail⟩
    · obtain ⟨i, others, rfl, hi, hothers⟩ := hruns run hlater
      exact ⟨i, others, rfl, .inr hi, hothers⟩

/-- An instruction begins a run exactly if it is the first one of all or leads. -/
lemma exists_run_iff {leads : Instruction → Bool} (hi : i ∈ is) :
    (∃ tail, i :: tail ∈ cut leads is) ↔ is.head? = some i ∨ leads i = true := by
  constructor
  · rintro ⟨tail, hrun⟩
    obtain ⟨_, _, hown, hleads, -⟩ := exists_of_mem_cut hrun
    cases hown
    exact hleads
  · rintro (hhead | hleads)
    · cases is with
      | nil => cases hi
      | cons first rest =>
        cases hhead
        obtain ⟨tail, runs, hcut⟩ := cut_cons leads i rest
        exact ⟨tail, by simp [hcut]⟩
    · exact exists_run_of_leads leads hi hleads

/-! ## Leaders -/

/-- The offsets at which an instruction with the given branch targets makes a block start. -/
def leadersFrom (i : Instruction) (targets : List Int) : List Nat :=
  (targets.filter fun (t : Int) => 0 ≤ t ∧ t ≤ (maxOffset : Int)).map Int.toNat ++
    if i.opcode.isTerminator then [i.nextOffset] else []

/-- An offset is one at which an instruction makes a block start exactly if it is a branch target of
the instruction, or if it is the offset behind the instruction and this is a terminator. -/
lemma mem_leadersFrom {targets : List Int} {offset : Nat} (hoffset : offset ≤ maxOffset) :
    offset ∈ leadersFrom i targets ↔
      (offset : Int) ∈ targets ∨ i.opcode.isTerminator = true ∧ offset = i.nextOffset := by
  have htarget : offset ∈ (targets.filter fun (t : Int) => 0 ≤ t ∧ t ≤ (maxOffset : Int)).map
      Int.toNat ↔ (offset : Int) ∈ targets := by
    rw [List.mem_map]
    constructor
    · rintro ⟨t, ht, rfl⟩
      obtain ⟨ht, hrange⟩ := List.mem_filter.1 ht
      rwa [Int.toNat_of_nonneg (of_decide_eq_true hrange).1]
    · intro h
      exact ⟨offset, List.mem_filter.2 ⟨h, decide_eq_true ⟨by omega, by omega⟩⟩, rfl⟩
  unfold leadersFrom
  rw [List.mem_append, htarget]
  cases i.opcode.isTerminator <;> simp

/-- The leaders are collected from the branch targets of the instructions. -/
lemma leadersOf_eq_ok : leadersOf is = .ok found ↔
    ∃ lists, List.Forall₂ (fun i own => ∃ targets, i.branchTargets = .ok targets ∧
      leadersFrom i targets = own) is lists ∧ lists.flatten = found := by
  unfold leadersOf leadersFrom
  simp only [except_bind_eq_ok, mapM_eq_ok, Instruction.locate_eq_ok, pure, Except.pure,
    Except.ok.injEq]

/-- Where all instructions have branch targets, the leaders can be collected. -/
lemma exists_leadersOf (h : ∀ i ∈ is, ∃ targets, i.branchTargets = .ok targets) :
    ∃ found, leadersOf is = .ok found := by
  obtain ⟨lists, hlists⟩ : ∃ lists, List.Forall₂ (fun i own => ∃ targets,
      i.branchTargets = .ok targets ∧ leadersFrom i targets = own) is lists := by
    refine exists_forall₂ fun i hi => ?_
    obtain ⟨targets, htargets⟩ := h i hi
    exact ⟨leadersFrom i targets, targets, htargets, rfl⟩
  exact ⟨_, leadersOf_eq_ok.2 ⟨lists, hlists, rfl⟩⟩

/-- An offset is among the leaders that were collected exactly if it is a branch target of one of
the instructions, or the offset behind a terminator. -/
lemma mem_leadersOf (h : leadersOf is = .ok found) {offset : Nat} (hoffset : offset ≤ maxOffset) :
    offset ∈ found ↔ ∃ j ∈ is, ∃ targets, j.branchTargets = .ok targets ∧
      ((offset : Int) ∈ targets ∨ j.opcode.isTerminator = true ∧ offset = j.nextOffset) := by
  obtain ⟨lists, hlists, rfl⟩ := leadersOf_eq_ok.1 h
  clear h
  induction hlists with
  | nil => simp
  | cons hown hrest ih =>
    obtain ⟨targets, htargets, rfl⟩ := hown
    rw [List.flatten_cons, List.mem_append, ih, mem_leadersFrom hoffset]
    simp [htargets]

/-! ## The partition -/

/-- A block has to begin with the instruction: it is the first one, or stands at an entry, or is
what a branch target refers to, or directly follows a terminator. -/
def BeginsBlock (entries : List Nat) (is : List Instruction) (i : Instruction) : Prop :=
  is.head? = some i ∨ i.offset ∈ entries ∨
    (∃ j ∈ is, ∃ targets, j.branchTargets = .ok targets ∧ (i.offset : Int) ∈ targets) ∨
      ∃ j, j.opcode.isTerminator = true ∧ [j, i] <:+: is

/-- The blocks are the instructions, cut in front of those with which a block has to begin, and
nowhere else. -/
structure PartitionedAt (entries : List Nat) (is : List Instruction) (blocks : List BasicBlock) :
    Prop where
  /-- The blocks have the instructions, in their order. -/
  concat : blocks.flatMap BasicBlock.instructions = is
  /-- No block is empty. -/
  nonempty : ∀ b ∈ blocks, b.instructions ≠ []
  /-- Only the last instruction of a block may be a terminator. -/
  straight : ∀ b ∈ blocks, ∀ j ∈ b.instructions.dropLast, j.opcode.isTerminator = false
  /-- The blocks begin with the instructions with which one has to begin. -/
  begins : ∀ i ∈ is, (∃ b ∈ blocks, b.instructions.head? = some i) ↔ BeginsBlock entries is i

/-- An instruction stands in front of another one unless it is the last. -/
lemma exists_infix_of_mem_dropLast (h : j ∈ is.dropLast) : ∃ i ∈ is.tail, [j, i] <:+: is := by
  induction is with
  | nil => cases h
  | cons first rest ih =>
    cases rest with
    | nil => cases h
    | cons next rest =>
      rcases List.mem_cons.1 h with rfl | hlater
      · exact ⟨next, List.mem_cons_self, [], rest, rfl⟩
      · obtain ⟨i, hi, hadjacent⟩ := ih hlater
        exact ⟨i, List.mem_cons_of_mem _ hi, hadjacent.trans (List.suffix_cons _ _).isInfix⟩

/-- Among the leaders are just the offsets of the instructions with which a block has to begin, as
far as an instruction stands there. -/
lemma leads_iff (hlength : script.length ≤ maxOffset) (hdecode : script.instructions = .ok is)
    (hfound : leadersOf is = .ok found) (hi : i ∈ is) :
    (0 :: entries ++ found).contains i.offset = true ↔ BeginsBlock entries is i := by
  have hmax : i.offset ≤ maxOffset := by
    have hinside := offset_add_size_le hdecode hi
    omega
  have hzero : i.offset = 0 ↔ is.head? = some i :=
    ⟨head_of_offset_zero hdecode hi, offset_of_head hdecode⟩
  have hbehind : (∃ j ∈ is, j.opcode.isTerminator = true ∧ i.offset = j.nextOffset) ↔
      ∃ j, j.opcode.isTerminator = true ∧ [j, i] <:+: is := by
    refine exists_congr fun j =>
      ⟨fun ⟨hj, hterminator, hnext⟩ => ?_, fun ⟨hterminator, hadjacent⟩ => ?_⟩
    · exact ⟨hterminator, (infix_iff_nextOffset hlength hdecode hi hj).2 hnext⟩
    · have hj : j ∈ is := hadjacent.subset (by simp)
      exact ⟨hj, hterminator, (infix_iff_nextOffset hlength hdecode hi hj).1 hadjacent⟩
  have hleader : i.offset ∈ found ↔
      (∃ j ∈ is, ∃ targets, j.branchTargets = .ok targets ∧ (i.offset : Int) ∈ targets) ∨
        ∃ j, j.opcode.isTerminator = true ∧ [j, i] <:+: is := by
    rw [mem_leadersOf hfound hmax, ← hbehind, ← exists_or]
    refine exists_congr fun j => ?_
    rw [← and_or_left]
    refine and_congr_right fun hj => ?_
    obtain ⟨targets, htargets⟩ := exists_branchTargets hdecode hj
    simp [htargets]
  unfold BeginsBlock
  rw [List.contains_iff_mem, List.cons_append, List.mem_cons, List.mem_append, hzero, hleader]

/-- No terminator stands inside a run, since the instruction behind it would lead. -/
lemma straight_of_mem_cut (hlength : script.length ≤ maxOffset)
    (hdecode : script.instructions = .ok is) (hfound : leadersOf is = .ok found)
    (hrun : run ∈ cut (fun i => (0 :: entries ++ found).contains i.offset) is)
    (hj : j ∈ run.dropLast) : j.opcode.isTerminator = false := by
  obtain ⟨i, hi, hadjacent⟩ := exists_infix_of_mem_dropLast hj
  have hwhole : [j, i] <:+: is := by
    have hpart := hadjacent.trans (List.infix_of_mem_flatten hrun)
    rwa [flatten_cut] at hpart
  by_contra hterminator
  have hbegins : BeginsBlock entries is i :=
    .inr (.inr (.inr ⟨j, by simpa using hterminator, hwhole⟩))
  have hleads := (leads_iff hlength hdecode hfound (hwhole.subset (by simp))).2 hbegins
  obtain ⟨first, tail, rfl, -, htail⟩ := exists_of_mem_cut hrun
  rw [htail i hi] at hleads
  cases hleads

/-- A run without a terminator inside is a block. -/
lemma exists_ofInstructions (h : ∀ j ∈ run.dropLast, j.opcode.isTerminator = false) :
    ∃ b, BasicBlock.ofInstructions run = .ok b := by
  have hstraight : innerTerminator? run = none := by
    unfold innerTerminator?
    rw [List.find?_eq_none]
    intro j hj
    simp [h j hj]
  unfold BasicBlock.ofInstructions
  split
  · exact ⟨_, rfl⟩
  · next inner hinner => cases hstraight.symm.trans hinner

/-- A script that decodes to its end has basic blocks, and they are its partition. -/
lemma exists_partition (entries : List Nat) (hlength : script.length ≤ maxOffset)
    (hdecode : script.instructions = .ok is) :
    ∃ blocks, script.basicBlocks entries = .ok blocks ∧ PartitionedAt entries is blocks := by
  obtain ⟨found, hfound⟩ := exists_leadersOf fun i hi => exists_branchTargets hdecode hi
  let leads : Instruction → Bool := fun i => (0 :: entries ++ found).contains i.offset
  have hstraight : ∀ run ∈ cut leads is, ∀ j ∈ run.dropLast, j.opcode.isTerminator = false :=
    fun run hrun j hj => straight_of_mem_cut hlength hdecode hfound hrun hj
  obtain ⟨blocks, hblocks⟩ := exists_mapM fun run hrun => exists_ofInstructions (hstraight run hrun)
  have hruns : blocks.map BasicBlock.instructions = cut leads is :=
    map_of_mapM hblocks fun _ _ => BasicBlock.ofInstructions_eq_ok
  have hmem {b : BasicBlock} (hb : b ∈ blocks) : b.instructions ∈ cut leads is :=
    hruns ▸ List.mem_map_of_mem hb
  refine ⟨blocks, ?_, ?_⟩
  · unfold basicBlocks
    rw [hdecode]
    exact except_bind_eq_ok.2 ⟨is, rfl, except_bind_eq_ok.2 ⟨found, hfound, hblocks⟩⟩
  · refine ⟨?_, fun b hb => ?_, fun b hb => hstraight _ (hmem hb), fun i hi => ?_⟩
    · rw [List.flatMap_def, hruns, flatten_cut]
    · obtain ⟨first, tail, hrun, -⟩ := exists_of_mem_cut (hmem hb)
      rw [hrun]
      exact List.cons_ne_nil _ _
    · have hhead : (∃ b ∈ blocks, b.instructions.head? = some i) ↔
          ∃ tail, i :: tail ∈ cut leads is := by
        constructor
        · rintro ⟨b, hb, hfirst⟩
          obtain ⟨tail, hrun⟩ := List.head?_eq_some_iff.1 hfirst
          exact ⟨tail, hrun ▸ hmem hb⟩
        · rintro ⟨tail, hrun⟩
          rw [← hruns] at hrun
          obtain ⟨b, hb, hown⟩ := List.mem_map.1 hrun
          exact ⟨b, hb, by rw [hown]; rfl⟩
      rw [hhead, exists_run_iff hi, leads_iff hlength hdecode hfound hi]
      exact or_iff_right_of_imp .inl

/-- A script that does not decode to its end has no basic blocks. -/
lemma basicBlocks_of_fault {e : Located DisassemblyError} (h : script.instructions = .error e) :
    script.basicBlocks entries = .error e.toExecution := by
  unfold basicBlocks
  rw [h]
  rfl

/-- A script with basic blocks decodes to its end, and they are its partition. -/
lemma partition_of_basicBlocks (hlength : script.length ≤ maxOffset)
    (hblocks : script.basicBlocks entries = .ok blocks) :
    ∃ is, script.instructions = .ok is ∧ PartitionedAt entries is blocks := by
  cases hdecode : script.instructions with
  | ok is =>
    obtain ⟨blocks', hblocks', hpartition⟩ := exists_partition entries hlength hdecode
    cases hblocks.symm.trans hblocks'
    exact ⟨is, rfl, hpartition⟩
  | error fault =>
    rw [basicBlocks_of_fault hdecode] at hblocks
    cases hblocks

namespace PartitionedAt

/-- The instructions of a block stand next to each other. -/
lemma infix_of_mem (h : PartitionedAt entries is blocks) (hb : b ∈ blocks) :
    b.instructions <:+: is := by
  have hpart := List.infix_of_mem_flatten (List.mem_map_of_mem (f := BasicBlock.instructions) hb)
  rwa [← List.flatMap_def, h.concat] at hpart

/-- In a block the search finds just the offsets of the instructions. -/
lemma contains_iff (hdecode : script.instructions = .ok is) (h : PartitionedAt entries is blocks)
    (hb : b ∈ blocks) (offset : Nat) :
    b.contains offset = true ↔ ∃ i ∈ b.instructions, i.offset = offset := by
  refine Bisect.member_iff ?_
  exact ((sorted_of_instructions hdecode).sublist (h.infix_of_mem hb).sublist).imp Nat.le_of_lt

end PartitionedAt

/-- A script has basic blocks exactly if it decodes to its end.  They are then the instructions of
the linear decode, cut in front of those with which a block has to begin and nowhere else, with no
terminator in front of the end of one, and the search for an offset in a block finds just the
offsets of its instructions.  Otherwise the fault of the decoding is the error: that a terminator
stands inside a block is never found. -/
theorem basicBlocks_partition (script : Script) (entries : List Nat)
    (hlength : script.length ≤ maxOffset) :
    ((∃ blocks, script.basicBlocks entries = .ok blocks) ↔ ∃ is, script.instructions = .ok is) ∧
    (∀ blocks is, script.basicBlocks entries = .ok blocks → script.instructions = .ok is →
      PartitionedAt entries is blocks ∧
        ∀ b ∈ blocks, ∀ offset,
          b.contains offset = true ↔ ∃ i ∈ b.instructions, i.offset = offset) ∧
    ∀ e, script.basicBlocks entries = .error e →
      (∃ fault, script.instructions = .error fault ∧ e = fault.toExecution) ∧
        ∀ op, e.payload ≠ .terminatorInsideBlock op := by
  refine ⟨⟨fun ⟨blocks, hblocks⟩ => ?_, fun ⟨is, hdecode⟩ => ?_⟩, ?_, ?_⟩
  · obtain ⟨is, hdecode, -⟩ := partition_of_basicBlocks hlength hblocks
    exact ⟨is, hdecode⟩
  · obtain ⟨blocks, hblocks, -⟩ := exists_partition entries hlength hdecode
    exact ⟨blocks, hblocks⟩
  · intro blocks is hblocks hdecode
    obtain ⟨is', hdecode', hpartition⟩ := partition_of_basicBlocks hlength hblocks
    cases hdecode.symm.trans hdecode'
    exact ⟨hpartition, fun b hb => hpartition.contains_iff hdecode hb⟩
  · intro e he
    cases hdecode : script.instructions with
    | ok is =>
      obtain ⟨blocks, hblocks, -⟩ := exists_partition entries hlength hdecode
      cases he.symm.trans hblocks
    | error fault =>
      rw [basicBlocks_of_fault hdecode] at he
      cases he
      exact ⟨⟨fault, rfl, rfl⟩, fun op hop => by cases hop⟩

/-- A push, a conditional jump over two instructions, these, and a return. -/
def branchingScript : Script := ⟨[0x11, 0x24, 0x04, 0x21, 0x21, 0x40]⟩

/-- The second of the instructions that are jumped over is an entry.  The other entry lies inside
the jump, where no block can begin. -/
theorem basicBlocks_partition_branchingScript :
    branchingScript.length ≤ maxOffset ∧
      ∃ blocks is, branchingScript.basicBlocks [4, 2] = .ok blocks ∧
        branchingScript.instructions = .ok is ∧ blocks.map BasicBlock.start = [0, 3, 4, 5] ∧
        PartitionedAt [4, 2] is blocks := by
  have hlength : branchingScript.length ≤ maxOffset := by decide
  have hstarts : (branchingScript.basicBlocks [4, 2]).map (List.map BasicBlock.start) =
      .ok [0, 3, 4, 5] := by decide +kernel
  obtain ⟨hsucceeds, hpartition, -⟩ := basicBlocks_partition branchingScript [4, 2] hlength
  obtain ⟨blocks, hblocks, hstart⟩ := except_map_eq_ok.1 hstarts
  obtain ⟨is, hdecode⟩ := hsucceeds.1 ⟨blocks, hblocks⟩
  exact ⟨hlength, blocks, is, hblocks, hdecode, hstart, (hpartition blocks is hblocks hdecode).1⟩

end Script

end SymbolicScript
