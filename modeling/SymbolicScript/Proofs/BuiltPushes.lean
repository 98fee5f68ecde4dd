import Mathlib.Tactic.IntervalCases
import SymbolicScript.Machine.StopCondition
import SymbolicScript.Proofs.InstructionGrammar
import SymbolicScript.Proofs.IntegerEncoding
import SymbolicScript.Proofs.Loading
import SymbolicScript.Proofs.Rerun
import SymbolicScript.Script.Builder

/-!
# Scripts that push constants

A builder emits integers, booleans and data in the shortest form that holds them, and the machine
reads the form back from the opcode and the operand.  This file proves that both agree: for every
sequence of values building succeeds, the script is one instruction for each value, and running it
leaves just these values on the stack (`Machine.run_pushAll`).

What the builder, the grammar of scripts and the handlers have to agree on is stated once for a
single value (`Instruction.Pushes`).  The run is then followed instruction by instruction, from any
stack: a run through pushes is a run from where they end, with their values on the stack
(`Machine.run_pushes`).
-/

namespace SymbolicScript

/-- A value that a builder can emit the push of. -/
inductive Literal where
  | integer (value : Int)
  | boolean (value : Bool)
  | bytes (data : Bytes)
  deriving DecidableEq, Repr

namespace Literal

/-- The item that has the value. -/
def item : Literal → Item
  | integer value => .integer value
  | boolean value => .boolean value
  | bytes data => .byteString data

/-- The machine has room for the value: 256 bits for an integer, the configured size for data. -/
def Representable (config : Config) : Literal → Prop
  | integer value => -(Nat.pow 2 255 : Int) ≤ value ∧ value < Nat.pow 2 255
  | boolean _ => True
  | bytes data => data.length ≤ config.maxItemSize

instance (config : Config) (x : Literal) : Decidable (x.Representable config) :=
  match x with
  | integer value =>
    inferInstanceAs (Decidable (-(Nat.pow 2 255 : Int) ≤ value ∧ value < Nat.pow 2 255))
  | boolean _ => inferInstanceAs (Decidable True)
  | bytes data => inferInstanceAs (Decidable (data.length ≤ config.maxItemSize))

/-- The number of bytes that the push of the value occupies. -/
def size : Literal → Nat
  | integer value =>
    if -1 ≤ value ∧ value ≤ 16 then 1
    else 1 + ((ScriptBuilder.integerForm? (TwosComplement.width value)).map Prod.snd).getD 0
  | boolean _ => 1
  | bytes data => 1 + (ScriptBuilder.dataOpcode data.length).layout.lengthWidth + data.length

end Literal

namespace ScriptBuilder

/-- Emits the push of a value. -/
def push (b : ScriptBuilder) : Literal → Except (Located DisassemblyError) ScriptBuilder
  | .integer value => b.pushInteger value
  | .boolean value => .ok (b.pushBoolean value)
  | .bytes data => b.pushData data

/-- Emits the pushes of values, one after the other. -/
def pushAll (b : ScriptBuilder) (values : List Literal) :
    Except (Located DisassemblyError) ScriptBuilder :=
  values.foldlM push b

end ScriptBuilder

/-! ## The instruction that pushes a value -/

/-- The instruction is the one that a builder emits for the value and that pushes it. -/
structure Instruction.Pushes (config : Config) (i : Instruction) (x : Literal) : Prop where
  /-- The instruction can be assembled. -/
  assembled : i.Assembled
  /-- It occupies as many bytes as the push of the value. -/
  size_eq : i.size = x.size
  /-- Builders emit it for the value. -/
  emitted : ∀ b : ScriptBuilder, b.push x = .ok (b.emitInstruction i)
  /-- Its handler pushes the value, wherever the instruction stands. -/
  dispatched : ∀ offset : Nat, JumpTable.standard.dispatch config (i.moveTo offset) =
    Exec.push x.item

namespace ScriptBuilder

variable {config : Config} {opcode : Opcode} {operand : Bytes} {b : ScriptBuilder}

/-- An opcode that fixes the length of its operand is emitted as an instruction. -/
lemma emitInstruction_of_fixed {width : Nat} (h : opcode.layout = .fixed width) :
    b.emitInstruction ⟨0, opcode, operand⟩ = b.emitWith opcode operand := by
  unfold emitInstruction emitWith Instruction.encode
  rw [h]
  rfl

/-- The integers from -1 to 16 have an opcode of their own, by whose distance from another they are
pushed. -/
lemma smallOpcode?_eq_some {value : Int} (h : -1 ≤ value ∧ value ≤ 16) :
    ∃ opcode, smallOpcode? value = some opcode ∧ opcode.layout = .fixed 0 ∧
      JumpTable.standard.handler opcode = .pushSmall ∧
      (opcode.byte.toNat : Int) - Opcode.push0.byte.toNat = value := by
  obtain ⟨hlow, hhigh⟩ := h
  interval_cases value <;> exact ⟨_, rfl, rfl, rfl, rfl⟩

/-- There is an integer push with enough room for up to 32 bytes. -/
lemma integerForm?_eq_some {width : Nat} (h : width ≤ 32) :
    ∃ opcode room, integerForm? width = some (opcode, room) ∧ width ≤ room ∧
      opcode.layout = .fixed room ∧ JumpTable.standard.handler opcode = .pushInteger := by
  unfold integerForm?
  split_ifs
  all_goals exact ⟨_, _, rfl, by omega, rfl, rfl⟩

/-- The narrowest data push has room for the data, if offsets can address the instruction. -/
lemma admits_dataOpcode {length : Nat}
    (h : 1 + (dataOpcode length).layout.lengthWidth + length ≤ maxOffset) :
    (dataOpcode length).layout.Admits length := by
  unfold dataOpcode at h ⊢
  split_ifs at h ⊢ with hone htwo
  · have hlt : length < Nat.pow 256 1 := Nat.lt_succ_of_le hone
    exact ⟨hlt, h⟩
  · have hlt : length < Nat.pow 256 2 := Nat.lt_succ_of_le htwo
    exact ⟨hlt, h⟩
  · have hlt : length < Nat.pow 256 4 :=
      Nat.lt_succ_of_le (Nat.le_trans (Nat.le_add_left _ _) h)
    exact ⟨hlt, h⟩

/-- Data pushes push data. -/
lemma handler_dataOpcode (length : Nat) :
    JumpTable.standard.handler (dataOpcode length) = .pushData := by
  unfold dataOpcode
  split_ifs
  all_goals rfl

/-! ### One instruction for each kind of value -/

/-- A small integer is pushed by its opcode. -/
lemma exists_pushes_small {value : Int} (h : -1 ≤ value ∧ value ≤ 16) :
    ∃ i : Instruction, i.Pushes config (.integer value) := by
  obtain ⟨opcode, hopcode, hlayout, hhandler, hvalue⟩ := smallOpcode?_eq_some h
  refine ⟨⟨0, opcode, []⟩, ?_, ?_, ?_, ?_⟩
  · refine Instruction.assembled_iff.2 ⟨rfl, ?_⟩
    rw [hlayout]
    exact rfl
  · simp [Instruction.size, Literal.size, hlayout, h, OperandLayout.lengthWidth]
  · intro b
    rw [emitInstruction_of_fixed hlayout, push, pushInteger, hopcode]
    rfl
  · intro offset
    rw [JumpTable.dispatch, Instruction.moveTo, hhandler]
    simp only [Handler.run, Semantics.pushSmall, hvalue, Literal.item]

/-- Any other integer of up to 256 bits is pushed by its two's complement form in the operand. -/
lemma exists_pushes_integer {value : Int} (h : ¬(-1 ≤ value ∧ value ≤ 16))
    (hfits : TwosComplement.Fits 32 value) :
    ∃ i : Instruction, i.Pushes config (.integer value) := by
  have hwidth := (TwosComplement.width_le_iff (by decide)).2 hfits
  obtain ⟨opcode, room, hform, hroom, hlayout, hhandler⟩ := integerForm?_eq_some hwidth
  have hpos : 1 ≤ room := Nat.le_trans TwosComplement.one_le_width hroom
  have hread := TwosComplement.toInt_encodeIn ((TwosComplement.width_le_iff hpos).1 hroom)
  refine ⟨⟨0, opcode, TwosComplement.encodeIn room value⟩, ?_, ?_, ?_, ?_⟩
  · refine Instruction.assembled_iff.2 ⟨rfl, ?_⟩
    rw [hlayout]
    exact TwosComplement.length_encodeIn
  · simp [Instruction.size, Literal.size, hlayout, h, hform, OperandLayout.lengthWidth]
  · intro b
    have hnone : smallOpcode? value = none := if_neg h
    rw [emitInstruction_of_fixed hlayout, push, pushInteger, hnone]
    simp only [hform]
  · intro offset
    rw [JumpTable.dispatch, Instruction.moveTo, hhandler]
    simp only [Handler.run, Semantics.pushInteger, hread, Literal.item]

/-- A boolean is pushed by its opcode. -/
lemma exists_pushes_boolean (value : Bool) :
    ∃ i : Instruction, i.Pushes config (.boolean value) := by
  cases value with
  | false => exact ⟨⟨0, .pushF, []⟩, rfl, rfl, fun _ => rfl, fun _ => rfl⟩
  | true => exact ⟨⟨0, .pushT, []⟩, rfl, rfl, fun _ => rfl, fun _ => rfl⟩

/-- Data is pushed from the operand. -/
lemma exists_pushes_bytes {data : Bytes} (h : data.length ≤ config.maxItemSize)
    (hsize : (Literal.bytes data).size ≤ maxOffset) :
    ∃ i : Instruction, i.Pushes config (.bytes data) := by
  have hassemble := Instruction.assemble_eq_ok.2 ⟨rfl, admits_dataOpcode hsize⟩
  refine ⟨⟨0, dataOpcode data.length, data⟩, hassemble, rfl, ?_, ?_⟩
  · intro b
    rw [push, pushData, hassemble]
    rfl
  · intro offset
    have hsmall : ¬data.length > config.maxItemSize := Nat.not_lt.2 h
    rw [JumpTable.dispatch, Instruction.moveTo, handler_dataOpcode]
    simp only [Handler.run, Semantics.pushData, hsmall, if_false]
    rfl

/-- A value that there is room for is pushed by one instruction, if offsets can address it. -/
lemma exists_pushes {x : Literal} (hx : x.Representable config) (hsize : x.size ≤ maxOffset) :
    ∃ i : Instruction, i.Pushes config x := by
  cases x with
  | integer value =>
    by_cases hsmall : -1 ≤ value ∧ value ≤ 16
    · exact exists_pushes_small hsmall
    · refine exists_pushes_integer hsmall ?_
      have hspan : Nat.pow 256 32 = 2 * Nat.pow 2 255 := TwosComplement.span_eq_double (by decide)
      obtain ⟨hlow, hhigh⟩ := hx
      unfold TwosComplement.Fits
      omega
  | boolean value => exact exists_pushes_boolean value
  | bytes data => exact exists_pushes_bytes hx hsize

/-! ### Sequences of values -/

/-- Values that the machine has room for are emitted as one instruction each. -/
lemma exists_pushAll {values : List Literal} (hvalues : ∀ x ∈ values, x.Representable config)
    (hsize : (values.map Literal.size).sum ≤ maxOffset) :
    ∃ is : List Instruction, List.Forall₂ (Instruction.Pushes config) is values ∧
      ∀ b : ScriptBuilder, b.pushAll values = .ok (b.append (Instruction.encoded is)) := by
  induction values with
  | nil =>
    refine ⟨[], .nil, fun b => ?_⟩
    rw [Instruction.encoded_nil, append, List.append_nil]
    rfl
  | cons x values ih =>
    obtain ⟨hx, hvalues'⟩ := List.forall_mem_cons.1 hvalues
    rw [List.map_cons, List.sum_cons] at hsize
    obtain ⟨i, hi⟩ := exists_pushes hx (by omega)
    obtain ⟨is, his, hall⟩ := ih hvalues' (by omega)
    refine ⟨i :: is, .cons hi his, fun b => ?_⟩
    rw [pushAll, List.foldlM_cons, hi.emitted]
    refine (hall _).trans ?_
    rw [emitInstruction, append, append, append, Instruction.encoded_cons, List.append_assoc]

end ScriptBuilder

namespace Instruction

variable {config : Config} {is : List Instruction} {values : List Literal}

/-- The instructions that push values can be assembled. -/
lemma assembled_of_pushes (h : List.Forall₂ (Pushes config) is values) :
    ∀ i ∈ is, i.Assembled := by
  induction h with
  | nil => exact nofun
  | cons hi _ ih => exact List.forall_mem_cons.2 ⟨hi.assembled, ih⟩

/-- The instructions that push values occupy as many bytes as the pushes. -/
lemma length_encoded_of_pushes (h : List.Forall₂ (Pushes config) is values) :
    (encoded is).length = (values.map Literal.size).sum := by
  induction h with
  | nil => rfl
  | cons hi _ ih =>
    rw [encoded_cons, List.length_append, length_encode, ih, hi.size_eq, List.map_cons,
      List.sum_cons]

end Instruction

/-! ## Running the pushes -/

namespace Machine

variable {script : Script} {config : Config} {watchdog : Watchdog}
  {supply position executed : Nat} {items : List Item}

/-- The machine that stands at a position in the entry frame of a script, has executed some
instructions and has the items on its stack. -/
def holding (script : Script) (config : Config) (watchdog : Watchdog)
    (supply position executed : Nat) (items : List Item) : Machine :=
  let m := loaded script config watchdog supply position
  { m with
    executed
    state := { m.state with worlds := #[{ World.ofScript script with stack := ⟨items, 0⟩ }] } }

/-- The entry frame at a position, which has entered no try block and has no variables yet. -/
def entryFrame (position : Nat) : Frame :=
  { world := 0, position, returnCount := -1, locals := .untouched .local,
    arguments := .untouched .argument, tries := [] }

lemma frames_holding :
    (holding script config watchdog supply position executed items).state.frames =
      [entryFrame position] :=
  rfl

/-- What is pushed comes to lie on the items, and nothing else changes. -/
lemma push_holding (x : Item) :
    Exec.push x (holding script config watchdog supply position executed items).state =
      .ok () (holding script config watchdog supply position executed
        (x.constant :: items)).state :=
  rfl

/-- The entry frame moves behind an instruction that ends inside the script or at its end. -/
lemma advance_holding {i : Instruction} (h : i.nextOffset ≤ script.length) :
    advance 0 i (holding script config watchdog supply position executed items).state =
      .ok () (holding script config watchdog supply i.nextOffset executed items).state := by
  have hmax : i.nextOffset ≤ maxOffset := Nat.min_le_right _ _
  have hframes : (holding script config watchdog supply position executed items).state.frames =
      [] ++ entryFrame position :: [] := frames_holding
  have hscript : ((holding script config watchdog supply position executed items).state.worldAt
      (entryFrame position).world).script = script := rfl
  have hadvance := advance_eq hframes i
  rw [hscript, (entryFrame position).seek_of_le h hmax] at hadvance
  exact hadvance

/-- A push puts its value on the stack and moves the frame behind itself. -/
lemma performInstruction_push {i : Instruction} {x : Item}
    (hdispatch : JumpTable.standard.dispatch config i = Exec.push x)
    (hnext : i.nextOffset ≤ script.length) :
    performInstruction config .standard i
        (holding script config watchdog supply position executed items).state =
      (.ok (), (holding script config watchdog supply i.nextOffset executed
        (x.constant :: items)).state) := by
  have hpush : JumpTable.standard.dispatch config i
      (holding script config watchdog supply position executed items).state =
        .ok () (holding script config watchdog supply position executed
          (x.constant :: items)).state := by
    rw [hdispatch, push_holding]
  exact performInstruction_of_advances hpush rfl (advance_holding hnext)

/-- Within the budget and under a watchdog that never stops, an instruction that can be performed is
executed. -/
lemma execute_of_performs (m : Machine) {i : Instruction} {s : State}
    (hlimit : m.executed < m.config.instructionLimit) (hwatchdog : m.watchdog.NeverStops)
    (hperform : performInstruction m.config m.table i m.state = (.ok (), s)) :
    ∃ watchdog : Watchdog, watchdog.NeverStops ∧
      m.execute i = (.ok (), { m with executed := m.executed + 1, watchdog, state := s }) := by
  obtain ⟨watchdog, hnever, hpoll⟩ := hwatchdog.poll (m.executed + 1)
  refine ⟨watchdog, hnever, ?_⟩
  unfold execute
  simp only [hpoll, hperform, Bool.false_eq_true, if_false]
  rw [if_neg (by omega)]
  rfl

/-- The machine executes a push by moving behind it, with the value on the stack. -/
lemma execute_push {i : Instruction} {x : Item}
    (hdispatch : JumpTable.standard.dispatch config i = Exec.push x)
    (hnext : i.nextOffset ≤ script.length) (hlimit : executed < config.instructionLimit)
    (hwatchdog : watchdog.NeverStops) :
    ∃ watchdog' : Watchdog, watchdog'.NeverStops ∧
      (holding script config watchdog supply position executed items).execute i =
        (.ok (), holding script config watchdog' supply i.nextOffset (executed + 1)
          (x.constant :: items)) := by
  have hperform : performInstruction config .standard i
      (holding script config watchdog supply position executed items).state =
        (.ok (), (holding script config watchdog supply i.nextOffset executed
          (x.constant :: items)).state) := performInstruction_push hdispatch hnext
  exact execute_of_performs (holding script config watchdog supply position executed items) hlimit
    hwatchdog hperform

/-- Where an instruction is decoded it is the next one. -/
lemma next_holding {i : Instruction} (h : script.instructionAt position = .ok (some i)) :
    (holding script config watchdog supply position executed items).next = .ok (some i) :=
  next_of_decoded frames_holding h

/-- At the end of the script the next instruction is a return. -/
lemma next_holding_end :
    (holding script config watchdog supply script.length executed items).next =
      .ok (some ⟨script.length, .ret, []⟩) :=
  next_of_end frames_holding (Script.instructionAt_eq_none.2 (Nat.le_refl _))

/-- The return of the entry frame halts the machine and hands the items over as the result. -/
lemma performInstruction_return (script : Script) (config : Config) (watchdog : Watchdog)
    (supply executed : Nat) (items : List Item) :
    ∃ s, performInstruction config .standard ⟨script.length, .ret, []⟩
        (holding script config watchdog supply script.length executed items).state = (.ok (), s) ∧
      s.status = .halted ∧ s.result = ⟨items, 0⟩ := by
  refine ⟨_, performInstruction_of_jumps rfl rfl, rfl, ?_⟩
  change (EvaluationStack.moveTo ⟨items, 0⟩ .empty none).2 = ⟨items, 0⟩
  have hpresent : EvaluationStack.extend ⟨items, 0⟩ items.length = ⟨items, 0⟩ :=
    EvaluationStack.extend_of_le (Nat.le_refl _)
  simp [EvaluationStack.moveTo, EvaluationStack.transferCount, EvaluationStack.length, hpresent,
    EvaluationStack.pushAll, EvaluationStack.empty]

/-! ### Runs -/

variable {stop : Unit → Machine → Instruction → Bool × Unit} {is : List Instruction}
  {values : List Literal}

/-- In front of a push a run that is not stopped makes a turn, which puts the value on the stack. -/
lemma turn_push (items : List Item) {i : Instruction} {x : Literal} {behind : Bytes}
    (hi : i.Pushes config x) (hlength : script.length ≤ maxOffset)
    (hbytes : script.bytes.drop position = i.encode ++ behind)
    (hlimit : executed < config.instructionLimit) (hwatchdog : watchdog.NeverStops)
    (hstop : ∀ m i, i.offset < script.length → stop () m i = (false, ())) :
    ∃ watchdog' : Watchdog, watchdog'.NeverStops ∧
      Turn stop () (holding script config watchdog supply position executed items) ()
        (holding script config watchdog' supply (position + i.size) (executed + 1)
          (.const x.item :: items)) (i.moveTo position) := by
  obtain ⟨hdecode, hbehind, -⟩ := Script.instructionAt_of_encode hi.assembled hlength hbytes
  have hnext : (i.moveTo position).nextOffset ≤ script.length :=
    Script.nextOffset_le_length hdecode
  have hconstant : x.item.constant = .const x.item := by cases x <;> rfl
  obtain ⟨watchdog', hwatchdog', hexecute⟩ :
      ∃ watchdog' : Watchdog, watchdog'.NeverStops ∧
        (holding script config watchdog supply position executed items).execute
          (i.moveTo position) =
        (.ok (), holding script config watchdog' supply (i.moveTo position).nextOffset
          (executed + 1) (x.item.constant :: items)) :=
    execute_push (hi.dispatched position) hnext hlimit hwatchdog
  rw [hbehind, hconstant] at hexecute
  exact ⟨watchdog', hwatchdog', nofun, next_holding hdecode,
    hstop _ _ (Script.instructionAt_some hdecode).2, hexecute⟩

/-- A run through pushes that its predicate lets pass goes on where they end, with their values on
the stack. -/
lemma run_pushes (items : List Item) (hpushes : List.Forall₂ (Instruction.Pushes config) is values)
    (hlength : script.length ≤ maxOffset)
    (hbytes : script.bytes.drop position = Instruction.encoded is)
    (hposition : position ≤ script.length)
    (hlimit : executed + is.length ≤ config.instructionLimit) (hwatchdog : watchdog.NeverStops)
    (hstop : ∀ m i, i.offset < script.length → stop () m i = (false, ())) :
    ∃ watchdog' : Watchdog, watchdog'.NeverStops ∧
      (holding script config watchdog supply position executed items).run stop () =
        (holding script config watchdog' supply script.length (executed + is.length)
          ((values.map fun x => .const x.item).reverse ++ items)).run stop () := by
  -- Every push is one turn, behind which the rest is run from another position with more items.
  induction hpushes generalizing position executed items watchdog with
  | nil =>
    have hend : position = script.length := by
      have hle := List.drop_eq_nil_iff.1 hbytes
      exact Nat.le_antisymm hposition hle
    subst hend
    exact ⟨watchdog, hwatchdog, rfl⟩
  | @cons i x is values hi hrest ih =>
    rw [Instruction.encoded_cons] at hbytes
    rw [List.length_cons] at hlimit
    obtain ⟨hdecode, hbehind, hafter⟩ :=
      Script.instructionAt_of_encode hi.assembled hlength hbytes
    have hposition' : position + i.size ≤ script.length := by
      rw [← hbehind]
      exact Script.nextOffset_le_length hdecode
    have hroom : executed < config.instructionLimit := by omega
    have hbudget : executed + 1 + is.length ≤ config.instructionLimit := by omega
    obtain ⟨watchdog₁, hwatchdog₁, hturn⟩ :=
      turn_push items hi hlength hbytes hroom hwatchdog hstop
    obtain ⟨watchdog', hwatchdog', hrun⟩ :=
      ih (.const x.item :: items) hafter hposition' hbudget hwatchdog₁
    refine ⟨watchdog', hwatchdog', hturn.run_eq.trans (hrun.trans ?_)⟩
    rw [List.length_cons, List.map_cons, List.reverse_cons, List.append_assoc,
      List.singleton_append, Nat.add_assoc, Nat.add_comm 1]

/-- A run of a script that consists of pushes goes on at its end, with their values on the stack. -/
lemma run_encoded (hpushes : List.Forall₂ (Instruction.Pushes config) is values)
    (hscript : script.bytes = Instruction.encoded is) (hlength : script.length ≤ maxOffset)
    (hlimit : is.length ≤ config.instructionLimit) (hwatchdog : watchdog.NeverStops)
    (hstop : ∀ m i, i.offset < script.length → stop () m i = (false, ())) :
    ∃ watchdog' : Watchdog, watchdog'.NeverStops ∧
      (loaded script config watchdog supply 0).run stop () =
        (holding script config watchdog' supply script.length is.length
          (values.map fun x => .const x.item).reverse).run stop () := by
  have hstart : loaded script config watchdog supply 0 =
      holding script config watchdog supply 0 0 [] := rfl
  have hfront : script.bytes.drop 0 = Instruction.encoded is := hscript
  have hbudget : 0 + is.length ≤ config.instructionLimit := by omega
  obtain ⟨watchdog', hwatchdog', hrun⟩ :=
    run_pushes [] hpushes hlength hfront (Nat.zero_le _) hbudget hwatchdog hstop
  refine ⟨watchdog', hwatchdog', ?_⟩
  rw [hstart, hrun, List.append_nil, Nat.zero_add]

/-- A script can be loaded at its start exactly if the machine may have a frame at all. -/
lemma loadScript_start_iff :
    ((create config watchdog supply).loadScript script 0).1 = .ok () ↔
      0 < config.maxInvocationDepth := by
  have henter : Frame.enter script 0 (-1) 0 =
      .ok ⟨0, 0, -1, .untouched .local, .untouched .argument, []⟩ := by
    unfold Frame.enter
    simp only [Frame.seek_of_le _ (Nat.zero_le script.length) (Nat.zero_le maxOffset)]
    rfl
  have hworlds : (create config watchdog supply).state.worlds.size = 0 := rfl
  have hload (f : Frame) :
      (do Exec.addWorld script; Exec.loadFrame (create config watchdog supply).config f :
          Exec Unit).run (create config watchdog supply).state =
        if 0 ≥ config.maxInvocationDepth then
          .error (.invocationDepthExceeded config.maxInvocationDepth)
            { State.initial supply with worlds := #[.ofScript script] }
        else .ok () { State.initial supply with worlds := #[.ofScript script], frames := [f] } := by
    have hadd : Exec.addWorld script (create config watchdog supply).state =
        .ok () { State.initial supply with worlds := #[.ofScript script] } := rfl
    exact (bind_of_ok hadd).trans (Exec.loadFrame_eq _ _ _)
  unfold loadScript State.loadScript
  by_cases hnone : 0 ≥ config.maxInvocationDepth
  · simp only [hworlds, henter, hload, if_pos hnone, reduceCtorEq, false_iff]
    omega
  · simp only [hworlds, henter, hload, if_neg hnone, true_iff]
    omega

/-- Where it may have one, it stands at the start of the script then. -/
lemma loadScript_start (h : 0 < config.maxInvocationDepth) :
    (create config watchdog supply).loadScript script 0 =
      (.ok (), loaded script config watchdog supply 0) := by
  have hload : (create config watchdog supply).loadScript script 0 =
      (.ok (), ((create config watchdog supply).loadScript script 0).2) :=
    Prod.ext (loadScript_start_iff.2 h) rfl
  rw [hload, (loadScript_ok hload).1]

/-- The predicate that stops a run where the entry frame is about to return at the end of the
script. -/
def stopsAtEnd (script : Script) (memory : Unit) (m : Machine) (i : Instruction) : Bool × Unit :=
  let condition : StopCondition :=
    { finish := some script.length, offsets := [], opcodes := [], depth := none, executed := none }
  (condition.holds m i, memory)

/-- The predicate that stops a run nowhere. -/
def stopsNowhere (memory : Unit) (_ : Machine) (_ : Instruction) : Bool × Unit :=
  (false, memory)

/-- Inside the script the first one does not stop the run. -/
lemma stopsAtEnd_inside {m : Machine} {i : Instruction} (h : i.offset < script.length) :
    stopsAtEnd script () m i = (false, ()) := by
  simp [stopsAtEnd, StopCondition.holds, h]

/-- At the end it does. -/
lemma run_stopsAtEnd :
    (holding script config watchdog supply script.length executed items).run
        (stopsAtEnd script) () =
      ⟨.ok (.stopped ⟨script.length, .ret, []⟩),
        holding script config watchdog supply script.length executed items, ()⟩ := by
  have hstop : stopsAtEnd script ()
      (holding script config watchdog supply script.length executed items)
      ⟨script.length, .ret, []⟩ = (true, ()) := by
    simp [stopsAtEnd, StopCondition.holds, State.depth, holding, loaded]
  exact Ends.run_eq (.stopped nofun next_holding_end hstop)

/-- A run that is not stopped there halts with the items as the result. -/
lemma run_stopsNowhere (hlimit : executed < config.instructionLimit)
    (hwatchdog : watchdog.NeverStops) :
    ∃ m', (holding script config watchdog supply script.length executed items).run stopsNowhere () =
        ⟨.ok .halted, m', ()⟩ ∧ m'.state.result = ⟨items, 0⟩ := by
  obtain ⟨s, hperform, hhalted, hresult⟩ :=
    performInstruction_return script config watchdog supply executed items
  let m := holding script config watchdog supply script.length executed items
  obtain ⟨watchdog', -, hexecute⟩ := execute_of_performs m hlimit hwatchdog hperform
  let m' : Machine := { m with executed := executed + 1, watchdog := watchdog', state := s }
  have hturn : Turn stopsNowhere () m () m' ⟨script.length, .ret, []⟩ :=
    ⟨nofun, next_holding_end, rfl, hexecute⟩
  exact ⟨m', hturn.run_eq.trans (Ends.run_eq (.halted hhalted)), hresult⟩

/-- What a builder emits for values is what the machine pushes.  For integers of up to 256 bits, for
booleans and for data of the configured size, of which the pushes can be addressed by offsets,
building never fails, the script has exactly one instruction for each value, and a run up to its end
leaves the values as constants on the stack, the last one on top, with nothing below them.  With one
more instruction in its budget the machine halts with them as its result. -/
theorem run_pushAll {values : List Literal} (hvalues : ∀ x ∈ values, x.Representable config)
    (hsize : (values.map Literal.size).sum ≤ maxOffset)
    (hlimit : values.length ≤ config.instructionLimit) (hwatchdog : watchdog.NeverStops) :
    ∃ b : ScriptBuilder, ScriptBuilder.empty.pushAll values = .ok b ∧
      b.bytes.length = (values.map Literal.size).sum ∧
      b.build.validate = .ok () ∧
      (∃ is, b.build.instructions = .ok is ∧ is.length = values.length) ∧
      (((create config watchdog supply).loadScript b.build 0).1 = .ok () ↔
        0 < config.maxInvocationDepth) ∧
      ∀ m, (create config watchdog supply).loadScript b.build 0 = (.ok (), m) →
        (∃ m', m.run (stopsAtEnd b.build) () =
            ⟨.ok (.stopped ⟨b.build.length, .ret, []⟩), m', ()⟩ ∧
          m'.state.current?.map (fun c => c.2.stack) =
            some ⟨(values.map fun x => .const x.item).reverse, 0⟩) ∧
        (values.length < config.instructionLimit →
          ∃ m', m.run stopsNowhere () = ⟨.ok .halted, m', ()⟩ ∧
            m'.state.result = ⟨(values.map fun x => .const x.item).reverse, 0⟩) := by
  obtain ⟨is, hpushes, hbuild⟩ := ScriptBuilder.exists_pushAll hvalues hsize
  have hassembled := Instruction.assembled_of_pushes hpushes
  have hcount := hpushes.length_eq
  have hbytes := Instruction.length_encoded_of_pushes hpushes
  let b : ScriptBuilder := ⟨Instruction.encoded is⟩
  have hlength : b.build.length ≤ maxOffset := Nat.le_trans (Nat.le_of_eq hbytes) hsize
  refine ⟨b, hbuild .empty, hbytes, (Script.validate_of_encoded hlength hassembled rfl).1, ?_,
    loadScript_start_iff, ?_⟩
  · refine ⟨Instruction.placed 0 is, Script.instructions_of_encoded hassembled rfl, ?_⟩
    rw [Instruction.placed, List.length_mapIdx, hcount]
  · intro m hload
    obtain ⟨rfl, -, -⟩ := loadScript_ok hload
    rw [← hcount] at hlimit
    constructor
    · obtain ⟨watchdog', -, hrun⟩ :=
        run_encoded hpushes rfl hlength hlimit hwatchdog fun m i => stopsAtEnd_inside
      exact ⟨_, hrun.trans run_stopsAtEnd, rfl⟩
    · intro hspare
      rw [← hcount] at hspare
      have hpasses (m : Machine) (i : Instruction) (_ : i.offset < b.build.length) :
          stopsNowhere () m i = (false, ()) := rfl
      obtain ⟨watchdog', hwatchdog', hrun⟩ :=
        run_encoded hpushes rfl hlength hlimit hwatchdog hpasses
      obtain ⟨m', hreturns, hresult⟩ := run_stopsNowhere hspare hwatchdog'
      exact ⟨m', hrun.trans hreturns, hresult⟩

/-- Values on both sides of the bounds of several forms. -/
def boundaryValues : List Literal :=
  [.integer (-1), .integer 17, .integer (-128), .integer 128, .integer (-(Nat.pow 2 255 : Int)),
    .boolean false, .bytes (.replicate 255 7), .bytes (.replicate 256 7)]

/-- The machine halts with these values as its result. -/
theorem run_pushAll_boundaryValues :
    (∀ x ∈ boundaryValues, x.Representable {}) ∧
      (boundaryValues.map Literal.size).sum ≤ maxOffset ∧
      boundaryValues.length ≤ ({} : Config).instructionLimit ∧ Watchdog.lazy.NeverStops ∧
      ∃ b : ScriptBuilder, ScriptBuilder.empty.pushAll boundaryValues = .ok b ∧
        ∃ m m' : Machine, (create {} .lazy 0).loadScript b.build 0 = (.ok (), m) ∧
          m.run stopsNowhere () = ⟨.ok .halted, m', ()⟩ ∧
          m'.state.result = ⟨(boundaryValues.map fun x => .const x.item).reverse, 0⟩ := by
  have hvalues : ∀ x ∈ boundaryValues, x.Representable {} := by decide +kernel
  have hsize : (boundaryValues.map Literal.size).sum ≤ maxOffset := by decide +kernel
  have hlimit : boundaryValues.length ≤ ({} : Config).instructionLimit := by decide
  have hwatchdog : Watchdog.lazy.NeverStops := Watchdog.lazy_neverStops
  obtain ⟨b, hbuild, -, -, -, hloads, hruns⟩ :=
    @run_pushAll {} .lazy 0 boundaryValues hvalues hsize hlimit hwatchdog
  have hload : (create {} .lazy 0).loadScript b.build 0 =
      (.ok (), ((create {} .lazy 0).loadScript b.build 0).2) :=
    Prod.ext (hloads.2 (by decide)) rfl
  obtain ⟨m', hrun, hresult⟩ := (hruns _ hload).2 (by decide)
  exact ⟨hvalues, hsize, hlimit, hwatchdog, b, hbuild, _, m', hload, hrun, hresult⟩

end Machine

end SymbolicScript
