import SymbolicScript.Proofs.BuiltPushes
import SymbolicScript.Proofs.StackView

/-!
# Integers are pushed by the shortest instruction

Two families of instructions push integers: one opcode for each integer from -1 to 16, and operands
of 1, 2, 4, 8, 16 or 32 bytes in two's complement.  The same integer fits every operand from some
width on, so that it has several encodings, and a builder has to choose among them.

This file proves that the choice is canonical (`ScriptBuilder.emitInteger_shortest`): the integers
of up to 256 bits, and no others, are emitted, as one instruction behind what has been emitted
before, and no instruction of the two families that pushes the integer is shorter.  Whether an
instruction pushes an integer is read off its execution (`Instruction.CanPush`), not off its
operand.
-/

namespace SymbolicScript

/-! ## The families -/

/-- Whether the opcode pushes an integer that it or its operand determines. -/
def Opcode.isIntegerPush : Opcode → Bool
  | .pushInt8 | .pushInt16 | .pushInt32 | .pushInt64 | .pushInt128 | .pushInt256
  | .pushM1 | .push0 | .push1 | .push2 | .push3 | .push4 | .push5 | .push6 | .push7 | .push8
  | .push9 | .push10 | .push11 | .push12 | .push13 | .push14 | .push15 | .push16 => true
  | _ => false

/-- There are two families: the opcode determines an integer from -1 to 16, or the operand has one
of six widths. -/
lemma Opcode.forms_of_isIntegerPush {op : Opcode} (h : op.isIntegerPush = true) :
    (JumpTable.standard.handler op = .pushSmall ∧ op.layout = .fixed 0 ∧
      -1 ≤ (op.byte.toNat : Int) - push0.byte.toNat ∧
      (op.byte.toNat : Int) - push0.byte.toNat ≤ 16) ∨
    ∃ width, JumpTable.standard.handler op = .pushInteger ∧ op.layout = .fixed width ∧
      (width = 1 ∨ width = 2 ∨ width = 4 ∨ width = 8 ∨ width = 16 ∨ width = 32) := by
  cases op
  case pushInt8 | pushInt16 | pushInt32 | pushInt64 | pushInt128 | pushInt256 =>
    exact .inr ⟨_, rfl, rfl, by decide⟩
  case pushM1 | push0 | push1 | push2 | push3 | push4 | push5 | push6 | push7 | push8 | push9
      | push10 | push11 | push12 | push13 | push14 | push15 | push16 =>
    exact .inl ⟨rfl, rfl, by decide, by decide⟩
  all_goals cases h

namespace Instruction

variable {i j : Instruction} {value : Int}

/-- In some configuration and state, executing the instruction leaves the integer on top of the
evaluation stack. -/
def CanPush (i : Instruction) (value : Int) : Prop :=
  ∃ (config : Config) (s s' : State) (f : Frame) (w : World),
    JumpTable.standard.dispatch config i s = .ok () s' ∧ s'.current? = some (f, w) ∧
      w.stack.view 0 = .const (.integer value)

/-- What lies on top behind the push of an integer is that integer. -/
lemma eq_of_push {pushed : Int} {s s' : State} {f : Frame} {w : World}
    (hpush : Exec.push (.integer pushed) s = .ok () s') (hcurrent : s'.current? = some (f, w))
    (htop : w.stack.view 0 = .const (.integer value)) : pushed = value := by
  cases hframes : s.frames with
  | nil =>
    rw [Exec.push, Exec.modifyStack, Exec.onStack, Exec.onWorld] at hpush
    simp [hframes] at hpush
  | cons g below =>
    have hstate : s' = s.setWorld g.world { s.worldAt g.world with
        stack := (s.worldAt g.world).stack.push (.const (.integer pushed)) } := by
      simp only [Exec.push, Exec.modifyStack, Exec.onStack, Exec.onWorld, hframes] at hpush
      cases hpush
      rfl
    subst hstate
    have hcurrent' : (g, (s.setWorld g.world { s.worldAt g.world with
        stack := (s.worldAt g.world).stack.push (.const (.integer pushed)) }).worldAt g.world) =
        (f, w) := by
      simpa [State.current?, State.setWorld, hframes] using hcurrent
    cases hcurrent'
    rw [State.worldAt_setWorld] at htop
    split at htop
    · simpa using htop
    · next hbounds =>
      -- A frame without a world has nothing but unknowns on its stack.
      have hnone : s.worldAt f.world = .ofScript ⟨[]⟩ := by
        have hsize : s.worlds.size ≤ f.world := by simpa using hbounds
        simp [State.worldAt, Array.getD_eq_getD_getElem?, hsize]
      rw [hnone] at htop
      cases htop

/-- What an instruction of the families can push is what it encodes. -/
lemma forms_of_canPush (hfamily : j.opcode.isIntegerPush = true) (hpush : j.CanPush value)
    (hadmits : j.opcode.layout.Admits j.operand.length) :
    (-1 ≤ value ∧ value ≤ 16) ∨
    TwosComplement.Fits j.operand.length value ∧
      (j.operand.length = 1 ∨ j.operand.length = 2 ∨ j.operand.length = 4 ∨
        j.operand.length = 8 ∨ j.operand.length = 16 ∨ j.operand.length = 32) := by
  obtain ⟨config, s, s', f, w, hdispatch, hcurrent, htop⟩ := hpush
  rcases Opcode.forms_of_isIntegerPush hfamily with
    ⟨hhandler, -, hlow, hhigh⟩ | ⟨width, hhandler, hlayout, hwidth⟩
  · rw [JumpTable.dispatch, hhandler] at hdispatch
    have hvalue := eq_of_push hdispatch hcurrent htop
    exact .inl (hvalue ▸ ⟨hlow, hhigh⟩)
  · rw [JumpTable.dispatch, hhandler] at hdispatch
    have hvalue := eq_of_push hdispatch hcurrent htop
    rw [hlayout] at hadmits
    have hlength : j.operand.length = width := hadmits
    exact .inr ⟨hvalue ▸ TwosComplement.fits_toInt j.operand, hlength ▸ hwidth⟩

end Instruction

/-! ## The choice of a builder -/

/-- Only the integers from -1 to 16 have an opcode of their own. -/
lemma ScriptBuilder.range_of_smallOpcode? {op : Opcode} {value : Int}
    (h : smallOpcode? value = some op) : -1 ≤ value ∧ value ≤ 16 := by
  by_contra hnot
  rw [smallOpcode?, if_neg hnot] at h
  cases h

/-- An opcode of its own for an integer is of the families. -/
lemma Opcode.isIntegerPush_of_small {op : Opcode} {value : Int}
    (h : ScriptBuilder.smallOpcode? value = some op) : op.isIntegerPush = true := by
  obtain ⟨hlow, hhigh⟩ := ScriptBuilder.range_of_smallOpcode? h
  interval_cases value <;> cases h <;> rfl

/-- An opcode with room for an integer in its operand is of the families. -/
lemma Opcode.isIntegerPush_of_form {op : Opcode} {width room : Nat}
    (h : ScriptBuilder.integerForm? width = some (op, room)) : op.isIntegerPush = true := by
  unfold ScriptBuilder.integerForm? at h
  split_ifs at h
  all_goals
    cases h
    rfl

/-- What is emitted for an integer begins with an opcode of the families. -/
lemma ScriptBuilder.family_of_pushInteger {value : Int} {b b' : ScriptBuilder}
    (h : b.pushInteger value = .ok b') :
    ∃ (opcode : Opcode) (operand : Bytes), opcode.isIntegerPush = true ∧
      b'.bytes = b.bytes ++ opcode.byte :: operand := by
  unfold pushInteger at h
  cases hsmall : smallOpcode? value with
  | some opcode =>
    rw [hsmall] at h
    cases h
    exact ⟨opcode, [], Opcode.isIntegerPush_of_small hsmall, rfl⟩
  | none =>
    rw [hsmall] at h
    cases hform : integerForm? (TwosComplement.width value) with
    | some form =>
      rw [hform] at h
      cases h
      exact ⟨form.1, _, Opcode.isIntegerPush_of_form hform, rfl⟩
    | none => simp [hform] at h

namespace Instruction.Pushes

variable {i j : Instruction} {value : Int} {config config' : Config}

/-- The instruction that builders emit for a value is determined by the value. -/
lemma unique {x : Literal} (hi : i.Pushes config x) (hj : j.Pushes config' x) : i = j := by
  have hemitted := (hi.emitted .empty).symm.trans (hj.emitted .empty)
  have hencode : i.encode = j.encode := by
    simpa [ScriptBuilder.emitInstruction, ScriptBuilder.append, ScriptBuilder.empty] using hemitted
  have hi' : Instruction.decodeFront 0 (i.encode ++ []) = .ok (some (i.moveTo 0)) :=
    hi.assembled.decodeFront
  have hj' : Instruction.decodeFront 0 (j.encode ++ []) = .ok (some (j.moveTo 0)) :=
    hj.assembled.decodeFront
  rw [hencode, hj', hi.assembled.moveTo_zero, hj.assembled.moveTo_zero] at hi'
  exact (Option.some.inj (Except.ok.inj hi')).symm

/-- The instruction that builders emit for an integer is of the families. -/
lemma isIntegerPush (hi : i.Pushes config (.integer value)) : i.opcode.isIntegerPush = true := by
  have hemitted : ScriptBuilder.empty.pushInteger value =
      .ok (ScriptBuilder.empty.emitInstruction i) := hi.emitted .empty
  obtain ⟨opcode, operand, hfamily, hbytes⟩ := ScriptBuilder.family_of_pushInteger hemitted
  have hencode : i.opcode.byte = opcode.byte := (List.cons.inj hbytes).1
  have hopcode : some i.opcode = some opcode := by
    rw [← Opcode.ofByte?_byte, ← Opcode.ofByte?_byte, hencode]
  rwa [Option.some.inj hopcode]

end Instruction.Pushes

/-- An operand into which an integer fits is no narrower than the one that is chosen. -/
lemma ScriptBuilder.room_le_of_fits {value : Int} {opcode : Opcode} {room length : Nat}
    (hform : integerForm? (TwosComplement.width value) = some (opcode, room))
    (hfits : TwosComplement.Fits length value)
    (hlength : length = 1 ∨ length = 2 ∨ length = 4 ∨ length = 8 ∨ length = 16 ∨ length = 32) :
    room ≤ length := by
  have hwidth : TwosComplement.width value ≤ length :=
    (TwosComplement.width_le_iff (by omega)).2 hfits
  unfold integerForm? at hform
  split_ifs at hform
  all_goals
    cases hform
    omega

/-- No instruction of the families that can push an integer is shorter than the push that builders
emit for it. -/
lemma Instruction.size_le_of_canPush {value : Int} {j : Instruction}
    (hfamily : j.opcode.isIntegerPush = true) (hpush : j.CanPush value)
    (hadmits : j.opcode.layout.Admits j.operand.length) :
    (Literal.integer value).size ≤ j.size := by
  simp only [Literal.size, Instruction.size]
  by_cases hsmall : -1 ≤ value ∧ value ≤ 16
  · rw [if_pos hsmall]
    omega
  · rw [if_neg hsmall]
    obtain ⟨hfits, hlength⟩ :=
      (forms_of_canPush hfamily hpush hadmits).resolve_left hsmall
    have hwidth : TwosComplement.width value ≤ 32 :=
      (TwosComplement.width_le_iff (by decide)).2 (hfits.mono (by omega))
    obtain ⟨opcode, room, hform, -⟩ := ScriptBuilder.integerForm?_eq_some hwidth
    have hroom := ScriptBuilder.room_le_of_fits hform hfits hlength
    simp only [hform, Option.map_some, Option.getD_some]
    omega

namespace ScriptBuilder

/-- Emits the shortest instruction that pushes an integer, into the builder itself. -/
def emitInteger (value : Int) : EStateM (Located DisassemblyError) ScriptBuilder Unit := do
  match smallOpcode? value with
  | some opcode => modify fun b => b.emit opcode
  | none =>
    match integerForm? (TwosComplement.width value) with
    | some (opcode, room) =>
      modify fun b => b.emitWith opcode (TwosComplement.encodeIn room value)
    | none => throw ⟨0, .operandTooLarge .pushInt256 (TwosComplement.width value)⟩

/-- Emitting in place has the outcome of emitting, and a builder that fails stays as it is. -/
theorem emitInteger_eq (value : Int) (b : ScriptBuilder) :
    emitInteger value b =
      match b.pushInteger value with
      | .ok b' => .ok () b'
      | .error e => .error e b := by
  unfold emitInteger pushInteger
  cases smallOpcode? value with
  | some opcode => rfl
  | none =>
    cases integerForm? (TwosComplement.width value) with
    | some form => rfl
    | none => rfl

/-- Emitting in place succeeds where emitting does, with the same builder. -/
lemma emitInteger_eq_ok {value : Int} {b b' : ScriptBuilder} :
    emitInteger value b = .ok () b' ↔ b.pushInteger value = .ok b' := by
  rw [emitInteger_eq]
  cases b.pushInteger value with
  | ok b₁ => simp
  | error e => simp

/-- A builder that fails to emit an integer stays as it is. -/
lemma eq_of_emitInteger_error {value : Int} {b b' : ScriptBuilder}
    {e : Located DisassemblyError} (h : emitInteger value b = .error e b') : b' = b := by
  rw [emitInteger_eq] at h
  cases hpush : b.pushInteger value with
  | ok b₁ =>
    rw [hpush] at h
    cases h
  | error e₁ =>
    rw [hpush] at h
    cases h
    rfl

/-- An integer that a builder emits fits 32 bytes. -/
lemma fits_of_pushInteger {value : Int} {b b' : ScriptBuilder}
    (h : b.pushInteger value = .ok b') : TwosComplement.Fits 32 value := by
  unfold pushInteger at h
  cases hsmall : smallOpcode? value with
  | some opcode =>
    have hrange := range_of_smallOpcode? hsmall
    have hone : TwosComplement.Fits 1 value := by
      have hspan : Nat.pow 256 1 = 256 := rfl
      unfold TwosComplement.Fits
      omega
    exact hone.mono (by decide)
  | none =>
    rw [hsmall] at h
    cases hform : integerForm? (TwosComplement.width value) with
    | none => simp [hform] at h
    | some form =>
      refine (TwosComplement.width_le_iff (by decide)).1 ?_
      unfold integerForm? at hform
      split_ifs at hform
      all_goals omega

/-- For an integer that fits 32 bytes there is one instruction that builders emit and that pushes
it, whatever the configuration. -/
lemma exists_pushes_of_fits {value : Int} (h : TwosComplement.Fits 32 value) :
    ∃ i : Instruction, ∀ config, i.Pushes config (.integer value) := by
  have hsome (config : Config) : ∃ i : Instruction, i.Pushes config (.integer value) := by
    by_cases hsmall : -1 ≤ value ∧ value ≤ 16
    · exact exists_pushes_small hsmall
    · exact exists_pushes_integer hsmall h
  obtain ⟨i, hi⟩ := hsome {}
  refine ⟨i, fun config => ?_⟩
  obtain ⟨j, hj⟩ := hsome config
  rwa [hi.unique hj]

/-- Integer pushes are canonical.  Exactly the integers of up to 256 bits are emitted, as one
instruction behind the bytes that are there, which pushes the integer wherever it stands; every
instruction of the two families that can be decoded and that can push the integer is at least as
long.  A builder that fails keeps its bytes. -/
theorem emitInteger_shortest (b : ScriptBuilder) (value : Int) :
    ((∃ b', emitInteger value b = .ok () b') ↔
      -(Nat.pow 2 255 : Int) ≤ value ∧ value < Nat.pow 2 255) ∧
    (∀ b', emitInteger value b = .ok () b' → ∃ i : Instruction,
      i.opcode.isIntegerPush = true ∧ b'.bytes = b.bytes ++ i.encode ∧
      Instruction.decode b'.bytes b.offset = .ok (some (i.moveTo b.offset)) ∧
      (∀ config offset, JumpTable.standard.dispatch config (i.moveTo offset) =
        Exec.push (.integer value)) ∧
      ∀ bytes offset j, Instruction.decode bytes offset = .ok (some j) →
        j.opcode.isIntegerPush = true → j.CanPush value →
        i.encode.length ≤ j.encode.length) ∧
    ∀ e b', emitInteger value b = .error e b' → b'.bytes = b.bytes := by
  have hspan : Nat.pow 256 32 = 2 * Nat.pow 2 255 := TwosComplement.span_eq_double (by decide)
  have hrange : TwosComplement.Fits 32 value ↔
      -(Nat.pow 2 255 : Int) ≤ value ∧ value < Nat.pow 2 255 := by
    unfold TwosComplement.Fits
    omega
  refine ⟨⟨?_, fun h => ?_⟩, fun b' hemit => ?_, fun e b' herror => ?_⟩
  · rintro ⟨b', hemit⟩
    exact hrange.1 (fits_of_pushInteger (emitInteger_eq_ok.1 hemit))
  · obtain ⟨i, hi⟩ := exists_pushes_of_fits (hrange.2 h)
    exact ⟨b.emitInstruction i, emitInteger_eq_ok.2 ((hi {}).emitted b)⟩
  · have hpushed := emitInteger_eq_ok.1 hemit
    obtain ⟨i, hi⟩ := exists_pushes_of_fits (fits_of_pushInteger hpushed)
    obtain rfl : b.emitInstruction i = b' :=
      Except.ok.inj (((hi {}).emitted b).symm.trans hpushed)
    have hdecode : Instruction.decode (b.emitInstruction i).bytes b.offset =
        .ok (some (i.moveTo b.offset)) := by
      have hdrop : (b.emitInstruction i).bytes.drop b.offset = i.encode ++ [] := by
        rw [List.append_nil]
        exact List.drop_left
      rw [Instruction.decode, hdrop]
      exact (hi {}).assembled.decodeFront
    refine ⟨i, (hi {}).isIntegerPush, rfl, hdecode, fun config => (hi config).dispatched, ?_⟩
    intro bytes offset j hj hfamily hpush
    have hadmits := (Instruction.encode_of_decodeFront hj).1
    rw [Instruction.length_encode, Instruction.length_encode, (hi {}).size_eq]
    exact Instruction.size_le_of_canPush hfamily hpush hadmits
  · rw [eq_of_emitInteger_error herror]

end ScriptBuilder

end SymbolicScript
