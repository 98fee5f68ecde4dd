import SymbolicScript.Proofs.BoundedControl
import SymbolicScript.Proofs.Encoding
import SymbolicScript.Proofs.GroundedRuns

/-!
# Integers stay within 256 bits

In a run of one script every integer lies between -2^255 and 2^255 - 1, wherever it is: on a stack,
in a variable, in an object, in storage, in the pending exception, and in the operands of derived
variables (`Machine.integers_inRange`).  Decoding sees to it for the integers that a script pushes,
since no operand of such an instruction is longer than 32 bytes, and checks of their size for the
results of arithmetic.

A length becomes an integer without any check.  That is why the invariant bounds lengths as well:
compounds by the size of the stack, and byte strings by the configured size of an item, which is a
number that a machine word holds.
-/

namespace SymbolicScript

/-! ## The bounds -/

/-- Integers fit 256 bits.  Lengths are at most the size of an item or the size of the stack, and
numbers of elements at most the size of the stack. -/
def Bounds.ofConfig (config : Config) : Bounds where
  integer := TwosComplement.Fits Limits.integerBytes
  length n := n ≤ max config.maxItemSize Limits.stackSize
  count n := n ≤ Limits.stackSize

/-- Where the size of an item is a machine word, the bounds admit what a machine creates. -/
lemma Bounds.ofConfig_admits {config : Config} (h : config.maxItemSize ≤ Limits.word) :
    (ofConfig config).Admits config where
  fits _ hfits := hfits
  size n hn := by
    have hlength : n ≤ max config.maxItemSize Limits.stackSize := hn
    have hstack : Limits.stackSize ≤ Limits.word := by decide
    exact fits_of_natAbs_le_word (by omega)
  sizeOfCompound n hn := by
    have hcount : n ≤ Limits.stackSize := hn
    have hstack : Limits.stackSize ≤ Limits.word := by decide
    exact fits_of_natAbs_le_word (by omega)
  minimal value hvalue := by
    have hbytes := (TwosComplement.length_minimal_le_iff (by decide)).2 hvalue
    have hstack : Limits.integerBytes ≤ Limits.stackSize := by decide
    exact Nat.le_trans (Nat.le_trans hbytes hstack) (Nat.le_max_right _ _)
  part _ _ hle hlength := Nat.le_trans hle hlength
  item _ hsize := Nat.le_trans hsize (Nat.le_max_left _ _)
  fewer _ _ hle hcount := Nat.le_trans hle hcount
  elements _ hsize := hsize

/-- An integer of 256 bits, with its sign. -/
def InRange (value : Int) : Prop :=
  -(Nat.pow 2 255 : Int) ≤ value ∧ value < Nat.pow 2 255

instance (value : Int) : Decidable (InRange value) :=
  inferInstanceAs (Decidable (-(Nat.pow 2 255 : Int) ≤ value ∧ value < Nat.pow 2 255))

/-- The integers of 256 bits are those that fit 32 bytes. -/
lemma inRange_iff {value : Int} :
    InRange value ↔ TwosComplement.Fits Limits.integerBytes value := by
  have hspan : Nat.pow 256 Limits.integerBytes = 2 * Nat.pow 2 255 := by decide
  unfold InRange TwosComplement.Fits
  rw [hspan]
  omega

/-- All integers in the item have at most 256 bits. -/
def Item.IntegersInRange (x : Item) : Prop :=
  ∀ value, (Item.integer value).OccursIn x → InRange value

/-- The bounds that demand 256 bits of integers, and nothing of lengths. -/
def Bounds.integers : Bounds where
  integer := TwosComplement.Fits Limits.integerBytes
  length _ := True
  count _ := True

/-- All integers in an item have at most 256 bits exactly if the item is within these bounds. -/
lemma Item.within_integers_iff {x : Item} : x.Within .integers ↔ x.IntegersInRange := by
  constructor
  · exact fun h value hvalue => inRange_iff.2 (h _ hvalue)
  · intro h y hy
    cases y with
    | integer value => exact inRange_iff.1 (h value hy)
    | _ => trivial

/-! ## Items of a state -/

/-- What occurs somewhere in a state within bounds is within the bounds. -/
lemma State.Within.mentions {b : Bounds} {s : State} (h : s.Within b) {x : Item}
    (hx : s.Mentions x) : x.Within b := by
  have hworld : ∀ w ∈ s.worlds, w.Within b := by
    intro w hw
    obtain ⟨index, hlt, rfl⟩ := Array.getElem_of_mem hw
    have hindex := h.world index
    unfold worldAt at hindex
    rwa [Array.getD_eq_getD_getElem?, Array.getElem?_eq_getElem hlt] at hindex
  induction hx with
  | stack hw hx => exact (hworld _ hw).stack _ hx
  | static hw hx => exact (hworld _ hw).statics.of_stores hx
  | element hw hobject hx => exact ((hworld _ hw).heap _ _ hobject).elements _ hx
  | storageKey hw hview hfind => exact ((hworld _ hw).storage _ hview _ _ hfind).1
  | storageValue hw hview hfind => exact ((hworld _ hw).storage _ hview _ _ hfind).2 _ rfl
  | read hw htracker hfind => exact ((hworld _ hw).tracker _ htracker).reads _ _ hfind
  | written hw htracker hfind => exact ((hworld _ hw).tracker _ htracker).writes _ _ hfind
  | localVariable hf hx => exact (h.frame _ hf).locals.of_stores hx
  | argument hf hx => exact (h.frame _ hf).arguments.of_stores hx
  | result hx => exact h.result _ hx
  | exception hx => exact h.exception _ hx
  | part _ hoccurs ih => exact fun z hz => ih z (hz.trans hoccurs)

/-! ## Decoded pushes -/

/-- The opcodes that push the integer in their operand have an operand of fixed width. -/
lemma Opcode.layout_of_pushInteger {op : Opcode}
    (h : JumpTable.standard.handler op = .pushInteger) : ∃ width, op.layout = .fixed width := by
  cases op with
  | pushInt8 | pushInt16 | pushInt32 | pushInt64 | pushInt128 | pushInt256 => exact ⟨_, rfl⟩
  | _ => cases h

namespace Machine

variable {m : Machine} {config : Config}

/-- The next instruction pushes no integer of more than 256 bits. -/
lemma pushesWithin_of_next (htable : m.table = .standard) {i : Instruction}
    (h : m.next = .ok (some i)) : i.PushesWithin (Bounds.ofConfig config) m.table := by
  intro hhandler
  rw [htable] at hhandler
  obtain ⟨width, hlayout⟩ := Opcode.layout_of_pushInteger hhandler
  have hwidth : width ≤ Limits.integerBytes := Opcode.width_le_of_fixed hlayout
  have hadmits := next_admits h
  rw [hlayout] at hadmits
  have hlength : i.operand.length = width := hadmits
  exact (TwosComplement.fits_toInt i.operand).mono (by omega)

/-- All states that are reached are within bounds if the first one is, where no instruction on the
way pushes an integer that is not. -/
lemma Reaches.within_of_pushes {b : Bounds} {offsets : Nat → Prop} {m₀ : Machine}
    (hb : b.Admits m₀.config) (hs : m₀.state.Within b)
    (hi : ∀ m', Reaches offsets m₀ m' → ∀ i, m'.next = .ok (some i) → i.PushesWithin b m'.table)
    (h : Reaches offsets m₀ m) : m.config = m₀.config ∧ m.state.Within b := by
  induction h with
  | start => exact ⟨rfl, hs⟩
  | @step m hreaches _ ih =>
    obtain ⟨hconfig, hs⟩ := ih
    have hevolves := step_evolves (hconfig ▸ hb) (hi m hreaches) (.start hs)
    exact ⟨(step_config m).trans hconfig, hevolves.toWithin⟩

/-- All states that are reached are within the bounds if the first one is. -/
lemma Reaches.within {offsets : Nat → Prop} {m₀ : Machine}
    (hb : (Bounds.ofConfig config).Admits config) (hconfig : m₀.config = config)
    (htable : m₀.table = .standard) (hs : m₀.state.Within (Bounds.ofConfig config))
    (h : Reaches offsets m₀ m) :
    m.config = config ∧ m.table = .standard ∧ m.state.Within (Bounds.ofConfig config) := by
  subst hconfig
  obtain ⟨hconfig, hwithin⟩ := h.within_of_pushes hb hs fun m' hm' i hnext =>
    pushesWithin_of_next (hm'.table_eq.trans htable) hnext
  exact ⟨hconfig, h.table_eq.trans htable, hwithin⟩

/-- A machine that has just loaded a script holds no items. -/
lemma loaded_within {b : Bounds} (script : Script) (config : Config) (watchdog : Watchdog)
    (supply offset : Nat) : (loaded script config watchdog supply offset).state.Within b where
  world index := by
    unfold loaded State.worldAt
    rw [Array.getD_eq_getD_getElem?]
    cases index with
    | zero => exact .ofScript script
    | succ index => exact .ofScript ⟨[]⟩
  frame := by
    rintro f hf
    cases List.mem_singleton.1 hf
    exact ⟨.untouched _, .untouched _⟩
  result := .empty
  exception := nofun

/-- Integers stay within 256 bits.  Whatever a machine has executed since it has loaded a script,
all integers in its state are between -2^255 and 2^255 - 1.  And where a numeric instruction finds
such operands on the stack, it fails or replaces them by an item with such integers only. -/
theorem integers_inRange :
    (∀ (script : Script) (config : Config) (watchdog : Watchdog) (supply entry : Nat)
      (m₀ m : Machine), config.maxItemSize ≤ Limits.word →
      (create config watchdog supply).loadScript script entry = (.ok (), m₀) →
      Reaches (fun _ => True) m₀ m →
        ∀ value, m.state.Mentions (.integer value) → InRange value) ∧
    ∀ (config : Config) (i : Instruction) (count : Nat) (s : State) (f : Frame)
      (rest : List Frame), (JumpTable.standard.handler i.opcode).operands? = some count →
      s.frames = f :: rest → f.world < s.worlds.size →
      (∀ x ∈ ((s.worldAt f.world).stack.popMany count).1, x.IntegersInRange) →
        (∃ e s', JumpTable.standard.dispatch config i s = .error e s') ∨
          ∃ y : Item, y.IntegersInRange ∧ JumpTable.standard.dispatch config i s = .ok ()
            (s.withStack f.world (((s.worldAt f.world).stack.popMany count).2.push y)) := by
  refine ⟨?_, ?_⟩
  · intro script config watchdog supply entry m₀ m hsize hload hreaches value hmentions
    obtain ⟨rfl, -, -⟩ := loadScript_ok hload
    obtain ⟨-, -, hwithin⟩ := hreaches.within (Bounds.ofConfig_admits hsize) rfl rfl
      (loaded_within script config watchdog supply entry)
    exact inRange_iff.2 (hwithin.mentions hmentions).bounded
  · intro config i count s f rest hcount hs hworld hoperands
    have hreplaces := Handler.run_replaces (b := .integers) (fun _ hfits => hfits) config hcount i
      s f rest hs hworld fun x hx => Item.within_integers_iff.2 (hoperands x hx)
    rcases hreplaces with hfails | ⟨y, hy, hpushes⟩
    · exact .inl hfails
    · refine .inr ⟨y.constant, Item.within_integers_iff.1 hy.constant, ?_⟩
      have hpush := Exec.onStack_eq (s := s.withStack f.world
        ((s.worldAt f.world).stack.popMany count).2) hs fun stack => ((), stack.push y.constant)
      rw [State.worldAt_withStack hworld, State.withStack_withStack hworld] at hpush
      exact hpushes.trans hpush

/-- A script that pushes the least integer of 256 bits and increments it. -/
def extremeScript : Script := ⟨0x05 :: List.replicate 31 0x00 ++ [0x80, 0x9C]⟩

/-- The machine that executes the script, after some steps. -/
def extremeMachine : Nat → Machine
  | 0 => loaded extremeScript {} .lazy 0 0
  | count + 1 => (extremeMachine count).step.2

/-- The frame of the machine behind the push. -/
def extremeFrame : Frame :=
  { world := 0, position := 33, returnCount := -1, locals := .untouched .local,
    arguments := .untouched .argument, tries := [] }

/-- The least integer is in the state, and incrementing replaces it by an integer in range. -/
theorem integers_inRange_extremeScript :
    (({} : Config).maxItemSize ≤ Limits.word ∧
      (create {} .lazy 0).loadScript extremeScript 0 = (.ok (), extremeMachine 0) ∧
      Reaches (fun _ => True) (extremeMachine 0) (extremeMachine 1) ∧
      (extremeMachine 1).state.Mentions (.integer (-(Nat.pow 2 255))) ∧
      InRange (-(Nat.pow 2 255))) ∧
    (JumpTable.standard.handler .inc).operands? = some 1 ∧
      (extremeMachine 1).state.frames = [extremeFrame] ∧
      0 < (extremeMachine 1).state.worlds.size ∧
      (∀ x ∈ (((extremeMachine 1).state.worldAt 0).stack.popMany 1).1, x.IntegersInRange) ∧
      ((∃ e s', JumpTable.standard.dispatch {} ⟨33, .inc, []⟩ (extremeMachine 1).state =
          .error e s') ∨
        ∃ y : Item, y.IntegersInRange ∧
          JumpTable.standard.dispatch {} ⟨33, .inc, []⟩ (extremeMachine 1).state = .ok ()
            ((extremeMachine 1).state.withStack 0
              ((((extremeMachine 1).state.worldAt 0).stack.popMany 1).2.push y))) := by
  have hsize : ({} : Config).maxItemSize ≤ Limits.word := by decide
  have hload : (create {} .lazy 0).loadScript extremeScript 0 = (.ok (), extremeMachine 0) := rfl
  have hreaches : Reaches (fun _ => True) (extremeMachine 0) (extremeMachine 1) :=
    .step .start fun _ _ => trivial
  have hworlds : (extremeMachine 1).state.worlds = #[(extremeMachine 1).state.worldAt 0] := rfl
  have hstack : ((extremeMachine 1).state.worldAt 0).stack =
      ⟨[.const (.integer (-(Nat.pow 2 255)))], 0⟩ := by decide +kernel
  have hmentions : (extremeMachine 1).state.Mentions (.integer (-(Nat.pow 2 255))) := by
    refine .part (.stack (w := (extremeMachine 1).state.worldAt 0) ?_ ?_) (.const .self)
    · rw [hworlds]
      exact Array.mem_singleton.2 rfl
    · rw [hstack]
      exact List.mem_singleton.2 rfl
  have hframes : (extremeMachine 1).state.frames = [extremeFrame] := rfl
  have hworld : 0 < (extremeMachine 1).state.worlds.size := Nat.one_pos
  have hoperands : ∀ x ∈ (((extremeMachine 1).state.worldAt 0).stack.popMany 1).1,
      x.IntegersInRange := by
    rw [hstack]
    intro x hx value hvalue
    cases List.mem_singleton.1 hx
    cases hvalue with
    | const hvalue =>
      cases hvalue
      decide
  refine ⟨⟨hsize, hload, hreaches, hmentions, ?_⟩, rfl, hframes, hworld, hoperands, ?_⟩
  · exact integers_inRange.1 extremeScript {} .lazy 0 0 _ _ hsize hload hreaches _ hmentions
  · exact integers_inRange.2 {} ⟨33, .inc, []⟩ 1 _ extremeFrame [] rfl hframes hworld hoperands

end Machine

end SymbolicScript
