import SymbolicScript.Proofs.BuiltPushes
import SymbolicScript.Proofs.IntegerRange

/-!
# The size of byte strings and buffers

The configuration is meant to bound the size of all buffers and byte strings that are created.
Pushes of data, new buffers and concatenations compare the size with the bound.  What makes bytes of
an integer compares nothing: a conversion, a part of an integer, and an integer as a key of storage.
An integer has up to 32 bytes, whatever the configuration says.

So the bound of a state is the greater one of the two numbers, and a configuration bounds what its
machines create exactly if it allows 32 bytes (`Machine.bytes_le_and_iff`).  Sizes become integers
again, but a size is far smaller than the integers that have as many bytes.  That is why nothing has
to be assumed of the configuration, unlike for the range of integers.
-/

namespace SymbolicScript

/-! ## The bounds -/

/-- The bounds that demand of byte strings and buffers to be no longer than the configuration
allows, or than the longest integers.  Of an integer they demand that it fits so many bytes. -/
def Bounds.byteSizes (config : Config) : Bounds where
  integer := TwosComplement.Fits (max config.maxItemSize Limits.integerBytes)
  length n := n ≤ max config.maxItemSize Limits.integerBytes
  count n := n ≤ Limits.stackSize

/-- A number fits as many bytes as it says, and more. -/
lemma TwosComplement.fits_of_le_room {room n : Nat} (hroom : 1 ≤ room) (h : n ≤ room) :
    Fits room n := by
  have hspan : Nat.pow 256 room = 2 * Nat.pow 2 (8 * room - 1) := span_eq_double hroom
  have hbits : Nat.pow 2 room ≤ Nat.pow 2 (8 * room - 1) :=
    Nat.pow_le_pow_right (by decide) (by omega)
  have hroomy : room < Nat.pow 2 room := Nat.lt_two_pow_self
  constructor <;> omega

lemma Bounds.one_le_byteSizes (config : Config) :
    1 ≤ max config.maxItemSize Limits.integerBytes :=
  Nat.le_trans (by decide) (Nat.le_max_right _ _)

/-- These bounds admit what a machine creates, however it is configured. -/
lemma Bounds.byteSizes_admits (config : Config) : (byteSizes config).Admits config where
  fits _ hfits := hfits.mono (Nat.le_max_right _ _)
  size _ hlength := TwosComplement.fits_of_le_room (one_le_byteSizes config) hlength
  sizeOfCompound n hcount := by
    have hword : (n : Int).natAbs ≤ Limits.word := Nat.le_trans hcount (by decide)
    exact (fits_of_natAbs_le_word hword).mono (Nat.le_max_right _ _)
  minimal _ hfits := (TwosComplement.length_minimal_le_iff (one_le_byteSizes config)).2 hfits
  part _ _ hle hlength := Nat.le_trans hle hlength
  item _ hsize := Nat.le_trans hsize (Nat.le_max_left _ _)
  fewer _ _ hle hcount := Nat.le_trans hle hcount
  elements _ hsize := hsize

/-! ## The bytes of a state -/

/-- The bytes are in the state: as a byte string, wherever it is, or as the contents of a buffer in
one of the heaps. -/
inductive State.HoldsBytes (s : State) (bytes : Bytes) : Prop
  /-- A byte string. -/
  | byteString (hmentions : s.Mentions (.byteString bytes)) : HoldsBytes s bytes
  /-- A buffer. -/
  | buffer {index handle : Nat}
    (hobject : (s.worldAt index).heap.objects[handle]? = some (.buffer bytes)) : HoldsBytes s bytes

/-- A byte string on an evaluation stack is in the state. -/
lemma State.HoldsBytes.of_stack {s : State} {w : World} {bytes : Bytes} (hw : w ∈ s.worlds)
    (hx : .const (.byteString bytes) ∈ w.stack.items) : s.HoldsBytes bytes := by
  have hmentions : s.Mentions (.const (.byteString bytes)) := .stack hw hx
  exact .byteString (.part hmentions (.const .self))

/-- The bytes that are in a state within bounds are within the bounds. -/
lemma State.HoldsBytes.length {b : Bounds} {s : State} {bytes : Bytes} (h : s.HoldsBytes bytes)
    (hs : s.Within b) : b.length bytes.length := by
  cases h with
  | byteString hmentions => exact (hs.mentions hmentions).bounded
  | buffer hobject => exact ((hs.world _).heap _ _ hobject).length

namespace Machine

variable {config : Config}

/-- What a machine has created since it has loaded a script is no longer than the configuration
allows, or than an integer. -/
lemma Reaches.length_le {script : Script} {watchdog : Watchdog} {supply entry : Nat} {m₀ m : Machine}
    {bytes : Bytes} (hload : (create config watchdog supply).loadScript script entry = (.ok (), m₀))
    (hreaches : Reaches (fun _ => True) m₀ m) (hbytes : m.state.HoldsBytes bytes) :
    bytes.length ≤ max config.maxItemSize Limits.integerBytes := by
  obtain ⟨rfl, -, -⟩ := loadScript_ok hload
  have hpushes : ∀ m', Reaches (fun _ => True) (loaded script config watchdog supply entry) m' →
      ∀ i, m'.next = .ok (some i) → i.PushesWithin (Bounds.byteSizes config) m'.table := by
    intro m' hm' i hnext hhandler
    have hdecoded : i.PushesWithin (Bounds.ofConfig config) m'.table :=
      pushesWithin_of_next hm'.table_eq hnext
    exact (hdecoded hhandler).mono (Nat.le_max_right _ _)
  obtain ⟨-, hwithin⟩ := hreaches.within_of_pushes (Bounds.byteSizes_admits config)
    (loaded_within script config watchdog supply entry) hpushes
  exact hbytes.length hwithin

/-! ## A conversion -/

/-- An instruction that is executed leads to another machine that is reached. -/
lemma Reaches.executes {offsets : Nat → Prop} {m₀ m m' : Machine} {i : Instruction}
    {result : Except LocatedError Unit} (h : Reaches offsets m₀ m)
    (hnext : m.next = .ok (some i)) (hoffset : offsets i.offset)
    (hexecute : m.execute i = (result, m')) : Reaches offsets m₀ m' := by
  have hstep : m.step.2 = m' := by rw [step_of_next hnext, hexecute]
  rw [← hstep]
  refine h.step fun i' hnext' => ?_
  obtain rfl : i = i' := by simpa [hnext] using hnext'
  exact hoffset

/-- The bytes of the least integer of 256 bits. -/
def leastBytes : Bytes := List.replicate 31 0x00 ++ [0x80]

/-- A script that pushes the least integer of 256 bits and converts it to a byte string. -/
def convertingScript : Script := ⟨0x05 :: leastBytes ++ [0xDB, 0x28]⟩

/-- The world of the script behind the conversion. -/
def convertedWorld : World :=
  { World.ofScript convertingScript with stack := ⟨[.const (.byteString leastBytes)], 0⟩ }

/-- The conversion gives the shortest form of an integer, without a look at its size. -/
lemma performInstruction_convert (watchdog : Watchdog) (supply executed : Nat) (value : Int) :
    performInstruction config .standard ⟨33, .convert, [0x28]⟩
        (holding convertingScript config watchdog supply 33 executed
          [.const (.integer value)]).state =
      (.ok (), (holding convertingScript config watchdog (supply + 1) 35 executed
        [.const (.byteString (TwosComplement.minimal value))]).state) :=
  rfl

/-- Where two instructions may be executed, the script gets as far as the byte string. -/
lemma reaches_leastBytes (hlimit : 2 ≤ config.instructionLimit) :
    ∃ m, Reaches (fun _ => True) (loaded convertingScript config .lazy 0 0) m ∧
      m.state.HoldsBytes leastBytes := by
  have hleast : TwosComplement.minimal (-(Nat.pow 2 255)) = leastBytes := by decide +kernel
  obtain ⟨watchdog, hnever, hpush⟩ :
      ∃ watchdog : Watchdog, watchdog.NeverStops ∧
        (holding convertingScript config .lazy 0 0 0 []).execute ⟨0, .pushInt256, leastBytes⟩ =
          (.ok (), holding convertingScript config watchdog 0 33 1
            [.const (.integer (-(Nat.pow 2 255)))]) :=
    execute_push (x := .integer (-(Nat.pow 2 255))) rfl (by decide) (by omega)
      Watchdog.lazy_neverStops
  have hpushed : Reaches (fun _ => True) (loaded convertingScript config .lazy 0 0)
      (holding convertingScript config watchdog 0 33 1 [.const (.integer (-(Nat.pow 2 255)))]) :=
    Reaches.start.executes (m := holding convertingScript config .lazy 0 0 0 []) rfl trivial hpush
  obtain ⟨watchdog', -, hconvert⟩ :=
    execute_of_performs (holding convertingScript config watchdog 0 33 1
      [.const (.integer (-(Nat.pow 2 255)))]) hlimit hnever
      (performInstruction_convert watchdog 0 1 (-(Nat.pow 2 255)))
  rw [hleast] at hconvert
  refine ⟨_, hpushed.executes rfl trivial hconvert, ?_⟩
  exact .of_stack (w := convertedWorld) (Array.mem_singleton.2 rfl) (List.mem_singleton.2 rfl)

/-! ## What the configuration bounds -/

/-- No byte string and no buffer is longer than the configuration allows, or than the 32 bytes of
the longest integers.  Whatever a machine has executed since it has loaded a script, this holds of
all the byte strings that its state mentions and of all buffers in its heaps.  A configuration under
which scripts can execute two instructions bounds all of them exactly if it allows 32 bytes. -/
theorem bytes_le_and_iff (config : Config) :
    (∀ (script : Script) (watchdog : Watchdog) (supply entry : Nat) (m₀ m : Machine)
      (bytes : Bytes), (create config watchdog supply).loadScript script entry = (.ok (), m₀) →
      Reaches (fun _ => True) m₀ m → m.state.HoldsBytes bytes →
        bytes.length ≤ max config.maxItemSize 32) ∧
    (2 ≤ config.instructionLimit → 1 ≤ config.maxInvocationDepth →
      ((∀ (script : Script) (watchdog : Watchdog) (supply entry : Nat) (m₀ m : Machine)
        (bytes : Bytes), (create config watchdog supply).loadScript script entry = (.ok (), m₀) →
        Reaches (fun _ => True) m₀ m → m.state.HoldsBytes bytes →
          bytes.length ≤ config.maxItemSize) ↔ 32 ≤ config.maxItemSize)) := by
  refine ⟨?_, fun hlimit hdepth => ⟨?_, ?_⟩⟩
  · intro script watchdog supply entry m₀ m bytes hload hreaches hbytes
    exact hreaches.length_le hload hbytes
  · intro h
    have hload : (create config .lazy 0).loadScript convertingScript 0 =
        (.ok (), loaded convertingScript config .lazy 0 0) := loadScript_start hdepth
    obtain ⟨m, hreaches, hbytes⟩ := reaches_leastBytes hlimit
    have hleast : leastBytes.length ≤ config.maxItemSize :=
      h convertingScript .lazy 0 0 _ m leastBytes hload hreaches hbytes
    exact hleast
  · intro hsize script watchdog supply entry m₀ m bytes hload hreaches hbytes
    have hle : bytes.length ≤ max config.maxItemSize 32 := hreaches.length_le hload hbytes
    rwa [Nat.max_eq_left hsize] at hle

/-- The machine that executes the script and allows items of five bytes, after some steps. -/
def convertingMachine : Nat → Machine
  | 0 => loaded convertingScript { maxItemSize := 5 } .lazy 0 0
  | count + 1 => (convertingMachine count).step.2

/-- The machine has made the conversion. -/
lemma convertedWorld_mem : convertedWorld ∈ (convertingMachine 2).state.worlds := by
  have hworlds : (convertingMachine 2).state.worlds = #[convertedWorld] := by decide +kernel
  rw [hworlds]
  exact Array.mem_singleton.2 rfl

/-- The machine that allows five bytes creates a byte string of 32 bytes, which is the longest one
that it can create.  The configuration that nobody has changed bounds all that is created. -/
theorem bytes_le_and_iff_convertingScript :
    ((create { maxItemSize := 5 } .lazy 0).loadScript convertingScript 0 =
        (.ok (), convertingMachine 0) ∧
      Reaches (fun _ => True) (convertingMachine 0) (convertingMachine 2) ∧
      (convertingMachine 2).state.HoldsBytes leastBytes ∧
      leastBytes.length ≤ max ({ maxItemSize := 5 } : Config).maxItemSize 32) ∧
    2 ≤ ({} : Config).instructionLimit ∧ 1 ≤ ({} : Config).maxInvocationDepth ∧
      ∀ (script : Script) (watchdog : Watchdog) (supply entry : Nat) (m₀ m : Machine)
        (bytes : Bytes),
        (create {} watchdog supply).loadScript script entry = (.ok (), m₀) →
        Reaches (fun _ => True) m₀ m → m.state.HoldsBytes bytes →
          bytes.length ≤ ({} : Config).maxItemSize := by
  have hload : (create { maxItemSize := 5 } .lazy 0).loadScript convertingScript 0 =
      (.ok (), convertingMachine 0) := rfl
  have hreaches : Reaches (fun _ => True) (convertingMachine 0) (convertingMachine 2) :=
    .step (.step .start fun _ _ => trivial) fun _ _ => trivial
  have hbytes : (convertingMachine 2).state.HoldsBytes leastBytes :=
    .of_stack convertedWorld_mem (List.mem_singleton.2 rfl)
  have hlimit : 2 ≤ ({} : Config).instructionLimit := by decide
  have hdepth : 1 ≤ ({} : Config).maxInvocationDepth := by decide
  have hsize : 32 ≤ ({} : Config).maxItemSize := by decide
  refine ⟨⟨hload, hreaches, hbytes, ?_⟩, hlimit, hdepth, ?_⟩
  · exact (bytes_le_and_iff { maxItemSize := 5 }).1 convertingScript .lazy 0 0 _ _ leastBytes hload
      hreaches hbytes
  · exact ((bytes_le_and_iff {}).2 hlimit hdepth).2 hsize

/-- A conversion creates more bytes than the configuration allows: where five bytes are the most,
a byte string of 32 bytes comes to lie on the evaluation stack. -/
theorem convert_exceeds_maxItemSize :
    ¬∀ (script : Script) (config : Config) (entry : Nat) (m₀ m : Machine),
      (create config .lazy 0).loadScript script entry = (.ok (), m₀) →
      Reaches (fun _ => True) m₀ m → ∀ w ∈ m.state.worlds, ∀ bytes : Bytes,
        .const (.byteString bytes) ∈ w.stack.items → bytes.length ≤ config.maxItemSize := by
  intro h
  have hlength : leastBytes.length ≤ ({ maxItemSize := 5 } : Config).maxItemSize :=
    h convertingScript { maxItemSize := 5 } 0 (convertingMachine 0) (convertingMachine 2) rfl
      (.step (.step .start fun _ _ => trivial) fun _ _ => trivial) convertedWorld
      convertedWorld_mem leastBytes (List.mem_singleton.2 rfl)
  exact absurd hlength (by decide)

end Machine

end SymbolicScript
