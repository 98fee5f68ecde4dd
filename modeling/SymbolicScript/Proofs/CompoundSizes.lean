import SymbolicScript.Proofs.IntegerRange

/-!
# The number of elements of a compound

No array or struct ever has more than 2048 elements (`Machine.elements_le`).  The instructions that
create a compound from the stack or from a size, and the one that appends, compare the number with
the bound.  Copies, conversions and the changes of a compound in place compare nothing: they take
the number of elements from a compound that is there already, or from one that has lost elements.

So the bound is the invariant of all heaps, and nothing is demanded of integers, of byte strings and
of what the operands of an instruction say.
-/

namespace SymbolicScript

/-- The bounds that demand of compounds to have no more elements than the stack may have items, and
nothing of anything else. -/
def Bounds.elementCounts : Bounds where
  integer _ := True
  length _ := True
  count n := n ≤ Limits.stackSize

/-- These bounds admit what a machine creates, however it is configured. -/
lemma Bounds.elementCounts_admits (config : Config) : elementCounts.Admits config where
  fits _ _ := trivial
  size _ _ := trivial
  sizeOfCompound _ _ := trivial
  minimal _ _ := trivial
  part _ _ _ _ := trivial
  item _ _ := trivial
  fewer _ _ hle hcount := Nat.le_trans hle hcount
  elements _ hsize := hsize

namespace Machine

/-- No array or struct ever has more than 2048 elements.  Whatever a machine has executed since it
has loaded a script, and whether the instructions have succeeded or failed, every compound in a heap
of its state has at most that many. -/
theorem elements_le (script : Script) (config : Config) (watchdog : Watchdog) (supply entry : Nat)
    (m₀ m : Machine) (hload : (create config watchdog supply).loadScript script entry = (.ok (), m₀))
    (hreaches : Reaches (fun _ => True) m₀ m) (index handle : Nat) (kind : CompoundKind)
    (items : List Item) (readOnly : Bool)
    (hobject : (m.state.worldAt index).heap.objects[handle]? =
      some (.compound kind items readOnly)) : items.length ≤ 2048 := by
  obtain ⟨rfl, -, -⟩ := loadScript_ok hload
  obtain ⟨-, hwithin⟩ := hreaches.within_of_pushes (Bounds.elementCounts_admits config)
    (loaded_within script config watchdog supply entry) fun _ _ _ _ _ => trivial
  exact ((hwithin.world index).heap handle _ hobject).length

/-- A script that creates an array of 2048 elements and appends to it. -/
def fillingScript : Script := ⟨[0x01, 0x00, 0x08, 0xC3, 0x4A, 0x11, 0xCF]⟩

/-- The machine that executes the script, after some steps. -/
def fillingMachine : Nat → Machine
  | 0 => loaded fillingScript {} .lazy 0 0
  | count + 1 => (fillingMachine count).step.2

/-- The array has 2048 elements when the script appends to it.  That fails, and the array has as
many elements afterwards. -/
theorem elements_le_fillingScript :
    (create {} .lazy 0).loadScript fillingScript 0 = (.ok (), fillingMachine 0) ∧
      Reaches (fun _ => True) (fillingMachine 0) (fillingMachine 5) ∧
      (fillingMachine 4).step.1.isOk = false ∧
      ((fillingMachine 5).state.worldAt 0).heap.objects[0]? =
        some (.compound .array (List.replicate 2048 .null) false) ∧
      (List.replicate 2048 Item.null).length ≤ 2048 := by
  have hload : (create {} .lazy 0).loadScript fillingScript 0 = (.ok (), fillingMachine 0) := rfl
  have hreaches : Reaches (fun _ => True) (fillingMachine 0) (fillingMachine 5) :=
    .step (.step (.step (.step (.step .start fun _ _ => trivial) fun _ _ => trivial)
      fun _ _ => trivial) fun _ _ => trivial) fun _ _ => trivial
  have hfails : (fillingMachine 4).step.1.isOk = false := by decide +kernel
  have hobject : ((fillingMachine 5).state.worldAt 0).heap.objects[0]? =
      some (.compound .array (List.replicate 2048 .null) false) := by
    decide +kernel
  exact ⟨hload, hreaches, hfails, hobject, elements_le fillingScript {} .lazy 0 0 _ _ hload hreaches
    0 0 _ _ _ hobject⟩

end Machine

end SymbolicScript
