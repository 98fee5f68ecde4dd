import SymbolicScript.Machine.State
import SymbolicScript.Service

/-!
# Calls of storage services

Storage is read and written through services of the host. A key that is known counts by its bytes,
whichever item they come from.
-/

namespace SymbolicScript

namespace Semantics

/-- Pops a storage key; a known one becomes a byte string. -/
def popKey : Exec Item := do
  let key ← Exec.pop
  match ← (← Exec.heap).bytesOf key with
  | some bytes => return .constant (.byteString bytes)
  | none => return key

/-- Changes the view of storage. -/
def modifyStorage (change : StorageView → StorageView) : Exec Unit :=
  Exec.modifyWorld fun w => { w with storage := some (change (w.storage.getD .empty)) }

/-- Pushes the value of a popped key. -/
def storageGet (i : Instruction) : Exec Unit := do
  let _ ← Exec.pop
  let key ← popKey
  Exec.recordRead (.storage key) i.offset
  modifyStorage id
  let view := (← Exec.world).storage.getD .empty
  Exec.push (view.get (← Exec.freshId) key)

/-- Writes a popped value under a popped key. -/
def storagePut (i : Instruction) : Exec Unit := do
  let _ ← Exec.pop
  let key ← popKey
  let value ← Exec.pop
  Exec.recordWrite (.storage key) i.offset
  modifyStorage (·.set key (some value))

/-- Removes a popped key. -/
def storageDelete (i : Instruction) : Exec Unit := do
  let _ ← Exec.pop
  let key ← popKey
  Exec.recordWrite (.storage key) i.offset
  modifyStorage (·.set key none)

/-- Calls the service whose hash is in the operand. -/
def syscall (i : Instruction) : Exec Unit := do
  let hash ← i.unsignedToken 0 4
  match StorageService.ofHash? hash with
  | none => throw (.unsupportedSyscall hash)
  | some .getContext | some .getReadOnlyContext =>
    Exec.push (← Exec.fresh .interopInterface)
  | some .get => storageGet i
  | some .put => storagePut i
  | some .delete => storageDelete i

end Semantics

end SymbolicScript
