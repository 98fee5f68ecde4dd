import SymbolicScript.Heap.Basic
import SymbolicScript.SortedMap

/-!
# Copying compounds

A deep copy follows the struct elements of a compound and gives every struct that it meets one
copy, so that sharing and cycles of the source reappear in the copy. The sources already copied
are remembered, with the handles of their copies. All other elements are taken over as they are:
arrays and buffers stay shared.

A copy that fails half-way leaves behind what it has allocated, so copying is a computation with a
state that survives its errors.
-/

namespace SymbolicScript

namespace Heap

/-- What a copy works on: the heap, and the copies made so far by source. -/
structure CopyState where
  /-- The heap. -/
  heap : Heap
  /-- The handle of the copy of every source copied so far. -/
  copies : SortedMap Nat Nat

/-- A computation that copies objects. -/
abbrev Copying := EStateM ExecutionError CopyState

/-- Works on the heap alone; a failure changes nothing. -/
def onHeap (change : Heap → Except ExecutionError Heap) : Copying Unit := fun s =>
  match change s.heap with
  | .ok heap => .ok () { s with heap }
  | .error e => .error e s

/-- Looks something up in the heap. -/
def lookUp {α : Type} (find : Heap → Except ExecutionError α) : Copying α := fun s =>
  match find s.heap with
  | .ok a => .ok a s
  | .error e => .error e s

/-- Allocates an empty compound as the copy of `source` and gives its handle. -/
def beginCopy (source : Nat) (kind : CompoundKind) : Copying Nat := fun s =>
  .ok s.heap.size
    { heap := s.heap.add (.compound kind [] false), copies := s.copies.insert source s.heap.size }

mutual

/-- The item of the copy of the object behind `source`, which is made unless there is one. The
fuel bounds how deeply copies may nest. -/
def copyObject (freeze : Bool) (fuel : Nat) (source : Nat) : Copying Item :=
  match fuel with
  | 0 => throw (.invalidHeapHandle source)
  | fuel + 1 => do
    match (← get).copies.find? source with
    | some copy => lookUp (·.itemFor copy)
    | none =>
      match ← lookUp (·.object source) with
      | .buffer _ => return .buffer source
      | .compound kind items _ => do
        let copy ← beginCopy source kind
        let copied ← copyItems freeze fuel items
        onHeap (·.modifyItems copy fun _ => .ok copied)
        if freeze then onHeap (Heap.freeze · copy)
        return kind.item copy
termination_by (fuel, 0)

/-- The elements of a copy: struct elements are copied in turn. -/
def copyItems (freeze : Bool) (fuel : Nat) (items : List Item) : Copying (List Item) :=
  match items with
  | [] => return []
  | x :: rest => do
    let y ← match x.structHandle? with
      | some nested => copyObject freeze fuel nested
      | none => pure x
    let ys ← copyItems freeze fuel rest
    return y :: ys
termination_by (fuel, items.length + 1)

end

/-- A bound on how deeply copies nest. Every level has a source of its own; a source is an object
of the present heap, or a copy made meanwhile, of which memory has no room for 2^64. -/
def copyFuel (heap : Heap) : Nat := heap.size + Limits.word

/-- Copies an array or a struct, and freezes the copies if asked to; other items are their own
copies. -/
def deepCopy (freeze : Bool) (x : Item) : Copying Item :=
  match x.known? with
  | some (.array handle) | some (.struct handle) => do
    let fuel := (← get).heap.copyFuel
    copyObject freeze fuel handle
  | _ => return x

/-- What is stored when an item is put into a compound: a struct is stored as a copy. -/
def cloneStruct (heap : Heap) (x : Item) : Except ExecutionError Item × Heap :=
  match x.structHandle? with
  | none => (.ok x, heap)
  | some _ =>
    match (deepCopy false x).run ⟨heap, .empty⟩ with
    | .ok y s => (.ok y, s.heap)
    | .error e s => (.error e, s.heap)

end Heap

end SymbolicScript
