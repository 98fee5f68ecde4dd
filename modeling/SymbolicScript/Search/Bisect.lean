/-!
# Binary search

One halving loop serves both to locate an element of a sorted sequence and to find where a new one
belongs. `Bisect.last keep size` narrows `[0, size)` down to one position by keeping the upper half
whenever `keep` holds at its first position. If `keep` holds exactly on a nonempty initial segment,
the position found is the last of that segment.
-/

namespace SymbolicScript

namespace Bisect

/-- The position that remains of the `size` positions from `base` on. -/
def search (keep : Nat → Bool) (base size : Nat) : Nat :=
  if size ≤ 1 then
    base
  else
    let half := size / 2
    let middle := base + half
    search keep (if keep middle then middle else base) (size - half)
termination_by size
decreasing_by omega

/-- The position that remains of the first `size` positions. -/
def last (keep : Nat → Bool) (size : Nat) : Nat :=
  search keep 0 size

/-- The number of elements in front of the point where `keep` stops to hold. -/
def partitionPoint {α : Type} (keep : α → Bool) (xs : List α) : Nat :=
  let holds := fun i => xs[i]?.any keep
  let i := last holds xs.length
  if holds i then i + 1 else i

/-- Whether a sequence that is sorted by `key` has an element with the key `target`. -/
def member {α : Type} (key : α → Nat) (target : Nat) (xs : List α) : Bool :=
  let i := last (fun i => xs[i]?.any fun x => key x ≤ target) xs.length
  xs[i]?.any fun x => key x = target

end Bisect

end SymbolicScript
