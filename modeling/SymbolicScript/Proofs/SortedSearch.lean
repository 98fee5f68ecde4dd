import Mathlib.Tactic.Common
import SymbolicScript.Search.Bisect

/-!
# Searching sorted sequences

A binary search looks at a few elements and rules out all others.  What allows this is that the
condition it follows holds on an initial segment: the search then ends at the last position at which
the condition holds (`Bisect.search_last`).  So it finds the one place that divides the sequence
into the elements that satisfy the condition and those that do not
(`Bisect.partitionPoint_divides`).  In a sequence sorted by a key, "the key is at most the target"
is such a condition, and the search finds an element with the target as its key if there is one
(`Bisect.member_iff`).
-/

namespace SymbolicScript

namespace Bisect

/-! ## The halving loop -/

variable {keep : Nat → Bool} {base size : Nat}

/-- If the condition holds at the base of the range and everywhere in front of a position at which
it holds, then the search ends at a position at which it holds, and it holds at no later one of the
range. -/
lemma search_last (hkeep : ∀ i j, i ≤ j → keep j = true → keep i = true)
    (hbase : keep base = true) :
    keep (search keep base size) = true ∧
      ∀ j, search keep base size < j → j < base + size → keep j = false := by
  fun_induction search keep base size with
  | case1 base size hsmall =>
    exact ⟨hbase, fun j hlow hhigh => by omega⟩
  | case2 base size hlarge half middle ih =>
    have hhalf : 2 * half ≤ size ∧ size - half + half = size := by omega
    have hmiddle : middle = base + half := rfl
    cases hkept : keep middle with
    | true =>
      simp only [hkept, ↓reduceDIte, ↓reduceIte] at ih ⊢
      obtain ⟨hlast, hlater⟩ := ih trivial
      exact ⟨hlast, fun j hlow hhigh => hlater j hlow (by omega)⟩
    | false =>
      simp only [hkept, Bool.false_eq_true, ↓reduceDIte, ↓reduceIte] at ih ⊢
      obtain ⟨hlast, hlater⟩ := ih hbase
      refine ⟨hlast, fun j hlow hhigh => ?_⟩
      by_cases hupper : middle ≤ j
      · by_contra hj
        rw [hkeep middle j hupper (by simpa using hj)] at hkept
        cases hkept
      · exact hlater j hlow (by omega)

/-- If the condition holds nowhere, the search stays at the base of the range. -/
lemma search_of_never (hnever : ∀ i, keep i = false) : search keep base size = base := by
  fun_induction search keep base size with
  | case1 base size hsmall => rfl
  | case2 base size hlarge half middle ih =>
    simpa only [hnever middle, Bool.false_eq_true, ↓reduceDIte, ↓reduceIte] using ih

/-! ## Conditions on elements -/

variable {α : Type} {cond : α → Bool} {xs : List α}

/-- Whether there is an element at a position and it satisfies a condition. -/
private def holdsAt (cond : α → Bool) (xs : List α) (i : Nat) : Bool :=
  xs[i]?.any cond

private lemma holdsAt_iff {i : Nat} :
    holdsAt cond xs i = true ↔ ∃ h : i < xs.length, cond xs[i] = true := by
  unfold holdsAt
  by_cases h : i < xs.length <;> simp [h]

/-- If whatever stands in front of an element that satisfies the condition satisfies it too, then so
it is with positions. -/
private lemma holdsAt_mono (hinitial : xs.Pairwise fun a b => cond b = true → cond a = true)
    (i j : Nat) (hij : i ≤ j) (h : holdsAt cond xs j = true) : holdsAt cond xs i = true := by
  obtain ⟨hj, hcond⟩ := holdsAt_iff.1 h
  refine holdsAt_iff.2 ⟨by omega, ?_⟩
  rcases Nat.lt_or_eq_of_le hij with hlt | rfl
  · exact List.pairwise_iff_getElem.1 hinitial i j (by omega) hj hlt hcond
  · exact hcond

/-! ## Partition points -/

/-- The elements that satisfy the condition are exactly those in front of the place. -/
structure Divides (cond : α → Bool) (xs : List α) (place : Nat) : Prop where
  /-- The place is one of the sequence, or its end. -/
  le_length : place ≤ xs.length
  /-- In front of the place the condition holds, and from there on it does not. -/
  cond_iff : ∀ i (h : i < xs.length), cond xs[i] = true ↔ i < place

namespace Divides

variable {place : Nat}

/-- The elements in front of the place satisfy the condition. -/
lemma front (h : Divides cond xs place) {x : α} (hx : x ∈ xs.take place) : cond x = true := by
  obtain ⟨i, hi, rfl⟩ := List.mem_take_iff_getElem.1 hx
  exact (h.cond_iff i (by omega)).2 (by omega)

/-- The other elements do not. -/
lemma back (h : Divides cond xs place) {x : α} (hx : x ∈ xs.drop place) : cond x = false := by
  obtain ⟨i, hi, rfl⟩ := List.mem_drop_iff_getElem.1 hx
  refine Bool.eq_false_iff.2 fun hcond => ?_
  have hlt := (h.cond_iff (place + i) (by omega)).1 hcond
  omega

/-- There is only one such place. -/
theorem unique {other : Nat} (h : Divides cond xs place) (hother : Divides cond xs other) :
    place = other := by
  have hle := h.le_length
  have hle' := hother.le_length
  rcases Nat.lt_trichotomy place other with hlt | heq | hgt
  · have hcond := (hother.cond_iff place (by omega)).2 hlt
    exact absurd ((h.cond_iff place (by omega)).1 hcond) (Nat.lt_irrefl place)
  · exact heq
  · have hcond := (h.cond_iff other (by omega)).2 hgt
    exact absurd ((hother.cond_iff other (by omega)).1 hcond) (Nat.lt_irrefl other)

end Divides

/-- Where the search for the partition point ends, and what it adds to that position. -/
private lemma partitionPoint_eq :
    partitionPoint cond xs =
      if holdsAt cond xs (last (holdsAt cond xs) xs.length) then
        last (holdsAt cond xs) xs.length + 1
      else last (holdsAt cond xs) xs.length := rfl

/-- If the condition holds on an initial segment, the partition point is the end of that segment. -/
theorem partitionPoint_divides
    (hinitial : xs.Pairwise fun a b => cond b = true → cond a = true) :
    Divides cond xs (partitionPoint cond xs) := by
  have hmono := holdsAt_mono hinitial
  rw [partitionPoint_eq]
  cases hfirst : holdsAt cond xs 0 with
  | true =>
    -- The search ends at the last element that satisfies the condition.
    have hsearch : holdsAt cond xs (last (holdsAt cond xs) xs.length) = true ∧
        ∀ j, last (holdsAt cond xs) xs.length < j → j < 0 + xs.length →
          holdsAt cond xs j = false := search_last hmono hfirst
    obtain ⟨hlast, hlater⟩ := hsearch
    obtain ⟨hlt, -⟩ := holdsAt_iff.1 hlast
    rw [if_pos hlast]
    refine ⟨hlt, fun i hi => ⟨fun hcond => ?_, fun hle => ?_⟩⟩
    · by_contra hbehind
      have hnot := hlater i (by omega) (by omega)
      rw [holdsAt_iff.2 ⟨hi, hcond⟩] at hnot
      cases hnot
    · obtain ⟨_, hcond⟩ := holdsAt_iff.1 (hmono i _ (Nat.le_of_lt_succ hle) hlast)
      exact hcond
  | false =>
    -- No element satisfies the condition, since the first one does not.
    have hnever : ∀ i, holdsAt cond xs i = false := by
      intro i
      cases hi : holdsAt cond xs i with
      | false => rfl
      | true => exact (hmono 0 i (Nat.zero_le i) hi).symm.trans hfirst
    rw [hnever, show last (holdsAt cond xs) xs.length = 0 from search_of_never hnever]
    refine ⟨Nat.zero_le _, fun i hi => ⟨fun hcond => ?_, fun hlt => absurd hlt (Nat.not_lt_zero i)⟩⟩
    have hnot := hnever i
    rw [holdsAt_iff.2 ⟨hi, hcond⟩] at hnot
    cases hnot

/-! ## Membership -/

variable {key : α → Nat} {target : Nat}

/-- In a sorted sequence, whatever stands in front of an element with a key that is at most the
target has such a key itself. -/
lemma initial_of_sorted (hsorted : xs.Pairwise fun a b => key a ≤ key b) (target : Nat) :
    xs.Pairwise fun a b => decide (key b ≤ target) = true → decide (key a ≤ target) = true := by
  refine hsorted.imp fun {a b} hab hb => ?_
  exact decide_eq_true (Nat.le_trans hab (of_decide_eq_true hb))

/-- A sequence sorted by a key has an element with the target as its key exactly if the search finds
one. -/
theorem member_iff (hsorted : xs.Pairwise fun a b => key a ≤ key b) :
    member key target xs = true ↔ ∃ x ∈ xs, key x = target := by
  let atMost := holdsAt (fun x => decide (key x ≤ target)) xs
  have hmono := holdsAt_mono (initial_of_sorted hsorted target)
  have hfound : member key target xs = true ↔
      ∃ h : last atMost xs.length < xs.length, key (xs[last atMost xs.length]) = target := by
    change (xs[last atMost xs.length]?.any fun x => key x = target) = true ↔ _
    by_cases h : last atMost xs.length < xs.length <;> simp [h]
  rw [hfound]
  constructor
  · rintro ⟨h, hkey⟩
    exact ⟨_, List.getElem_mem h, hkey⟩
  · rintro ⟨x, hx, hkey⟩
    obtain ⟨k, hk, rfl⟩ := List.getElem_of_mem hx
    have hholds : atMost k = true := holdsAt_iff.2 ⟨hk, decide_eq_true (Nat.le_of_eq hkey)⟩
    have hfirst := hmono 0 k (Nat.zero_le k) hholds
    have hsearch : atMost (last atMost xs.length) = true ∧
        ∀ j, last atMost xs.length < j → j < 0 + xs.length → atMost j = false :=
      search_last hmono hfirst
    obtain ⟨hlast, hlater⟩ := hsearch
    obtain ⟨h, hle⟩ := holdsAt_iff.1 hlast
    refine ⟨h, Nat.le_antisymm (of_decide_eq_true hle) ?_⟩
    -- The element that was looked for does not stand behind the one that was found.
    rcases Nat.lt_trichotomy k (last atMost xs.length) with hlt | heq | hgt
    · exact Nat.le_trans (Nat.le_of_eq hkey.symm) (List.pairwise_iff_getElem.1 hsorted _ _ hk h hlt)
    · subst heq
      exact Nat.le_of_eq hkey.symm
    · rw [hlater k hgt (by omega)] at hholds
      cases hholds

end Bisect

end SymbolicScript
