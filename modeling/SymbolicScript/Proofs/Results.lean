import Mathlib.Data.List.Forall2

/-!
# Results and lists of results

A sequence of results succeeds exactly if its parts do.  For a list whose elements are mapped to
results, each on its own, this is an equivalence with `List.Forall₂`: each element is mapped to the
result in its place (`mapM_eq_ok`, and `mapM_eq_some_iff` for partial functions).  Everything else
about such a list follows from what holds of related lists in general.
-/

namespace SymbolicScript

/-! ## Sequences of results -/

/-- A sequence of results succeeds if its parts do, one after the other. -/
lemma except_bind_eq_ok {ε α β : Type} {x : Except ε α} {k : α → Except ε β} {b : β} :
    (x >>= k) = .ok b ↔ ∃ a, x = .ok a ∧ k a = .ok b := by
  cases x with
  | ok a => simp [Bind.bind, Except.bind]
  | error e => simp [Bind.bind, Except.bind]

/-- A mapped result succeeds if the result does. -/
lemma except_map_eq_ok {ε α β : Type} {x : Except ε α} {f : α → β} {b : β} :
    x.map f = .ok b ↔ ∃ a, x = .ok a ∧ f a = b := by
  cases x with
  | ok a => simp [Except.map]
  | error e => simp [Except.map]

/-! ## Related lists -/

section Related

variable {α β : Type} {R : α → β → Prop} {xs : List α} {ys : List β}

/-- A list each of whose members has a partner is related to some list. -/
lemma exists_forall₂ (h : ∀ x ∈ xs, ∃ y, R x y) : ∃ ys, List.Forall₂ R xs ys := by
  induction xs with
  | nil => exact ⟨[], .nil⟩
  | cons x xs ih =>
    obtain ⟨⟨y, hxy⟩, hrest⟩ := List.forall_mem_cons.1 h
    obtain ⟨ys, hys⟩ := ih hrest
    exact ⟨y :: ys, .cons hxy hys⟩

/-- A member of a list has a partner in a related list. -/
lemma exists_mem_of_forall₂ (h : List.Forall₂ R xs ys) {x : α} (hx : x ∈ xs) :
    ∃ y ∈ ys, R x y := by
  induction h with
  | nil => cases hx
  | cons hfirst _ ih =>
    rcases List.mem_cons.1 hx with rfl | hrest
    · exact ⟨_, List.mem_cons_self, hfirst⟩
    · obtain ⟨y, hy, hxy⟩ := ih hrest
      exact ⟨y, List.mem_cons_of_mem _ hy, hxy⟩

end Related

/-! ## Lists of results -/

section Mapped

variable {ε α β : Type} {f : α → Except ε β} {xs : List α} {ys : List β}

/-- The elements of a list are mapped to results exactly if each of them is mapped to the result in
its place. -/
lemma mapM_eq_ok : xs.mapM f = .ok ys ↔ List.Forall₂ (fun x y => f x = .ok y) xs ys := by
  induction xs generalizing ys with
  | nil =>
    rw [List.mapM_nil, List.forall₂_nil_left_iff]
    exact ⟨fun h => (Except.ok.inj h).symm, fun h => h ▸ rfl⟩
  | cons x xs ih =>
    rw [List.mapM_cons, except_bind_eq_ok, List.forall₂_cons_left_iff]
    constructor
    · rintro ⟨y, hy, hafter⟩
      obtain ⟨ys', hys', hpure⟩ := except_bind_eq_ok.1 hafter
      exact ⟨y, ys', hy, ih.1 hys', (Except.ok.inj hpure).symm⟩
    · rintro ⟨y, ys', hy, hys', rfl⟩
      exact ⟨y, hy, except_bind_eq_ok.2 ⟨ys', ih.2 hys', rfl⟩⟩

/-- A list is mapped by a partial function exactly if each member is. -/
lemma mapM_eq_some_iff {f : α → Option β} :
    xs.mapM f = some ys ↔ List.Forall₂ (fun x y => f x = some y) xs ys := by
  induction xs generalizing ys with
  | nil => simp [eq_comm]
  | cons x xs ih =>
    simp only [List.mapM_cons, bind, Option.bind_eq_some_iff, pure, Option.some.injEq,
      List.forall₂_cons_left_iff, ih]
    constructor
    · rintro ⟨y, hy, rest, hrest, rfl⟩
      exact ⟨y, rest, hy, hrest, rfl⟩
    · rintro ⟨y, rest, hy, hrest, rfl⟩
      exact ⟨y, hy, rest, hrest, rfl⟩

/-- If all elements have results, the list has them. -/
lemma exists_mapM (h : ∀ x ∈ xs, ∃ y, f x = .ok y) : ∃ ys, xs.mapM f = .ok ys := by
  obtain ⟨ys, hys⟩ := exists_forall₂ h
  exact ⟨ys, mapM_eq_ok.2 hys⟩

/-- If every element of a list is mapped to a result, the results are those of the elements. -/
lemma exists_of_mem_mapM (h : xs.mapM f = .ok ys) {x : α} (hx : x ∈ xs) : ∃ y ∈ ys, f x = .ok y :=
  exists_mem_of_forall₂ (mapM_eq_ok.1 h) hx

/-- Results from which the elements can be read off are as many as these, and in their order. -/
lemma map_of_mapM {g : β → α} (h : xs.mapM f = .ok ys) (hg : ∀ x y, f x = .ok y → g y = x) :
    ys.map g = xs := by
  have hread : List.Forall₂ (fun x y => x = g y) xs ys :=
    (mapM_eq_ok.1 h).imp fun x y hxy => (hg x y hxy).symm
  have hsame : List.Forall₂ Eq xs (ys.map g) := List.forall₂_map_right_iff.2 hread
  rw [List.forall₂_eq_eq_eq] at hsame
  exact hsame.symm

end Mapped

end SymbolicScript
