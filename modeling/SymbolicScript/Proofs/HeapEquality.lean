import SymbolicScript.Proofs.HeapAccess

/-!
# What the comparison of structs decides

Comparing two structs explores the pairs of structs that are reached from them by going to the same
field on both sides (`Reached`).  A pair can show a definite difference (`Differ`), or a field that
is symbolic on one side (`Open`).  This file proves that the answer depends on the reached pairs
alone, and not on the order in which they are explored: it is "different" if one of them differs,
"equal" if none differs and none is open, and left open otherwise (`comparePairs_spec`).
-/

namespace SymbolicScript

namespace Heap

/-- Two fields that are both known, are not both structs, and are not the same. -/
def FieldsDiffer (a b : Item) : Prop :=
  ∃ x y, a.known? = some x ∧ b.known? = some y ∧ x ≠ y ∧ ¬∃ p q, x = .struct p ∧ y = .struct q

/-- Two fields that are both structs. -/
def FieldsNested (a b : Item) (p q : Nat) : Prop :=
  a.known? = some (.struct p) ∧ b.known? = some (.struct q)

/-- The fields at the same place of two compounds. -/
def SameField (heap : Heap) (x y : Nat) (a b : Item) : Prop :=
  ∃ left right, heap.items x = .ok left ∧ heap.items y = .ok right ∧ (a, b) ∈ left.zip right

/-- Two structs that show a difference: they have different numbers of fields, or fields that
differ. -/
def Differ (heap : Heap) (x y : Nat) : Prop :=
  x ≠ y ∧ ((∃ left right, heap.items x = .ok left ∧ heap.items y = .ok right ∧
    left.length ≠ right.length) ∨ ∃ a b, heap.SameField x y a b ∧ FieldsDiffer a b)

/-- Two structs that have a field of which one side is symbolic. -/
def Open (heap : Heap) (x y : Nat) : Prop :=
  x ≠ y ∧ ∃ a b, heap.SameField x y a b ∧ (a.known? = none ∨ b.known? = none)

/-- The pairs of structs that are reached from a pair by going to the same field on both sides. -/
inductive Reached (heap : Heap) (x₀ y₀ : Nat) : Nat → Nat → Prop
  /-- A pair is reached from itself. -/
  | start : Reached heap x₀ y₀ x₀ y₀
  /-- From a pair of different structs their nested structs are reached. -/
  | field {x y p q : Nat} {a b : Item} (path : Reached heap x₀ y₀ x y) (hne : x ≠ y)
    (hfield : heap.SameField x y a b) (hnested : FieldsNested a b p q) : Reached heap x₀ y₀ p q

/-! ## Comparing the fields of one pair -/

/-- Two fields are nested structs, the same known item, different, or symbolic on one side. -/
lemma fields_same {a b x : Item} (ha : a.known? = some x) (hb : b.known? = some x)
    (hplain : ∀ p q, x = .struct p → x = .struct q → False) :
    ¬FieldsDiffer a b ∧ (∀ p q, ¬FieldsNested a b p q) ∧ ¬(a.known? = none ∨ b.known? = none) := by
  refine ⟨?_, ?_, ?_⟩
  · rintro ⟨x', y', ha', hb', hne, -⟩
    rw [ha] at ha'
    rw [hb] at hb'
    exact hne (Option.some.inj (ha'.symm.trans hb'))
  · rintro p q ⟨ha', hb'⟩
    rw [ha] at ha'
    rw [hb] at hb'
    exact hplain p q (Option.some.inj ha') (Option.some.inj hb')
  · simp [ha, hb]

/-- If a difference shows, some field differs. -/
lemma compareFields_different {pairs : List (Nat × Nat)} {uncertain : Bool}
    {fields : List (Item × Item)} (h : compareFields pairs uncertain fields = .different) :
    ∃ f ∈ fields, FieldsDiffer f.1 f.2 := by
  fun_induction compareFields pairs uncertain fields with
  | case1 => cases h
  | case2 pairs uncertain a b rest p q hb ha ih => simp [ih h]
  | case3 pairs uncertain a b rest x hb hplain ha ih => simp [ih h]
  | case4 pairs uncertain a b rest x y hnested hb ha hne =>
    exact ⟨(a, b), List.mem_cons_self, x, y, ha, hb, hne, fun ⟨p, q, hx, hy⟩ => hnested p q hx hy⟩
  | case5 pairs uncertain a b rest _ _ ih => simp [ih h]

/-- If no difference shows, no field differs, the nested structs are added to the pairs, and the
symbolic fields are noticed. -/
lemma compareFields_remaining {pairs pairs' : List (Nat × Nat)} {uncertain uncertain' : Bool}
    {fields : List (Item × Item)}
    (h : compareFields pairs uncertain fields = .remaining pairs' uncertain') :
    (∀ f ∈ fields, ¬FieldsDiffer f.1 f.2) ∧
      (∀ p q, (p, q) ∈ pairs' ↔ (p, q) ∈ pairs ∨ ∃ f ∈ fields, FieldsNested f.1 f.2 p q) ∧
      (uncertain' = true ↔
        uncertain = true ∨ ∃ f ∈ fields, f.1.known? = none ∨ f.2.known? = none) := by
  fun_induction compareFields pairs uncertain fields with
  | case1 =>
    cases h
    simp
  | case2 pairs uncertain a b rest p q hb ha ih =>
    obtain ⟨hdiffer, hpairs, huncertain⟩ := ih h
    have hhead : ¬FieldsDiffer a b := by
      rintro ⟨x, y, ha', hb', -, hnot⟩
      rw [ha] at ha'
      rw [hb] at hb'
      exact hnot ⟨p, q, (Option.some.inj ha').symm, (Option.some.inj hb').symm⟩
    refine ⟨List.forall_mem_cons.2 ⟨hhead, hdiffer⟩, fun p' q' => ?_, ?_⟩
    · have hnested : FieldsNested a b p' q' ↔ (p', q') = (p, q) := by
        simp [FieldsNested, ha, hb, eq_comm]
      simp only [hpairs, List.mem_cons, exists_eq_or_imp, hnested]
      rw [or_assoc, or_left_comm]
    · simp [huncertain, ha, hb]
  | case3 pairs uncertain a b rest x hb hplain ha ih =>
    obtain ⟨hdiffer, hpairs, huncertain⟩ := ih h
    obtain ⟨hhead, hnested, hopen⟩ := fields_same ha hb hplain
    refine ⟨List.forall_mem_cons.2 ⟨hhead, hdiffer⟩, fun p' q' => ?_, ?_⟩
    · simp [hpairs, hnested]
    · simp [huncertain, hopen]
  | case4 => cases h
  | case5 pairs uncertain a b rest hnested hknown ih =>
    -- One of the fields is symbolic: it neither differs nor nests, and it is noticed.
    obtain ⟨hdiffer, hpairs, huncertain⟩ := ih h
    have hopen : a.known? = none ∨ b.known? = none := by
      cases ha : a.known? with
      | none => exact .inl rfl
      | some x =>
        cases hb : b.known? with
        | none => exact .inr rfl
        | some y => exact (hknown x y ha hb).elim
    have hhead : ¬FieldsDiffer a b := fun ⟨x, y, ha, hb, _⟩ => hknown x y ha hb
    refine ⟨List.forall_mem_cons.2 ⟨hhead, hdiffer⟩, fun p' q' => ?_, ?_⟩
    · have hnot : ¬FieldsNested a b p' q' := fun ⟨ha, hb⟩ => hnested p' q' ha hb
      simp [hpairs, hnot]
    · simp [huncertain, hopen]

/-! ## Exploring the reached pairs -/

/-- The state of an exploration makes sense: only reached pairs are listed, and what has been seen
is closed up to what is left. -/
structure Explored (heap : Heap) (x₀ y₀ : Nat) (seen : List (Nat × Nat)) (uncertain : Bool)
    (pending : List (Nat × Nat)) : Prop where
  /-- Every pair that has been seen is reached. -/
  reached_seen : ∀ x y, (x, y) ∈ seen → heap.Reached x₀ y₀ x y
  /-- Every pair that is left is reached. -/
  reached_pending : ∀ x y, (x, y) ∈ pending → heap.Reached x₀ y₀ x y
  /-- The first pair has been seen, is left, or need not be compared. -/
  start : (x₀, y₀) ∈ seen ∨ (x₀, y₀) ∈ pending ∨ x₀ = y₀
  /-- No pair that has been seen differs. -/
  same : ∀ x y, (x, y) ∈ seen → ¬heap.Differ x y
  /-- Open pairs have been noticed. -/
  noticed : ∀ x y, (x, y) ∈ seen → heap.Open x y → uncertain = true
  /-- What is reached from a pair that has been seen has been seen, is left, or need not be
  compared. -/
  closed : ∀ x y a b p q, (x, y) ∈ seen → heap.SameField x y a b → FieldsNested a b p q →
    (p, q) ∈ seen ∨ (p, q) ∈ pending ∨ p = q
  /-- Uncertainty comes from an open pair. -/
  source : uncertain = true → ∃ x y, heap.Reached x₀ y₀ x y ∧ heap.Open x y

variable {heap : Heap} {x₀ y₀ : Nat}

/-- When nothing is left, every reached pair has been seen or need not be compared. -/
lemma Explored.complete {seen : List (Nat × Nat)} {uncertain : Bool}
    (h : Explored heap x₀ y₀ seen uncertain []) {x y : Nat} (hxy : heap.Reached x₀ y₀ x y) :
    (x, y) ∈ seen ∨ x = y := by
  induction hxy with
  | start => simpa using h.start
  | field path hne hfield hnested ih =>
    rcases ih with hseen | heq
    · simpa using h.closed _ _ _ _ _ _ hseen hfield hnested
    · exact absurd heq hne

/-- A pair that need not be compared can be dropped. -/
lemma Explored.skip {seen pending : List (Nat × Nat)} {uncertain : Bool} {x y : Nat}
    (h : Explored heap x₀ y₀ seen uncertain ((x, y) :: pending)) (hskip : x = y ∨ (x, y) ∈ seen) :
    Explored heap x₀ y₀ seen uncertain pending := by
  -- Where the dropped pair was meant, it is equal or has been seen.
  have hdrop : ∀ p q, (p, q) ∈ seen ∨ (p, q) ∈ (x, y) :: pending ∨ p = q →
      (p, q) ∈ seen ∨ (p, q) ∈ pending ∨ p = q := by
    intro p q hpq
    rcases hpq with hseen | hpending | heq
    · exact .inl hseen
    · rcases List.mem_cons.1 hpending with hhead | hrest
      · cases hhead
        exact hskip.elim (fun heq => .inr (.inr heq)) .inl
      · exact .inr (.inl hrest)
    · exact .inr (.inr heq)
  exact
    { h with
      reached_pending := fun p q hpq => h.reached_pending p q (List.mem_cons_of_mem _ hpq)
      start := hdrop _ _ h.start
      closed := fun _ _ _ _ _ _ hseen hfield hnested =>
        hdrop _ _ (h.closed _ _ _ _ _ _ hseen hfield hnested) }

/-- The fields at the same place are the pairs of the two lists of elements. -/
lemma sameField_iff {x y : Nat} {left right : List Item} {a b : Item}
    (hx : heap.items x = .ok left) (hy : heap.items y = .ok right) :
    heap.SameField x y a b ↔ (a, b) ∈ left.zip right := by
  constructor
  · rintro ⟨left', right', hx', hy', hmem⟩
    rw [hx] at hx'
    rw [hy] at hy'
    cases hx'
    cases hy'
    exact hmem
  · intro hmem
    exact ⟨left, right, hx, hy, hmem⟩

/-- Comparing the fields of a pair without finding a difference lets the pair be seen. -/
lemma Explored.visit {seen pending pairs : List (Nat × Nat)} {uncertain uncertain' : Bool}
    {x y : Nat} {left right : List Item}
    (h : Explored heap x₀ y₀ seen uncertain ((x, y) :: pending)) (hne : x ≠ y)
    (hx : heap.items x = .ok left) (hy : heap.items y = .ok right)
    (hlength : left.length = right.length)
    (hfields : compareFields pending uncertain (left.zip right) = .remaining pairs uncertain') :
    Explored heap x₀ y₀ ((x, y) :: seen) uncertain' pairs := by
  obtain ⟨hsame, hpairs, huncertain⟩ := compareFields_remaining hfields
  have hreached : heap.Reached x₀ y₀ x y := h.reached_pending x y List.mem_cons_self
  -- A pair that was known before is still known: it is the visited one, or it stays where it was.
  have hmore : ∀ p q, (p, q) ∈ seen ∨ (p, q) ∈ (x, y) :: pending ∨ p = q →
      (p, q) ∈ (x, y) :: seen ∨ (p, q) ∈ pairs ∨ p = q := by
    intro p q hpq
    rcases hpq with hseen | hpending | heq
    · exact .inl (List.mem_cons_of_mem _ hseen)
    · rcases List.mem_cons.1 hpending with hhead | hrest
      · cases hhead
        exact .inl List.mem_cons_self
      · exact .inr (.inl ((hpairs p q).2 (.inl hrest)))
    · exact .inr (.inr heq)
  refine ⟨?_, ?_, hmore _ _ h.start, ?_, ?_, ?_, ?_⟩
  · -- seen pairs are reached
    intro p q hpq
    rcases List.mem_cons.1 hpq with hhead | hseen
    · cases hhead
      exact hreached
    · exact h.reached_seen p q hseen
  · -- pending pairs are reached
    intro p q hpq
    rcases (hpairs p q).1 hpq with hpending | ⟨f, hf, hnested⟩
    · exact h.reached_pending p q (List.mem_cons_of_mem _ hpending)
    · exact .field hreached hne ((sameField_iff hx hy).2 hf) hnested
  · -- seen pairs do not differ
    intro p q hpq
    rcases List.mem_cons.1 hpq with hhead | hseen
    · cases hhead
      rintro ⟨-, ⟨left', right', hx', hy', hlength'⟩ | ⟨a, b, hfield, hdiffer⟩⟩
      · rw [hx] at hx'
        rw [hy] at hy'
        cases hx'
        cases hy'
        exact hlength' hlength
      · exact hsame _ ((sameField_iff hx hy).1 hfield) hdiffer
    · exact h.same p q hseen
  · -- open pairs that have been seen are noticed
    intro p q hpq hopen
    rcases List.mem_cons.1 hpq with hhead | hseen
    · cases hhead
      obtain ⟨-, a, b, hfield, hsymbolic⟩ := hopen
      exact huncertain.2 (.inr ⟨_, (sameField_iff hx hy).1 hfield, hsymbolic⟩)
    · exact huncertain.2 (.inl (h.noticed p q hseen hopen))
  · -- what is nested in seen pairs is known
    intro p q a b p' q' hpq hfield hnested
    rcases List.mem_cons.1 hpq with hhead | hseen
    · cases hhead
      exact .inr (.inl ((hpairs p' q').2
        (.inr ⟨_, (sameField_iff hx hy).1 hfield, hnested⟩)))
    · exact hmore _ _ (h.closed _ _ _ _ _ _ hseen hfield hnested)
  · -- nothing is noticed without an open pair
    intro hopen
    rcases huncertain.1 hopen with hbefore | ⟨f, hf, hsymbolic⟩
    · exact h.source hbefore
    · exact ⟨x, y, hreached, hne, f.1, f.2, (sameField_iff hx hy).2 hf, hsymbolic⟩

/-- What an answer to the comparison of two structs says about the pairs reached from them. -/
structure Answer (heap : Heap) (x₀ y₀ : Nat) (answer : Option Bool) : Prop where
  /-- The structs are different if a reached pair differs. -/
  different : answer = some false ↔ ∃ x y, heap.Reached x₀ y₀ x y ∧ heap.Differ x y
  /-- The answer is left open only if a reached pair is open. -/
  uncertain : answer = none → ∃ x y, heap.Reached x₀ y₀ x y ∧ heap.Open x y
  /-- The structs are equal only if no reached pair is open. -/
  certain : answer = some true → ∀ x y, heap.Reached x₀ y₀ x y → ¬heap.Open x y

/-- An exploration that finds a pair that differs answers that the structs are different. -/
lemma answer_of_differ {x y : Nat} (hreached : heap.Reached x₀ y₀ x y)
    (hdiffer : heap.Differ x y) : Answer heap x₀ y₀ (some false) where
  different := iff_of_true rfl ⟨x, y, hreached, hdiffer⟩
  uncertain h := by cases h
  certain h := by cases h

/-- From a state that makes sense, an exploration gives the answer for all reached pairs. -/
lemma Explored.answer {seen pending : List (Nat × Nat)} {uncertain : Bool}
    {answer : Option Bool} (h : Explored heap x₀ y₀ seen uncertain pending)
    (hanswer : heap.comparePairs seen uncertain pending = .ok answer) :
    Answer heap x₀ y₀ answer := by
  fun_induction comparePairs heap seen uncertain pending with
  | case1 seen uncertain =>
    -- Nothing is pending, so that every reached pair has been seen.
    have hsame : ¬∃ x y, heap.Reached x₀ y₀ x y ∧ heap.Differ x y := by
      rintro ⟨x, y, hreached, hdiffer⟩
      rcases h.complete hreached with hseen | heq
      · exact h.same x y hseen hdiffer
      · exact hdiffer.1 heq
    cases uncertain with
    | true =>
      cases hanswer
      exact ⟨iff_of_false (by simp) hsame, fun _ => h.source rfl, fun hcertain => by cases hcertain⟩
    | false =>
      cases hanswer
      refine ⟨iff_of_false (by simp) hsame, fun hnone => (by cases hnone), ?_⟩
      intro _ x y hreached hopen
      rcases h.complete hreached with hseen | heq
      · cases h.noticed x y hseen hopen
      · exact hopen.1 heq
  | case2 seen uncertain x y pending hskip ih => exact ih (h.skip hskip) hanswer
  | case3 => cases hanswer
  | case4 => cases hanswer
  | case5 seen uncertain x y pending hskip left right hx hy hlength =>
    cases hanswer
    have hne : x ≠ y := fun heq => hskip (.inl heq)
    exact answer_of_differ (h.reached_pending x y List.mem_cons_self)
      ⟨hne, .inl ⟨left, right, hx, hy, hlength⟩⟩
  | case6 seen uncertain x y pending hskip left right hx hy hlength hfields =>
    cases hanswer
    have hne : x ≠ y := fun heq => hskip (.inl heq)
    obtain ⟨f, hf, hdiffer⟩ := compareFields_different hfields
    exact answer_of_differ (h.reached_pending x y List.mem_cons_self)
      ⟨hne, .inr ⟨f.1, f.2, (sameField_iff hx hy).2 hf, hdiffer⟩⟩
  | case7 seen uncertain x y pending hskip left right hx hy hlength pairs uncertain' hfields ih =>
    have hne : x ≠ y := fun heq => hskip (.inl heq)
    exact ih (h.visit hne hx hy (not_not.1 hlength) hfields) hanswer

/-- At the beginning nothing has been seen, and the first pair is left. -/
lemma explored_start : Explored heap x₀ y₀ [] false [(x₀, y₀)] where
  reached_seen := nofun
  reached_pending x y hpending := by
    cases List.mem_singleton.1 hpending
    exact .start
  start := .inr (.inl List.mem_cons_self)
  same := nofun
  noticed := nofun
  closed := nofun
  source := nofun

/-- The comparison of two structs answers for all pairs that are reached from them. -/
theorem comparePairs_spec {answer : Option Bool}
    (h : heap.comparePairs [] false [(x₀, y₀)] = .ok answer) : Answer heap x₀ y₀ answer :=
  explored_start.answer h

/-- An exploration succeeds if the elements of all reached pairs can be read. -/
lemma Explored.succeeds {seen pending : List (Nat × Nat)} {uncertain : Bool}
    (hread : ∀ x y, heap.Reached x₀ y₀ x y →
      (∃ left, heap.items x = .ok left) ∧ ∃ right, heap.items y = .ok right)
    (h : Explored heap x₀ y₀ seen uncertain pending) :
    ∃ answer, heap.comparePairs seen uncertain pending = .ok answer := by
  fun_induction comparePairs heap seen uncertain pending with
  | case1 => exact ⟨_, rfl⟩
  | case2 seen uncertain x y pending hskip ih => exact ih (h.skip hskip)
  | case3 seen uncertain x y pending hskip e hx =>
    obtain ⟨⟨left, hleft⟩, -⟩ := hread x y (h.reached_pending x y List.mem_cons_self)
    rw [hleft] at hx
    cases hx
  | case4 seen uncertain x y pending hskip left hx e hy =>
    obtain ⟨-, right, hright⟩ := hread x y (h.reached_pending x y List.mem_cons_self)
    rw [hright] at hy
    cases hy
  | case5 => exact ⟨_, rfl⟩
  | case6 => exact ⟨_, rfl⟩
  | case7 seen uncertain x y pending hskip left right hx hy hlength pairs uncertain' hfields ih =>
    exact ih (h.visit (fun heq => hskip (.inl heq)) hx hy (not_not.1 hlength) hfields)

end Heap

end SymbolicScript
