import SymbolicScript.Proofs.GroundedItems
import SymbolicScript.Proofs.HeapEquality

/-!
# When structs are equal

Two structs are compared field by field, and nested structs with them.  Which items meet in such a
comparison is a matter of the heap alone (`Heap.Paired`): the two structs themselves, and the fields
at the same place of two structs that have met, unless these are one and the same or have different
numbers of fields.  The structs are different if items conflict that have met, the answer is open if
none conflict but some are symbolic, and otherwise the structs are equal.

This is what the comparison answers (`Heap.equals_of_valid`), also if structs contain themselves or
share fields, and although it looks at the pairs in a particular order, skips those that it has seen,
and stops at the first conflict.  The exploration and its invariant are those of
`Heap.comparePairs_spec`, which speaks of pairs of handles only.  What is added here are the items.
-/

namespace SymbolicScript

/-- If the item is a known buffer, array or struct, its handle refers to an object of its type. -/
def Item.Valid (heap : Heap) (x : Item) : Prop :=
  ∀ v handle, x.known? = some v → v.handle? = some handle → heap.type? handle = some v.type

/-- There is at most one handle to look at. -/
lemma Item.valid_iff {heap : Heap} {x : Item} :
    x.Valid heap ↔ ∀ v ∈ x.known?, ∀ handle ∈ v.handle?, heap.type? handle = some v.type :=
  ⟨fun h v hv handle hhandle => h v handle hv hhandle,
    fun h v handle hv hhandle => h v hv handle hhandle⟩

instance (heap : Heap) : DecidablePred (Item.Valid heap) :=
  fun _ => decidable_of_iff' _ Item.valid_iff

namespace Heap

variable {heap : Heap} {x y a b : Item} {p q : Nat}

/-! ## Items that meet -/

/-- The pairs of items that meet when two items are compared. -/
inductive Paired (heap : Heap) (x y : Item) : Item → Item → Prop
  /-- The two items themselves. -/
  | start : Paired heap x y x y
  /-- The fields at the same place of two structs. -/
  | field {a b c d : Item} {p q index : Nat} {left right : List Item} (path : Paired heap x y a b)
    (ha : a.known? = some (.struct p)) (hb : b.known? = some (.struct q)) (hne : p ≠ q)
    (hleft : heap.items p = .ok left) (hright : heap.items q = .ok right)
    (hlength : left.length = right.length) (hc : left[index]? = some c)
    (hd : right[index]? = some d) : Paired heap x y c d

/-- Two items that cannot belong to equal structs: two structs that are not the same and have
different numbers of fields, or two known items that are unequal and not both structs. -/
def Conflict (heap : Heap) (a b : Item) : Prop :=
  (∃ p q left right, a.known? = some (.struct p) ∧ b.known? = some (.struct q) ∧ p ≠ q ∧
    heap.items p = .ok left ∧ heap.items q = .ok right ∧ left.length ≠ right.length) ∨
  FieldsDiffer a b

/-- The items that meet are the same, with their sides exchanged, if the compared items are. -/
lemma Paired.symm (h : heap.Paired x y a b) : heap.Paired y x b a := by
  induction h with
  | start => exact .start
  | field _ ha hb hne hleft hright hlength hc hd ih =>
    exact .field ih hb ha hne.symm hright hleft hlength.symm hd hc

/-- Conflicts do not depend on the side either. -/
lemma Conflict.symm (h : heap.Conflict a b) : heap.Conflict b a := by
  rcases h with ⟨p, q, left, right, ha, hb, hne, hleft, hright, hlength⟩ | hdiffer
  · exact .inl ⟨q, p, right, left, hb, ha, hne.symm, hright, hleft, hlength.symm⟩
  · obtain ⟨v, w, ha, hb, hne, hstructs⟩ := hdiffer
    exact .inr ⟨w, v, hb, ha, hne.symm, fun ⟨p, q, hp, hq⟩ => hstructs ⟨q, p, hq, hp⟩⟩

/-! ## Items and handles -/

section Handles

variable (hx : x.known? = some (.struct p)) (hy : y.known? = some (.struct q))
include hx hy

/-- The items that meet are the compared ones, or fields of a pair of structs that is reached. -/
lemma Paired.cases_reached (h : heap.Paired x y a b) :
    (a = x ∧ b = y) ∨ ∃ r s, heap.Reached p q r s ∧ r ≠ s ∧ heap.SameField r s a b := by
  induction h with
  | start => exact .inl ⟨rfl, rfl⟩
  | @field a b c d r s index left right _ ha hb hne hleft hright _ hc hd ih =>
    have hfield : heap.SameField r s c d :=
      ⟨left, right, hleft, hright, List.mem_iff_getElem?.2
        ⟨index, List.getElem?_zip_eq_some.2 ⟨hc, hd⟩⟩⟩
    have hreached : heap.Reached p q r s := by
      rcases ih with ⟨rfl, rfl⟩ | ⟨r', s', hreached, hne', hfield'⟩
      · rw [hx] at ha
        rw [hy] at hb
        cases ha
        cases hb
        exact .start
      · exact .field hreached hne' hfield' ⟨ha, hb⟩
    exact .inr ⟨r, s, hreached, hne, hfield⟩

/-- Structs that meet are reached. -/
lemma Paired.reached {r s : Nat} (h : heap.Paired x y a b) (ha : a.known? = some (.struct r))
    (hb : b.known? = some (.struct s)) : heap.Reached p q r s := by
  rcases h.cases_reached hx hy with ⟨rfl, rfl⟩ | ⟨r', s', hreached, hne, hfield⟩
  · rw [hx] at ha
    rw [hy] at hb
    cases ha
    cases hb
    exact .start
  · exact .field hreached hne hfield ⟨ha, hb⟩

variable (hnone : ∀ a b, heap.Paired x y a b → ¬heap.Conflict a b)
include hnone

/-- As long as nothing conflicts, the structs that are reached meet, and with them their fields. -/
lemma exists_paired {r s : Nat} (h : heap.Reached p q r s) :
    (∃ a b, heap.Paired x y a b ∧ a.known? = some (.struct r) ∧ b.known? = some (.struct s)) ∧
      ∀ c d, r ≠ s → heap.SameField r s c d → heap.Paired x y c d := by
  -- Structs that meet without a conflict have as many fields as each other.
  have hfields : ∀ {r s : Nat} {a b : Item}, heap.Paired x y a b → a.known? = some (.struct r) →
      b.known? = some (.struct s) → ∀ c d, r ≠ s → heap.SameField r s c d →
        heap.Paired x y c d := by
    rintro r s a b hpaired ha hb c d hne ⟨left, right, hleft, hright, hmem⟩
    have hlength : left.length = right.length := by
      by_contra hlength
      exact hnone a b hpaired (.inl ⟨r, s, left, right, ha, hb, hne, hleft, hright, hlength⟩)
    obtain ⟨index, hzip⟩ := List.mem_iff_getElem?.1 hmem
    obtain ⟨hc, hd⟩ := List.getElem?_zip_eq_some.1 hzip
    exact .field hpaired ha hb hne hleft hright hlength hc hd
  induction h with
  | start => exact ⟨⟨x, y, .start, hx, hy⟩, hfields .start hx hy⟩
  | field _ hne hfield hnested ih =>
    have hpaired := ih.2 _ _ hne hfield
    exact ⟨⟨_, _, hpaired, hnested.1, hnested.2⟩, hfields hpaired hnested.1 hnested.2⟩

/-- If nothing conflicts, no pair that is reached differs. -/
lemma not_differ_of_reached {r s : Nat} (h : heap.Reached p q r s) : ¬heap.Differ r s := by
  obtain ⟨⟨a, b, hpaired, ha, hb⟩, hfields⟩ := exists_paired hx hy hnone h
  rintro ⟨hne, ⟨left, right, hleft, hright, hlength⟩ | ⟨c, d, hfield, hdiffer⟩⟩
  · exact hnone a b hpaired (.inl ⟨r, s, left, right, ha, hb, hne, hleft, hright, hlength⟩)
  · exact hnone c d (hfields c d hne hfield) (.inr hdiffer)

omit hnone

/-- Items that conflict and have met come from a pair that differs. -/
lemma exists_differ (h : heap.Paired x y a b) (hconflict : heap.Conflict a b) :
    ∃ r s, heap.Reached p q r s ∧ heap.Differ r s := by
  rcases hconflict with ⟨r, s, left, right, ha, hb, hne, hleft, hright, hlength⟩ | hdiffer
  · exact ⟨r, s, h.reached hx hy ha hb, hne, .inl ⟨left, right, hleft, hright, hlength⟩⟩
  · rcases h.cases_reached hx hy with ⟨rfl, rfl⟩ | ⟨r, s, hreached, hne, hfield⟩
    · -- The compared items are both structs.
      obtain ⟨v, w, hv, hw, -, hstructs⟩ := hdiffer
      rw [hx] at hv
      rw [hy] at hw
      exact absurd ⟨p, q, (Option.some.inj hv).symm, (Option.some.inj hw).symm⟩ hstructs
    · exact ⟨r, s, hreached, hne, .inr ⟨a, b, hfield, hdiffer⟩⟩

/-- A symbolic item that has been met is a field of a pair that is open. -/
lemma exists_open (h : heap.Paired x y a b) (hsymbolic : a.known? = none ∨ b.known? = none) :
    ∃ r s, heap.Reached p q r s ∧ heap.Open r s := by
  rcases h.cases_reached hx hy with ⟨rfl, rfl⟩ | ⟨r, s, hreached, hne, hfield⟩
  · rw [hx, hy] at hsymbolic
    simp at hsymbolic
  · exact ⟨r, s, hreached, hne, a, b, hfield, hsymbolic⟩

end Handles

/-! ## The answer -/

/-- The answer to the comparison of two items in terms of the items that meet in it. -/
structure Answers (heap : Heap) (x y : Item) (answer : Option Bool) : Prop where
  /-- The answer is "different" exactly if there is a conflict. -/
  different : answer = some false ↔ ∃ a b, heap.Paired x y a b ∧ heap.Conflict a b
  /-- The answer is open exactly if there is no conflict but a symbolic item. -/
  uncertain : answer = none ↔ (∀ a b, heap.Paired x y a b → ¬heap.Conflict a b) ∧
    ∃ a b, heap.Paired x y a b ∧ (a.known? = none ∨ b.known? = none)
  /-- The answer is "equal" exactly if there is neither. -/
  equal : answer = some true ↔ ∀ a b, heap.Paired x y a b →
    ¬heap.Conflict a b ∧ a.known? ≠ none ∧ b.known? ≠ none

/-- There is only one such answer. -/
lemma Answers.unique {answer answer' : Option Bool} (h : heap.Answers x y answer)
    (h' : heap.Answers x y answer') : answer = answer' := by
  cases answer with
  | none => exact (h'.uncertain.2 (h.uncertain.1 rfl)).symm
  | some result =>
    cases result with
    | false => exact (h'.different.2 (h.different.1 rfl)).symm
    | true => exact (h'.equal.2 (h.equal.1 rfl)).symm

/-- The answer does not depend on the order of the compared items. -/
lemma Answers.symm {answer : Option Bool} (h : heap.Answers x y answer) :
    heap.Answers y x answer where
  different := h.different.trans
    ⟨fun ⟨a, b, hpaired, hconflict⟩ => ⟨b, a, hpaired.symm, hconflict.symm⟩,
      fun ⟨a, b, hpaired, hconflict⟩ => ⟨b, a, hpaired.symm, hconflict.symm⟩⟩
  uncertain := by
    refine h.uncertain.trans (and_congr ?_ ?_)
    · exact ⟨fun h a b hpaired hconflict => h b a hpaired.symm hconflict.symm,
        fun h a b hpaired hconflict => h b a hpaired.symm hconflict.symm⟩
    · exact ⟨fun ⟨a, b, hpaired, hsymbolic⟩ => ⟨b, a, hpaired.symm, hsymbolic.symm⟩,
        fun ⟨a, b, hpaired, hsymbolic⟩ => ⟨b, a, hpaired.symm, hsymbolic.symm⟩⟩
  equal := by
    refine h.equal.trans ⟨fun h a b hpaired => ?_, fun h a b hpaired => ?_⟩
    · obtain ⟨hconflict, hb, ha⟩ := h b a hpaired.symm
      exact ⟨fun h => hconflict h.symm, ha, hb⟩
    · obtain ⟨hconflict, hb, ha⟩ := h b a hpaired.symm
      exact ⟨fun h => hconflict h.symm, ha, hb⟩

/-- What the exploration of pairs of handles answers is the answer for the items. -/
lemma Answer.answers {answer : Option Bool} (h : heap.Answer p q answer)
    (hx : x.known? = some (.struct p)) (hy : y.known? = some (.struct q)) :
    heap.Answers x y answer := by
  have hdifferent : answer = some false ↔ ∃ a b, heap.Paired x y a b ∧ heap.Conflict a b := by
    rw [h.different]
    constructor
    · rintro ⟨r, s, hreached, hdiffer⟩
      by_contra hnone
      exact not_differ_of_reached hx hy
        (fun a b hpaired hconflict => hnone ⟨a, b, hpaired, hconflict⟩) hreached hdiffer
    · rintro ⟨a, b, hpaired, hconflict⟩
      exact exists_differ hx hy hpaired hconflict
  have hnone : answer ≠ some false → ∀ a b, heap.Paired x y a b → ¬heap.Conflict a b :=
    fun hanswer a b hpaired hconflict => hanswer (hdifferent.2 ⟨a, b, hpaired, hconflict⟩)
  have hopen : answer = none →
      ∃ a b, heap.Paired x y a b ∧ (a.known? = none ∨ b.known? = none) := by
    intro hanswer
    obtain ⟨r, s, hreached, hne, c, d, hfield, hsymbolic⟩ := h.uncertain hanswer
    exact ⟨c, d, (exists_paired hx hy (hnone (by simp [hanswer])) hreached).2 c d hne hfield,
      hsymbolic⟩
  have hcertain : answer = some true → ∀ a b, heap.Paired x y a b →
      ¬(a.known? = none ∨ b.known? = none) := by
    intro hanswer a b hpaired hsymbolic
    obtain ⟨r, s, hreached, hopen⟩ := exists_open hx hy hpaired hsymbolic
    exact h.certain hanswer r s hreached hopen
  -- The three conditions exclude each other, so one direction of each follows from the others.
  refine ⟨hdifferent, ⟨fun hanswer => ⟨hnone (by simp [hanswer]), hopen hanswer⟩, ?_⟩,
    ⟨fun hanswer a b hpaired => ?_, ?_⟩⟩
  · rintro ⟨hsame, a, b, hpaired, hsymbolic⟩
    rcases answer with - | - | -
    · rfl
    · obtain ⟨c, d, hcd, hconflict⟩ := hdifferent.1 rfl
      exact absurd hconflict (hsame c d hcd)
    · exact absurd hsymbolic (hcertain rfl a b hpaired)
  · have hknown := hcertain hanswer a b hpaired
    exact ⟨hnone (by simp [hanswer]) a b hpaired, fun ha => hknown (.inl ha),
      fun hb => hknown (.inr hb)⟩
  · intro hall
    rcases answer with - | - | -
    · obtain ⟨a, b, hpaired, hsymbolic⟩ := hopen rfl
      exact absurd hsymbolic (not_or.2 (hall a b hpaired).2)
    · obtain ⟨a, b, hpaired, hconflict⟩ := hdifferent.1 rfl
      exact absurd hconflict (hall a b hpaired).1
    · rfl

/-- Comparing two structs answers if the elements of all pairs that are reached can be read. -/
theorem equals_of_readable (hx : x.known? = some (.struct p)) (hy : y.known? = some (.struct q))
    (hread : ∀ r s, heap.Reached p q r s →
      (∃ left, heap.items r = .ok left) ∧ ∃ right, heap.items s = .ok right) :
    ∃ answer, heap.equals x y = .ok answer ∧ heap.Answers x y answer := by
  have hstart : Explored heap p q [] false [(p, q)] := explored_start
  obtain ⟨answer, hanswer⟩ := hstart.succeeds hread
  refine ⟨answer, ?_, (comparePairs_spec hanswer).answers hx hy⟩
  unfold Heap.equals
  rw [hx, hy]
  exact hanswer

/-! ## Heaps with valid handles -/

/-- A valid struct has elements. -/
lemma exists_items_of_valid (h : x.Valid heap) (hx : x.known? = some (.struct p)) :
    ∃ items, heap.items p = .ok items := by
  obtain ⟨object, hobject, htype⟩ := type?_eq_some.1 (h _ p hx rfl)
  cases object with
  | buffer bytes => cases htype
  | compound kind items readOnly => exact ⟨items, items_eq_ok.2 ⟨kind, readOnly, hobject⟩⟩

/-- In a heap with valid handles the elements of all pairs that are reached can be read. -/
lemma readable_of_valid (hheap : heap.All (Item.Valid heap)) (hxv : x.Valid heap)
    (hyv : y.Valid heap) (hx : x.known? = some (.struct p)) (hy : y.known? = some (.struct q))
    {r s : Nat} (h : heap.Reached p q r s) :
    (∃ left, heap.items r = .ok left) ∧ ∃ right, heap.items s = .ok right := by
  cases h with
  | start => exact ⟨exists_items_of_valid hxv hx, exists_items_of_valid hyv hy⟩
  | field _ _ hfield hnested =>
    obtain ⟨left, right, hleft, hright, hmem⟩ := hfield
    obtain ⟨hc, hd⟩ := List.of_mem_zip hmem
    exact ⟨exists_items_of_valid (hheap.items hleft _ hc) hnested.1,
      exists_items_of_valid (hheap.items hright _ hd) hnested.2⟩

/-- Structs are compared correctly in every heap with valid handles, also if they contain themselves
or share fields.  The comparison gives an answer, which is "different" exactly if two items meet that
conflict, open exactly if none do but some item is symbolic, and "equal" otherwise; and the answer
stays the same if the two structs are exchanged. -/
theorem equals_of_valid (heap : Heap) (x y : Item) (p q : Nat)
    (hheap : heap.All (Item.Valid heap)) (hxv : x.Valid heap) (hyv : y.Valid heap)
    (hx : x.known? = some (.struct p)) (hy : y.known? = some (.struct q)) :
    ∃ answer, heap.equals x y = .ok answer ∧ heap.Answers x y answer ∧
      heap.equals y x = .ok answer := by
  obtain ⟨answer, hanswer, hspec⟩ :=
    equals_of_readable hx hy fun _ _ => readable_of_valid hheap hxv hyv hx hy
  obtain ⟨answer', hanswer', hspec'⟩ :=
    equals_of_readable hy hx fun _ _ => readable_of_valid hheap hyv hxv hy hx
  have heq : answer' = answer := hspec'.symm.unique hspec
  subst heq
  exact ⟨answer', hanswer, hspec, hanswer'⟩

/-- Two structs that contain each other, with a symbolic field in front and unequal integers behind.
-/
def crossedHeap : Heap :=
  ⟨#[.compound .struct [.stackDepth, .struct 1, .integer 1] false,
    .compound .struct [.integer 0, .struct 0, .integer 2] false]⟩

/-- The structs are different from both sides.  The unequal integers decide, although a symbolic
field is met in front of them. -/
theorem equals_of_valid_crossedHeap :
    crossedHeap.All (Item.Valid crossedHeap) ∧ (Item.struct 0).Valid crossedHeap ∧
      (Item.struct 1).Valid crossedHeap ∧
      crossedHeap.equals (.struct 0) (.struct 1) = .ok (some false) ∧
      crossedHeap.equals (.struct 1) (.struct 0) = .ok (some false) := by
  have hheap : crossedHeap.All (Item.Valid crossedHeap) := by decide
  have hzero : (Item.struct 0).Valid crossedHeap := by decide
  have hone : (Item.struct 1).Valid crossedHeap := by decide
  obtain ⟨answer, hanswer, hspec, hanswer'⟩ :=
    equals_of_valid crossedHeap (.struct 0) (.struct 1) 0 1 hheap hzero hone rfl rfl
  have hleft : [Item.stackDepth, .struct 1, .integer 1][2]? = some (.integer 1) := rfl
  have hpaired : crossedHeap.Paired (.struct 0) (.struct 1) (.integer 1) (.integer 2) :=
    .field .start rfl rfl (by decide) rfl rfl rfl hleft rfl
  have hconflict : crossedHeap.Conflict (.integer 1) (.integer 2) := by
    refine .inr ⟨_, _, rfl, rfl, by simp, ?_⟩
    rintro ⟨p, q, hp, -⟩
    cases hp
  have hfalse : answer = some false := hspec.different.2 ⟨_, _, hpaired, hconflict⟩
  subst hfalse
  exact ⟨hheap, hzero, hone, hanswer, hanswer'⟩

end Heap

end SymbolicScript
