import Mathlib.Data.List.Forall2
import SymbolicScript.Heap.Copy
import SymbolicScript.Proofs.HeapAccess

/-!
# What a deep copy is

A deep copy works on a heap of which the objects present at its beginning, the `base`, do not
change.  It allocates one copy for every source that it meets and remembers which is the copy of
which (`CopyState.Consistent`).  Once copying a source or a list of elements has succeeded, every
source met on the way is finished: its copy has the copied elements of the source
(`CopyStep.finished`), where elements that are no structs are their own copies (`CopiedAs`).

The specification is stated for the recursion as it is.  It does not say in which order sources are
copied, and so it describes two copies of related sources equally well if one of them meets more
sources than the other, and meets them in another order.
-/

namespace SymbolicScript

namespace Heap

/-! ## Copies of objects and elements -/

/-- The items that refer to the copy of an object of the base: buffers are their own copies. -/
inductive CopyOf (base : Heap) (copies : SortedMap Nat Nat) (source : Nat) : Item → Prop
  /-- A buffer stays shared. -/
  | buffer {bytes : Bytes} (hsource : base.objects[source]? = some (.buffer bytes)) :
    CopyOf base copies source (.buffer source)
  /-- A compound has a copy of its own. -/
  | compound {kind : CompoundKind} {items : List Item} {readOnly : Bool} {copy : Nat}
    (hsource : base.objects[source]? = some (.compound kind items readOnly))
    (hcopy : copies.find? source = some copy) : CopyOf base copies source (kind.item copy)

/-- How an element of a copy comes from the element of the source.  Nothing is said about structs
that the base does not have. -/
def CopiedAs (base : Heap) (copies : SortedMap Nat Nat) (x y : Item) : Prop :=
  match x.structHandle? with
  | none => y = x
  | some source => source < base.size → CopyOf base copies source y

/-- The copy of a source is finished if it has the copied elements of the source. -/
def CopyState.Finished (base : Heap) (freeze : Bool) (s : CopyState) (source copy : Nat) : Prop :=
  ∀ kind items readOnly, base.objects[source]? = some (.compound kind items readOnly) →
    ∃ copied, s.heap.objects[copy]? = some (.compound kind copied freeze) ∧
      List.Forall₂ (CopiedAs base s.copies) items copied

/-- The state of copying makes sense: the base is as it was, and the objects allocated since are
exactly the copies, one for every source. -/
structure CopyState.Consistent (base : Heap) (s : CopyState) : Prop where
  /-- Nothing has been removed. -/
  size : base.size ≤ s.heap.size
  /-- The base has not changed. -/
  old : ∀ k < base.size, s.heap.objects[k]? = base.objects[k]?
  /-- Copies are objects allocated since. -/
  fresh : ∀ source copy, s.copies.find? source = some copy →
    base.size ≤ copy ∧ copy < s.heap.size
  /-- Different sources have different copies. -/
  injective : ∀ source source' copy, s.copies.find? source = some copy →
    s.copies.find? source' = some copy → source = source'
  /-- Every object allocated since is a copy. -/
  onto : ∀ copy, base.size ≤ copy → copy < s.heap.size →
    ∃ source, s.copies.find? source = some copy
  /-- Only compounds have copies, and these are of the same kind. -/
  kind : ∀ source copy, s.copies.find? source = some copy → source < base.size →
    ∃ kind items readOnly copied frozen,
      base.objects[source]? = some (.compound kind items readOnly) ∧
        s.heap.objects[copy]? = some (.compound kind copied frozen)

/-- A set of handles of the base that contains the structs inside its compounds. -/
def Closed (base : Heap) (P : Nat → Prop) : Prop :=
  ∀ k, P k → k < base.size ∧
    ∀ kind items readOnly, base.objects[k]? = some (.compound kind items readOnly) →
      ∀ x ∈ items, ∀ nested, x.structHandle? = some nested → P nested

/-- What a stretch of copying does that begins with the given sources. -/
structure CopyStep (base : Heap) (freeze : Bool) (sources : Nat → Prop) (s s' : CopyState) :
    Prop where
  /-- Copies stay copies. -/
  kept : ∀ source copy, s.copies.find? source = some copy → s'.copies.find? source = some copy
  /-- Nothing is removed. -/
  size : s.heap.size ≤ s'.heap.size
  /-- The objects that were there do not change. -/
  unchanged : ∀ k < s.heap.size, s'.heap.objects[k]? = s.heap.objects[k]?
  /-- The new copies are finished. -/
  finished : ∀ source copy, s.copies.find? source = none → s'.copies.find? source = some copy →
    s'.Finished base freeze source copy
  /-- New copies are made only of what the sources lead to. -/
  within : ∀ P : Nat → Prop, base.Closed P → (∀ k, sources k → P k) →
    ∀ source copy, s.copies.find? source = none → s'.copies.find? source = some copy → P source

variable {base : Heap} {freeze : Bool} {s s' s'' : CopyState} {sources sources' : Nat → Prop}

/-- An item that refers to a copy goes on doing so when more copies are made. -/
lemma CopyOf.mono {copies copies' : SortedMap Nat Nat} {source : Nat} {y : Item}
    (h : CopyOf base copies source y)
    (hkept : ∀ source copy, copies.find? source = some copy → copies'.find? source = some copy) :
    CopyOf base copies' source y := by
  cases h with
  | buffer hsource => exact .buffer hsource
  | compound hsource hcopy => exact .compound hsource (hkept _ _ hcopy)

/-- A copied element stays one when more copies are made. -/
lemma CopiedAs.mono {copies copies' : SortedMap Nat Nat} {x y : Item}
    (h : CopiedAs base copies x y)
    (hkept : ∀ source copy, copies.find? source = some copy → copies'.find? source = some copy) :
    CopiedAs base copies' x y := by
  unfold CopiedAs at h ⊢
  cases hx : x.structHandle? with
  | none => simpa only [hx] using h
  | some source =>
    simp only [hx] at h ⊢
    exact fun hlt => (h hlt).mono hkept

namespace CopyStep

/-- Doing nothing is a stretch of copying. -/
lemma refl (s : CopyState) : CopyStep base freeze sources s s where
  kept _ _ h := h
  size := Nat.le_refl _
  unchanged _ _ := rfl
  finished _ _ hnone hsome := by
    rw [hnone] at hsome
    cases hsome
  within _ _ _ _ _ hnone hsome := by
    rw [hnone] at hsome
    cases hsome

/-- More sources may be named. -/
lemma mono (h : CopyStep base freeze sources s s') (hle : ∀ k, sources k → sources' k) :
    CopyStep base freeze sources' s s' :=
  { h with within := fun P hclosed hP => h.within P hclosed fun k hk => hP k (hle k hk) }

/-- A finished copy stays finished. -/
lemma finished_mono {source copy : Nat} (h : CopyStep base freeze sources s s')
    (hcopy : copy < s.heap.size) (hfinished : s.Finished base freeze source copy) :
    s'.Finished base freeze source copy := by
  intro kind items readOnly hsource
  obtain ⟨copied, hobject, hitems⟩ := hfinished kind items readOnly hsource
  exact ⟨copied, (h.unchanged copy hcopy).trans hobject, hitems.imp fun _ _ hxy => hxy.mono h.kept⟩

/-- Stretches of copying follow each other. -/
lemma trans (hs : CopyStep base freeze sources s s') (hs' : CopyStep base freeze sources s' s'')
    (hconsistent : s'.Consistent base) : CopyStep base freeze sources s s'' where
  kept source copy h := hs'.kept _ _ (hs.kept _ _ h)
  size := Nat.le_trans hs.size hs'.size
  unchanged k hk := (hs'.unchanged k (Nat.lt_of_lt_of_le hk hs.size)).trans (hs.unchanged k hk)
  finished source copy hnone hsome := by
    cases hmid : s'.copies.find? source with
    | none => exact hs'.finished _ _ hmid hsome
    | some copy' =>
      have heq : copy' = copy := by
        rw [hs'.kept _ _ hmid] at hsome
        exact Option.some.inj hsome
      subst heq
      exact hs'.finished_mono (hconsistent.fresh _ _ hmid).2 (hs.finished _ _ hnone hmid)
  within P hclosed hP source copy hnone hsome := by
    cases hmid : s'.copies.find? source with
    | none => exact hs'.within P hclosed hP _ _ hmid hsome
    | some copy' => exact hs.within P hclosed hP _ _ hnone hmid

end CopyStep

/-! ## The steps of the recursion -/

/-- Looking something up succeeds where it is found, and changes nothing. -/
lemma lookUp_eq_ok {α : Type} {find : Heap → Except ExecutionError α} {a : α} :
    lookUp find s = .ok a s' ↔ find s.heap = .ok a ∧ s = s' := by
  unfold lookUp
  cases find s.heap <;> simp

/-- Working on the heap succeeds where the change does, and keeps the copies. -/
lemma onHeap_eq_ok {change : Heap → Except ExecutionError Heap} :
    onHeap change s = .ok () s' ↔ ∃ heap, change s.heap = .ok heap ∧ s' = { s with heap } := by
  unfold onHeap
  cases change s.heap <;> simp [eq_comm]

/-- Allocating the copy of a source keeps the state consistent. -/
lemma CopyState.Consistent.begin (h : s.Consistent base) {source : Nat} {kind : CompoundKind}
    {items : List Item} {readOnly : Bool} (hnone : s.copies.find? source = none)
    (hsource : s.heap.objects[source]? = some (.compound kind items readOnly)) :
    CopyState.Consistent base
      { heap := s.heap.add (.compound kind [] false),
        copies := s.copies.insert source s.heap.size } := by
  have hsize := h.size
  refine ⟨?_, ?_, ?_, ?_, ?_, ?_⟩
  · simp only [size_add]
    omega
  · -- objects of the base
    intro k hk
    rw [getElem?_add_of_lt (by omega), h.old k hk]
  · -- copies lie behind the base
    intro source' copy hcopy
    simp only [SortedMap.find?_insert, size_add] at hcopy ⊢
    split at hcopy
    · cases hcopy
      omega
    · have hfresh := h.fresh _ _ hcopy
      omega
  · -- no two sources share a copy, since the new one is behind all others
    intro source₁ source₂ copy h₁ h₂
    simp only [SortedMap.find?_insert] at h₁ h₂
    split at h₁ <;> split at h₂
    · next heq₁ heq₂ => rw [heq₁, heq₂]
    · cases h₁
      exact absurd (h.fresh _ _ h₂).2 (Nat.lt_irrefl _)
    · cases h₂
      exact absurd (h.fresh _ _ h₁).2 (Nat.lt_irrefl _)
    · exact h.injective _ _ _ h₁ h₂
  · -- every object behind the base is a copy
    intro copy hle hlt
    simp only [size_add] at hlt
    simp only [SortedMap.find?_insert]
    by_cases heq : copy = s.heap.size
    · exact ⟨source, by simp [heq]⟩
    · obtain ⟨source', hsource'⟩ := h.onto copy hle (by omega)
      refine ⟨source', ?_⟩
      rw [if_neg, hsource']
      rintro rfl
      rw [hnone] at hsource'
      cases hsource'
  · -- copies have the kinds of their sources
    intro source' copy hcopy hlt
    simp only [SortedMap.find?_insert] at hcopy
    split at hcopy
    · next heq =>
      cases hcopy
      subst heq
      rw [h.old _ hlt] at hsource
      exact ⟨kind, items, readOnly, [], false, hsource, by rw [getElem?_add, if_pos rfl]⟩
    · obtain ⟨kind', items', readOnly', copied, frozen, hsource', hobject⟩ :=
        h.kind _ _ hcopy hlt
      refine ⟨kind', items', readOnly', copied, frozen, hsource', ?_⟩
      rw [getElem?_add_of_lt (h.fresh _ _ hcopy).2, hobject]

/-- What the recursion does with one source: it uses the copy that there is, shares a buffer, or
copies the elements of a compound and stores them in the copy. -/
inductive CopyCase (freeze : Bool) (fuel source : Nat) (s : CopyState) : Item → CopyState → Prop
  /-- The source has a copy. -/
  | known {copy : Nat} {object : HeapObject} (hcopy : s.copies.find? source = some copy)
    (hobject : s.heap.objects[copy]? = some object) :
    CopyCase freeze fuel source s (object.item copy) s
  /-- The source is a buffer. -/
  | buffer {bytes : Bytes} (hnone : s.copies.find? source = none)
    (hobject : s.heap.objects[source]? = some (.buffer bytes)) :
    CopyCase freeze fuel source s (.buffer source) s
  /-- The source is a compound. -/
  | compound {kind kind' : CompoundKind} {items old copied : List Item} {readOnly : Bool}
    {t : CopyState} (hnone : s.copies.find? source = none)
    (hobject : s.heap.objects[source]? = some (.compound kind items readOnly))
    (hitems : copyItems freeze fuel items
      { heap := s.heap.add (.compound kind [] false),
        copies := s.copies.insert source s.heap.size } = .ok copied t)
    (hcopy : t.heap.objects[s.heap.size]? = some (.compound kind' old false)) :
    CopyCase freeze fuel source s (kind.item s.heap.size)
      { t with heap := t.heap.put s.heap.size (.compound kind' copied freeze) }

lemma put_put (heap : Heap) (handle : Nat) (a b : HeapObject) :
    (heap.put handle a).put handle b = heap.put handle b := by
  simp [put]

/-- A copy that succeeds is one of the cases. -/
lemma copyObject_cases {fuel source : Nat} {y : Item}
    (h : copyObject freeze (fuel + 1) source s = .ok y s') :
    CopyCase freeze fuel source s y s' := by
  rw [copyObject] at h
  obtain ⟨s₀, s₁, hget, hafterGet⟩ := bind_eq_ok.1 h
  cases hget
  cases hfind : s.copies.find? source with
  | some copy =>
    simp only [hfind] at hafterGet
    obtain ⟨hitem, rfl⟩ := lookUp_eq_ok.1 hafterGet
    obtain ⟨object, hobject, hy⟩ := except_bind_eq_ok.1 hitem
    cases hy
    exact .known hfind (object_eq_ok.1 hobject)
  | none =>
    simp only [hfind] at hafterGet
    obtain ⟨object, s₁, hlookUp, hcopy⟩ := bind_eq_ok.1 hafterGet
    obtain ⟨hobject, rfl⟩ := lookUp_eq_ok.1 hlookUp
    rw [object_eq_ok] at hobject
    cases object with
    | buffer bytes =>
      cases hcopy
      exact .buffer hfind hobject
    | compound kind items readOnly =>
      obtain ⟨copy, s₁, hbegin, hafterBegin⟩ := bind_eq_ok.1 hcopy
      cases hbegin
      obtain ⟨copied, t, hitems, hafterItems⟩ := bind_eq_ok.1 hafterBegin
      obtain ⟨_, t₁, hmodify, hafterModify⟩ := bind_eq_ok.1 hafterItems
      obtain ⟨heap, hheap, rfl⟩ := onHeap_eq_ok.1 hmodify
      obtain ⟨kind', old, _, hold, hchanged, rfl⟩ := modifyItems_eq_ok.1 hheap
      cases hchanged
      cases freeze with
      | false =>
        cases hafterModify
        exact .compound hfind hobject hitems hold
      | true =>
        obtain ⟨_, t₂, hfreeze, hreturn⟩ := bind_eq_ok.1 hafterModify
        cases hreturn
        obtain ⟨heap, hheap, rfl⟩ := onHeap_eq_ok.1 hfreeze
        obtain ⟨object, hput, rfl⟩ := freeze_eq_ok.1 hheap
        -- The elements and the mark are put into the same object, one after the other.
        rw [getElem?_put_self (lt_size_of_object hold)] at hput
        cases hput
        rw [put_put]
        exact .compound hfind hobject hitems hold

/-! ## The specification -/

/-- The structs among some items. -/
def NestedIn (items : List Item) (k : Nat) : Prop :=
  ∃ x ∈ items, x.structHandle? = some k

section Finish

variable {source : Nat} {kind kind' : CompoundKind} {items old copied : List Item}
  {readOnly : Bool} {t : CopyState}

/-- The copy that is allocated for a compound is still as it was allocated when the elements have
been copied. -/
lemma CopyStep.kind_eq (hstep : CopyStep base freeze sources
      { heap := s.heap.add (.compound kind [] false),
        copies := s.copies.insert source s.heap.size } t)
    (hcopy : t.heap.objects[s.heap.size]? = some (.compound kind' old false)) : kind' = kind := by
  rw [hstep.unchanged s.heap.size (by simp), getElem?_add, if_pos rfl] at hcopy
  cases hcopy
  rfl

/-- Storing the copied elements in the copy keeps the state consistent. -/
lemma CopyState.Consistent.finish (hs : s.Consistent base)
    (hobject : s.heap.objects[source]? = some (.compound kind items readOnly))
    (ht : t.Consistent base) (hsource : t.copies.find? source = some s.heap.size) :
    CopyState.Consistent base
      { t with heap := t.heap.put s.heap.size (.compound kind copied freeze) } := by
  have hbase := hs.size
  refine ⟨?_, ?_, ?_, ht.injective, ?_, ?_⟩
  · simp only [size_put]
    exact ht.size
  · intro k hk
    rw [getElem?_put_of_ne (by omega), ht.old k hk]
  · simp only [size_put]
    exact ht.fresh
  · simp only [size_put]
    exact ht.onto
  · intro source' copy hcopy hlt
    by_cases heq : copy = s.heap.size
    · subst heq
      have hsame := ht.injective _ _ _ hcopy hsource
      subst hsame
      rw [hs.old _ hlt] at hobject
      exact ⟨kind, items, readOnly, copied, freeze, hobject,
        getElem?_put_self (ht.fresh _ _ hcopy).2⟩
    · obtain ⟨kind', items', readOnly', copied', frozen, hsource', hobject'⟩ :=
        ht.kind _ _ hcopy hlt
      exact ⟨kind', items', readOnly', copied', frozen, hsource',
        by rw [getElem?_put_of_ne heq, hobject']⟩

/-- Copying a compound is a stretch of copying if copying its elements is one. -/
lemma CopyStep.finish (hs : s.Consistent base) (hnone : s.copies.find? source = none)
    (hobject : s.heap.objects[source]? = some (.compound kind items readOnly))
    (ht : t.Consistent base)
    (hstep : CopyStep base freeze (NestedIn items)
      { heap := s.heap.add (.compound kind [] false),
        copies := s.copies.insert source s.heap.size } t)
    (hitems : List.Forall₂ (CopiedAs base t.copies) items copied) :
    CopyStep base freeze (· = source) s
      { t with heap := t.heap.put s.heap.size (.compound kind copied freeze) } := by
  have hsource : t.copies.find? source = some s.heap.size := hstep.kept _ _ (by
    simp only [SortedMap.find?_insert, if_true])
  have hsize := hstep.size
  simp only [size_add] at hsize
  -- A source other than this one was known before its copy was allocated, or is new since.
  have hinsert : ∀ source', source' ≠ source →
      (s.copies.insert source s.heap.size).find? source' = s.copies.find? source' := by
    intro source' hne
    rw [SortedMap.find?_insert, if_neg hne]
  refine ⟨?_, ?_, ?_, ?_, ?_⟩
  · intro source' copy hcopy
    have hne : source' ≠ source := by
      rintro rfl
      rw [hnone] at hcopy
      cases hcopy
    exact hstep.kept _ _ ((hinsert _ hne).trans hcopy)
  · simp only [size_put]
    omega
  · intro k hk
    rw [getElem?_put_of_ne (by omega), hstep.unchanged k (by simp; omega), getElem?_add_of_lt hk]
  · intro source' copy hnone' hcopy
    by_cases heq : source' = source
    · subst heq
      rw [hsource] at hcopy
      cases hcopy
      intro kind₀ items₀ readOnly₀ hsource'
      rw [← hs.old _ (lt_size_of_object hsource'), hobject] at hsource'
      cases hsource'
      exact ⟨copied, getElem?_put_self (by omega), hitems⟩
    · intro kind₀ items₀ readOnly₀ hsource'
      obtain ⟨copied', hobject', hitems'⟩ :=
        hstep.finished _ _ ((hinsert _ heq).trans hnone') hcopy _ _ _ hsource'
      have hne : copy ≠ s.heap.size := by
        rintro rfl
        exact heq (ht.injective _ _ _ hcopy hsource)
      exact ⟨copied', by rw [getElem?_put_of_ne hne, hobject'], hitems'⟩
  · intro P hclosed hP source' copy hnone' hcopy
    by_cases heq : source' = source
    · exact hP _ heq
    · refine hstep.within P hclosed ?_ _ _ ((hinsert _ heq).trans hnone') hcopy
      rintro k ⟨x, hx, hnested⟩
      obtain ⟨hlt, helements⟩ := hclosed source (hP source rfl)
      exact helements _ _ _ ((hs.old _ hlt).symm.trans hobject) x hx k hnested

end Finish

/-- What copying one source does, given what copying a list of elements does with less fuel. -/
lemma copyObject_succ_spec {fuel : Nat}
    (hrec : ∀ {items copied : List Item} {s s' : CopyState}, s.Consistent base →
      copyItems freeze fuel items s = .ok copied s' →
      s'.Consistent base ∧ CopyStep base freeze (NestedIn items) s s' ∧
        List.Forall₂ (CopiedAs base s'.copies) items copied)
    {source : Nat} {y : Item} (hs : s.Consistent base)
    (h : copyObject freeze (fuel + 1) source s = .ok y s') :
    s'.Consistent base ∧ CopyStep base freeze (· = source) s s' ∧
      (source < base.size → CopyOf base s'.copies source y) := by
  cases copyObject_cases h with
  | known hcopy hobject =>
    refine ⟨hs, .refl s, fun hlt => ?_⟩
    obtain ⟨kind, items, readOnly, copied, frozen, hsource, hcompound⟩ := hs.kind _ _ hcopy hlt
    rw [hcompound] at hobject
    cases hobject
    exact .compound hsource hcopy
  | buffer hnone hobject =>
    refine ⟨hs, .refl s, fun hlt => ?_⟩
    rw [hs.old _ hlt] at hobject
    exact .buffer hobject
  | compound hnone hobject hitems hcopy =>
    obtain ⟨ht, hstep, hcopied⟩ := hrec (hs.begin hnone hobject) hitems
    cases hstep.kind_eq hcopy
    have hsource := hstep.kept source s.heap.size (by simp only [SortedMap.find?_insert, if_true])
    refine ⟨hs.finish hobject ht hsource, .finish hs hnone hobject ht hstep hcopied, fun hlt => ?_⟩
    exact .compound ((hs.old _ hlt).symm.trans hobject) hsource

/-- What copying a list of elements does, given what copying one source does with the same fuel. -/
lemma copyItems_spec {fuel : Nat}
    (hrec : ∀ {source : Nat} {y : Item} {s s' : CopyState}, s.Consistent base →
      copyObject freeze fuel source s = .ok y s' →
      s'.Consistent base ∧ CopyStep base freeze (· = source) s s' ∧
        (source < base.size → CopyOf base s'.copies source y))
    {items copied : List Item} (hs : s.Consistent base)
    (h : copyItems freeze fuel items s = .ok copied s') :
    s'.Consistent base ∧ CopyStep base freeze (NestedIn items) s s' ∧
      List.Forall₂ (CopiedAs base s'.copies) items copied := by
  induction items generalizing s copied with
  | nil =>
    rw [copyItems] at h
    cases h
    exact ⟨hs, .refl _, .nil⟩
  | cons x rest ih =>
    rw [copyItems] at h
    -- The first element is copied if it is a struct; in either case the rest is copied after it.
    have hfirst : ∃ y s₁, s₁.Consistent base ∧ CopyStep base freeze (NestedIn (x :: rest)) s s₁ ∧
        CopiedAs base s₁.copies x y ∧
        (do return y :: (← copyItems freeze fuel rest)) s₁ = .ok copied s' := by
      unfold CopiedAs
      cases hnested : x.structHandle? with
      | none =>
        simp only [hnested] at h
        exact ⟨x, s, hs, .refl s, rfl, h⟩
      | some nested =>
        simp only [hnested] at h
        obtain ⟨y, s₁, hx, hafterFirst⟩ := bind_eq_ok.1 h
        obtain ⟨hs₁, hstep, hy⟩ := hrec hs hx
        refine ⟨y, s₁, hs₁, hstep.mono ?_, hy, hafterFirst⟩
        rintro _ rfl
        exact ⟨x, List.mem_cons_self, hnested⟩
    obtain ⟨y, s₁, hs₁, hstep, hy, hafterFirst⟩ := hfirst
    obtain ⟨ys, s₂, hrest, hreturn⟩ := bind_eq_ok.1 hafterFirst
    cases hreturn
    obtain ⟨hs₂, hsteps, hys⟩ := ih hs₁ hrest
    have hsteps : CopyStep base freeze (NestedIn (x :: rest)) s₁ s' := by
      refine hsteps.mono ?_
      rintro k ⟨z, hz, hk⟩
      exact ⟨z, List.mem_cons_of_mem _ hz, hk⟩
    exact ⟨hs₂, hstep.trans hsteps hs₁, .cons (hy.mono hsteps.kept) hys⟩

/-- Copying a source keeps the state consistent, is a stretch of copying, and gives the item of the
copy. -/
theorem copyObject_spec {fuel source : Nat} {y : Item} (hs : s.Consistent base)
    (h : copyObject freeze fuel source s = .ok y s') :
    s'.Consistent base ∧ CopyStep base freeze (· = source) s s' ∧
      (source < base.size → CopyOf base s'.copies source y) := by
  induction fuel generalizing source y s s' with
  | zero =>
    rw [copyObject] at h
    cases h
  | succ fuel ih =>
    exact copyObject_succ_spec (fun hs h => copyItems_spec ih hs h) hs h

/-- Before anything is copied, the state is consistent. -/
lemma consistent_start (base : Heap) : CopyState.Consistent base ⟨base, .empty⟩ where
  size := Nat.le_refl _
  old _ _ := rfl
  fresh _ _ h := by simp at h
  injective _ _ _ h := by simp at h
  onto copy hle hlt := absurd hlt (Nat.not_lt.2 hle)
  kind _ _ h := by simp at h

end Heap

end SymbolicScript
