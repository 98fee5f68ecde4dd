import SymbolicScript.Proofs.GroundedItems
import SymbolicScript.Proofs.HeapCopy

/-!
# Deep copies of grounded items

A deep copy recurses with fuel, and it fails where an object is missing.  On a grounded heap neither
happens.  Every level of the recursion begins the copy of a source that has none, the sources are
objects that the heap had at the beginning, and so the number of sources without a copy is a bound
on how deeply copies nest (`Heap.copyObject_succeeds`).  With what `Heap.copyObject_spec` says of
copies that have succeeded, it follows that the copy of a grounded item is grounded in the heap
behind it.
-/

namespace SymbolicScript

namespace Heap

variable {base : Heap} {freeze : Bool} {s s' : CopyState}

/-! ## Copies succeed -/

/-- The number of objects of the base that have no copy. -/
def uncopied (base : Heap) (s : CopyState) : Nat :=
  (List.range base.size).countP fun k => (s.copies.find? k).isNone

lemma uncopied_le_size (base : Heap) (s : CopyState) : base.uncopied s ≤ base.size := by
  unfold uncopied
  exact (List.countP_le_length).trans_eq List.length_range

/-- No source loses its copy. -/
lemma CopyStep.uncopied_le {sources : Nat → Prop} (h : CopyStep base freeze sources s s') :
    base.uncopied s' ≤ base.uncopied s := by
  refine List.countP_mono_left fun k _ hk => ?_
  rw [Option.isNone_iff_eq_none] at hk ⊢
  cases hfind : s.copies.find? k with
  | none => rfl
  | some copy =>
    rw [h.kept k copy hfind] at hk
    cases hk

/-- The source whose copy is begun has none left to be begun. -/
lemma uncopied_insert_lt {source copy : Nat} {heap : Heap} (hsource : source < base.size)
    (hnone : s.copies.find? source = none) :
    base.uncopied ⟨heap, s.copies.insert source copy⟩ < base.uncopied s := by
  refine countP_lt_of_imp (a := source) (fun k hk => ?_) (List.mem_range.2 hsource) ?_ ?_
  · simp only [SortedMap.find?_insert] at hk
    split at hk
    · cases hk
    · exact hk
  · simp only [SortedMap.find?_insert, if_true, Option.isNone_some]
  · simp only [hnone, Option.isNone_none]

/-- Copying elements succeeds if copying sources does. -/
lemma copyItems_succeeds {fuel : Nat}
    (hrec : ∀ {source : Nat} {s : CopyState}, s.Consistent base → source < base.size →
      base.uncopied s < fuel → ∃ y s', copyObject freeze fuel source s = .ok y s')
    {items : List Item} (hnested : ∀ k, NestedIn items k → k < base.size)
    (hs : s.Consistent base) (hfuel : base.uncopied s < fuel) :
    ∃ copied s', copyItems freeze fuel items s = .ok copied s' := by
  induction items generalizing s with
  | nil =>
    rw [copyItems]
    exact ⟨[], s, rfl⟩
  | cons x rest ih =>
    have hrest : ∀ k, NestedIn rest k → k < base.size := by
      rintro k ⟨y, hy, hk⟩
      exact hnested k ⟨y, List.mem_cons_of_mem _ hy, hk⟩
    have hcons : ∀ (y : Item) {s₁ : CopyState}, s₁.Consistent base → base.uncopied s₁ < fuel →
        ∃ copied s', (do return y :: (← copyItems freeze fuel rest)) s₁ = .ok copied s' := by
      intro y s₁ hs₁ hfuel₁
      obtain ⟨ys, s₂, hys⟩ := ih hrest hs₁ hfuel₁
      exact ⟨y :: ys, s₂, by rw [bind_of_ok hys]; rfl⟩
    rw [copyItems]
    cases hx : x.structHandle? with
    | none => exact hcons x hs hfuel
    | some nested =>
      obtain ⟨y, s₁, hy⟩ := hrec hs (hnested nested ⟨x, List.mem_cons_self, hx⟩) hfuel
      obtain ⟨hs₁, hstep, -⟩ := copyObject_spec hs hy
      simp only
      rw [bind_of_ok hy]
      exact hcons y hs₁ (Nat.lt_of_le_of_lt hstep.uncopied_le hfuel)

/-- The copied elements can be stored in the copy that has been allocated for them. -/
lemma storeCopied_succeeds {copy : Nat} {kind : CompoundKind} {old copied : List Item}
    (hcopy : s.heap.objects[copy]? = some (.compound kind old false)) (result : Item) :
    ∃ y s', (do
      onHeap (·.modifyItems copy fun _ => .ok copied)
      if freeze then onHeap (Heap.freeze · copy)
      return result : Copying Item) s = .ok y s' := by
  have hmodify : s.heap.modifyItems copy (fun _ => .ok copied) =
      .ok (s.heap.put copy (.compound kind copied false)) :=
    modifyItems_eq_ok.2 ⟨kind, old, copied, hcopy, rfl, rfl⟩
  have hput : (s.heap.put copy (.compound kind copied false)).objects[copy]? =
      some (.compound kind copied false) := getElem?_put_self (lt_size_of_object hcopy)
  rw [bind_of_ok (onHeap_eq_ok.2 ⟨_, hmodify, rfl⟩)]
  cases freeze with
  | false => exact ⟨result, _, rfl⟩
  | true =>
    have hfreeze := freeze_eq_ok.2 ⟨_, hput, rfl⟩
    exact ⟨result, _, bind_of_ok (onHeap_eq_ok.2 ⟨_, hfreeze, rfl⟩)⟩

/-- Copying an object of the base succeeds if the structs inside of objects of the base are objects
of the base, with fuel for every source that has no copy yet. -/
theorem copyObject_succeeds (hclosed : base.Closed (· < base.size)) {fuel source : Nat}
    (hs : s.Consistent base) (hsource : source < base.size) (hfuel : base.uncopied s < fuel) :
    ∃ y s', copyObject freeze fuel source s = .ok y s' := by
  induction fuel generalizing source s with
  | zero => cases hfuel
  | succ fuel ih =>
    have hget : (get : Copying CopyState) s = .ok s s := rfl
    rw [copyObject, bind_of_ok hget]
    cases hfind : s.copies.find? source with
    | some copy =>
      have hlt : copy < s.heap.size := (hs.fresh source copy hfind).2
      have hobject : s.heap.objects[copy]? = some s.heap.objects[copy] :=
        Array.getElem?_eq_getElem hlt
      have hitem : s.heap.itemFor copy = .ok (s.heap.objects[copy].item copy) :=
        except_bind_eq_ok.2 ⟨_, object_eq_ok.2 hobject, rfl⟩
      exact ⟨_, s, lookUp_eq_ok.2 ⟨hitem, rfl⟩⟩
    | none =>
      have hbase : base.objects[source]? = some base.objects[source] :=
        Array.getElem?_eq_getElem hsource
      have hobject := (hs.old source hsource).trans hbase
      simp only
      rw [bind_of_ok (lookUp_eq_ok.2 ⟨object_eq_ok.2 hobject, rfl⟩)]
      cases hcompound : base.objects[source] with
      | buffer bytes => exact ⟨_, s, rfl⟩
      | compound kind items readOnly =>
        rw [hcompound] at hbase hobject
        have hnested : ∀ k, NestedIn items k → k < base.size := by
          rintro k ⟨x, hx, hk⟩
          exact (hclosed source hsource).2 kind items readOnly hbase x hx k hk
        have hbegun := hs.begin hfind hobject
        have hbegin : beginCopy source kind s = .ok s.heap.size
            { heap := s.heap.add (.compound kind [] false),
              copies := s.copies.insert source s.heap.size } := rfl
        -- The source has a copy from now on, before its elements are copied: this is what lets the
        -- recursion end on cycles.
        have hfewer : base.uncopied
            ⟨s.heap.add (.compound kind [] false), s.copies.insert source s.heap.size⟩ < fuel :=
          Nat.lt_of_lt_of_le (uncopied_insert_lt hsource hfind) (Nat.le_of_lt_succ hfuel)
        obtain ⟨copied, t, hitems⟩ := copyItems_succeeds ih hnested hbegun hfewer
        obtain ⟨-, hstep, -⟩ := copyItems_spec copyObject_spec hbegun hitems
        have hcopy : t.heap.objects[s.heap.size]? = some (.compound kind [] false) := by
          rw [hstep.unchanged s.heap.size (by simp), getElem?_add, if_pos rfl]
        simp only
        rw [bind_of_ok hbegin, bind_of_ok hitems]
        exact storeCopied_succeeds hcopy _

/-- The deep copy of a struct succeeds where the structs inside of objects are objects.  The fuel
suffices, since there are no more sources than objects. -/
theorem deepCopy_succeeds (freeze : Bool) (hclosed : base.Closed (· < base.size)) {x : Item}
    {source : Nat} (hx : x.structHandle? = some source) (hsource : source < base.size) :
    ∃ y s, deepCopy freeze x ⟨base, .empty⟩ = .ok y s ∧ s.Consistent base ∧
      CopyStep base freeze (· = source) ⟨base, .empty⟩ s ∧ CopyOf base s.copies source y := by
  have hfuel : base.uncopied ⟨base, .empty⟩ < base.copyFuel :=
    Nat.lt_of_le_of_lt (base.uncopied_le_size _) (by unfold copyFuel Limits.word; omega)
  have hcopies : ∃ y s, copyObject freeze base.copyFuel source ⟨base, .empty⟩ = .ok y s :=
    copyObject_succeeds hclosed (consistent_start base) hsource hfuel
  obtain ⟨y, s, hcopy⟩ := hcopies
  obtain ⟨hs, hstep, hy⟩ := copyObject_spec (consistent_start base) hcopy
  refine ⟨y, s, ?_, hs, hstep, hy hsource⟩
  unfold deepCopy
  rw [Item.structHandle?_eq_some.1 hx]
  exact hcopy

/-! ## Copies are grounded -/

variable {g : Ground}

/-- The structs inside of objects of a grounded heap are objects of the heap. -/
lemma Grounded.closed (h : base.Grounded g) : base.Closed (· < base.size) := by
  refine fun k hk => ⟨hk, fun kind items readOnly hobject x hx nested hnested => ?_⟩
  have hx' : x.Grounded g := h.elements k _ hobject x hx
  obtain ⟨object, hfound, -⟩ := h.object_of_type (hx'.type?_of_struct hnested)
  exact lt_size_of_object hfound

/-- Copying lets the heap grow. -/
lemma Grounded.le_of_consistent (h : base.Grounded g) (hs : s.Consistent base) :
    g ≤ { g with type? := s.heap.type? } := by
  refine ⟨rfl, fun handle type htype => ?_⟩
  obtain ⟨object, hobject, htype⟩ := h.object_of_type htype
  exact type?_eq_some.2
    ⟨object, (hs.old handle (lt_size_of_object hobject)).trans hobject, htype⟩

/-- The item of a copy refers to the copy. -/
lemma CopyOf.grounded {source : Nat} {y : Item} (h : CopyOf base s.copies source y)
    (hs : s.Consistent base) : y.Grounded { g with type? := s.heap.type? } := by
  cases h with
  | buffer hsource =>
    exact .buffer (type?_eq_some.2
      ⟨_, (hs.old source (lt_size_of_object hsource)).trans hsource, rfl⟩)
  | compound hsource hcopy =>
    obtain ⟨kind, items, readOnly, copied, frozen, hsource', hobject⟩ :=
      hs.kind _ _ hcopy (lt_size_of_object hsource)
    rw [hsource] at hsource'
    cases hsource'
    exact .compound (type?_eq_some.2 ⟨_, hobject, rfl⟩)

/-- A copied element of a grounded compound is grounded. -/
lemma CopiedAs.grounded {x y : Item} (h : CopiedAs base s.copies x y) (hbase : base.Grounded g)
    (hs : s.Consistent base) (hx : x.Grounded g) : y.Grounded { g with type? := s.heap.type? } := by
  unfold CopiedAs at h
  cases hnested : x.structHandle? with
  | none =>
    simp only [hnested] at h
    rw [h]
    exact hx.mono (hbase.le_of_consistent hs)
  | some nested =>
    simp only [hnested] at h
    obtain ⟨object, hobject, -⟩ := hbase.object_of_type (hx.type?_of_struct hnested)
    exact (h (lt_size_of_object hobject)).grounded hs

/-- The heap behind a copy is grounded: its objects are old ones and copies of old ones. -/
lemma Grounded.copied (h : base.Grounded g) {source : Nat} (hsource : source < base.size)
    (hs : s.Consistent base) (hstep : CopyStep base freeze (· = source) ⟨base, .empty⟩ s) :
    s.heap.Grounded { g with type? := s.heap.type? } := by
  refine ⟨rfl, fun k object hobject => ?_⟩
  by_cases hold : k < base.size
  · have hle := h.le_of_consistent hs
    rw [hs.old k hold] at hobject
    exact h.elements.imp (fun _ hx => hx.mono hle) k object hobject
  · obtain ⟨original, hcopy⟩ := hs.onto k (Nat.le_of_not_lt hold) (lt_size_of_object hobject)
    have hinside : original < base.size := by
      refine hstep.within (· < base.size) h.closed ?_ original k rfl hcopy
      rintro _ rfl
      exact hsource
    obtain ⟨kind, items, readOnly, -, -, horiginal, -⟩ := hs.kind original k hcopy hinside
    obtain ⟨elements, hcopied, helements⟩ :=
      hstep.finished original k rfl hcopy kind items readOnly horiginal
    rw [hcopied] at hobject
    cases hobject
    intro y hy
    obtain ⟨index, hlt, rfl⟩ := List.getElem_of_mem hy
    have hlength : items.length = elements.length := helements.length_eq
    have helement := (List.forall₂_iff_get.1 helements).2 index (by omega) hlt
    exact helement.grounded h hs (h.elements original _ horiginal _ (List.getElem_mem (by omega)))

/-- What is stored when a grounded item is put into a compound can be made, and is grounded. -/
theorem Grounded.cloneStruct {heap : Heap} (h : heap.Grounded g) {x : Item} (hx : x.Grounded g) :
    ∃ y heap', heap.cloneStruct x = (.ok y, heap') ∧ Produces g (y, heap') := by
  unfold Heap.cloneStruct
  cases hstruct : x.structHandle? with
  | none => exact ⟨x, heap, rfl, g, le_rfl, hx, h⟩
  | some source =>
    obtain ⟨object, hobject, -⟩ := h.object_of_type (hx.type?_of_struct hstruct)
    have hsource := lt_size_of_object hobject
    have hcopies := deepCopy_succeeds false h.closed hstruct hsource
    obtain ⟨y, s, hcopy, hs, hstep, hy⟩ := hcopies
    have hdeep : (deepCopy false x).run ⟨heap, .empty⟩ = .ok y s := hcopy
    simp only [hdeep]
    exact ⟨y, s.heap, rfl, _, h.le_of_consistent hs, hy.grounded hs, h.copied hsource hs hstep⟩

end Heap

end SymbolicScript
