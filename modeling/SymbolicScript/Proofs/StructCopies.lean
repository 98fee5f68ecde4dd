import Mathlib.Data.Set.Function
import Mathlib.Order.Interval.Set.Defs
import SymbolicScript.Proofs.GroundedCopies
import SymbolicScript.Proofs.HeapGrowth
import SymbolicScript.Proofs.StructEquality

/-!
# Copies of structs are exact

The structs that a deep copy of a struct has to copy are those that are reached from it through
struct fields (`Heap.StructWithin`), however they refer to each other.  This file proves that the
copy has the same shape (`Heap.StructCopy`): its new structs correspond one to one to the structs of
the source, and each of them has the fields of its source, with structs replaced by their copies.

The correspondence is read off the copies that the recursion remembers.  That every struct of the
source has a copy follows from the copies being finished, and that nothing else has been copied from
the set of sources being closed (`Heap.CopyStep`).  Comparing the copy with the source then leads
from a copy and its source to copies and their sources only, and none of these conflict
(`Heap.StructCopy.paired_iff`).
-/

namespace SymbolicScript

/-- The item with a struct replaced by the struct that its handle is sent to. -/
def Item.redirect (f : Nat → Nat) (x : Item) : Item :=
  match x.structHandle? with
  | some handle => .struct (f handle)
  | none => x

namespace Item

variable {f : Nat → Nat} {x : Item}

lemma redirect_of_struct {handle : Nat} (h : x.structHandle? = some handle) :
    x.redirect f = .struct (f handle) := by
  unfold redirect
  rw [h]

lemma redirect_of_none (h : x.structHandle? = none) : x.redirect f = x := by
  unfold redirect
  rw [h]

/-- What is symbolic stays symbolic, and nothing else becomes so. -/
lemma known?_redirect_eq_none : (x.redirect f).known? = none ↔ x.known? = none := by
  cases hx : x.structHandle? with
  | none => rw [redirect_of_none hx]
  | some handle => simp [redirect_of_struct hx, structHandle?_eq_some.1 hx, known?]

end Item

namespace Heap

/-! ## The structs of a struct -/

/-- The structs that are reached from a struct through struct fields, itself included. -/
inductive StructWithin (heap : Heap) (root : Nat) : Nat → Prop
  /-- The struct itself. -/
  | root : StructWithin heap root root
  /-- A struct in a field. -/
  | field {k nested : Nat} {items : List Item} {x : Item} (path : StructWithin heap root k)
    (hitems : heap.items k = .ok items) (hx : x ∈ items)
    (hnested : x.structHandle? = some nested) : StructWithin heap root nested

/-- A field of the struct, or of one that is reached from it, is symbolic. -/
def SymbolicWithin (heap : Heap) (root : Nat) : Prop :=
  ∃ k items x, heap.StructWithin root k ∧ heap.items k = .ok items ∧ x ∈ items ∧ x.known? = none

/-- A heap has grown out of the base by an exact copy of a struct.  The correspondence leads from
the structs of the source to their copies. -/
structure StructCopy (base heap : Heap) (root : Nat) (freeze : Bool) (f : Nat → Nat) : Prop where
  /-- The objects that were there are unchanged. -/
  unchanged : base.Extends heap
  /-- The new objects are the copies, one for each struct of the source. -/
  bijective : Set.BijOn f {k | base.StructWithin root k} (Set.Ico base.size heap.size)
  /-- A copy has the fields of its source, with structs replaced by their copies, and is frozen
  exactly if this was asked for. -/
  copied : ∀ k, base.StructWithin root k → ∃ items readOnly,
    base.objects[k]? = some (.compound .struct items readOnly) ∧
      heap.objects[f k]? = some (.compound .struct (items.map (Item.redirect f)) freeze)

variable {base heap : Heap} {root : Nat} {freeze : Bool} {f : Nat → Nat} {x : Item}

/-- A valid struct is an object of the heap. -/
lemma exists_struct_of_valid {handle : Nat} (h : x.Valid heap)
    (hx : x.structHandle? = some handle) :
    ∃ items readOnly, heap.objects[handle]? = some (.compound .struct items readOnly) := by
  obtain ⟨object, hobject, htype⟩ :=
    type?_eq_some.1 (h _ handle (Item.structHandle?_eq_some.1 hx) rfl)
  cases object with
  | buffer bytes => cases htype
  | compound kind items readOnly =>
    cases kind with
    | array => cases htype
    | struct => exact ⟨items, readOnly, hobject⟩

/-- In a heap with valid handles, the structs of a valid struct are objects of the heap. -/
lemma StructWithin.exists_struct (hheap : heap.All (Item.Valid heap)) (hvalid : x.Valid heap)
    (hx : x.structHandle? = some root) {k : Nat} (h : heap.StructWithin root k) :
    ∃ items readOnly, heap.objects[k]? = some (.compound .struct items readOnly) := by
  cases h with
  | root => exact exists_struct_of_valid hvalid hx
  | field _ hitems hy hnested => exact exists_struct_of_valid (hheap.items hitems _ hy) hnested

/-! ## What has been copied -/

section Copied

variable {s : CopyState}

/-- The handle of the copy of a source. -/
def CopyState.copyOf (s : CopyState) (source : Nat) : Nat :=
  (s.copies.find? source).getD 0

/-- The item of the copy of a struct is the struct with the handle of the copy. -/
lemma CopyOf.eq_struct {source : Nat} {items : List Item} {readOnly : Bool} {y : Item}
    (h : CopyOf base s.copies source y)
    (hsource : base.objects[source]? = some (.compound .struct items readOnly)) :
    s.copies.find? source = some (s.copyOf source) ∧ y = .struct (s.copyOf source) := by
  cases h with
  | buffer hbuffer =>
    rw [hsource] at hbuffer
    cases hbuffer
  | compound hcompound hcopy =>
    rw [hsource] at hcompound
    cases hcompound
    have heq : (s.copies.find? source).getD 0 = _ := congrArg (Option.getD · 0) hcopy
    unfold CopyState.copyOf
    rw [heq]
    exact ⟨hcopy, rfl⟩

/-- Copied elements of a heap with valid handles are the redirected ones. -/
lemma CopiedAs.eq_redirect {x y : Item} (h : CopiedAs base s.copies x y) (hvalid : x.Valid base) :
    y = x.redirect s.copyOf := by
  unfold CopiedAs at h
  cases hx : x.structHandle? with
  | none =>
    rw [hx] at h
    rw [Item.redirect_of_none hx]
    exact h
  | some source =>
    rw [hx] at h
    obtain ⟨items, readOnly, hsource⟩ := exists_struct_of_valid hvalid hx
    rw [Item.redirect_of_struct hx]
    exact ((h (lt_size_of_object hsource)).eq_struct hsource).2

variable (hbase : base.All (Item.Valid base)) (hvalid : x.Valid base)
  (hx : x.structHandle? = some root)
  (hstep : CopyStep base freeze (· = root) ⟨base, .empty⟩ s)
include hbase hvalid hx hstep

/-- A struct of the source that has a copy has the redirected fields in it. -/
lemma CopyStep.copied {k copy : Nat} (hk : base.StructWithin root k)
    (hcopy : s.copies.find? k = some copy) :
    ∃ items readOnly, base.objects[k]? = some (.compound .struct items readOnly) ∧
      List.Forall₂ (CopiedAs base s.copies) items (items.map (Item.redirect s.copyOf)) ∧
      s.heap.objects[copy]? =
        some (.compound .struct (items.map (Item.redirect s.copyOf)) freeze) := by
  obtain ⟨items, readOnly, hobject⟩ := hk.exists_struct hbase hvalid hx
  obtain ⟨copied, hnew, helements⟩ := hstep.finished k copy rfl hcopy .struct items readOnly hobject
  have hitems : ∀ y ∈ items, y.Valid base := hbase k _ hobject
  have hcopied : copied = items.map (Item.redirect s.copyOf) := by
    refine List.ext_getElem (by rw [List.length_map, helements.length_eq]) fun index h h' => ?_
    have hlt : index < items.length := by rwa [List.length_map] at h'
    have helement := (List.forall₂_iff_get.1 helements).2 index hlt h
    rw [List.getElem_map]
    exact helement.eq_redirect (hitems _ (List.getElem_mem hlt))
  subst hcopied
  exact ⟨items, readOnly, hobject, helements, hnew⟩

variable {y : Item} (hy : CopyOf base s.copies root y)
include hy

/-- Every struct of the source has a copy. -/
lemma CopyStep.find?_copies {k : Nat} (hk : base.StructWithin root k) :
    s.copies.find? k = some (s.copyOf k) := by
  induction hk with
  | root =>
    obtain ⟨items, readOnly, hobject⟩ := exists_struct_of_valid hvalid hx
    exact (hy.eq_struct hobject).1
  | @field k nested items z path hitems hz hnested ih =>
    obtain ⟨items', readOnly, hobject, helements, -⟩ := hstep.copied hbase hvalid hx path ih
    obtain ⟨kind, readOnly', hobject'⟩ := items_eq_ok.1 hitems
    rw [hobject] at hobject'
    cases hobject'
    obtain ⟨index, hlt, rfl⟩ := List.getElem_of_mem hz
    have helement := (List.forall₂_iff_get.1 helements).2 index hlt (by simpa using hlt)
    obtain ⟨items'', readOnly'', hsource⟩ :=
      exists_struct_of_valid (hbase k _ hobject _ (List.getElem_mem hlt)) hnested
    unfold CopiedAs at helement
    rw [List.get_eq_getElem, hnested] at helement
    exact ((helement (lt_size_of_object hsource)).eq_struct hsource).1

/-- The copies that have been made are an exact copy of the source. -/
lemma CopyStep.structCopy (hs : s.Consistent base) :
    StructCopy base s.heap root freeze s.copyOf where
  unchanged k object hobject _ := (hs.old k (lt_size_of_object hobject)).trans hobject
  bijective := by
    have hfind : ∀ {k}, base.StructWithin root k → s.copies.find? k = some (s.copyOf k) :=
      fun hk => hstep.find?_copies hbase hvalid hx hy hk
    refine ⟨fun k hk => hs.fresh k _ (hfind hk), fun k hk k' hk' heq => ?_, fun copy hcopy => ?_⟩
    · refine hs.injective k k' (s.copyOf k) (hfind hk) ?_
      rw [heq]
      exact hfind hk'
    · obtain ⟨source, hsource⟩ := hs.onto copy hcopy.1 hcopy.2
      -- The structs of the source are closed, so nothing else has been copied.
      have hclosed : base.Closed (base.StructWithin root) := by
        intro k hk
        obtain ⟨items, readOnly, hobject⟩ := hk.exists_struct hbase hvalid hx
        exact ⟨lt_size_of_object hobject, fun kind items readOnly hobject z hz nested hnested =>
          .field hk (items_eq_ok.2 ⟨kind, readOnly, hobject⟩) hz hnested⟩
      have hwithin : base.StructWithin root source := by
        refine hstep.within _ hclosed ?_ source copy rfl hsource
        rintro _ rfl
        exact .root
      refine ⟨source, hwithin, ?_⟩
      have hcopyOf := hfind hwithin
      rw [hsource] at hcopyOf
      exact (Option.some.inj hcopyOf).symm
  copied k hk := by
    obtain ⟨items, readOnly, hobject, -, hnew⟩ := hstep.copied hbase hvalid hx hk
      (hstep.find?_copies hbase hvalid hx hy hk)
    exact ⟨items, readOnly, hobject, hnew⟩

end Copied

/-! ## Comparing a copy with its source -/

namespace StructCopy

variable (h : StructCopy base heap root freeze f)
include h

/-- The elements of a struct of the source and of its copy. -/
lemma items {k : Nat} (hk : base.StructWithin root k) :
    ∃ items, base.items k = .ok items ∧ heap.items k = .ok items ∧
      heap.items (f k) = .ok (items.map (Item.redirect f)) := by
  obtain ⟨items, readOnly, hobject, hcopy⟩ := h.copied k hk
  exact ⟨items, items_eq_ok.2 ⟨_, _, hobject⟩,
    items_eq_ok.2 ⟨_, _, h.unchanged.getElem? hobject⟩, items_eq_ok.2 ⟨_, _, hcopy⟩⟩

/-- A copy is not its source, since it has been allocated later. -/
lemma ne {k : Nat} (hk : base.StructWithin root k) : f k ≠ k := by
  obtain ⟨items, readOnly, hobject, -⟩ := h.copied k hk
  have hlt : k < base.size := lt_size_of_object hobject
  have hle : base.size ≤ f k := (h.bijective.mapsTo hk).1
  omega

/-- From a copy and its source only copies and their sources are reached. -/
lemma reached {r k : Nat} (hreached : heap.Reached (f root) root r k) :
    base.StructWithin root k ∧ r = f k := by
  induction hreached with
  | start => exact ⟨.root, rfl⟩
  | field _ _ hfield hnested ih =>
    obtain ⟨hk, rfl⟩ := ih
    obtain ⟨items, hbase, hsource, hcopy⟩ := h.items hk
    have hzip := (sameField_iff hcopy hsource).1 hfield
    rw [← List.map_prod_right_eq_zip, List.mem_map] at hzip
    obtain ⟨b, hb, heq⟩ := hzip
    cases heq
    have hstruct := Item.structHandle?_eq_some.2 hnested.2
    have hp := hnested.1
    rw [Item.redirect_of_struct hstruct] at hp
    cases hp
    exact ⟨.field hk hbase hb hstruct, rfl⟩

/-- The items that meet when a copy is compared with its source: the two structs, and the fields of
the structs of the source, each with what has become of it. -/
lemma paired_iff (hx : x.structHandle? = some root) {a b : Item} :
    heap.Paired (.struct (f root)) x a b ↔ a = b.redirect f ∧
      (b = x ∨ ∃ k items, base.StructWithin root k ∧ base.items k = .ok items ∧ b ∈ items) := by
  have hknown := Item.structHandle?_eq_some.1 hx
  constructor
  · intro hpaired
    rcases hpaired.cases_reached rfl hknown with ⟨rfl, rfl⟩ | ⟨r, k, hreached, -, hfield⟩
    · exact ⟨(Item.redirect_of_struct hx).symm, .inl rfl⟩
    · obtain ⟨hk, rfl⟩ := h.reached hreached
      obtain ⟨items, hbase, hsource, hcopy⟩ := h.items hk
      have hzip := (sameField_iff hcopy hsource).1 hfield
      rw [← List.map_prod_right_eq_zip, List.mem_map] at hzip
      obtain ⟨b, hb, heq⟩ := hzip
      cases heq
      exact ⟨rfl, .inr ⟨k, items, hk, hbase, hb⟩⟩
  · -- A field meets what has become of it as soon as the struct that it belongs to meets its copy.
    have hfield : ∀ {k : Nat} {a b c : Item} {items : List Item}, base.StructWithin root k →
        heap.Paired (.struct (f root)) x a b → a.known? = some (.struct (f k)) →
          b.known? = some (.struct k) → base.items k = .ok items → c ∈ items →
            heap.Paired (.struct (f root)) x (c.redirect f) c := by
      intro k a b c items hk hpaired ha hb hitems hc
      obtain ⟨items', hbase, hsource, hcopy⟩ := h.items hk
      rw [hitems] at hbase
      cases hbase
      obtain ⟨index, hindex⟩ := List.mem_iff_getElem?.1 hc
      have hcopied : (items.map (Item.redirect f))[index]? = some (c.redirect f) := by
        rw [List.getElem?_map, hindex]
        rfl
      exact .field hpaired ha hb (h.ne hk) hcopy hsource (List.length_map _) hcopied hindex
    have hstruct : ∀ {k : Nat}, base.StructWithin root k →
        ∃ a b, heap.Paired (.struct (f root)) x a b ∧ a.known? = some (.struct (f k)) ∧
          b.known? = some (.struct k) := by
      intro k hk
      induction hk with
      | root => exact ⟨_, _, .start, rfl, hknown⟩
      | field path hitems hc hnested ih =>
        obtain ⟨a, b, hpaired, ha, hb⟩ := ih
        refine ⟨_, _, hfield path hpaired ha hb hitems hc, ?_, Item.structHandle?_eq_some.1 hnested⟩
        rw [Item.redirect_of_struct hnested]
        rfl
    rintro ⟨rfl, rfl | ⟨k, items, hk, hitems, hb⟩⟩
    · rw [Item.redirect_of_struct hx]
      exact .start
    · obtain ⟨a, c, hpaired, ha, hc⟩ := hstruct hk
      exact hfield hk hpaired ha hc hitems hb

/-- Nothing that meets conflicts: structs have as many fields as their copies, and everything else
has stayed as it was. -/
lemma not_conflict (hx : x.structHandle? = some root) {a b : Item}
    (hpaired : heap.Paired (.struct (f root)) x a b) : ¬heap.Conflict a b := by
  obtain ⟨rfl, -⟩ := (h.paired_iff hx).1 hpaired
  rintro (⟨p, q, left, right, ha, hb, -, hleft, hright, hlength⟩ | ⟨v, w, ha, hb, hne, hstructs⟩)
  · have hq := Item.structHandle?_eq_some.2 hb
    rw [Item.redirect_of_struct hq] at ha
    cases ha
    obtain ⟨items, -, hsource, hcopy⟩ := h.items (h.reached (hpaired.reached rfl
      (Item.structHandle?_eq_some.1 hx) (by rw [Item.redirect_of_struct hq]; rfl) hb)).1
    rw [hcopy] at hleft
    rw [hsource] at hright
    cases hleft
    cases hright
    exact hlength (List.length_map _)
  · cases hstruct : b.structHandle? with
    | none =>
      rw [Item.redirect_of_none hstruct, hb] at ha
      exact hne (Option.some.inj ha).symm
    | some q =>
      rw [Item.redirect_of_struct hstruct] at ha
      rw [Item.structHandle?_eq_some.1 hstruct] at hb
      cases ha
      cases hb
      exact hstructs ⟨_, _, rfl, rfl⟩

/-- Comparing a copy with its source answers "equal", or leaves the answer open if some field of the
source is symbolic. -/
lemma equals (hx : x.structHandle? = some root) :
    (¬base.SymbolicWithin root → heap.equals (.struct (f root)) x = .ok (some true)) ∧
      (base.SymbolicWithin root → heap.equals (.struct (f root)) x = .ok none) := by
  have hknown := Item.structHandle?_eq_some.1 hx
  have hread : ∀ r k, heap.Reached (f root) root r k →
      (∃ left, heap.items r = .ok left) ∧ ∃ right, heap.items k = .ok right := by
    intro r k hreached
    obtain ⟨hk, rfl⟩ := h.reached hreached
    obtain ⟨items, -, hsource, hcopy⟩ := h.items hk
    exact ⟨⟨_, hcopy⟩, _, hsource⟩
  obtain ⟨answer, hanswer, hspec⟩ := equals_of_readable (x := .struct (f root)) rfl hknown hread
  rw [hanswer]
  refine ⟨fun hsymbolic => congrArg Except.ok (hspec.equal.2 fun a b hpaired => ?_),
    fun hsymbolic => congrArg Except.ok (hspec.uncertain.2 ⟨fun a b => h.not_conflict hx, ?_⟩)⟩
  · have hb : b.known? ≠ none := by
      intro hb
      rcases ((h.paired_iff hx).1 hpaired).2 with rfl | ⟨k, items, hk, hitems, hmem⟩
      · rw [hknown] at hb
        cases hb
      · exact hsymbolic ⟨k, items, b, hk, hitems, hmem, hb⟩
    refine ⟨h.not_conflict hx hpaired, ?_, hb⟩
    rwa [((h.paired_iff hx).1 hpaired).1, Ne, Item.known?_redirect_eq_none]
  · obtain ⟨k, items, b, hk, hitems, hb, hnone⟩ := hsymbolic
    exact ⟨_, b, (h.paired_iff hx).2 ⟨rfl, .inr ⟨k, items, hk, hitems, hb⟩⟩, .inr hnone⟩

end StructCopy

/-- Deep copies of structs are exact, on every heap with valid handles, however the structs share
fields or contain themselves.  The copy succeeds, it leaves everything that was there unchanged, and
the new objects are in a one to one correspondence with the structs that are reached from the source
through struct fields: each is a struct with the fields of its source, where structs are replaced by
their copies, and it is frozen exactly if this was asked for.  Compared with its source the copy is
equal, or the answer is open if one of these structs has a symbolic field. -/
theorem deepCopy_exact (heap : Heap) (freeze : Bool) (x : Item) (root : Nat)
    (hheap : heap.All (Item.Valid heap)) (hvalid : x.Valid heap)
    (hx : x.known? = some (.struct root)) :
    ∃ s f, deepCopy freeze x ⟨heap, .empty⟩ = .ok (.struct (f root)) s ∧
      heap.StructCopy s.heap root freeze f ∧
      (¬heap.SymbolicWithin root → s.heap.equals (.struct (f root)) x = .ok (some true)) ∧
      (heap.SymbolicWithin root → s.heap.equals (.struct (f root)) x = .ok none) := by
  have hstruct := Item.structHandle?_eq_some.2 hx
  obtain ⟨items, readOnly, hobject⟩ := exists_struct_of_valid hvalid hstruct
  have hclosed : heap.Closed (· < heap.size) := by
    refine fun k hk => ⟨hk, fun kind items readOnly hobject y hy nested hnested => ?_⟩
    obtain ⟨items', readOnly', hfound⟩ := exists_struct_of_valid (hheap k _ hobject y hy) hnested
    exact lt_size_of_object hfound
  obtain ⟨y, s, hcopy, hs, hstep, hy⟩ :=
    deepCopy_succeeds freeze hclosed hstruct (lt_size_of_object hobject)
  obtain ⟨-, rfl⟩ := hy.eq_struct hobject
  have hexact := hstep.structCopy hheap hvalid hstruct hy hs
  exact ⟨s, s.copyOf, hcopy, hexact, hexact.equals hstruct⟩

/-- A struct that contains another one twice, an array, and itself. -/
def sharingHeap : Heap :=
  ⟨#[.compound .struct [.struct 1, .const (.struct 1), .array 2, .struct 0] false,
    .compound .struct [.struct 0, .integer 7] true, .compound .array [.struct 1] false]⟩

/-- The struct has a frozen copy, which is equal to it. -/
theorem deepCopy_exact_sharingHeap :
    sharingHeap.All (Item.Valid sharingHeap) ∧ (Item.struct 0).Valid sharingHeap ∧
      ∃ s f, deepCopy true (.struct 0) ⟨sharingHeap, .empty⟩ = .ok (.struct (f 0)) s ∧
        sharingHeap.StructCopy s.heap 0 true f ∧
        s.heap.equals (.struct (f 0)) (.struct 0) = .ok (some true) := by
  have hheap : sharingHeap.All (Item.Valid sharingHeap) := by decide
  have hzero : (Item.struct 0).Valid sharingHeap := by decide
  have hknown : sharingHeap.All fun x => x.known? ≠ none := by decide
  have hcertain : ¬sharingHeap.SymbolicWithin 0 := fun ⟨k, items, x, _, hitems, hx, hnone⟩ =>
    hknown.items hitems x hx hnone
  obtain ⟨s, f, hcopy, hexact, hequal, -⟩ :=
    deepCopy_exact sharingHeap true (.struct 0) 0 hheap hzero rfl
  exact ⟨hheap, hzero, s, f, hcopy, hexact, hequal hcertain⟩

end Heap

end SymbolicScript
