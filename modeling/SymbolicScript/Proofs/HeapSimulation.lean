import SymbolicScript.Heap.Conversion
import SymbolicScript.Proofs.Approximation
import SymbolicScript.Proofs.HeapCopy
import SymbolicScript.Proofs.HeapEquality
import SymbolicScript.Proofs.Results

/-!
# Copying, comparing and converting with less knowledge

The three operations that walk through the heap are carried out by two machines of which one knows
less than the other.  Deep copies of counterparts are counterparts again, although the machine that
knows more may copy objects that the other one does not know of (`Heap.Simulates.copy_simulates`).
A comparison that is decided for the lesser machine is decided in the same way for the other one
(`Heap.Simulates.equals`), and a conversion gives the same value, or objects with the same bytes or
the elements of counterparts (`Heap.Simulates.convertKnown_cases`).
-/

namespace SymbolicScript

variable {ρ : Renaming}

/-! ## Structs -/

namespace Item

/-- A known struct approximates known structs only. -/
lemma Approximates.struct_left {x y : Item} {k : Nat} (h : x.Approximates ρ y)
    (hx : x.structHandle? = some k) : ∃ l, y.structHandle? = some l ∧ ρ k l := by
  obtain ⟨w, hw, halike⟩ := h _ (structHandle?_eq_some.1 hx)
  cases halike with
  | @struct _ l hkl => exact ⟨l, structHandle?_eq_some.2 hw, hkl⟩

/-- A known item that approximates a struct is a struct. -/
lemma Approximates.struct_of_known {x y : Item} {l : Nat} (h : x.Approximates ρ y)
    (hx : x.known? ≠ none) (hy : y.known? = some (.struct l)) :
    ∃ k, x.known? = some (.struct k) ∧ ρ k l := by
  obtain ⟨v, hv⟩ := Option.ne_none_iff_exists'.1 hx
  obtain ⟨w, hw, halike⟩ := h v hv
  cases hw.symm.trans hy
  cases halike with
  | @struct k _ hkl => exact ⟨k, hv, hkl⟩

/-- An item that approximates a known struct is symbolic or a struct. -/
lemma Approximates.struct_right {x y : Item} {l : Nat} (h : x.Approximates ρ y)
    (hx : x.structHandle? = none) (hy : y.structHandle? = some l) : x.known? = none := by
  cases hv : x.known? with
  | none => rfl
  | some v =>
    obtain ⟨w, hw, halike⟩ := h v hv
    rw [structHandle?_eq_some.1 hy] at hw
    cases hw
    cases halike
    rw [structHandle?_eq_some.2 hv] at hx
    cases hx

end Item

/-- Lists that are related place by place to related lists are related. -/
lemma forall₂_square {α : Type} {R S T U : α → α → Prop}
    (h : ∀ x y x' y', R x y → S x x' → T y y' → U x' y') {xs ys xs' ys' : List α}
    (hR : List.Forall₂ R xs ys) (hS : List.Forall₂ S xs xs') (hT : List.Forall₂ T ys ys') :
    List.Forall₂ U xs' ys' := by
  induction hR generalizing xs' ys' with
  | nil =>
    cases hS
    cases hT
    exact .nil
  | cons hxy _ ih =>
    cases hS with
    | cons hx hxs =>
      cases hT with
      | cons hy hys => exact .cons (h _ _ _ _ hxy hx hy) (ih hxs hys)

/-- Fields at the same place have partners at the same place of related lists. -/
lemma exists_of_mem_zip {α : Type} {R : α → α → Prop} {xs ys xs' ys' : List α}
    (hx : List.Forall₂ R xs xs') (hy : List.Forall₂ R ys ys') {x y : α} (h : (x, y) ∈ xs.zip ys) :
    ∃ x' y', (x', y') ∈ xs'.zip ys' ∧ R x x' ∧ R y y' := by
  induction hx generalizing ys ys' with
  | nil => cases h
  | cons hxx _ ih =>
    cases hy with
    | nil => cases h
    | cons hyy hys =>
      rcases List.mem_cons.1 h with heq | hrest
      · cases heq
        exact ⟨_, _, List.mem_cons_self, hxx, hyy⟩
      · obtain ⟨x', y', hmem, hR⟩ := ih hys hrest
        exact ⟨x', y', List.mem_cons_of_mem _ hmem, hR⟩

namespace Heap.Simulates

variable {a b : Heap}

/-! ## Copies -/

/-- The renaming that relates the copies of counterparts as well. -/
def copyRenaming (ρ : Renaming) (copies copies' : SortedMap Nat Nat) : Renaming := fun k l =>
  ρ k l ∨ ∃ m n, ρ m n ∧ copies.find? m = some k ∧ copies'.find? n = some l

section Copy

variable {freeze : Bool} {s t : CopyState} {k l : Nat}

/-- The copies of counterparts approximate each other. -/
lemma copyOf {x y : Item} (h : a.Simulates ρ b) (hkl : ρ k l) (hx : CopyOf a s.copies k x)
    (hy : CopyOf b t.copies l y) : x.Approximates (copyRenaming ρ s.copies t.copies) y := by
  cases hx with
  | buffer hk =>
    obtain ⟨o', ho', happrox⟩ := h.object_of hkl hk
    cases happrox
    cases hy with
    | buffer => exact .of_alike (.buffer (.inl hkl))
    | compound hl => cases ho'.symm.trans hl
  | @compound kind _ _ c hk hc =>
    obtain ⟨o', ho', happrox⟩ := h.object_of hkl hk
    cases happrox
    cases hy with
    | buffer hl => cases ho'.symm.trans hl
    | @compound _ _ _ d hl hd =>
      cases ho'.symm.trans hl
      have hcd : copyRenaming ρ s.copies t.copies c d := .inr ⟨k, l, hkl, hc, hd⟩
      cases kind with
      | array => exact .of_alike (.array hcd)
      | struct => exact .of_alike (.struct hcd)

/-- The copied elements of counterparts approximate each other. -/
lemma copiedAs {x y x' y' : Item} (h : a.Simulates ρ b) (hxy : x.Approximates ρ y)
    (hx : CopiedAs a s.copies x x') (hy : CopiedAs b t.copies y y') :
    x'.Approximates (copyRenaming ρ s.copies t.copies) y' := by
  unfold CopiedAs at hx hy
  cases hxs : x.structHandle? with
  | none =>
    simp only [hxs] at hx
    subst hx
    cases hys : y.structHandle? with
    | none =>
      simp only [hys] at hy
      subst hy
      exact hxy.mono fun _ _ => .inl
    | some l => exact .of_symbolic (hxy.struct_right hxs hys) _
  | some k =>
    obtain ⟨l, hys, hkl⟩ := hxy.struct_left hxs
    simp only [hxs] at hx
    simp only [hys] at hy
    obtain ⟨hk, hl⟩ := h.bounded k l hkl
    exact h.copyOf hkl (hx hk) (hy hl)

/-- The object has a counterpart, of which there is a copy if it is a compound. -/
def CopiedBeyond (ρ : Renaming) (b : Heap) (copies : SortedMap Nat Nat) (m : Nat) : Prop :=
  ∃ n, ρ m n ∧ ∀ kind ys readOnly, b.objects[n]? = some (.compound kind ys readOnly) →
    ∃ d, copies.find? n = some d

/-- An object that has been copied has a copy if it is a compound. -/
lemma copiedBeyond_of_copyOf {m n : Nat} {y : Item} (hmn : ρ m n) (hy : CopyOf b t.copies n y) :
    CopiedBeyond ρ b t.copies m := by
  refine ⟨n, hmn, fun kind ys readOnly hn => ?_⟩
  cases hy with
  | buffer hn' => cases hn.symm.trans hn'
  | compound _ hd => exact ⟨_, hd⟩

/-- Together with a compound the structs inside it have been copied. -/
lemma copiedBeyond_closed (h : a.Simulates ρ b)
    (htsteps : CopyStep b freeze (· = l) ⟨b, .empty⟩ t) :
    a.Closed (CopiedBeyond ρ b t.copies) := by
  rintro m ⟨n, hmn, hn⟩
  refine ⟨(h.bounded m n hmn).1, fun kind xs readOnly hxs x hx nested hnested => ?_⟩
  obtain ⟨o', ho', happrox⟩ := h.object_of hmn hxs
  cases happrox with
  | compound _ _ hys =>
    obtain ⟨d, hd⟩ := hn _ _ _ ho'
    obtain ⟨copied, -, hcopied⟩ := htsteps.finished n d (by simp) hd _ _ _ ho'
    obtain ⟨y, hy, hxy⟩ := exists_mem_of_forall₂ hys hx
    obtain ⟨y', -, hy'⟩ := exists_mem_of_forall₂ hcopied hy
    obtain ⟨nested', hnested', hρ⟩ := hxy.struct_left hnested
    simp only [CopiedAs, hnested'] at hy'
    exact copiedBeyond_of_copyOf hρ (hy' (h.bounded _ _ hρ).2)

/-- Every source that the lesser machine copies has a counterpart that the other one copies. -/
lemma copied (h : a.Simulates ρ b) (hkl : ρ k l) (hs : s.Consistent a)
    (hsteps : CopyStep a freeze (· = k) ⟨a, .empty⟩ s)
    (htsteps : CopyStep b freeze (· = l) ⟨b, .empty⟩ t) {y : Item} (hy : CopyOf b t.copies l y)
    {m c : Nat} (hm : s.copies.find? m = some c) :
    ∃ n d, ρ m n ∧ t.copies.find? n = some d := by
  obtain ⟨n, hmn, hn⟩ := hsteps.within _ (h.copiedBeyond_closed htsteps) (by
    rintro _ rfl
    exact copiedBeyond_of_copyOf hkl hy) m c (by simp) hm
  obtain ⟨kind, items, readOnly, _, _, hsource, -⟩ := hs.kind m c hm (h.bounded m n hmn).1
  obtain ⟨o', ho', happrox⟩ := h.object_of hmn hsource
  cases happrox with
  | compound =>
    obtain ⟨d, hd⟩ := hn _ _ _ ho'
    exact ⟨n, d, hmn, hd⟩

/-- Once counterparts have been copied, copies are related as their sources are. -/
lemma copy_simulates (h : a.Simulates ρ b) (hkl : ρ k l) (hs : s.Consistent a)
    (hsteps : CopyStep a freeze (· = k) ⟨a, .empty⟩ s) (ht : t.Consistent b)
    (htsteps : CopyStep b freeze (· = l) ⟨b, .empty⟩ t) {y : Item} (hy : CopyOf b t.copies l y) :
    s.heap.Simulates (copyRenaming ρ s.copies t.copies) t.heap where
  total c hc := by
    by_cases hold : c < a.size
    · obtain ⟨d, hd⟩ := h.total c hold
      exact ⟨d, .inl hd⟩
    · obtain ⟨m, hm⟩ := hs.onto c (Nat.le_of_not_lt hold) hc
      obtain ⟨n, d, hmn, hd⟩ := h.copied hkl hs hsteps htsteps hy hm
      exact ⟨d, .inr ⟨m, n, hmn, hm, hd⟩⟩
  bounded c d hcd := by
    rcases hcd with hcd | ⟨m, n, -, hc, hd⟩
    · obtain ⟨hc, hd⟩ := h.bounded c d hcd
      exact ⟨Nat.lt_of_lt_of_le hc hs.size, Nat.lt_of_lt_of_le hd ht.size⟩
    · exact ⟨(hs.fresh m c hc).2, (ht.fresh n d hd).2⟩
  functional c d d' hcd hcd' := by
    -- A copy is fresh, so that it is no object of the base at the same time.
    rcases hcd with hcd | ⟨m, n, hmn, hc, hd⟩ <;> rcases hcd' with hcd' | ⟨m', n', hmn', hc', hd'⟩
    · exact h.functional c d d' hcd hcd'
    · exact absurd (h.bounded c d hcd).1 (Nat.not_lt.2 (hs.fresh m' c hc').1)
    · exact absurd (h.bounded c d' hcd').1 (Nat.not_lt.2 (hs.fresh m c hc).1)
    · cases hs.injective m m' c hc hc'
      cases h.functional m n n' hmn hmn'
      exact Option.some.inj (hd.symm.trans hd')
  injective c c' d hcd hcd' := by
    rcases hcd with hcd | ⟨m, n, hmn, hc, hd⟩ <;> rcases hcd' with hcd' | ⟨m', n', hmn', hc', hd'⟩
    · exact h.injective c c' d hcd hcd'
    · exact absurd (h.bounded c d hcd).2 (Nat.not_lt.2 (ht.fresh n' d hd').1)
    · exact absurd (h.bounded c' d hcd').2 (Nat.not_lt.2 (ht.fresh n d hd).1)
    · cases ht.injective n n' d hd hd'
      cases h.injective m m' n hmn hmn'
      exact Option.some.inj (hc.symm.trans hc')
  objects c d hcd := by
    rcases hcd with hcd | ⟨m, n, hmn, hc, hd⟩
    · obtain ⟨o, o', ho, ho', happrox⟩ := h.objects c d hcd
      obtain ⟨hlt, hlt'⟩ := h.bounded c d hcd
      exact ⟨o, o', (hs.old c hlt).trans ho, (ht.old d hlt').trans ho',
        happrox.mono fun _ _ => .inl⟩
    · obtain ⟨kind, xs, readOnly, _, _, hm, -⟩ := hs.kind m c hc (h.bounded m n hmn).1
      obtain ⟨o', ho', happrox⟩ := h.object_of hmn hm
      cases happrox with
      | compound _ _ hys =>
        -- Both copies are finished, and their elements are copies of related elements.
        obtain ⟨xs', hxs', hxcopied⟩ := hsteps.finished m c (by simp) hc _ _ _ hm
        obtain ⟨ys', hys', hycopied⟩ := htsteps.finished n d (by simp) hd _ _ _ ho'
        refine ⟨_, _, hxs', hys', .compound _ _ ?_⟩
        refine forall₂_square (fun x y x' y' hxy hx hy => ?_) hys hxcopied hycopied
        exact h.copiedAs hxy hx hy

end Copy

/-- What is stored in a compound is the item itself, or the copy of a struct. -/
lemma cloneStruct_cases {x x' : Item} {a' : Heap} (hx : a.cloneStruct x = (.ok x', a')) :
    (x.structHandle? = none ∧ x' = x ∧ a' = a) ∨
      ∃ k fuel s, x.structHandle? = some k ∧
        Heap.copyObject false fuel k ⟨a, .empty⟩ = .ok x' s ∧ s.heap = a' := by
  unfold Heap.cloneStruct at hx
  cases hk : x.structHandle? with
  | none =>
    simp only [hk] at hx
    cases hx
    exact .inl ⟨rfl, rfl, rfl⟩
  | some k =>
    simp only [hk, deepCopy, Item.structHandle?_eq_some.1 hk, EStateM.run] at hx
    refine .inr ⟨k, a.copyFuel, ?_⟩
    split at hx
    · next hcopy =>
      obtain ⟨_, _, hget, hobject⟩ := bind_eq_ok.1 hcopy
      cases hget
      cases hx
      exact ⟨_, rfl, hobject, rfl⟩
    · cases hx

/-! ## Comparisons -/

/-- The elements of a counterpart are approximated by those of the compound. -/
lemma items_right {k l : Nat} {ys : List Item} (h : a.Simulates ρ b) (hkl : ρ k l)
    (hys : b.items l = .ok ys) :
    ∃ xs, a.items k = .ok xs ∧ List.Forall₂ (Item.Approximates ρ) xs ys := by
  obtain ⟨o, o', ho, ho', happrox⟩ := h.objects k l hkl
  obtain ⟨kind, readOnly, hl⟩ := items_eq_ok.1 hys
  cases ho'.symm.trans hl
  cases happrox with
  | compound _ _ hxs => exact ⟨_, items_eq_ok.2 ⟨kind, readOnly, ho⟩, hxs⟩

section Comparison

variable {x y x' y' : Nat} {u v : Item}

/-- Fields at the same place of two compounds approximate fields at the same place of their
counterparts. -/
lemma sameField (h : a.Simulates ρ b) (hx : ρ x x') (hy : ρ y y') (hfield : a.SameField x y u v) :
    ∃ u' v', b.SameField x' y' u' v' ∧ u.Approximates ρ u' ∧ v.Approximates ρ v' := by
  obtain ⟨left, right, hleft, hright, hmem⟩ := hfield
  obtain ⟨left', hleft', hl⟩ := h.items hx hleft
  obtain ⟨right', hright', hr⟩ := h.items hy hright
  obtain ⟨u', v', hmem', hu, hv⟩ := exists_of_mem_zip hl hr hmem
  exact ⟨u', v', ⟨left', right', hleft', hright', hmem'⟩, hu, hv⟩

/-- Fields at the same place of counterparts are approximated by fields at the same place. -/
lemma sameField_right (h : a.Simulates ρ b) (hx : ρ x x') (hy : ρ y y') {u' v' : Item}
    (hfield : b.SameField x' y' u' v') :
    ∃ u v, a.SameField x y u v ∧ u.Approximates ρ u' ∧ v.Approximates ρ v' := by
  obtain ⟨left', right', hleft', hright', hmem'⟩ := hfield
  obtain ⟨left, hleft, hl⟩ := h.items_right hx hleft'
  obtain ⟨right, hright, hr⟩ := h.items_right hy hright'
  obtain ⟨u, v, hmem, hu, hv⟩ := exists_of_mem_zip hl.flip hr.flip hmem'
  exact ⟨u, v, ⟨left, right, hleft, hright, hmem⟩, hu, hv⟩

/-- Counterparts are different if the objects are. -/
lemma ne (h : a.Simulates ρ b) (hx : ρ x x') (hy : ρ y y') (hne : x ≠ y) : x' ≠ y' := by
  rintro rfl
  exact hne (h.injective x y x' hx hy)

/-- Objects are different if their counterparts are. -/
lemma ne_right (h : a.Simulates ρ b) (hx : ρ x x') (hy : ρ y y') (hne : x' ≠ y') : x ≠ y := by
  rintro rfl
  exact hne (h.functional x x' y' hx hy)

/-- Fields that differ approximate fields that differ. -/
lemma fieldsDiffer (h : a.Simulates ρ b) {u' v' : Item} (hu : u.Approximates ρ u')
    (hv : v.Approximates ρ v') (hdiffer : FieldsDiffer u v) : FieldsDiffer u' v' := by
  obtain ⟨p, q, hp, hq, hne, hstructs⟩ := hdiffer
  obtain ⟨p', hp', hpp⟩ := hu p hp
  obtain ⟨q', hq', hqq⟩ := hv q hq
  refine ⟨p', q', hp', hq', fun heq => hne ((hpp.eq_iff hqq h.functional h.injective).2 heq), ?_⟩
  rintro ⟨m, n, rfl, rfl⟩
  cases hpp with
  | struct =>
    cases hqq with
    | struct => exact hstructs ⟨_, _, rfl, rfl⟩

/-- Structs that differ have counterparts that differ. -/
lemma differ (h : a.Simulates ρ b) (hx : ρ x x') (hy : ρ y y') (hdiffer : a.Differ x y) :
    b.Differ x' y' := by
  obtain ⟨hne, ⟨left, right, hleft, hright, hlength⟩ | ⟨u, v, hfield, hfields⟩⟩ := hdiffer
  · obtain ⟨left', hleft', hl⟩ := h.items hx hleft
    obtain ⟨right', hright', hr⟩ := h.items hy hright
    exact ⟨h.ne hx hy hne, .inl ⟨left', right', hleft', hright',
      by rwa [← hl.length_eq, ← hr.length_eq]⟩⟩
  · obtain ⟨u', v', hfield', hu, hv⟩ := h.sameField hx hy hfield
    exact ⟨h.ne hx hy hne, .inr ⟨u', v', hfield', h.fieldsDiffer hu hv hfields⟩⟩

/-- Known fields that approximate fields that differ do so themselves. -/
lemma fieldsDiffer_right (h : a.Simulates ρ b) {u' v' : Item} (hu : u.Approximates ρ u')
    (hv : v.Approximates ρ v') (hknown : ¬(u.known? = none ∨ v.known? = none))
    (hdiffer : FieldsDiffer u' v') : FieldsDiffer u v := by
  obtain ⟨p', q', hp', hq', hne, hstructs⟩ := hdiffer
  obtain ⟨p, hp⟩ := Option.ne_none_iff_exists'.1 fun hnone => hknown (.inl hnone)
  obtain ⟨q, hq⟩ := Option.ne_none_iff_exists'.1 fun hnone => hknown (.inr hnone)
  obtain ⟨_, hp₁, hpp⟩ := hu p hp
  cases hp'.symm.trans hp₁
  obtain ⟨_, hq₁, hqq⟩ := hv q hq
  cases hq'.symm.trans hq₁
  refine ⟨p, q, hp, hq, fun heq => hne ((hpp.eq_iff hqq h.functional h.injective).1 heq), ?_⟩
  rintro ⟨m, n, rfl, rfl⟩
  cases hpp with
  | struct =>
    cases hqq with
    | struct => exact hstructs ⟨_, _, rfl, rfl⟩

/-- Structs of which the counterparts are open are open. -/
lemma open_right (h : a.Simulates ρ b) (hx : ρ x x') (hy : ρ y y') (hopen : b.Open x' y') :
    a.Open x y := by
  obtain ⟨hne, u', v', hfield', hsymbolic⟩ := hopen
  obtain ⟨u, v, hfield, hu, hv⟩ := h.sameField_right hx hy hfield'
  exact ⟨h.ne_right hx hy hne, u, v, hfield, hsymbolic.imp hu.symbolic hv.symbolic⟩

/-- Structs of which the counterparts differ do so themselves unless they are open. -/
lemma differ_right (h : a.Simulates ρ b) (hx : ρ x x') (hy : ρ y y') (hclosed : ¬a.Open x y)
    (hdiffer : b.Differ x' y') : a.Differ x y := by
  obtain ⟨hne, ⟨left', right', hleft', hright', hlength⟩ | ⟨u', v', hfield', hfields⟩⟩ := hdiffer
  · obtain ⟨left, hleft, hl⟩ := h.items_right hx hleft'
    obtain ⟨right, hright, hr⟩ := h.items_right hy hright'
    exact ⟨h.ne_right hx hy hne, .inl ⟨left, right, hleft, hright,
      by rwa [hl.length_eq, hr.length_eq]⟩⟩
  · obtain ⟨u, v, hfield, hu, hv⟩ := h.sameField_right hx hy hfield'
    have hne' := h.ne_right hx hy hne
    have hknown : ¬(u.known? = none ∨ v.known? = none) := fun hsymbolic =>
      hclosed ⟨hne', u, v, hfield, hsymbolic⟩
    exact ⟨hne', .inr ⟨u, v, hfield, h.fieldsDiffer_right hu hv hknown hfields⟩⟩

variable {x₀ y₀ x₀' y₀' : Nat}

/-- A pair that is reached has counterparts that are reached from the counterparts. -/
lemma reached (h : a.Simulates ρ b) (hx₀ : ρ x₀ x₀') (hy₀ : ρ y₀ y₀')
    (hreached : a.Reached x₀ y₀ x y) :
    ∃ x' y', ρ x x' ∧ ρ y y' ∧ b.Reached x₀' y₀' x' y' := by
  induction hreached with
  | start => exact ⟨x₀', y₀', hx₀, hy₀, .start⟩
  | field _ hne hfield hnested ih =>
    obtain ⟨x', y', hx, hy, hpath⟩ := ih
    obtain ⟨u', v', hfield', hu, hv⟩ := h.sameField hx hy hfield
    obtain ⟨w, hw, hp⟩ := hu _ hnested.1
    obtain ⟨w', hw', hq⟩ := hv _ hnested.2
    cases hp with
    | struct hp =>
      cases hq with
      | struct hq => exact ⟨_, _, hp, hq, .field hpath (h.ne hx hy hne) hfield' ⟨hw, hw'⟩⟩

/-- If no reached pair is open, whatever is reached from the counterparts is a pair of
counterparts. -/
lemma reached_right (h : a.Simulates ρ b) (hx₀ : ρ x₀ x₀') (hy₀ : ρ y₀ y₀')
    (hclosed : ∀ x y, a.Reached x₀ y₀ x y → ¬a.Open x y) (hreached : b.Reached x₀' y₀' x' y') :
    ∃ x y, ρ x x' ∧ ρ y y' ∧ a.Reached x₀ y₀ x y := by
  induction hreached with
  | start => exact ⟨x₀, y₀, hx₀, hy₀, .start⟩
  | @field x' y' p' q' u' v' _ hne hfield hnested ih =>
    obtain ⟨x, y, hx, hy, hpath⟩ := ih
    obtain ⟨u, v, hfield', hu, hv⟩ := h.sameField_right hx hy hfield
    have hne' := h.ne_right hx hy hne
    have hknown : ¬(u.known? = none ∨ v.known? = none) := fun hsymbolic =>
      hclosed x y hpath ⟨hne', u, v, hfield', hsymbolic⟩
    obtain ⟨p, hp, hpp⟩ := hu.struct_of_known (fun hnone => hknown (.inl hnone)) hnested.1
    obtain ⟨q, hq, hqq⟩ := hv.struct_of_known (fun hnone => hknown (.inr hnone)) hnested.2
    exact ⟨p, q, hpp, hqq, .field hpath hne' hfield' ⟨hp, hq⟩⟩

/-- A comparison of structs that is decided is decided in the same way for their counterparts. -/
lemma comparePairs {answer : Bool} {answer' : Option Bool} (h : a.Simulates ρ b)
    (hx₀ : ρ x₀ x₀') (hy₀ : ρ y₀ y₀')
    (hanswer : a.comparePairs [] false [(x₀, y₀)] = .ok (some answer))
    (hanswer' : b.comparePairs [] false [(x₀', y₀')] = .ok answer') : answer' = some answer := by
  have hspec := comparePairs_spec hanswer
  have hspec' := comparePairs_spec hanswer'
  cases answer with
  | false =>
    obtain ⟨x, y, hreached, hdiffer⟩ := hspec.different.1 rfl
    obtain ⟨x', y', hx, hy, hreached'⟩ := h.reached hx₀ hy₀ hreached
    exact hspec'.different.2 ⟨x', y', hreached', h.differ hx hy hdiffer⟩
  | true =>
    have hclosed := hspec.certain rfl
    have hsame : ∀ x y, a.Reached x₀ y₀ x y → ¬a.Differ x y := fun x y hreached hdiffer => by
      cases hspec.different.2 ⟨x, y, hreached, hdiffer⟩
    cases answer' with
    | none =>
      obtain ⟨x', y', hreached', hopen⟩ := hspec'.uncertain rfl
      obtain ⟨x, y, hx, hy, hreached⟩ := h.reached_right hx₀ hy₀ hclosed hreached'
      exact absurd (h.open_right hx hy hopen) (hclosed x y hreached)
    | some answer' =>
      cases answer' with
      | true => rfl
      | false =>
        obtain ⟨x', y', hreached', hdiffer⟩ := hspec'.different.1 rfl
        obtain ⟨x, y, hx, hy, hreached⟩ := h.reached_right hx₀ hy₀ hclosed hreached'
        have hdiffer' := h.differ_right hx hy (hclosed x y hreached) hdiffer
        exact absurd hdiffer' (hsame x y hreached)

end Comparison

/-- Known items that are not both structs are compared as values. -/
lemma equals_plain {heap : Heap} {x y v w : Item} (hv : x.known? = some v)
    (hw : y.known? = some w) (hstructs : ¬∃ p q, v = .struct p ∧ w = .struct q) :
    heap.equals x y = .ok (some (decide (v = w))) := by
  unfold Heap.equals
  rw [hv, hw]
  split
  · next hp hq => exact absurd ⟨_, _, Option.some.inj hp, Option.some.inj hq⟩ hstructs
  · next hp hq =>
    cases hp
    cases hq
    rfl
  · next hnone => exact (hnone v w rfl rfl).elim

/-- A comparison is decided only for known items. -/
lemma known_of_equals {heap : Heap} {x y : Item} {answer : Bool}
    (h : heap.equals x y = .ok (some answer)) :
    ∃ v w, x.known? = some v ∧ y.known? = some w := by
  unfold Heap.equals at h
  split at h
  · next hp hq => exact ⟨_, _, hp, hq⟩
  · next hp hq => exact ⟨_, _, hp, hq⟩
  · cases h

/-- A comparison that is decided is decided in the same way by the machine that knows more. -/
theorem equals {x y x' y' : Item} {answer : Bool} {answer' : Option Bool} (h : a.Simulates ρ b)
    (hx : x.Approximates ρ x') (hy : y.Approximates ρ y')
    (hanswer : a.equals x y = .ok (some answer)) (hanswer' : b.equals x' y' = .ok answer') :
    answer' = some answer := by
  obtain ⟨v, w, hv, hw⟩ := known_of_equals hanswer
  obtain ⟨v', hv', hvv⟩ := hx v hv
  obtain ⟨w', hw', hww⟩ := hy w hw
  by_cases hstructs : ∃ p q, v = .struct p ∧ w = .struct q
  · obtain ⟨p, q, rfl, rfl⟩ := hstructs
    cases hvv with
    | struct hp =>
      cases hww with
      | struct hq =>
        unfold Heap.equals at hanswer hanswer'
        simp only [hv, hw] at hanswer
        simp only [hv', hw'] at hanswer'
        exact h.comparePairs hp hq hanswer hanswer'
  · have hstructs' : ¬∃ p q, v' = .struct p ∧ w' = .struct q := by
      rintro ⟨p, q, rfl, rfl⟩
      cases hvv with
      | struct =>
        cases hww with
        | struct => exact hstructs ⟨_, _, rfl, rfl⟩
    rw [equals_plain hv hw hstructs] at hanswer
    rw [equals_plain hv' hw' hstructs'] at hanswer'
    cases hanswer
    cases hanswer'
    rw [decide_eq_decide.2 (hvv.eq_iff hww h.functional h.injective)]

/-! ## Conversions -/

/-- A value without a handle is converted to the same value in every heap, or to a buffer of the
same bytes. -/
lemma convertKnown_plain {v y : Item} {a' : Heap} {target : ItemType} (b : Heap)
    (hv : v.handle? = none) (hx : a.convertKnown v target = .ok (y, a')) :
    (y.handle? = none ∧ a' = a ∧ b.convertKnown v target = .ok (y, b)) ∨
      ∃ bytes, (y, a') = a.newBuffer bytes ∧ b.convertKnown v target = .ok (b.newBuffer bytes) := by
  cases v with
  | boolean _ | integer _ | byteString _ =>
    cases target with
    | boolean | integer | byteString =>
      obtain ⟨r, hr, hreturn⟩ := except_bind_eq_ok.1 hx
      cases hreturn
      exact .inl ⟨rfl, rfl, except_bind_eq_ok.2 ⟨r, hr, rfl⟩⟩
    | buffer =>
      obtain ⟨r, hr, hreturn⟩ := except_bind_eq_ok.1 hx
      cases hreturn
      exact .inr ⟨_, rfl, except_bind_eq_ok.2 ⟨r, hr, rfl⟩⟩
    | _ => cases hx
  | null => cases hx
  | buffer _ | array _ | struct _ => cases hv
  | pointer _ | unknown _ _ | const _ | slot _ _ | storage _ | derived _ _ | stackDepth =>
    cases target with
    | boolean =>
      obtain ⟨r, hr, hreturn⟩ := except_bind_eq_ok.1 hx
      cases hreturn
      exact .inl ⟨rfl, rfl, except_bind_eq_ok.2 ⟨r, hr, rfl⟩⟩
    | _ => cases hx

/-- A conversion of a known value allocates at most one object. -/
lemma convertKnown_grows {v y : Item} {a' : Heap} {target : ItemType}
    (hx : a.convertKnown v target = .ok (y, a')) :
    a.size ≤ a'.size ∧ ∀ k < a.size, a'.objects[k]? = a.objects[k]? := by
  have hsame : a.size ≤ a.size ∧ ∀ k < a.size, a.objects[k]? = a.objects[k]? :=
    ⟨Nat.le_refl _, fun _ _ => rfl⟩
  have hadd : ∀ o, a.size ≤ (a.add o).size ∧ ∀ k < a.size, (a.add o).objects[k]? = a.objects[k]? :=
    fun o => ⟨by simp, fun _ hk => getElem?_add_of_lt hk⟩
  unfold Heap.convertKnown at hx
  split at hx
  case h_1 | h_16 => cases hx
  case h_6 =>
    obtain ⟨_, _, hnumber⟩ := except_bind_eq_ok.1 hx
    obtain ⟨_, _, hreturn⟩ := except_bind_eq_ok.1 hnumber
    cases hreturn
    exact hsame
  case h_11 | h_12 | h_13 | h_14 | h_15 =>
    obtain ⟨_, _, hreturn⟩ := except_bind_eq_ok.1 hx
    cases hreturn
    exact hadd _
  all_goals
    obtain ⟨_, _, hreturn⟩ := except_bind_eq_ok.1 hx
    cases hreturn
    exact hsame

/-- A conversion keeps the objects that are there. -/
lemma convert_grows {x y : Item} {a' : Heap} {id : Nat} {target : ItemType}
    (hx : a.convert id x target = .ok (y, a')) :
    a.size ≤ a'.size ∧ ∀ k < a.size, a'.objects[k]? = a.objects[k]? := by
  unfold Heap.convert at hx
  split at hx
  · cases hx
    exact ⟨Nat.le_refl _, fun _ _ => rfl⟩
  · split at hx
    · cases hx
      exact ⟨Nat.le_refl _, fun _ _ => rfl⟩
    · exact convertKnown_grows hx

/-- How values that are alike are converted: to the same item without a handle, to buffers of the
same bytes, or to compounds with the elements of counterparts. -/
lemma convertKnown_cases {v w y : Item} {a' : Heap} {target : ItemType} (h : a.Simulates ρ b)
    (hvw : v.Alike ρ w) (hx : a.convertKnown v target = .ok (y, a')) :
    (y.handle? = none ∧ a' = a ∧ b.convertKnown w target = .ok (y, b)) ∨
      (∃ bytes, (y, a') = a.newBuffer bytes ∧ b.convertKnown w target = .ok (b.newBuffer bytes)) ∨
      ∃ kind k l xs, ρ k l ∧ a.items k = .ok xs ∧ (y, a') = a.newCompound kind xs ∧
        ∀ ys, b.items l = .ok ys → b.convertKnown w target = .ok (b.newCompound kind ys) := by
  have hplain (hv : v.handle? = none) (heq : v = w) := heq ▸ convertKnown_plain b hv hx
  cases hvw with
  | null | boolean _ | integer _ | byteString _ | pointer _ =>
    exact (hplain rfl rfl).imp_right .inl
  | buffer hkl =>
    cases target with
    | boolean =>
      cases hx
      exact .inl ⟨rfl, rfl, rfl⟩
    | integer =>
      obtain ⟨bytes, hbytes, hinteger⟩ := except_bind_eq_ok.1 hx
      obtain ⟨number, hnumber, hreturn⟩ := except_bind_eq_ok.1 hinteger
      cases hreturn
      exact .inl ⟨rfl, rfl, except_bind_eq_ok.2 ⟨bytes, h.bytes hkl hbytes,
        except_bind_eq_ok.2 ⟨number, hnumber, rfl⟩⟩⟩
    | byteString =>
      obtain ⟨bytes?, hbytesOf, hreturn⟩ := except_bind_eq_ok.1 hx
      cases hreturn
      obtain ⟨bytes, hbytes, rfl⟩ := except_map_eq_ok.1 hbytesOf
      exact .inl ⟨rfl, rfl, except_bind_eq_ok.2 ⟨some bytes,
        except_map_eq_ok.2 ⟨bytes, h.bytes hkl hbytes, rfl⟩, rfl⟩⟩
    | _ => cases hx
  | array hkl =>
    cases target with
    | boolean =>
      cases hx
      exact .inl ⟨rfl, rfl, rfl⟩
    | struct =>
      obtain ⟨xs, hxs, hreturn⟩ := except_bind_eq_ok.1 hx
      cases hreturn
      exact .inr (.inr ⟨.struct, _, _, xs, hkl, hxs, rfl, fun ys hys =>
        except_bind_eq_ok.2 ⟨ys, hys, rfl⟩⟩)
    | _ => cases hx
  | struct hkl =>
    cases target with
    | boolean =>
      cases hx
      exact .inl ⟨rfl, rfl, rfl⟩
    | array =>
      obtain ⟨xs, hxs, hreturn⟩ := except_bind_eq_ok.1 hx
      cases hreturn
      exact .inr (.inr ⟨.array, _, _, xs, hkl, hxs, rfl, fun ys hys =>
        except_bind_eq_ok.2 ⟨ys, hys, rfl⟩⟩)
    | _ => cases hx

end Heap.Simulates

end SymbolicScript
