import SymbolicScript.Proofs.HeapSimulation
import SymbolicScript.Proofs.Meaning

/-!
# Values behind symbolic items

Of two machines of which one knows less than the other, the lesser one holds symbolic items where
the other one may hold anything.  If values are traced, more can be said: where the lesser machine
holds a primitive item and the other one a known item, the known item shows the value that the
primitive item stands for.

What links the two machines is a `Link`: the renaming of handles, the values of the unknowns, and
the bytes of buffers that only the machine that knows more has.  The latter never change, since the
instructions that change an object have to know it, and so their bytes are retained.  A link grows
while the machines run, and what is linked stays so.  A link that does not trace values relates as
much as its renaming does.
-/

namespace SymbolicScript

/-! ## Links -/

/-- What is known of the relation between two machines of which one knows less than the other. -/
structure Link where
  /-- Which handles refer to counterparts. -/
  counterparts : Renaming
  /-- What the unknowns of the lesser machine stand for. -/
  valuation : Valuation
  /-- The identities that the lesser machine has used up. -/
  supply : Nat
  /-- Unknowns that have not been introduced have no value. -/
  unassigned : ∀ id, supply ≤ id → valuation (.fresh id) = none
  /-- The bytes of buffers that only the machine that knows more has. -/
  retained : Nat → Option Bytes
  /-- Whether the values of primitive items are traced. -/
  traces : Prop

namespace Link

/-- A link grows if more handles are related, more unknowns get a value and more buffers are
retained. -/
instance : Preorder Link where
  le L L' := L.counterparts ≤ L'.counterparts ∧
    (∀ origin, Completes (L'.valuation origin) (L.valuation origin)) ∧
    (∀ l, Completes (L'.retained l) (L.retained l)) ∧ (L'.traces ↔ L.traces)
  le_refl _ := ⟨le_refl _, fun _ _ h => h, fun _ _ h => h, Iff.rfl⟩
  le_trans _ _ _ h h' :=
    ⟨le_trans h.1 h'.1, fun origin v hv => h'.2.1 origin v (h.2.1 origin v hv),
      fun l bytes hbytes => h'.2.2.1 l bytes (h.2.2.1 l bytes hbytes), h'.2.2.2.trans h.2.2.2⟩

variable {L L' : Link}

lemma counterparts_le (h : L ≤ L') : L.counterparts ≤ L'.counterparts :=
  h.1

lemma valuation_le (h : L ≤ L') (origin : UnknownOrigin) :
    Completes (L'.valuation origin) (L.valuation origin) :=
  h.2.1 origin

lemma retained_le (h : L ≤ L') (l : Nat) : Completes (L'.retained l) (L.retained l) :=
  h.2.2.1 l

lemma traces_iff (h : L ≤ L') : L'.traces ↔ L.traces :=
  h.2.2.2

/-- The link that relates handles and traces no values. -/
def ofRenaming (ρ : Renaming) : Link where
  counterparts := ρ
  valuation _ := none
  supply := 0
  unassigned _ _ := rfl
  retained _ := none
  traces := False

/-- The link with another renaming of handles. -/
def rename (L : Link) (ρ : Renaming) : Link :=
  { L with counterparts := ρ }

lemma le_rename {ρ : Renaming} (h : L.counterparts ≤ ρ) : L ≤ L.rename ρ :=
  ⟨h, fun _ _ hv => hv, fun _ _ hbytes => hbytes, Iff.rfl⟩

/-- The link under which an identity is used up. -/
def introduce (L : Link) (id : Nat) : Link :=
  { L with
    supply := max L.supply (id + 1)
    unassigned := fun id' hid => L.unassigned id' (Nat.le_trans (Nat.le_max_left _ _) hid) }

lemma le_introduce (L : Link) (id : Nat) : L ≤ L.introduce id :=
  ⟨le_refl _, fun _ _ hv => hv, fun _ _ hbytes => hbytes, Iff.rfl⟩

/-- The link under which an unknown that has been introduced has a value. -/
def assign (L : Link) (id : Nat) (v : Value) (hid : id < L.supply) : Link :=
  { L with
    valuation := Function.update L.valuation (.fresh id) (some v)
    unassigned := fun id' hid' => by
      have hne : UnknownOrigin.fresh id' ≠ .fresh id := by
        rintro ⟨⟩
        exact Nat.lt_irrefl _ (Nat.lt_of_lt_of_le hid hid')
      exact (Function.update_of_ne hne _ _).trans (L.unassigned id' hid') }

lemma le_assign {id : Nat} (hid : id < L.supply) (h : L.valuation (.fresh id) = none) (v : Value) :
    L ≤ L.assign id v hid := by
  refine ⟨le_refl _, fun origin w hw => ?_, fun _ _ hbytes => hbytes, Iff.rfl⟩
  have hne : origin ≠ .fresh id := by
    rintro rfl
    rw [h] at hw
    cases hw
  exact (Function.update_of_ne hne _ _).trans hw

/-- The link under which a buffer is retained. -/
def retain (L : Link) (l : Nat) (bytes : Bytes) : Link :=
  { L with retained := Function.update L.retained l (some bytes) }

lemma le_retain {l : Nat} (h : L.retained l = none) (bytes : Bytes) : L ≤ L.retain l bytes := by
  refine ⟨le_refl _, fun _ _ hv => hv, fun l' bytes' hbytes => ?_, Iff.rfl⟩
  have hne : l' ≠ l := by
    rintro rfl
    rw [h] at hbytes
    cases hbytes
  exact (Function.update_of_ne hne _ _).trans hbytes

end Link

variable {L L' : Link}

/-! ## Items -/

namespace Item

/-- If values are traced, the second item shows what the first one stands for, where the first one
is primitive and the second one known. -/
def Denotes (L : Link) (x y : Item) : Prop :=
  L.traces → x.Primitive → y.known?.isSome →
    ∃ v, y.Shows L.retained v ∧ x.meaning L.valuation = some v

/-- If values are traced, what the machine that knows more reads off an operand can be read off the
value that the operand of the lesser machine stands for. -/
def Foretells {α : Type} (L : Link) (x : Item) (read : Value → Option α) (result : Option α) :
    Prop :=
  L.traces → x.Primitive → ∀ r, result = some r →
    ∃ v, x.meaning L.valuation = some v ∧ read v = some r

/-- Where the first item is known, the second one is the same up to the renaming of handles, and
where it is symbolic, the second one shows what it stands for. -/
structure Linked (L : Link) (x y : Item) : Prop where
  /-- The second item knows more. -/
  approximates : x.Approximates L.counterparts y
  /-- The second item shows what the first one stands for. -/
  denotes : x.Denotes L y

/-- Wrapping does not change what an item stands for. -/
lemma meaning_constant (σ : Valuation) (x : Item) : x.constant.meaning σ = x.meaning σ := by
  cases x <;> rfl

lemma Primitive.of_constant {x : Item} (h : x.constant.Primitive) : x.Primitive := by
  cases x <;> first | exact h | exact h.of_const

/-- An item shows what it shows when it is wrapped. -/
lemma Shows.constant {retained : Nat → Option Bytes} {y : Item} {v : Value}
    (h : y.Shows retained v) : y.constant.Shows retained v := by
  cases h with
  | plain hy hv => exact .plain (by rwa [known?_constant]) hv
  | buffer hy hbytes => exact .buffer (by rwa [known?_constant]) hbytes

namespace Denotes

variable {x y : Item}

lemma mono (h : x.Denotes L y) (hle : L ≤ L') : x.Denotes L' y := by
  intro htraces hprimitive hy
  obtain ⟨v, hshows, hmeaning⟩ := h ((Link.traces_iff hle).1 htraces) hprimitive hy
  exact ⟨v, hshows.mono (Link.retained_le hle), meaning_mono (Link.valuation_le hle) x v hmeaning⟩

/-- Nothing is to be shown where both items are symbolic. -/
lemma of_symbolic (hy : y.known? = none) (x : Item) : x.Denotes L y := by
  intro _ _ hknown
  rw [hy] at hknown
  cases hknown

/-- A known item that approximates another one stands for what that shows. -/
lemma of_known (h : x.Approximates L.counterparts y) (hx : x.known? ≠ none) : x.Denotes L y := by
  intro _ hprimitive _
  obtain ⟨v, hv⟩ := Option.ne_none_iff_exists'.1 hx
  obtain ⟨w, hw, hvw⟩ := h v hv
  have hhandle := hprimitive.handle?_of_type rfl
  have hplain := (handle?_known hv).trans hhandle
  have heq : w = v := by
    cases hvw with
    | buffer | array | struct => cases hplain
    | _ => rfl
  subst heq
  exact ⟨.plain w, .plain hw hplain, meaning_of_known hv hhandle⟩

lemma constant (h : x.Denotes L y) : x.constant.Denotes L y.constant := by
  intro htraces hprimitive hy
  rw [known?_constant] at hy
  obtain ⟨v, hshows, hmeaning⟩ := h htraces hprimitive.of_constant hy
  exact ⟨v, hshows.constant, (meaning_constant _ x).trans hmeaning⟩

/-- A struct shows no value, so an item that it is held for mentions an object. -/
lemma not_primitive_of_struct {l : Nat} (h : x.Denotes L y) (hy : y.known? = some (.struct l))
    (htraces : L.traces) : ¬x.Primitive := by
  intro hprimitive
  obtain ⟨v, hshows, -⟩ := h htraces hprimitive (by rw [hy, Option.isSome_some])
  cases hshows with
  | plain hy' hv =>
    cases hy.symm.trans hy'
    cases hv
  | buffer hy' _ => cases hy.symm.trans hy'

/-- What is read off the second item can be read off what the first one stands for if it can be read
off what the second one shows. -/
lemma foretells {α : Type} {read : Value → Option α} {result : Option α} (h : x.Denotes L y)
    (hnone : y.known? = none → result = none)
    (hread : ∀ v r, y.Shows L.retained v → result = some r → read v = some r) :
    x.Foretells L read result := by
  intro htraces hprimitive r hr
  have hknown : y.known?.isSome := by
    rw [Option.isSome_iff_ne_none]
    intro hy
    cases hr.symm.trans (hnone hy)
  obtain ⟨v, hshows, hmeaning⟩ := h htraces hprimitive hknown
  exact ⟨v, hmeaning, hread v r hshows hr⟩

/-- The truth value of the second item is that of the value that the first one stands for. -/
lemma boolean? (h : x.Denotes L y) {result : Option Bool} (hy : y.toBoolean? = .ok result) :
    x.Foretells L Value.boolean? result := by
  refine h.foretells (fun hnone => ?_) fun v r hshows hr => hshows.boolean? (hr ▸ hy)
  rw [toBoolean?, hnone] at hy
  cases hy
  rfl

/-- The integer of the second item is that of the value that the first one stands for. -/
lemma integer? (h : x.Denotes L y) {result : Option Int} (hy : y.toInteger? = .ok result) :
    x.Foretells L Value.integer? result := by
  refine h.foretells (fun hnone => ?_) fun v r hshows hr => hshows.integer? (hr ▸ hy)
  rw [toInteger?, hnone] at hy
  cases hy
  rfl

/-- An item that is held for a null stands for null. -/
lemma isNull (h : x.Denotes L y) (hy : y.isNull = true) (htraces : L.traces)
    (hprimitive : x.Primitive) : ∃ v, x.meaning L.valuation = some v ∧ v.isNull = true := by
  have hknown : y.known?.isSome := by
    unfold Item.isNull at hy
    cases hvalue : y.known? with
    | none =>
      rw [hvalue] at hy
      cases hy
    | some _ => rfl
  obtain ⟨v, hshows, hmeaning⟩ := h htraces hprimitive hknown
  exact ⟨v, hmeaning, hshows.isNull hy⟩

end Denotes

namespace Linked

variable {x y : Item}

lemma mono (h : x.Linked L y) (hle : L ≤ L') : x.Linked L' y :=
  ⟨h.approximates.mono (Link.counterparts_le hle), h.denotes.mono hle⟩

/-- Wrapping keeps the relation. -/
lemma constant (h : x.Linked L y) : x.constant.Linked L y.constant :=
  ⟨h.approximates.constant, h.denotes.constant⟩

/-- Symbolic items are linked. -/
lemma of_symbolic (hx : x.known? = none) (hy : y.known? = none) : x.Linked L y :=
  ⟨.of_symbolic hx y, .of_symbolic hy x⟩

/-- A symbolic item is linked to an item that shows what it stands for. -/
lemma of_denotes (hx : x.known? = none) (h : x.Denotes L y) : x.Linked L y :=
  ⟨.of_symbolic hx y, h⟩

/-- Values that are alike are linked. -/
lemma of_alike (h : x.Alike L.counterparts y) : x.Linked L y := by
  refine ⟨.of_alike h, .of_known (.of_alike h) ?_⟩
  rw [h.known_left]
  exact Option.some_ne_none x

/-- An item without a handle is linked to itself. -/
lemma of_handle? (hx : x.handle? = none) : x.Linked L x := by
  cases hknown : x.known? with
  | none => exact .of_symbolic hknown hknown
  | some v =>
    refine ⟨.of_handle? hx, .of_known (.of_handle? hx) ?_⟩
    rw [hknown]
    exact Option.some_ne_none v

/-- If no values are traced, items are linked if the first one approximates the second one. -/
lemma of_approximates {ρ : Renaming} (h : x.Approximates ρ y) : x.Linked (.ofRenaming ρ) y :=
  ⟨h, fun htraces => htraces.elim⟩

end Linked

end Item

/-! ## Heaps -/

/-- Objects of the same form whose elements are linked. -/
inductive HeapObject.Linked (L : Link) : HeapObject → HeapObject → Prop
  | buffer (bytes : Bytes) : Linked L (.buffer bytes) (.buffer bytes)
  | compound (kind : CompoundKind) (readOnly : Bool) {xs ys : List Item}
    (h : List.Forall₂ (Item.Linked L) xs ys) :
    Linked L (.compound kind xs readOnly) (.compound kind ys readOnly)

namespace HeapObject.Linked

variable {o o' : HeapObject}

lemma approximates (h : o.Linked L o') : o.Approximates L.counterparts o' := by
  cases h with
  | buffer bytes => exact .buffer bytes
  | compound kind readOnly h =>
    exact .compound kind readOnly (h.imp fun _ _ hxy => hxy.approximates)

lemma mono (h : o.Linked L o') (hle : L ≤ L') : o.Linked L' o' := by
  cases h with
  | buffer bytes => exact .buffer bytes
  | compound kind readOnly h => exact .compound kind readOnly (h.imp fun _ _ hxy => hxy.mono hle)

end HeapObject.Linked

namespace Heap

/-- Every object of the first heap has one counterpart in the second, to which it is linked.  What
is retained of the second heap has no counterpart. -/
structure Linked (L : Link) (a b : Heap) : Prop extends Simulates L.counterparts a b where
  /-- Objects are linked to their counterparts. -/
  linked : ∀ k l o o', L.counterparts k l → a.objects[k]? = some o → b.objects[l]? = some o' →
    o.Linked L o'
  /-- Buffers hold the bytes that are retained. -/
  retained : ∀ l bytes, L.retained l = some bytes → b.objects[l]? = some (.buffer bytes)
  /-- Counterparts are not retained. -/
  released : ∀ k l, L.counterparts k l → L.retained l = none

namespace Linked

variable {a b : Heap}

/-- If no values are traced, heaps are linked if the first one simulates the second one. -/
lemma of_simulates {ρ : Renaming} (h : a.Simulates ρ b) : a.Linked (.ofRenaming ρ) b where
  toSimulates := h
  linked k l o o' hkl ho ho' := by
    obtain ⟨_, hb, happrox⟩ := h.object_of hkl ho
    cases ho'.symm.trans hb
    cases happrox with
    | buffer bytes => exact .buffer bytes
    | compound kind readOnly hxy =>
      exact .compound kind readOnly (hxy.imp fun _ _ => .of_approximates)
  retained := by
    rintro _ _ ⟨⟩
  released _ _ _ := rfl

/-- The elements of a compound are linked to those of its counterpart. -/
lemma items {k l : Nat} {xs : List Item} (h : a.Linked L b) (hkl : L.counterparts k l)
    (hxs : a.items k = .ok xs) :
    ∃ ys, b.items l = .ok ys ∧ List.Forall₂ (Item.Linked L) xs ys := by
  obtain ⟨kind, readOnly, ho⟩ := items_eq_ok.1 hxs
  obtain ⟨o', ho', -⟩ := h.object_of hkl ho
  cases h.linked k l _ _ hkl ho ho' with
  | compound _ _ hys => exact ⟨_, items_eq_ok.2 ⟨kind, readOnly, ho'⟩, hys⟩

/-- The bytes of the second item are those of the value that the first one stands for. -/
lemma bytes? {x y : Item} (h : a.Linked L b) (hxy : x.Denotes L y) {result : Option Bytes}
    (hy : b.bytesOf y = .ok result) : x.Foretells L Value.bytes? result := by
  refine hxy.foretells (fun hnone => ?_) fun v r hshows hr => hshows.bytes? h.retained (hr ▸ hy)
  rw [bytesOf, hnone] at hy
  cases hy
  rfl

/-- What is behind the handles in use is not retained. -/
lemma retained_size (h : a.Linked L b) : L.retained b.size = none := by
  cases hbytes : L.retained b.size with
  | none => rfl
  | some bytes => exact absurd (lt_size_of_object (h.retained _ _ hbytes)) (Nat.lt_irrefl _)

/-! ### Changing both heaps -/

/-- The machine that knows more may allocate on its own. -/
lemma grow_right {b' : Heap} (h : a.Linked L b) (hsize : b.size ≤ b'.size)
    (hold : ∀ k < b.size, b'.objects[k]? = b.objects[k]?) : a.Linked L b' where
  toSimulates := h.toSimulates.grow_right hsize hold
  linked k l o o' hkl ho ho' :=
    h.linked k l o o' hkl ho ((hold l (h.bounded k l hkl).2).symm.trans ho')
  retained l bytes hbytes := by
    have hobject := h.retained l bytes hbytes
    rw [hold l (lt_size_of_object hobject), hobject]
  released := h.released

/-- The machine that knows more may retain a buffer that it allocates on its own. -/
lemma retain (h : a.Linked L b) (bytes : Bytes) :
    a.Linked (L.retain b.size bytes) (b.add (.buffer bytes)) where
  toSimulates := h.toSimulates.grow_right (by simp) fun _ hk => getElem?_add_of_lt hk
  linked k l o o' hkl ho ho' := by
    rw [getElem?_add_of_lt (h.bounded k l hkl).2] at ho'
    exact (h.linked k l o o' hkl ho ho').mono (Link.le_retain h.retained_size bytes)
  retained l bytes' hbytes := by
    by_cases hl : l = b.size
    · subst hl
      cases (Function.update_self b.size _ _).symm.trans hbytes
      rw [getElem?_add, if_pos rfl]
    · have hold := h.retained l bytes' ((Function.update_of_ne hl _ _).symm.trans hbytes)
      rw [getElem?_add_of_lt (lt_size_of_object hold), hold]
  released k l hkl :=
    (Function.update_of_ne (Nat.ne_of_lt (h.bounded k l hkl).2) _ _).trans (h.released k l hkl)

/-- Both machines may allocate objects that are linked. -/
lemma add {o o' : HeapObject} (h : a.Linked L b)
    (ho : o.Linked (L.rename (L.counterparts.extend a.size b.size)) o') :
    (a.add o).Linked (L.rename (L.counterparts.extend a.size b.size)) (b.add o') where
  toSimulates := h.toSimulates.add ho.approximates
  linked k l p p' hkl hp hp' := by
    rcases hkl with hkl | ⟨rfl, rfl⟩
    · rw [getElem?_add_of_lt (h.bounded k l hkl).1] at hp
      rw [getElem?_add_of_lt (h.bounded k l hkl).2] at hp'
      exact (h.linked k l p p' hkl hp hp').mono (Link.le_rename (L.counterparts.le_extend _ _))
    · rw [getElem?_add, if_pos rfl] at hp hp'
      cases hp
      cases hp'
      exact ho
  retained l bytes hbytes := by
    have hold := h.retained l bytes hbytes
    rw [getElem?_add_of_lt (lt_size_of_object hold), hold]
  released k l hkl := by
    rcases hkl with hkl | ⟨rfl, rfl⟩
    · exact h.released k l hkl
    · exact h.retained_size

/-- Both machines may replace counterparts. -/
lemma put {k l : Nat} {o o' : HeapObject} (h : a.Linked L b) (hkl : L.counterparts k l)
    (ho : o.Linked L o') : (a.put k o).Linked L (b.put l o') where
  toSimulates := h.toSimulates.put hkl ho.approximates
  linked k' l' p p' hkl' hp hp' := by
    obtain ⟨hk, hl⟩ := h.bounded k l hkl
    by_cases hk' : k' = k
    · subst hk'
      cases h.functional _ _ _ hkl hkl'
      rw [getElem?_put_self hk] at hp
      rw [getElem?_put_self hl] at hp'
      cases hp
      cases hp'
      exact ho
    · have hl' : l' ≠ l := by
        rintro rfl
        exact hk' (h.injective _ _ _ hkl' hkl)
      rw [getElem?_put_of_ne hk'] at hp
      rw [getElem?_put_of_ne hl'] at hp'
      exact h.linked k' l' p p' hkl' hp hp'
  retained l' bytes hbytes := by
    have hne : l' ≠ l := by
      rintro rfl
      cases (h.released k l' hkl).symm.trans hbytes
    rw [getElem?_put_of_ne hne]
    exact h.retained l' bytes hbytes
  released := h.released

/-- Changing the elements of counterparts succeeds for the machine that knows more if the change
itself does, and keeps the relation. -/
lemma modifyItems {k l : Nat} {change change' : List Item → Except ExecutionError (List Item)}
    {a' : Heap} (h : a.Linked L b) (hkl : L.counterparts k l)
    (hchange : ∀ xs ys zs, List.Forall₂ (Item.Linked L) xs ys → change xs = .ok zs →
      ∃ zs', change' ys = .ok zs' ∧ List.Forall₂ (Item.Linked L) zs zs')
    (ha : a.modifyItems k change = .ok a') :
    ∃ b', b.modifyItems l change' = .ok b' ∧ a'.Linked L b' := by
  obtain ⟨kind, xs, zs, ho, hzs, rfl⟩ := modifyItems_eq_ok.1 ha
  obtain ⟨o', ho', -⟩ := h.object_of hkl ho
  cases h.linked k l _ _ hkl ho ho' with
  | compound _ _ hys =>
    obtain ⟨zs', hzs', hzz⟩ := hchange _ _ _ hys hzs
    exact ⟨_, modifyItems_eq_ok.2 ⟨kind, _, zs', ho', hzs', rfl⟩, h.put hkl (.compound kind _ hzz)⟩

/-- Changing the bytes of counterparts succeeds for the machine that knows more if the change itself
does, and keeps the relation. -/
lemma modifyBytes {k l : Nat} {change change' : Bytes → Except ExecutionError Bytes} {a' : Heap}
    (h : a.Linked L b) (hkl : L.counterparts k l)
    (hchange : ∀ bytes changed, change bytes = .ok changed → change' bytes = .ok changed)
    (ha : a.modifyBytes k change = .ok a') :
    ∃ b', b.modifyBytes l change' = .ok b' ∧ a'.Linked L b' := by
  obtain ⟨bs, bs', ho, hbs', rfl⟩ := modifyBytes_eq_ok.1 ha
  obtain ⟨o', ho', happrox⟩ := h.object_of hkl ho
  cases happrox with
  | buffer =>
    exact ⟨_, modifyBytes_eq_ok.2 ⟨bs, bs', ho', hchange _ _ hbs', rfl⟩, h.put hkl (.buffer bs')⟩

/-- Both machines may allocate buffers of the same bytes. -/
lemma newBuffer (h : a.Linked L b) (bytes : Bytes) :
    ∃ L', L ≤ L' ∧ L'.supply = L.supply ∧
      (a.newBuffer bytes).2.Linked L' (b.newBuffer bytes).2 ∧
      (a.newBuffer bytes).1.Linked L' (b.newBuffer bytes).1 :=
  ⟨_, Link.le_rename (L.counterparts.le_extend _ _), rfl, h.add (.buffer bytes),
    .of_alike (.buffer (L.counterparts.extend_self _ _))⟩

/-- Both machines may allocate compounds of elements that are linked. -/
lemma newCompound (h : a.Linked L b) (kind : CompoundKind) {xs ys : List Item}
    (hitems : List.Forall₂ (Item.Linked L) xs ys) :
    ∃ L', L ≤ L' ∧ L'.supply = L.supply ∧
      (a.newCompound kind xs).2.Linked L' (b.newCompound kind ys).2 ∧
      (a.newCompound kind xs).1.Linked L' (b.newCompound kind ys).1 := by
  have hle := Link.le_rename (L := L) (L.counterparts.le_extend a.size b.size)
  refine ⟨_, hle, rfl, h.add (.compound kind false (hitems.imp fun _ _ hxy => hxy.mono hle)), ?_⟩
  cases kind with
  | array => exact .of_alike (.array (L.counterparts.extend_self _ _))
  | struct => exact .of_alike (.struct (L.counterparts.extend_self _ _))

/-- The unknowns may get values while the heaps stay as they are. -/
lemma revalue (h : a.Linked L b) (hle : L ≤ L') (hcounterparts : L'.counterparts = L.counterparts)
    (hretained : L'.retained = L.retained) : a.Linked L' b where
  toSimulates := hcounterparts ▸ h.toSimulates
  linked k l o o' hkl ho ho' := (h.linked k l o o' (hcounterparts ▸ hkl) ho ho').mono hle
  retained := hretained ▸ h.retained
  released k l hkl := by
    rw [hretained]
    exact h.released k l (hcounterparts ▸ hkl)

/-! ### Copies -/

section Copy

variable {freeze : Bool} {s t : CopyState} {k l : Nat}

/-- The item that refers to a copy is known. -/
lemma known_of_copyOf {copies : SortedMap Nat Nat} {x : Item} (hx : CopyOf a copies k x) :
    x.known? ≠ none := by
  cases hx with
  | buffer _ => exact Option.some_ne_none _
  | @compound kind _ _ _ _ _ => cases kind <;> exact Option.some_ne_none _

/-- The copied elements of counterparts are linked. -/
lemma copiedAs {x y x' y' : Item} (h : a.Linked L b) (hxy : x.Linked L y)
    (hx : CopiedAs a s.copies x x') (hy : CopiedAs b t.copies y y') :
    x'.Linked (L.rename (Simulates.copyRenaming L.counterparts s.copies t.copies)) y' := by
  refine ⟨h.toSimulates.copiedAs hxy.approximates hx hy, ?_⟩
  unfold CopiedAs at hx hy
  cases hxs : x.structHandle? with
  | none =>
    simp only [hxs] at hx
    subst hx
    cases hys : y.structHandle? with
    | none =>
      simp only [hys] at hy
      subst hy
      exact hxy.denotes.mono (Link.le_rename fun _ _ => .inl)
    | some m =>
      have hstruct := Item.structHandle?_eq_some.1 hys
      exact fun htraces hprimitive =>
        absurd hprimitive (hxy.denotes.not_primitive_of_struct hstruct htraces)
  | some m =>
    obtain ⟨n, -, hmn⟩ := hxy.approximates.struct_left hxs
    simp only [hxs] at hx
    refine .of_known (h.toSimulates.copiedAs hxy.approximates ?_ hy) ?_
    · unfold CopiedAs
      simp only [hxs]
      exact hx
    · exact known_of_copyOf (hx (h.bounded m n hmn).1)

/-- Once counterparts have been copied, copies are linked as their sources are. -/
lemma copy_linked (h : a.Linked L b) (hkl : L.counterparts k l) (hs : s.Consistent a)
    (hsteps : CopyStep a freeze (· = k) ⟨a, .empty⟩ s) (ht : t.Consistent b)
    (htsteps : CopyStep b freeze (· = l) ⟨b, .empty⟩ t) {y : Item} (hy : CopyOf b t.copies l y) :
    s.heap.Linked (L.rename (Simulates.copyRenaming L.counterparts s.copies t.copies)) t.heap where
  toSimulates := h.toSimulates.copy_simulates hkl hs hsteps ht htsteps hy
  linked c d o o' hcd ho ho' := by
    rcases hcd with hcd | ⟨m, n, hmn, hc, hd⟩
    · obtain ⟨hlt, hlt'⟩ := h.bounded c d hcd
      rw [hs.old c hlt] at ho
      rw [ht.old d hlt'] at ho'
      exact (h.linked c d o o' hcd ho ho').mono (Link.le_rename fun _ _ => .inl)
    · obtain ⟨kind, xs, readOnly, _, _, hm, -⟩ := hs.kind m c hc (h.bounded m n hmn).1
      obtain ⟨p, hp, -⟩ := h.object_of hmn hm
      cases h.linked m n _ _ hmn hm hp with
      | compound _ _ hys =>
        obtain ⟨xs', hxs', hxcopied⟩ := hsteps.finished m c (by simp) hc _ _ _ hm
        obtain ⟨ys', hys', hycopied⟩ := htsteps.finished n d (by simp) hd _ _ _ hp
        cases ho.symm.trans hxs'
        cases ho'.symm.trans hys'
        refine .compound _ _ (forall₂_square (fun x y x' y' hxy hx hy => ?_) hys hxcopied hycopied)
        exact h.copiedAs hxy hx hy
  retained l bytes hbytes := by
    have hobject := h.retained l bytes hbytes
    rw [ht.old l (lt_size_of_object hobject), hobject]
  released c d hcd := by
    rcases hcd with hcd | ⟨m, n, -, -, hd⟩
    · exact h.released c d hcd
    · cases hbytes : L.retained d with
      | none => exact hbytes
      | some bytes =>
        have hlt := lt_size_of_object (h.retained d bytes hbytes)
        exact absurd (ht.fresh n d hd).1 (Nat.not_le.2 hlt)

end Copy

/-- What is stored in counterparts is linked. -/
theorem cloneStruct {x y x' y' : Item} {a' b' : Heap} (h : a.Linked L b) (hxy : x.Linked L y)
    (hx : a.cloneStruct x = (.ok x', a')) (hy : b.cloneStruct y = (.ok y', b')) :
    ∃ L', L ≤ L' ∧ L'.supply = L.supply ∧ a'.Linked L' b' ∧ x'.Linked L' y' := by
  rcases Simulates.cloneStruct_cases hx with ⟨hplain, rfl, rfl⟩ | ⟨k, fuel, s, hk, hcopy, rfl⟩
  · rcases Simulates.cloneStruct_cases hy with ⟨-, rfl, rfl⟩ | ⟨l, fuel', t, hl, hcopy', rfl⟩
    · exact ⟨L, le_refl L, rfl, h, hxy⟩
    · obtain ⟨ht, -, -⟩ := copyObject_spec (consistent_start b) hcopy'
      have hstruct := Item.structHandle?_eq_some.1 hl
      exact ⟨L, le_refl L, rfl, h.grow_right ht.size ht.old,
        .of_denotes (hxy.approximates.struct_right hplain hl) fun htraces hprimitive =>
          absurd hprimitive (hxy.denotes.not_primitive_of_struct hstruct htraces)⟩
  · obtain ⟨l, hl, hkl⟩ := hxy.approximates.struct_left hk
    rcases Simulates.cloneStruct_cases hy with ⟨hplain, -, -⟩ | ⟨l', fuel', t, hl', hcopy', rfl⟩
    · rw [hl] at hplain
      cases hplain
    · cases hl.symm.trans hl'
      obtain ⟨hs, hsteps, hof⟩ := copyObject_spec (consistent_start a) hcopy
      obtain ⟨ht, htsteps, hof'⟩ := copyObject_spec (consistent_start b) hcopy'
      obtain ⟨hk', hl'⟩ := h.bounded k l hkl
      have hitem := h.toSimulates.copyOf hkl (hof hk') (hof' hl')
      exact ⟨L.rename (Simulates.copyRenaming L.counterparts s.copies t.copies),
        Link.le_rename fun _ _ => .inl, rfl, h.copy_linked hkl hs hsteps ht htsteps (hof' hl'),
        hitem, .of_known hitem (known_of_copyOf (hof hk'))⟩

/-! ### Conversions -/

/-- A conversion of a known value gives an item of the type asked for. -/
lemma type_of_convertKnown {value y : Item} {b' : Heap} {target : ItemType}
    (hy : b.convertKnown value target = .ok (y, b')) : y.type = target := by
  unfold Heap.convertKnown at hy
  split at hy
  case h_1 | h_16 => cases hy
  case h_6 =>
    obtain ⟨_, -, hrest⟩ := except_bind_eq_ok.1 hy
    obtain ⟨_, -, hreturn⟩ := except_bind_eq_ok.1 hrest
    cases hreturn
    rfl
  all_goals
    obtain ⟨_, -, hreturn⟩ := except_bind_eq_ok.1 hy
    cases hreturn
    rfl

/-- A conversion gives an item of the type asked for. -/
lemma type_of_convert {y y' : Item} {b' : Heap} {id : Nat} {target : ItemType}
    (hy : b.convert id y target = .ok (y', b')) : y'.type = target := by
  unfold Heap.convert at hy
  split at hy
  · cases hy
    rfl
  · next value hvalue =>
    split at hy
    · next htype =>
      cases hy
      rw [← Item.type_known hvalue, htype]
    · exact type_of_convertKnown hy

/-- Items that are linked are converted to such items.  The unknown that a symbolic item is
converted to stands for what the other machine obtains. -/
theorem convert {x y x' y' : Item} {a' b' : Heap} {id id' : Nat} {target : ItemType}
    (h : a.Linked L b) (hxy : x.Linked L y) (hid : id < L.supply)
    (hnone : L.valuation (.fresh id) = none)
    (hx : a.convert id x target = .ok (x', a')) (hy : b.convert id' y target = .ok (y', b')) :
    ∃ L', L ≤ L' ∧ L'.supply = L.supply ∧ a'.Linked L' b' ∧ x'.Linked L' y' := by
  unfold Heap.convert at hx
  cases hv : x.known? with
  | none =>
    simp only [hv] at hx
    cases hx
    obtain ⟨hsize, hold⟩ := Simulates.convert_grows hy
    have hheap := h.grow_right hsize hold
    cases hw : y'.known? with
    | none => exact ⟨L, le_refl L, rfl, hheap, .of_symbolic rfl hw⟩
    | some w =>
      have hle := Link.le_assign hid hnone (.plain w)
      refine ⟨_, hle, rfl, hheap.revalue hle rfl rfl, .of_denotes rfl fun _ hprimitive _ => ?_⟩
      have hhandle := hprimitive.handle?_of_type (type_of_convert hy)
      exact ⟨_, .plain hw ((Item.handle?_known hw).trans hhandle), Function.update_self _ _ _⟩
  | some v =>
    obtain ⟨w, hw, hvw⟩ := hxy.approximates v hv
    unfold Heap.convert at hy
    simp only [hv] at hx
    simp only [hw, hvw.type_eq] at hy
    by_cases htype : v.type = target
    · rw [if_pos htype] at hx hy
      cases hx
      cases hy
      exact ⟨L, le_refl L, rfl, h, hxy⟩
    · rw [if_neg htype] at hx hy
      rcases h.toSimulates.convertKnown_cases hvw hx with
        ⟨hplain, rfl, hconvert⟩ | ⟨bytes, hbuffer, hconvert⟩ |
          ⟨kind, k, l, xs, hkl, hxs, hcompound, hconvert⟩
      · cases hy.symm.trans hconvert
        exact ⟨L, le_refl L, rfl, h, .of_handle? hplain⟩
      · obtain ⟨L', hle, hsupply, hheap, hitem⟩ := h.newBuffer bytes
        cases hbuffer
        cases hy.symm.trans hconvert
        exact ⟨L', hle, hsupply, hheap, hitem⟩
      · obtain ⟨ys, hys, hitems⟩ := h.items hkl hxs
        obtain ⟨L', hle, hsupply, hheap, hitem⟩ := h.newCompound kind hitems
        cases hcompound
        cases hy.symm.trans (hconvert ys hys)
        exact ⟨L', hle, hsupply, hheap, hitem⟩

end Linked

end Heap

end SymbolicScript
