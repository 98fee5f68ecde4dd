import SymbolicScript.Proofs.DataLockstep

/-!
# Instructions on compounds and variables in lockstep

The operands that decide which object or variable an instruction works on have to be known.  The two
machines therefore work on counterparts, and the proofs below only show that each change of a
compound or of a variable keeps counterparts related.  The one exception are instructions that look
at an item: there the lesser machine may push a symbolic item instead.
-/

namespace SymbolicScript

open Exec

variable {L L' : Link}

namespace Semantics

variable (config : Config) (i : Instruction)

/-! ## Creating compounds -/

lemma tracks_popSize (opcode : Opcode) :
    Tracks L (popSize opcode) (popSize opcode) fun m n => m = n := by
  refine (tracks_popCount opcode).bind ?_
  rintro m _ rfl
  exact .ite Iff.rfl (fun _ _ => tracks_pure rfl) fun _ _ => follows_throw

lemma accompanies_pack : Accompanies L (pack i) (pack i) := by
  refine (tracks_popSize i.opcode).bind ?_
  rintro size _ rfl
  exact (tracks_popMany size).bind fun _ _ hxy => accompanies_pushCompound _ hxy

lemma accompanies_newSized : Accompanies L (newSized i) (newSized i) := by
  refine (tracks_popSize i.opcode).bind ?_
  rintro size _ rfl
  exact accompanies_pushCompound _ (forall₂_replicate (.of_handle? rfl) size)

lemma accompanies_newTyped : Accompanies L (newTyped i) (newTyped i) := by
  refine (tracks_same (i.unsignedToken_resolved 0 1)).bind ?_
  rintro byte _ rfl
  cases ItemType.ofByte? (UInt8.ofNat byte) with
  | none => exact follows_throw
  | some type =>
    refine (tracks_popSize i.opcode).bind ?_
    rintro size _ rfl
    refine accompanies_pushCompound _ (forall₂_replicate (.of_handle? ?_) size)
    cases type <;> rfl

/-! ## Operands -/

/-- Objects that are counterparts. -/
inductive Target.Alike (ρ : Renaming) : Target → Target → Prop
  | items {k l : Nat} (h : ρ k l) : Alike ρ (.items k) (.items l)
  | bytes {k l : Nat} (h : ρ k l) : Alike ρ (.bytes k) (.bytes l)

/-- The object that an operand refers to has a counterpart for the machine that knows more. -/
lemma target_ok {ρ : Renaming} {opcode : Opcode} {x y : Item} {t : Target}
    (h : x.Approximates ρ y) (hx : target opcode x = .ok t) :
    ∃ t', target opcode y = .ok t' ∧ t.Alike ρ t' := by
  unfold target at hx ⊢
  cases hv : x.known? with
  | none =>
    rw [hv] at hx
    cases hx
  | some v =>
    obtain ⟨w, hw, hvw⟩ := h v hv
    rw [hv] at hx
    rw [hw]
    cases hvw with
    | array hkl | struct hkl =>
      cases hx
      exact ⟨_, rfl, .items hkl⟩
    | buffer hkl =>
      cases hx
      exact ⟨_, rfl, .bytes hkl⟩
    | _ => cases hx

lemma tracks_target {opcode : Opcode} {x y : Item} (h : x.Linked L y) :
    Tracks L (liftM (target opcode x) : Exec Target) (liftM (target opcode y))
      (Target.Alike L.counterparts) :=
  tracks_lift_ok fun _ => target_ok h.approximates

lemma tracks_itemsTarget {opcode : Opcode} {x y : Item} (h : x.Linked L y) :
    Tracks L (liftM (itemsTarget opcode x) : Exec Nat) (liftM (itemsTarget opcode y))
      L.counterparts := by
  refine tracks_lift_ok fun k hk => ?_
  obtain ⟨t, ht, hreturn⟩ := except_bind_eq_ok.1 hk
  obtain ⟨t', ht', halike⟩ := target_ok h.approximates ht
  cases halike with
  | @items _ l hkl =>
    cases hreturn
    exact ⟨l, except_bind_eq_ok.2 ⟨_, ht', rfl⟩, hkl⟩
  | bytes => cases hreturn

/-- A position is found by the machine that knows more as well. -/
lemma position_ok {ρ : Renaming} {opcode : Opcode} {x y : Item} {length n : Nat}
    (h : x.Approximates ρ y) (hx : position opcode x length = .ok n) :
    position opcode y length = .ok n := by
  obtain ⟨value, hvalue, hrest⟩ := except_bind_eq_ok.1 hx
  cases value with
  | none => cases hrest
  | some value => exact except_bind_eq_ok.2 ⟨some value, h.toInteger?_some hvalue, hrest⟩

/-- The byte that an item denotes is found by the machine that knows more as well. -/
lemma byteValue_ok {ρ : Renaming} {opcode : Opcode} {x y : Item} {byte : UInt8}
    (h : x.Approximates ρ y) (hx : byteValue opcode x = .ok byte) :
    byteValue opcode y = .ok byte := by
  obtain ⟨value, hvalue, hrest⟩ := except_bind_eq_ok.1 hx
  cases value with
  | none => cases hrest
  | some value => exact except_bind_eq_ok.2 ⟨some value, h.toInteger?_some hvalue, hrest⟩

/-! ## Looking into compounds -/

lemma accompanies_unpack : Accompanies L (unpack i) (unpack i) := by
  refine tracks_pop.bind fun x y hxy => (tracks_itemsTarget hxy).bind fun k l hkl =>
    tracks_heap.bind fun a b hab => (tracks_lift_ok fun xs hxs => hab.items hkl hxs).bind
    fun xs ys hitems => ?_
  have hmap : List.Forall₂ (Item.Linked L) (xs.map Item.constant) (ys.map Item.constant) :=
    List.rel_map (fun _ _ h => h.constant) hitems
  refine Tracks.bind (tracks_modifyStack fun _ _ hst => hst.pushAll hmap) fun _ _ _ => ?_
  rw [hitems.length_eq]
  exact accompanies_push rfl

/-- The size of a known value is the same for its counterpart. -/
lemma sizeOf_ok {ρ : Renaming} {a b : Heap} {v w : Item} {n : Nat} (h : a.Simulates ρ b)
    (hvw : v.Alike ρ w) (hn : sizeOf a v = .ok n) : sizeOf b w = .ok n := by
  have hobject : ∀ {k l}, ρ k l → (a.object k).map HeapObject.length = .ok n →
      (b.object l).map HeapObject.length = .ok n := by
    intro k l hkl hlength
    obtain ⟨o, ho, rfl⟩ := except_map_eq_ok.1 hlength
    obtain ⟨o', ho', happrox⟩ := h.object_of hkl (Heap.object_eq_ok.1 ho)
    exact except_map_eq_ok.2 ⟨o', Heap.object_eq_ok.2 ho', happrox.length_eq⟩
  cases hvw with
  | buffer hkl | array hkl | struct hkl => exact hobject hkl hn
  | _ => exact hn

lemma sizeOf_resolved (heap : Heap) (value : Item) :
    SymbolicScript.Resolved (sizeOf heap value) := by
  unfold sizeOf
  split
  case h_4 => exact (heap.bytesOf_resolved _).map _
  all_goals exact (heap.object_resolved _).map _

/-- The size of an item that shows a value is the number of its bytes. -/
lemma bytesOf_of_sizeOf {retained : Nat → Option Bytes} {heap : Heap} {y w : Item} {v : Value}
    {n : Nat} (hy : y.known? = some w) (hshows : y.Shows retained v)
    (hretained : ∀ l bytes, retained l = some bytes → heap.objects[l]? = some (.buffer bytes))
    (hn : sizeOf heap w = .ok n) :
    ∃ bytes, heap.bytesOf y = .ok (some bytes) ∧ bytes.length = n := by
  cases hshows with
  | @plain v hy' hv =>
    cases hy.symm.trans hy'
    unfold Item.handle? at hv
    rw [Item.known?_known hy] at hv
    unfold sizeOf at hn
    split at hn
    case h_4 =>
      obtain ⟨bytes?, hbytes, rfl⟩ := except_map_eq_ok.1 hn
      obtain ⟨bytes, rfl⟩ := Heap.exists_of_bytesOf (Item.known?_known hy) hbytes
      refine ⟨bytes, ?_, rfl⟩
      rw [Heap.bytesOf, Item.known?_known hy] at hbytes
      rw [Heap.bytesOf, hy]
      exact hbytes
    all_goals cases hv
  | @buffer l bytes hy' hbytes =>
    cases hy.symm.trans hy'
    have hobject := hretained l bytes hbytes
    rw [sizeOf, Heap.object_eq_ok.2 hobject] at hn
    cases hn
    refine ⟨bytes, ?_, rfl⟩
    rw [Heap.bytesOf, hy]
    simp only [Heap.bytes_eq_ok.2 hobject]
    rfl

lemma accompanies_size (hhandler : L.traces → JumpTable.standard.handler i.opcode = .size) :
    Accompanies L (size i) (size i) := by
  refine tracks_pop.bind fun x y hxy => ?_
  cases hv : x.known? with
  | some v =>
    obtain ⟨w, hw, hvw⟩ := hxy.approximates v hv
    rw [hw]
    refine tracks_heap.bind fun a b hab => (tracks_lift_ok (Q := fun m n => m = n) fun n hn =>
      ⟨n, sizeOf_ok hab.toSimulates hvw hn, rfl⟩).bind ?_
    rintro n _ rfl
    exact accompanies_push rfl
  | none =>
    cases hw : y.known? with
    | some w =>
      refine .right_heap fun a b hab => .right_lift (sizeOf_resolved b w) fun n hn =>
        accompanies_push_derived rfl fun htraces hprimitive => ?_
      have hx := hprimitive x (by simp)
      obtain ⟨v, hshows, -⟩ := hxy.denotes htraces hx (by rw [hw, Option.isSome_some])
      obtain ⟨bytes, hbytes, rfl⟩ := bytesOf_of_sizeOf hw hshows hab.retained hn
      obtain ⟨v, hmeaning, hv⟩ := hab.bytes? hxy.denotes hbytes htraces hx bytes rfl
      rw [Item.meaning_derived (hhandler htraces) (by decide) (by decide) (.cons hmeaning .nil),
        Opcode.compute, hv]
      rfl
    | none => exact (tracks_push (.of_symbolic rfl rfl)).accompanies

/-- Where the key is known, finding an element is never unresolved. -/
lemma element_resolved {opcode : Opcode} {x key : Item} (heap : Heap)
    (hkey : key.isSymbolic = false) : SymbolicScript.Resolved (element opcode heap x key) := by
  have hposition : ∀ length, SymbolicScript.Resolved (position opcode key length) := by
    intro length
    refine key.toInteger?_resolved.bind fun value hvalue => ?_
    cases value with
    | none =>
      rw [Item.isSymbolic_of_toInteger? hvalue] at hkey
      cases hkey
    | some value => exact .ite (fun _ => .ok _) fun _ => .error rfl
  unfold element
  split
  · exact (heap.items_resolved _).bind fun _ _ => (hposition _).bind fun _ _ => .ok _
  · exact (heap.bytesOf_resolved x).bind fun _ _ => (hposition _).bind fun _ _ => .ok _

/-- An element of a compound, and a byte of anything else. -/
lemma element_eq (opcode : Opcode) (heap : Heap) (x key : Item) :
    element opcode heap x key =
      match x.known? with
      | some (.array handle) | some (.struct handle) => do
        let items ← heap.items handle
        return items.getD (← position opcode key items.length) .null
      | _ => do
        let bytes := (← heap.bytesOf x).getD []
        return .integer (bytes.getD (← position opcode key bytes.length) 0).toNat := by
  unfold element target
  cases x.known? with
  | none => rfl
  | some v => cases v <;> rfl

/-- The element that the lesser machine finds is linked to the one that the other machine finds. -/
lemma element_ok {opcode : Opcode} {a b : Heap} {x y key key' z : Item} (h : a.Linked L b)
    (hxy : x.Linked L y) (hkey : key.Linked L key') (hx : x.isSymbolic = false)
    (hz : element opcode a x key = .ok z) :
    ∃ z', element opcode b y key' = .ok z' ∧ z.Linked L z' := by
  obtain ⟨v, hv⟩ := Item.exists_known?_of_isSymbolic hx
  obtain ⟨w, hw, hvw⟩ := hxy.approximates v hv
  have hitems : ∀ {k l}, L.counterparts k l →
      (do
        let items ← a.items k
        return items.getD (← position opcode key items.length) .null) = .ok z →
      ∃ z', (do
        let items ← b.items l
        return items.getD (← position opcode key' items.length) .null) = .ok z' ∧
          z.Linked L z' := by
    intro k l hkl hfound
    obtain ⟨xs, hxs, hrest⟩ := except_bind_eq_ok.1 hfound
    obtain ⟨n, hn, hreturn⟩ := except_bind_eq_ok.1 hrest
    cases hreturn
    obtain ⟨ys, hys, hitems⟩ := h.items hkl hxs
    rw [hitems.length_eq] at hn
    exact ⟨_, except_bind_eq_ok.2 ⟨ys, hys, except_bind_eq_ok.2
      ⟨n, position_ok hkey.approximates hn, rfl⟩⟩, forall₂_getD hitems (.of_handle? rfl) n⟩
  have hbytes :
      (do
        let bytes := (← a.bytesOf x).getD []
        return Item.integer (bytes.getD (← position opcode key bytes.length) 0).toNat) = .ok z →
      ∃ z', (do
        let bytes := (← b.bytesOf y).getD []
        return Item.integer (bytes.getD (← position opcode key' bytes.length) 0).toNat) = .ok z' ∧
          z.Linked L z' := by
    intro hfound
    obtain ⟨bytes?, hbytes, hrest⟩ := except_bind_eq_ok.1 hfound
    obtain ⟨bytes, rfl⟩ := Heap.exists_of_bytesOf hv hbytes
    obtain ⟨n, hn, hreturn⟩ := except_bind_eq_ok.1 hrest
    cases hreturn
    exact ⟨_, except_bind_eq_ok.2 ⟨_, h.toSimulates.bytesOf_some hxy.approximates hbytes,
      except_bind_eq_ok.2 ⟨n, position_ok hkey.approximates hn, rfl⟩⟩, .of_handle? rfl⟩
  rw [element_eq, hv] at hz
  rw [element_eq, hw]
  cases hvw with
  | array hkl | struct hkl => exact hitems hkl hz
  | _ => exact hbytes hz

/-- An element of an item that shows a value is one of its bytes. -/
lemma bytesOf_of_element {retained : Nat → Option Bytes} {opcode : Opcode} {heap : Heap}
    {y key z : Item} {v : Value} (hshows : y.Shows retained v)
    (hz : element opcode heap y key = .ok z) :
    ∃ bytes n, heap.bytesOf y = .ok (some bytes) ∧ key.toInteger? = .ok (some n) ∧
      z = .integer (bytes.getD n.toNat 0).toNat := by
  obtain ⟨w, hw⟩ := Option.isSome_iff_exists.1 hshows.isSome_known?
  have hcompound : ∀ l, w ≠ .array l ∧ w ≠ .struct l := by
    intro l
    cases hshows with
    | plain hy hv =>
      cases hw.symm.trans hy
      constructor
      · rintro rfl
        cases hv
      · rintro rfl
        cases hv
    | buffer hy _ =>
      cases hw.symm.trans hy
      exact ⟨nofun, nofun⟩
  rw [element_eq, hw] at hz
  split at hz
  case h_1 l heq => exact absurd (Option.some.inj heq) (hcompound l).1
  case h_2 l heq => exact absurd (Option.some.inj heq) (hcompound l).2
  case h_3 =>
    obtain ⟨bytes?, hbytes, hrest⟩ := except_bind_eq_ok.1 hz
    obtain ⟨bytes, rfl⟩ := Heap.exists_of_bytesOf hw hbytes
    obtain ⟨n, hn, hreturn⟩ := except_bind_eq_ok.1 hrest
    cases hreturn
    obtain ⟨value, hvalue, hposition⟩ := except_bind_eq_ok.1 hn
    cases value with
    | none => cases hposition
    | some value =>
      simp only at hposition
      split at hposition
      · cases hposition
        exact ⟨bytes, value, hbytes, hvalue, rfl⟩
      · cases hposition

lemma accompanies_pickItem
    (hhandler : L.traces → JumpTable.standard.handler i.opcode = .pickItem) :
    Accompanies L (pickItem i) (pickItem i) := by
  refine tracks_pop.bind fun key key' hkey => tracks_pop.bind fun x y hxy => ?_
  split
  · split
    · exact (tracks_push (.of_symbolic rfl rfl)).accompanies
    · next hknown =>
      rw [Bool.or_eq_true, not_or, Bool.not_eq_true, Bool.not_eq_true] at hknown
      refine .right_heap fun a b hab => .right_lift (element_resolved b hknown.2) fun z hz => ?_
      obtain ⟨w, hw⟩ := Item.exists_known?_of_isSymbolic hknown.1
      refine (tracks_push_symbolic rfl fun htraces hprimitive _ => ?_).accompanies
      have hx := hprimitive.operand (List.mem_cons_self (a := x))
      have hkeyPrimitive : key.Primitive := hprimitive.operand (by simp)
      obtain ⟨_, hshows, -⟩ := hxy.denotes htraces hx (by rw [hw, Option.isSome_some])
      obtain ⟨bytes, n, hbytes, hn, rfl⟩ := bytesOf_of_element hshows hz
      obtain ⟨v, hmeaning, hv⟩ := hab.bytes? hxy.denotes hbytes htraces hx bytes rfl
      obtain ⟨k, hmeaning', hk⟩ := hkey.denotes.integer? hn htraces hkeyPrimitive n rfl
      refine ⟨_, .plain rfl rfl, ?_⟩
      rw [Item.meaning_derived (hhandler htraces) (by decide) (by decide)
        (.cons hmeaning (.cons hmeaning' .nil)), Opcode.compute, hv, hk]
      rfl
  · next hknown =>
    rw [Bool.or_eq_true, not_or, Bool.not_eq_true, Bool.not_eq_true] at hknown
    rw [if_neg (by
      rw [Bool.or_eq_true, not_or, Bool.not_eq_true, Bool.not_eq_true]
      exact ⟨hxy.approximates.isSymbolic hknown.1, hkey.approximates.isSymbolic hknown.2⟩)]
    exact tracks_heap.bind fun a b hab =>
      (tracks_lift_ok fun z hz => element_ok hab hxy hkey hknown.1 hz).bind fun _ _ hzz =>
        (tracks_push hzz).accompanies

/-! ## Changing compounds -/

/-- Changing the elements of counterparts stays in lockstep if the change itself does. -/
lemma tracks_modifyItems {k l : Nat} (hkl : L.counterparts k l)
    {change change' : List Item → Except ExecutionError (List Item)}
    (hchange : ∀ xs ys zs, List.Forall₂ (Item.Linked L) xs ys → change xs = .ok zs →
      ∃ zs', change' ys = .ok zs' ∧ List.Forall₂ (Item.Linked L) zs zs') :
    Tracks L (modifyItems k change) (modifyItems l change') fun _ _ => True :=
  tracks_heap.bind fun _ _ hab =>
    (tracks_lift_ok fun _ ha => hab.modifyItems hkl hchange ha).bind
      fun _ _ hheap => tracks_setHeap hheap

lemma accompanies_append : Accompanies L (append i) (append i) := by
  refine tracks_pop.bind fun x y hxy => tracks_pop.bind fun compound compound' hcompound =>
    (tracks_itemsTarget hcompound).bind fun k l hkl =>
    (follows_cloneStruct hxy).bind fun L' x' y' hle hcopy => ?_
  have hkl' := Link.counterparts_le hle k l hkl
  refine (tracks_modifyItems hkl' fun xs ys zs hitems hzs => ?_).accompanies
  rw [hitems.length_eq] at hzs
  split at hzs
  · next hlength =>
    cases hzs
    exact ⟨_, if_pos hlength, List.rel_append hitems (.cons hcopy .nil)⟩
  · cases hzs

lemma accompanies_setItem : Accompanies L (setItem i) (setItem i) := by
  refine tracks_pop.bind fun value value' hvalue => tracks_pop.bind fun key key' hkey =>
    tracks_pop.bind fun compound compound' hcompound => (tracks_target hcompound).bind ?_
  rintro _ _ (@⟨k, l, hkl⟩ | @⟨k, l, hkl⟩)
  · refine (follows_cloneStruct hvalue).bind fun L' x y hle hcopy => ?_
    have hkl' := Link.counterparts_le hle k l hkl
    refine (tracks_modifyItems hkl' fun xs ys zs hitems hzs => ?_).accompanies
    obtain ⟨n, hn, hreturn⟩ := except_bind_eq_ok.1 hzs
    cases hreturn
    rw [hitems.length_eq] at hn
    exact ⟨_, except_bind_eq_ok.2 ⟨n, position_ok hkey.approximates hn, rfl⟩,
      forall₂_set hitems hcopy n⟩
  · refine (tracks_lift_ok (Q := fun p q => p = q) fun byte hbyte =>
      ⟨byte, byteValue_ok hvalue.approximates hbyte, rfl⟩).bind ?_
    rintro byte _ rfl
    refine (tracks_modifyBytes hkl fun bytes changed hchanged => ?_).accompanies
    obtain ⟨n, hn, hreturn⟩ := except_bind_eq_ok.1 hchanged
    exact except_bind_eq_ok.2 ⟨n, position_ok hkey.approximates hn, hreturn⟩

lemma accompanies_reverseItems : Accompanies L (reverseItems i) (reverseItems i) := by
  refine tracks_pop.bind fun compound compound' hcompound => (tracks_target hcompound).bind ?_
  rintro _ _ (@⟨k, l, hkl⟩ | @⟨k, l, hkl⟩)
  · refine (tracks_modifyItems hkl fun xs ys zs hitems hzs => ?_).accompanies
    cases hzs
    exact ⟨_, rfl, List.rel_reverse hitems⟩
  · exact (tracks_modifyBytes hkl fun _ _ h => h).accompanies

lemma accompanies_remove : Accompanies L (remove i) (remove i) := by
  refine tracks_pop.bind fun key key' hkey => tracks_pop.bind fun compound compound' hcompound =>
    (tracks_itemsTarget hcompound).bind fun k l hkl =>
    (tracks_modifyItems hkl fun xs ys zs hitems hzs => ?_).accompanies
  obtain ⟨n, hn, hreturn⟩ := except_bind_eq_ok.1 hzs
  cases hreturn
  rw [hitems.length_eq] at hn
  exact ⟨_, except_bind_eq_ok.2 ⟨n, position_ok hkey.approximates hn, rfl⟩,
    forall₂_eraseIdx hitems n⟩

lemma accompanies_clearItems : Accompanies L (clearItems i) (clearItems i) := by
  refine tracks_pop.bind fun compound compound' hcompound =>
    (tracks_itemsTarget hcompound).bind fun k l hkl =>
    (tracks_modifyItems hkl fun xs ys zs hitems hzs => ?_).accompanies
  cases hzs
  exact ⟨_, rfl, .nil⟩

lemma accompanies_popItem : Accompanies L (popItem i) (popItem i) := by
  refine tracks_pop.bind fun compound compound' hcompound =>
    (tracks_itemsTarget hcompound).bind fun k l hkl => tracks_heap.bind fun a b hab => ?_
  refine (tracks_modifyItems hkl fun xs ys zs hitems hzs => ?_).bind fun _ _ _ =>
    (tracks_lift_ok fun xs hxs => hab.items hkl hxs).bind fun xs ys hitems =>
    (tracks_push (forall₂_getLastD hitems (.of_handle? rfl))).accompanies
  split at hzs
  · cases hzs
  · next hnonempty =>
    cases hzs
    refine ⟨_, if_neg ?_, forall₂_dropLast hitems⟩
    rwa [List.isEmpty_iff_length_eq_zero, ← hitems.length_eq, ← List.isEmpty_iff_length_eq_zero]

/-! ## Variables -/

lemma variableIndex_resolved (first : Opcode) :
    SymbolicScript.Resolved (variableIndex first i) :=
  .ite (fun _ => .ok _) fun _ => i.unsignedToken_resolved 0 1

lemma tracks_variablesOf (kind : SlotKind) :
    Tracks L (variablesOf kind) (variablesOf kind) (Variables.Linked L) := by
  cases kind with
  | static => exact tracks_world.bind fun _ _ hw => tracks_pure hw.statics
  | «local» => exact tracks_frame.bind fun _ _ hfg => tracks_pure hfg.locals
  | argument => exact tracks_frame.bind fun _ _ hfg => tracks_pure hfg.arguments

lemma tracks_setVariables (kind : SlotKind) {u v : Variables} (h : u.Linked L v) :
    Tracks L (setVariables kind u) (setVariables kind v) fun _ _ => True := by
  cases kind with
  | static => exact tracks_modifyWorld fun _ _ hw => { hw with statics := h }
  | «local» => exact tracks_frame.bind fun _ _ hfg => tracks_setFrame { hfg with locals := h }
  | argument =>
    exact tracks_frame.bind fun _ _ hfg => tracks_setFrame { hfg with arguments := h }

lemma tracks_isTracked (kind : SlotKind) :
    Tracks L (isTracked kind) (isTracked kind) fun p q => p = q :=
  tracks_get.bind fun _ _ hst => tracks_pure (by rw [hst.depth])

lemma accompanies_load (kind : SlotKind) (first : Opcode) :
    Accompanies L (load kind first i) (load kind first i) := by
  refine (tracks_same (variableIndex_resolved i first)).bind ?_
  rintro index _ rfl
  refine (tracks_variablesOf kind).bind fun u v huv => ?_
  refine (tracks_lift (Q := Item.Linked L) (v.load_resolved index) fun x y hx hy =>
    huv.load hx hy).bind fun x y hxy => ?_
  refine (tracks_isTracked kind).bind ?_
  rintro tracked _ rfl
  exact .ite Iff.rfl (fun _ _ => (tracks_recordRead _ _).bind fun _ _ _ =>
    (tracks_push hxy).accompanies) fun _ _ => (tracks_push hxy).accompanies

lemma accompanies_store (kind : SlotKind) (first : Opcode) :
    Accompanies L (store kind first i) (store kind first i) := by
  refine (tracks_same (variableIndex_resolved i first)).bind ?_
  rintro index _ rfl
  refine tracks_pop.bind fun x y hxy => (tracks_variablesOf kind).bind fun u v huv => ?_
  refine (tracks_lift (Q := Variables.Linked L) (v.store_resolved index y) fun u' v' hu hv =>
    huv.store hxy hu hv).bind fun u' v' huv' => (tracks_setVariables kind huv').bind fun _ _ _ => ?_
  refine (tracks_isTracked kind).bind ?_
  rintro tracked _ rfl
  exact .ite Iff.rfl (fun _ _ => (tracks_recordWrite _ _).accompanies) fun _ _ =>
    accompanies_pure _ _

/-- Initializing variables with related values stays in lockstep. -/
lemma tracks_allocateWith (u v : Variables) {xs ys : List Item}
    (h : List.Forall₂ (Item.Linked L) xs ys) :
    Tracks L (liftM (u.allocateWith xs) : Exec Variables) (liftM (v.allocateWith ys))
      (Variables.Linked L) :=
  tracks_lift (v.allocateWith_resolved ys) fun _ _ hu hv => .allocateWith h hu hv

lemma accompanies_allocateStatics : Accompanies L (allocateStatics i) (allocateStatics i) := by
  refine (tracks_same (i.unsignedToken_resolved 0 1)).bind ?_
  rintro count _ rfl
  exact .check rfl fun _ _ => (tracks_variablesOf .static).bind fun u v _ =>
    (tracks_allocateWith u v (forall₂_replicate (.of_handle? rfl) count)).bind fun _ _ huv =>
      (tracks_setVariables .static huv).accompanies

lemma accompanies_allocateFrame : Accompanies L (allocateFrame i) (allocateFrame i) := by
  refine (tracks_same (i.unsignedToken_resolved 0 1)).bind ?_
  rintro locals _ rfl
  refine (tracks_same (i.unsignedToken_resolved 1 1)).bind ?_
  rintro arguments _ rfl
  refine .check rfl fun _ _ => tracks_frame.bind fun f g hfg => .check rfl fun _ _ =>
    .check rfl fun _ _ => (tracks_popMany arguments).bind fun xs ys hxy => ?_
  exact (tracks_allocateWith f.locals g.locals (forall₂_replicate (.of_handle? rfl) locals)).bind
    fun _ _ hlocals => (tracks_setVariables .local hlocals).bind fun _ _ _ =>
      (tracks_allocateWith f.arguments g.arguments hxy).bind fun _ _ harguments =>
        (tracks_setVariables .argument harguments).accompanies

end Semantics

end SymbolicScript
