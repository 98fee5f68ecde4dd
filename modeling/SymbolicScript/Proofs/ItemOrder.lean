import Mathlib.Tactic.Common
import SymbolicScript.Proofs.AccessTraces

/-!
# Items are totally ordered

Reports list locations in the order of the items that stand for them.  This file shows that the
order deserves the name: it is oriented and transitive (`Item.instTransOrd`), also for accesses.  A
sorted map therefore binds its keys in strictly ascending order, whichever bindings have been
inserted (`SortedMap.Ascending.insert`), and what a tracker lists is sorted and free of repetitions
(`AccessTracker.ascending_recordAll`).

Two items of different forms are compared by the places of their forms, so that a chain of three
items can only be of interest if they are of one form.
-/

namespace SymbolicScript

/-! ## Parts of items -/

instance : Std.TransOrd ItemType where
  eq_swap := Std.OrientedOrd.eq_swap (α := UInt8)
  isLE_trans := Std.TransOrd.isLE_trans (α := UInt8)

instance : Std.TransOrd SlotKind where
  eq_swap := Std.OrientedOrd.eq_swap (α := Nat)
  isLE_trans := Std.TransOrd.isLE_trans (α := Nat)

instance : Std.TransOrd Opcode where
  eq_swap := Std.OrientedOrd.eq_swap (α := UInt8)
  isLE_trans := Std.TransOrd.isLE_trans (α := UInt8)

instance : Std.TransOrd UnknownOrigin where
  eq_swap {a b} := by
    cases a <;> cases b
    · exact Std.OrientedOrd.eq_swap (α := Nat)
    · rfl
    · rfl
    · exact Std.OrientedOrd.eq_swap (α := Nat)
  isLE_trans {a b c} hab hbc := by
    cases a <;> cases b <;> cases c
    all_goals first
      | exact Std.TransOrd.isLE_trans (α := Nat) hab hbc
      | rfl
      | exact nomatch (show Ordering.gt.isLE = true from hab)
      | exact nomatch (show Ordering.gt.isLE = true from hbc)

/-- Of two comparisons one after the other, the second one decides among what the first one finds
equal. -/
lemma then_lt_trans {α : Type} [Ord α] [Std.TransOrd α] [Std.LawfulEqOrd α] {a b c : α}
    {o₁ o₂ o₃ : Ordering} (h : o₁ = .lt → o₂ = .lt → o₃ = .lt)
    (hab : (compare a b).then o₁ = .lt) (hbc : (compare b c).then o₂ = .lt) :
    (compare a c).then o₃ = .lt := by
  rw [Ordering.then_eq_lt] at hab hbc ⊢
  rcases hab with hab | ⟨hab, h₁⟩
  · rcases hbc with hbc | ⟨hbc, -⟩
    · exact .inl (Std.TransCmp.lt_trans hab hbc)
    · rw [← Std.LawfulEqOrd.eq_of_compare hbc]
      exact .inl hab
  · rw [Std.LawfulEqOrd.eq_of_compare hab]
    exact hbc.imp_right fun ⟨hbc, h₂⟩ => ⟨hbc, h h₁ h₂⟩

namespace Item

/-! ## Items -/

/-- Items of different forms compare as their forms do. -/
lemma order_eq_lt_of_rank {a b : Item} (h : a.rank < b.rank) : order a b = .lt := by
  have hne : a.rank ≠ b.rank := Nat.ne_of_lt h
  unfold order
  split
  all_goals first
    | exact absurd rfl hne
    | exact Nat.compare_eq_lt.2 h

/-- A smaller item is not of a later form. -/
lemma rank_le_of_order {a b : Item} (h : order a b = .lt) : a.rank ≤ b.rank := by
  unfold order at h
  split at h
  all_goals first
    | exact Nat.le_refl _
    | exact Nat.le_of_lt (Nat.compare_eq_lt.1 h)

mutual

/-- Exchanging two items turns the order around. -/
lemma order_swap : (a b : Item) → order a b = (order b a).swap
  | null, b => by cases b <;> rfl
  | boolean _, b => by
    cases b with
    | boolean _ => exact Std.OrientedOrd.eq_swap (α := Bool)
    | _ => rfl
  | integer _, b => by
    cases b with
    | integer _ => exact Std.OrientedOrd.eq_swap (α := Int)
    | _ => rfl
  | byteString _, b => by
    cases b with
    | byteString _ => exact Std.OrientedOrd.eq_swap (α := Bytes)
    | _ => rfl
  | pointer _, b => by
    cases b with
    | pointer _ => exact Std.OrientedOrd.eq_swap (α := Nat)
    | _ => rfl
  | buffer _, b => by
    cases b with
    | buffer _ => exact Std.OrientedOrd.eq_swap (α := Nat)
    | _ => rfl
  | array _, b => by
    cases b with
    | array _ => exact Std.OrientedOrd.eq_swap (α := Nat)
    | _ => rfl
  | struct _, b => by
    cases b with
    | struct _ => exact Std.OrientedOrd.eq_swap (α := Nat)
    | _ => rfl
  | unknown t x, b => by
    cases b with
    | unknown u y =>
      simp only [order]
      rw [Ordering.swap_then, ← Std.OrientedOrd.eq_swap (a := t),
        ← Std.OrientedOrd.eq_swap (a := x)]
    | _ => rfl
  | const a, b => by
    cases b with
    | const b => simpa only [order] using order_swap a b
    | _ => rfl
  | slot k x, b => by
    cases b with
    | slot l y =>
      simp only [order]
      rw [Ordering.swap_then, ← Std.OrientedOrd.eq_swap (a := k),
        ← Std.OrientedOrd.eq_swap (a := x)]
    | _ => rfl
  | storage a, b => by
    cases b with
    | storage b => simpa only [order] using order_swap a b
    | _ => rfl
  | derived f as, b => by
    cases b with
    | derived g bs =>
      simp only [order]
      rw [Ordering.swap_then, ← Std.OrientedOrd.eq_swap (a := f), ← orderList_swap as bs]
    | _ => rfl
  | stackDepth, b => by cases b <;> rfl

lemma orderList_swap : (as bs : List Item) → orderList as bs = (orderList bs as).swap
  | [], [] => rfl
  | [], _ :: _ => rfl
  | _ :: _, [] => rfl
  | a :: as, b :: bs => by
    rw [orderList, orderList, Ordering.swap_then, ← order_swap a b, ← orderList_swap as bs]

end

/-- Of three ascending items the last one is of a later form than the first one, or all are of one
form. -/
lemma forms_of_order {a b c : Item} (hab : order a b = .lt) (hbc : order b c = .lt) :
    a.rank < c.rank ∨ a.rank = b.rank ∧ a.rank = c.rank := by
  have hab' := rank_le_of_order hab
  have hbc' := rank_le_of_order hbc
  omega

/-- An item is smaller than what is greater than a greater item if this holds among the items of its
form, which are those that a function makes. -/
lemma order_lt_trans_of_form {α : Type} (make : α → Item) {a : α} {b c : Item}
    (hform : ∀ d : Item, (make a).rank = d.rank → ∃ x, d = make x)
    (htrans : ∀ x y, order (make a) (make x) = .lt → order (make x) (make y) = .lt →
      order (make a) (make y) = .lt)
    (hab : order (make a) b = .lt) (hbc : order b c = .lt) : order (make a) c = .lt := by
  rcases forms_of_order hab hbc with hlt | ⟨hb, hc⟩
  · exact order_eq_lt_of_rank hlt
  · obtain ⟨x, rfl⟩ := hform b hb
    obtain ⟨y, rfl⟩ := hform c hc
    exact htrans x y hab hbc

mutual

/-- The order is transitive. -/
lemma order_lt_trans : {a b c : Item} → order a b = .lt → order b c = .lt → order a c = .lt
  | null, _, _, hab, hbc => by
    refine order_lt_trans_of_form (fun _ : Unit => null) (a := ()) (fun d hd => ?_) nofun hab hbc
    cases d with
    | null => exact ⟨(), rfl⟩
    | _ => cases hd
  | boolean _, _, _, hab, hbc => by
    refine order_lt_trans_of_form boolean (fun d hd => ?_)
      (fun _ _ => Std.TransCmp.lt_trans (α := Bool)) hab hbc
    cases d with
    | boolean x => exact ⟨x, rfl⟩
    | _ => cases hd
  | integer _, _, _, hab, hbc => by
    refine order_lt_trans_of_form integer (fun d hd => ?_)
      (fun _ _ => Std.TransCmp.lt_trans (α := Int)) hab hbc
    cases d with
    | integer x => exact ⟨x, rfl⟩
    | _ => cases hd
  | byteString _, _, _, hab, hbc => by
    refine order_lt_trans_of_form byteString (fun d hd => ?_)
      (fun _ _ => Std.TransCmp.lt_trans (α := Bytes)) hab hbc
    cases d with
    | byteString x => exact ⟨x, rfl⟩
    | _ => cases hd
  | pointer _, _, _, hab, hbc => by
    refine order_lt_trans_of_form pointer (fun d hd => ?_)
      (fun _ _ => Std.TransCmp.lt_trans (α := Nat)) hab hbc
    cases d with
    | pointer x => exact ⟨x, rfl⟩
    | _ => cases hd
  | buffer _, _, _, hab, hbc => by
    refine order_lt_trans_of_form buffer (fun d hd => ?_)
      (fun _ _ => Std.TransCmp.lt_trans (α := Nat)) hab hbc
    cases d with
    | buffer x => exact ⟨x, rfl⟩
    | _ => cases hd
  | array _, _, _, hab, hbc => by
    refine order_lt_trans_of_form array (fun d hd => ?_)
      (fun _ _ => Std.TransCmp.lt_trans (α := Nat)) hab hbc
    cases d with
    | array x => exact ⟨x, rfl⟩
    | _ => cases hd
  | struct _, _, _, hab, hbc => by
    refine order_lt_trans_of_form struct (fun d hd => ?_)
      (fun _ _ => Std.TransCmp.lt_trans (α := Nat)) hab hbc
    cases d with
    | struct x => exact ⟨x, rfl⟩
    | _ => cases hd
  | unknown t x, _, _, hab, hbc => by
    refine order_lt_trans_of_form (fun p : ItemType × UnknownOrigin => unknown p.1 p.2)
      (a := (t, x)) (fun d hd => ?_) (fun _ _ => then_lt_trans Std.TransCmp.lt_trans) hab hbc
    cases d with
    | unknown u y => exact ⟨(u, y), rfl⟩
    | _ => cases hd
  | const a, _, _, hab, hbc => by
    refine order_lt_trans_of_form const (fun d hd => ?_) (fun x y hax hxy => ?_) hab hbc
    · cases d with
      | const x => exact ⟨x, rfl⟩
      | _ => cases hd
    · simp only [order] at hax hxy ⊢
      exact order_lt_trans hax hxy
  | slot k x, _, _, hab, hbc => by
    refine order_lt_trans_of_form (fun p : SlotKind × Nat => slot p.1 p.2) (a := (k, x))
      (fun d hd => ?_) (fun _ _ => then_lt_trans Std.TransCmp.lt_trans) hab hbc
    cases d with
    | slot l y => exact ⟨(l, y), rfl⟩
    | _ => cases hd
  | storage a, _, _, hab, hbc => by
    refine order_lt_trans_of_form storage (fun d hd => ?_) (fun x y hax hxy => ?_) hab hbc
    · cases d with
      | storage x => exact ⟨x, rfl⟩
      | _ => cases hd
    · simp only [order] at hax hxy ⊢
      exact order_lt_trans hax hxy
  | derived f as, _, _, hab, hbc => by
    refine order_lt_trans_of_form (fun p : Opcode × List Item => derived p.1 p.2) (a := (f, as))
      (fun d hd => ?_) (fun x y hax hxy => ?_) hab hbc
    · cases d with
      | derived g bs => exact ⟨(g, bs), rfl⟩
      | _ => cases hd
    · simp only [order] at hax hxy ⊢
      exact then_lt_trans orderList_lt_trans hax hxy
  | stackDepth, _, _, hab, hbc => by
    refine order_lt_trans_of_form (fun _ : Unit => stackDepth) (a := ()) (fun d hd => ?_) nofun
      hab hbc
    cases d with
    | stackDepth => exact ⟨(), rfl⟩
    | _ => cases hd

lemma orderList_lt_trans : {as bs cs : List Item} → orderList as bs = .lt →
    orderList bs cs = .lt → orderList as cs = .lt
  | [], _, _ :: _, _, _ => rfl
  | [], _ :: _, [], _, hbc => by cases hbc
  | [], [], [], hab, _ => by cases hab
  | _ :: _, [], _, hab, _ => by cases hab
  | _ :: _, _ :: _, [], _, hbc => by cases hbc
  | a :: as, b :: bs, c :: cs, hab, hbc => by
    rw [orderList, Ordering.then_eq_lt] at hab hbc ⊢
    rcases hab with hab | ⟨hab, has⟩
    · rcases hbc with hbc | ⟨hbc, -⟩
      · exact .inl (order_lt_trans hab hbc)
      · rw [← eq_of_order hbc]
        exact .inl hab
    · rw [eq_of_order hab]
      exact hbc.imp_right fun ⟨hbc, hbs⟩ => ⟨hbc, orderList_lt_trans has hbs⟩

end

instance instTransOrd : Std.TransOrd Item where
  eq_swap := order_swap _ _
  isLE_trans {a b c} hab hbc := by
    change (order a b).isLE at hab
    change (order b c).isLE at hbc
    change (order a c).isLE
    rw [Ordering.isLE_iff_eq_lt_or_eq_eq] at hab hbc ⊢
    rcases hab with hab | hab
    · rcases hbc with hbc | hbc
      · exact .inl (order_lt_trans hab hbc)
      · rw [← eq_of_order hbc]
        exact .inl hab
    · rw [eq_of_order hab]
      exact hbc

end Item

/-- Accesses compare as the items that stand for them. -/
instance : Std.TransOrd Access where
  eq_swap := Std.OrientedOrd.eq_swap (α := Item)
  isLE_trans := Std.TransOrd.isLE_trans (α := Item)

/-! ## Sorted maps -/

namespace SortedMap

variable {κ ν : Type} [Ord κ]

/-- The bound keys ascend strictly. -/
def Ascending (m : SortedMap κ ν) : Prop :=
  m.keys.Pairwise fun a b => compare a b = .lt

lemma ascending_empty : (empty : SortedMap κ ν).Ascending :=
  List.Pairwise.nil

/-- The keys of a list of bindings after another one has been placed there. -/
lemma mem_keys_place {key a : κ} {value : ν} {bindings : List (κ × ν)}
    (h : a ∈ (place key value bindings).map Prod.fst) :
    a = key ∨ a ∈ bindings.map Prod.fst := by
  induction bindings with
  | nil => exact .inl (by simpa [place] using h)
  | cons binding rest ih =>
    rw [place] at h
    split at h
    · simpa using h
    · simp only [List.map_cons, List.mem_cons] at h ⊢
      exact h.imp_right .inr
    · simp only [List.map_cons, List.mem_cons] at h ⊢
      rcases h with rfl | hrest
      · exact .inr (.inl rfl)
      · exact (ih hrest).imp_right .inr

/-- An inserted binding keeps the keys in order. -/
theorem Ascending.insert [Std.TransOrd κ] [Std.LawfulEqOrd κ] {m : SortedMap κ ν}
    (h : m.Ascending) (key : κ) (value : ν) : (m.insert key value).Ascending := by
  obtain ⟨bindings⟩ := m
  unfold Ascending keys SortedMap.insert at *
  induction bindings with
  | nil => exact List.pairwise_singleton _ _
  | cons binding rest ih =>
    obtain ⟨hfirst, hrest⟩ := List.pairwise_cons.1 h
    rw [place]
    split
    · next hlt =>
      -- The key goes in front, and everything behind is greater than the first key there.
      refine List.pairwise_cons.2 ⟨fun a ha => ?_, h⟩
      rcases List.mem_cons.1 ha with rfl | ha
      · exact hlt
      · exact Std.TransCmp.lt_trans hlt (hfirst a ha)
    · next heq =>
      rw [Std.LawfulEqOrd.eq_of_compare heq]
      exact List.pairwise_cons.2 ⟨hfirst, hrest⟩
    · next hgt =>
      refine List.pairwise_cons.2 ⟨fun a ha => ?_, ih hrest⟩
      rcases mem_keys_place ha with rfl | ha
      · exact Std.OrientedCmp.gt_iff_lt.1 hgt
      · exact hfirst a ha

end SortedMap

namespace AccessTracker

/-- What the tracker lists is sorted and free of repetitions. -/
structure Ascending (t : AccessTracker) : Prop where
  /-- The locations read. -/
  reads : t.reads.Ascending
  /-- The locations written. -/
  writes : t.writes.Ascending

variable {t : AccessTracker}

lemma Ascending.record (h : t.Ascending) (e : AccessEvent) : (t.record e).Ascending := by
  unfold AccessTracker.record
  split
  · unfold recordRead
    split
    · exact h
    · exact ⟨h.reads.insert _ _, h.writes⟩
  · exact ⟨h.reads, h.writes.insert _ _⟩

/-- A tracker that records a trace lists what it has recorded in order. -/
theorem ascending_recordAll (trace : List AccessEvent) : (empty.recordAll trace).Ascending := by
  induction trace using List.reverseRecOn with
  | nil => exact ⟨SortedMap.ascending_empty, SortedMap.ascending_empty⟩
  | append_singleton trace e ih =>
    rw [recordAll_concat]
    exact ih.record e

end AccessTracker

end SymbolicScript
