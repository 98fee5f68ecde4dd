import Mathlib.Tactic.Common
import SymbolicScript.Analysis.Optimize
import SymbolicScript.Proofs.SortedSearch

/-!
# The order of errors

The errors of an analysis are inserted into a log one after the other, each behind all that do not
lie further on in the script.  What comes out is a stable sort of what went in (`StableSort`): the
errors are in the order of their offsets, and errors at one offset in the order in which they were
inserted.  There is only one such order, so the log is determined by what went in
(`StableSort.unique`).

The place of an insertion is found by binary search.  This is sound because the log is sorted
before every insertion, which is the invariant that the induction over the insertions carries
(`ErrorLog.stableSort_insert`).
-/

namespace SymbolicScript

/-! ## Stable sorting -/

/-- The second list is the first one sorted by a key, with ties left in their order. -/
structure StableSort {α : Type} (key : α → Nat) (xs ys : List α) : Prop where
  /-- Every element occurs as often as before. -/
  perm : ys.Perm xs
  /-- The keys do not descend. -/
  sorted : ys.Pairwise fun a b => key a ≤ key b
  /-- The elements with a key are in the order in which they were before. -/
  stable : ∀ k, (ys.filter fun a => key a = k) = xs.filter fun a => key a = k

namespace StableSort

variable {α : Type} {key : α → Nat} {xs ys zs : List α}

/-- Nothing is sorted already. -/
lemma nil : StableSort key [] [] := ⟨.nil, .nil, fun _ => rfl⟩

/-- An element with the key is the first of those with it. -/
private lemma filter_cons_of_eq {x : α} {k : Nat} (hx : key x = k) (xs : List α) :
    ((x :: xs).filter fun a => key a = k) = x :: xs.filter fun a => key a = k :=
  List.filter_cons_of_pos (decide_eq_true hx)

/-- Any other is none of them. -/
private lemma filter_cons_of_ne {x : α} {k : Nat} (hx : key x ≠ k) (xs : List α) :
    ((x :: xs).filter fun a => key a = k) = xs.filter fun a => key a = k :=
  List.filter_cons_of_neg (by simpa using hx)

/-- The first of the elements of a sorted list has the least key. -/
private lemma key_head_le {x y : α} (hsorted : (y :: ys).Pairwise fun a b => key a ≤ key b)
    (hx : x ∈ y :: ys) : key y ≤ key x := by
  rcases List.mem_cons.1 hx with rfl | hx
  · exact Nat.le_refl _
  · exact List.rel_of_pairwise_cons hsorted hx

/-- An element is one of those with its own key. -/
private lemma mem_of_filter_eq {x : α}
    (h : ∀ k, (ys.filter fun a => key a = k) = zs.filter fun a => key a = k) (hx : x ∈ ys) :
    x ∈ zs := by
  have hfiltered : x ∈ zs.filter fun a => key a = key x := by
    rw [← h (key x)]
    exact List.mem_filter.2 ⟨hx, decide_eq_true rfl⟩
  exact (List.mem_filter.1 hfiltered).1

/-- Two sorted lists that agree on the elements of every key are equal. -/
lemma eq_of_filter_eq (hys : ys.Pairwise fun a b => key a ≤ key b)
    (hzs : zs.Pairwise fun a b => key a ≤ key b)
    (h : ∀ k, (ys.filter fun a => key a = k) = zs.filter fun a => key a = k) : ys = zs := by
  induction ys generalizing zs with
  | nil =>
    refine (List.eq_nil_iff_forall_not_mem.2 fun z hz => ?_).symm
    exact List.not_mem_nil (mem_of_filter_eq (fun k => (h k).symm) hz)
  | cons y ys ih =>
    cases zs with
    | nil => exact absurd (mem_of_filter_eq h List.mem_cons_self) List.not_mem_nil
    | cons z zs =>
      -- Both heads have the least key, so both are the first element with that key.
      have hkey : key y = key z := by
        apply Nat.le_antisymm
        · exact key_head_le hys (mem_of_filter_eq (fun k => (h k).symm) List.mem_cons_self)
        · exact key_head_le hzs (mem_of_filter_eq h List.mem_cons_self)
      have hheads := h (key z)
      rw [filter_cons_of_eq hkey, filter_cons_of_eq rfl] at hheads
      obtain ⟨rfl, -⟩ := List.cons.inj hheads
      have htails : ys = zs := by
        apply ih hys.of_cons hzs.of_cons
        intro k
        have hk := h k
        by_cases hy : key y = k
        · rw [filter_cons_of_eq hy, filter_cons_of_eq hy] at hk
          exact (List.cons.inj hk).2
        · rwa [filter_cons_of_ne hy, filter_cons_of_ne hy] at hk
      rw [htails]

/-- A list has one stable sort. -/
theorem unique (hys : StableSort key xs ys) (hzs : StableSort key xs zs) : ys = zs :=
  eq_of_filter_eq hys.sorted hzs.sorted fun k => (hys.stable k).trans (hzs.stable k).symm

/-- Merge sort finds it. -/
lemma mergeSort (key : α → Nat) (xs : List α) :
    StableSort key xs (xs.mergeSort fun a b => key a ≤ key b) := by
  have htrans : ∀ a b c, decide (key a ≤ key b) = true → decide (key b ≤ key c) = true →
      decide (key a ≤ key c) = true := by
    intro a b c hab hbc
    exact decide_eq_true (Nat.le_trans (of_decide_eq_true hab) (of_decide_eq_true hbc))
  have htotal : ∀ a b, (decide (key a ≤ key b) || decide (key b ≤ key a)) = true := by
    intro a b
    simpa only [Bool.or_eq_true, decide_eq_true_eq] using Nat.le_total (key a) (key b)
  have hperm := List.mergeSort_perm xs fun a b => decide (key a ≤ key b)
  constructor
  · exact hperm
  · exact (List.pairwise_mergeSort htrans htotal xs).imp fun hab => of_decide_eq_true hab
  · intro k
    -- The elements with the key are a sorted part of the list, so they stay in their order.
    have hties : (xs.filter fun a => key a = k).Pairwise
        fun a b => decide (key a ≤ key b) = true := by
      refine List.pairwise_filter.2 (List.pairwise_of_forall fun a b ha hb => ?_)
      exact decide_eq_true
        (Nat.le_of_eq ((of_decide_eq_true ha).trans (of_decide_eq_true hb).symm))
    have hsublist := List.sublist_mergeSort htrans htotal hties List.filter_sublist
    have hfiltered := hsublist.filter fun a => decide (key a = k)
    simp only [List.filter_filter, Bool.and_self] at hfiltered
    have hlength := (hperm.filter fun a => decide (key a = k)).length_eq
    exact (hfiltered.eq_of_length hlength.symm).symm

/-- One more element can be put between those that have no greater key and those that have one. -/
lemma insert_between {front back : List α} (h : StableSort key xs (front ++ back)) {x : α}
    (hfront : ∀ y ∈ front, key y ≤ key x) (hback : ∀ y ∈ back, key x < key y) :
    StableSort key (xs ++ [x]) (front ++ x :: back) := by
  constructor
  · calc List.Perm (front ++ x :: back) (x :: (front ++ back)) := List.perm_middle
      List.Perm _ (x :: xs) := h.perm.cons x
      List.Perm _ (xs ++ [x]) := (List.perm_append_singleton x xs).symm
  · obtain ⟨hsorted, hsorted', hacross⟩ := List.pairwise_append.1 h.sorted
    rw [List.pairwise_append, List.pairwise_cons]
    refine ⟨hsorted, ⟨fun y hy => Nat.le_of_lt (hback y hy), hsorted'⟩, fun y hy z hz => ?_⟩
    rcases List.mem_cons.1 hz with rfl | hz
    · exact hfront y hy
    · exact hacross y hy z hz
  · intro k
    have hstable := h.stable k
    rw [List.filter_append] at hstable
    rw [List.filter_append, List.filter_append, ← hstable, List.append_assoc]
    by_cases hx : key x = k
    · -- None of those behind the new element has its key.
      have hnone : (back.filter fun a => key a = k) = [] := by
        refine List.filter_eq_nil_iff.2 fun y hy => ?_
        have hgt := hback y hy
        simp only [decide_eq_true_eq]
        omega
      rw [filter_cons_of_eq hx, filter_cons_of_eq hx, hnone, List.filter_nil, List.nil_append]
    · rw [filter_cons_of_ne hx, filter_cons_of_ne hx, List.filter_nil, List.append_nil]

/-- One more element goes where the elements with no greater key end. -/
theorem insertIdx (h : StableSort key xs ys) {x : α} {place : Nat}
    (hplace : Bisect.Divides (fun y => key y ≤ key x) ys place) :
    StableSort key (xs ++ [x]) (ys.insertIdx place x) := by
  have hlength : (ys.take place).length = place := by
    rw [List.length_take, Nat.min_eq_left hplace.le_length]
  have hinsert : ys.insertIdx place x = ys.take place ++ x :: ys.drop place := by
    calc ys.insertIdx place x
        = (ys.take place ++ ys.drop place).insertIdx (ys.take place).length x := by
          rw [List.take_append_drop, hlength]
      _ = ys.take place ++ x :: ys.drop place :=
          List.modifyTailIdx_add (List.cons x) 0 (ys.take place) (ys.drop place)
  rw [← List.take_append_drop place ys] at h
  rw [hinsert]
  apply h.insert_between
  · intro y hy
    exact of_decide_eq_true (hplace.front hy)
  · intro y hy
    exact Nat.lt_of_not_le (of_decide_eq_false (hplace.back hy))

end StableSort

/-! ## Logs -/

namespace ErrorLog

variable {ε : Type} {log : ErrorLog (Located ε)} {es : List (Located ε)}

/-- The log into which errors have been inserted one after the other. -/
def ofList (es : List (Located ε)) : ErrorLog (Located ε) :=
  es.foldl insert .empty

/-- In a sorted log there is one place behind all errors that lie no further on than an offset, and
the search finds it. -/
theorem divides_iff (h : log.entries.Pairwise fun a b => a.offset ≤ b.offset) (offset place : Nat) :
    Bisect.Divides (fun e => e.offset ≤ offset) log.entries place ↔
      place = Bisect.partitionPoint (fun e => e.offset ≤ offset) log.entries := by
  have hpoint := Bisect.partitionPoint_divides (Bisect.initial_of_sorted h offset)
  constructor
  · intro hplace
    exact hplace.unique hpoint
  · rintro rfl
    exact hpoint

/-- An insertion keeps the log a stable sort of what has been inserted. -/
theorem stableSort_insert (h : StableSort Located.offset es log.entries) (e : Located ε) :
    StableSort Located.offset (es ++ [e]) (log.insert e).entries :=
  h.insertIdx ((divides_iff h.sorted e.offset _).2 rfl)

/-- So do insertions one after the other. -/
theorem stableSort_foldl_insert (later : List (Located ε))
    (h : StableSort Located.offset es log.entries) :
    StableSort Located.offset (es ++ later) (later.foldl insert log).entries := by
  induction later generalizing es log with
  | nil => rwa [List.append_nil]
  | cons e later ih =>
    have hlater := ih (stableSort_insert h e)
    rwa [List.append_assoc] at hlater

/-- A log that is built by insertion is a stable sort of what has been inserted. -/
theorem stableSort_ofList (es : List (Located ε)) :
    StableSort Located.offset es (ofList es).entries :=
  stableSort_foldl_insert es .nil

end ErrorLog

/-! ## Reports -/

namespace Analysis

variable {δ : Type}

/-- A report names the method that it is about, and where the method was declared to begin. -/
lemma analyzeMethod_method (script : Script) (config : Config) (w : Watchdog) (method : Method) :
    (analyzeMethod script config w method).1.name = method.name ∧
      (analyzeMethod script config w method).1.declaredOffset = method.offset := by
  unfold analyzeMethod
  split <;> exact ⟨rfl, rfl⟩

/-- The reports on methods are in the order of the methods. -/
lemma analyzeMethods_methods (script : Script) (config : Config) (w : Watchdog)
    (methods : List Method) :
    ((analyzeMethods script config w methods).1.map fun r => (r.name, r.declaredOffset)) =
      methods.map fun method => (method.name, method.offset) := by
  induction methods generalizing w with
  | nil => rfl
  | cons method rest ih =>
    obtain ⟨hname, hoffset⟩ := analyzeMethod_method script config w method
    simp only [analyzeMethods, List.map_cons, hname, hoffset, ih]

/-- The errors of an analysis are a stable sort of the errors of its reports: they are exactly the
errors of the reports that have one, each as often as it occurs, by script offset, and errors at the
same offset in the order of the reports, which is the order of the methods.  The same holds of every
log that is built by insertion, from any list of located errors.  The log is the result of a merge
sort by offset; the place of every insertion is well defined, and it is the one that the search
finds; and the errors at an offset are those that have been inserted there, in the order of
insertion. -/
theorem errors_stableSort (a : Analysis δ) :
    (∀ ys, StableSort Located.offset (a.reports.filterMap (·.error)) ys ↔ ys = a.errors.entries) ∧
    (∀ (contract : Contract δ) (config : Config) (w : Watchdog),
      ((ofContract contract config w).reports.map fun r => (r.name, r.declaredOffset)) =
        contract.manifest.methods.map fun method => (method.name, method.offset)) ∧
    ∀ {ε : Type} (es : List (Located ε)),
      (∀ ys, StableSort Located.offset es ys ↔ ys = (ErrorLog.ofList es).entries) ∧
      (ErrorLog.ofList es).entries = es.mergeSort (fun e e' => e.offset ≤ e'.offset) ∧
      (∀ offset place,
        Bisect.Divides (fun e => e.offset ≤ offset) (ErrorLog.ofList es).entries place ↔
          place = Bisect.partitionPoint (fun e => e.offset ≤ offset) (ErrorLog.ofList es).entries) ∧
      ∀ offset, (ErrorLog.ofList es).atOffset offset =
        (es.filter fun e => e.offset = offset).map (·.payload) := by
  have hiff {ε : Type} (es ys : List (Located ε)) :
      StableSort Located.offset es ys ↔ ys = (ErrorLog.ofList es).entries := by
    have hlog := ErrorLog.stableSort_ofList es
    constructor
    · intro hys
      exact hys.unique hlog
    · rintro rfl
      exact hlog
  refine ⟨hiff _, fun contract config w => ?_, fun es => ⟨hiff es, ?_, ?_, fun offset => ?_⟩⟩
  · exact analyzeMethods_methods contract.script config w contract.manifest.methods
  · exact ((hiff es _).1 (.mergeSort Located.offset es)).symm
  · exact ErrorLog.divides_iff (ErrorLog.stableSort_ofList es).sorted
  · exact congrArg (List.map _) ((ErrorLog.stableSort_ofList es).stable offset)

/-- The errors at offset nine stay in the order in which they were inserted. -/
example : (ErrorLog.ofList [⟨9, 'a'⟩, ⟨1, 'b'⟩, ⟨9, 'c'⟩, ⟨4, 'd'⟩]).entries =
    [⟨1, 'b'⟩, ⟨4, 'd'⟩, ⟨9, 'a'⟩, ⟨9, 'c'⟩] := by
  cbv

end Analysis

end SymbolicScript
