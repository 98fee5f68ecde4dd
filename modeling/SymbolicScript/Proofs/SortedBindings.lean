import SymbolicScript.Proofs.ItemOrder

/-!
# Sorted maps as functions of their keys

A map in order is determined by what it binds its keys to (`SortedMap.Ascending.ext`).  So maps that
have been built from lists of bindings are compared key by key, and of a list of bindings it only
matters which one is the last one of each key (`SortedMap.find?_ofList`).
-/

namespace SymbolicScript

namespace SortedMap

variable {κ ν : Type} [Ord κ]

/-- The map of bindings that are inserted one after another, so that the last one of a key
counts. -/
def ofList (bindings : List (κ × ν)) : SortedMap κ ν :=
  bindings.foldl (fun m b => m.insert b.1 b.2) empty

/-- The map whose values have been changed. -/
def mapValues (change : κ → ν → ν) (m : SortedMap κ ν) : SortedMap κ ν :=
  ⟨m.entries.map fun b => (b.1, change b.1 b.2)⟩

lemma Ascending.mapValues {m : SortedMap κ ν} (h : m.Ascending) (change : κ → ν → ν) :
    (m.mapValues change).Ascending := by
  unfold Ascending keys SortedMap.mapValues at *
  rwa [List.map_map]

variable [Std.LawfulEqOrd κ] {m m' : SortedMap κ ν} {key : κ}

/-- Insertions keep the keys in order. -/
lemma ascending_ofList [Std.TransOrd κ] (bindings : List (κ × ν)) :
    (ofList bindings).Ascending := by
  have hfoldl : ∀ m : SortedMap κ ν, m.Ascending →
      (bindings.foldl (fun m b => m.insert b.1 b.2) m).Ascending := by
    induction bindings with
    | nil => exact fun m hm => hm
    | cons b bindings ih => exact fun m hm => ih _ (hm.insert b.1 b.2)
  exact hfoldl _ ascending_empty

variable [DecidableEq κ]

/-- The first binding is found, or the key is looked up behind it. -/
lemma lookup_cons (key : κ) (b : κ × ν) (bindings : List (κ × ν)) :
    lookup key (b :: bindings) = if key = b.1 then some b.2 else lookup key bindings := by
  simp [lookup]

/-- A changed value is found under its key. -/
lemma find?_mapValues (change : κ → ν → ν) (m : SortedMap κ ν) (key : κ) :
    (m.mapValues change).find? key = (m.find? key).map (change key) := by
  obtain ⟨entries⟩ := m
  unfold mapValues find?
  induction entries with
  | nil => rfl
  | cons b entries ih =>
    rw [List.map_cons, lookup_cons, lookup_cons]
    split
    · next hkey => rw [hkey, Option.map_some]
    · exact ih

/-- Of bindings that are inserted the last one of a key counts. -/
lemma find?_foldl_insert (key : κ) (m : SortedMap κ ν) (bindings : List (κ × ν)) :
    (bindings.foldl (fun m b => m.insert b.1 b.2) m).find? key =
      ((bindings.filter fun b => b.1 = key).getLast?.map Prod.snd).or (m.find? key) := by
  induction bindings generalizing m with
  | nil => rfl
  | cons b bindings ih =>
    rw [List.foldl_cons, ih, find?_insert, List.filter_cons]
    by_cases hkey : b.1 = key
    · rw [if_pos hkey.symm, if_pos (decide_eq_true hkey), List.getLast?_cons]
      cases (bindings.filter fun b => b.1 = key).getLast? <;> rfl
    · rw [if_neg (Ne.symm hkey), if_neg (by simpa using hkey)]

lemma find?_ofList (key : κ) (bindings : List (κ × ν)) :
    (ofList bindings).find? key =
      (bindings.filter fun b => b.1 = key).getLast?.map Prod.snd := by
  rw [ofList, find?_foldl_insert, find?_empty, Option.or_none]

/-- Bindings that are inserted later come first. -/
lemma find?_ofList_append (key : κ) (bindings bindings' : List (κ × ν)) :
    (ofList (bindings ++ bindings')).find? key =
      ((ofList bindings').find? key).or ((ofList bindings).find? key) := by
  rw [find?_ofList, find?_ofList, find?_ofList, List.filter_append, List.getLast?_append,
    Option.map_or]

/-- A key is not bound exactly if it is not among the bindings. -/
lemma find?_ofList_eq_none_iff {bindings : List (κ × ν)} :
    (ofList bindings).find? key = none ↔ key ∉ bindings.map Prod.fst := by
  rw [find?_ofList, Option.map_eq_none_iff, List.getLast?_eq_none_iff, List.filter_eq_nil_iff,
    List.mem_map]
  constructor
  · rintro h ⟨b, hb, hkey⟩
    exact h b hb (decide_eq_true hkey)
  · intro h b hb hkey
    exact h ⟨b, hb, of_decide_eq_true hkey⟩

/-- Where no key is bound twice, every binding counts. -/
lemma find?_ofList_of_mem {bindings : List (κ × ν)} (h : (bindings.map Prod.fst).Nodup)
    {b : κ × ν} (hb : b ∈ bindings) : (ofList bindings).find? b.1 = some b.2 := by
  obtain ⟨front, behind, rfl⟩ := List.append_of_mem hb
  have hbehind : b.1 ∉ behind.map Prod.fst := by
    rw [List.map_append, List.nodup_append] at h
    exact (List.nodup_cons.1 h.2.1).1
  have hcons : b :: behind = [b] ++ behind := rfl
  have hsingle : (ofList [b]).find? b.1 = some b.2 := by simp [find?_ofList]
  rw [find?_ofList_append, hcons, find?_ofList_append, find?_ofList_eq_none_iff.2 hbehind, hsingle]
  rfl

/-- In a map in order a key has the value that it is bound to. -/
lemma Ascending.find?_eq_some_iff (h : m.Ascending) {value : ν} :
    m.find? key = some value ↔ (key, value) ∈ m.entries := by
  obtain ⟨entries⟩ := m
  unfold find?
  unfold Ascending keys at h
  induction entries with
  | nil => simp [lookup]
  | cons b entries ih =>
    obtain ⟨hfirst, hrest⟩ := List.pairwise_cons.1 h
    rw [lookup_cons, List.mem_cons, Prod.ext_iff]
    split
    · next hkey =>
      have hbehind : (key, value) ∉ entries := by
        intro hmem
        have hlt : compare b.1 key = .lt := hfirst key (List.mem_map_of_mem (f := Prod.fst) hmem)
        simp [hkey] at hlt
      simp only [hkey, true_and, Option.some.injEq, eq_comm (a := value)] at hbehind ⊢
      exact (or_iff_left hbehind).symm
    · next hkey => simpa [hkey] using ih hrest

variable [Std.TransOrd κ]

/-- Maps in order that bind the same keys to the same values are the same. -/
lemma Ascending.ext (h : m.Ascending) (h' : m'.Ascending)
    (hfind : ∀ key, m.find? key = m'.find? key) : m = m' := by
  have hmem : ∀ b, b ∈ m.entries ↔ b ∈ m'.entries := fun b => by
    rw [← h.find?_eq_some_iff, ← h'.find?_eq_some_iff, hfind]
  have hpairwise : ∀ {m : SortedMap κ ν}, m.Ascending →
      m.entries.Pairwise fun b c => compare b.1 c.1 = .lt := fun hm => List.pairwise_map.1 hm
  have hnodup : ∀ {m : SortedMap κ ν}, m.Ascending → m.entries.Nodup := fun hm =>
    (hpairwise hm).imp fun {b c} hlt heq => by simp [heq] at hlt
  have hperm : m.entries.Perm m'.entries :=
    (List.perm_ext_iff_of_nodup (hnodup h) (hnodup h')).2 hmem
  have hentries : m.entries = m'.entries := by
    refine hperm.eq_of_pairwise (fun b c _ _ hlt hgt => ?_) (hpairwise h) (hpairwise h')
    have hself : compare b.1 b.1 = .lt := Std.TransCmp.lt_trans hlt hgt
    simp at hself
  cases m
  cases m'
  exact congrArg SortedMap.mk hentries

/-- The bindings of a map in order give the map. -/
lemma Ascending.ofList_entries (h : m.Ascending) : ofList m.entries = m := by
  refine (ascending_ofList _).ext h fun key => ?_
  rw [find?_ofList]
  cases hlast : (m.entries.filter fun b => b.1 = key).getLast? with
  | none =>
    have hnone : m.entries.filter (fun b => b.1 = key) = [] := List.getLast?_eq_none_iff.1 hlast
    refine (Option.eq_none_iff_forall_ne_some.2 fun value hvalue => ?_).symm
    simpa using List.filter_eq_nil_iff.1 hnone _ (h.find?_eq_some_iff.1 hvalue)
  | some b =>
    obtain ⟨hmem, hkey⟩ := List.mem_filter.1 (List.mem_of_getLast? hlast)
    obtain rfl : b.1 = key := by simpa using hkey
    exact (h.find?_eq_some_iff.2 hmem).symm

end SortedMap

end SymbolicScript
