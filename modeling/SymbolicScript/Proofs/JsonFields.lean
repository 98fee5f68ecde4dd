import SymbolicScript.Manifest
import SymbolicScript.Proofs.JsonValues
import SymbolicScript.Proofs.Results

/-!
# Objects that are read by their fields

An object is read field by field: each key that is known gives a member of a record, and the fields
of all other keys are kept as values.  Written back, the record has a value of its own for every key
that is known, followed by the values of the other fields (`Fields.Record`).

What is written says the same as what was read exactly if it does so for each key that is known
(`Fields.Record.canonical_iff`), and the member of such a key has been there.  For the other fields
there is nothing to compare.
-/

namespace SymbolicScript

namespace Fields

open SortedMap (ofList)

variable {depth : Nat} {fields : Fields} {x : Document}

/-! ## Bindings -/

/-- The bindings give each key the value of its field. -/
def Bind (depth : Nat) : Fields → List (String × Json) → Prop :=
  List.Forall₂ fun field b => b.1 = field.1 ∧ field.2.value? depth = some b.2

/-- Fields that have values are bound. -/
lemma exists_bind (h : ∀ field ∈ fields, ∃ value, field.2.value? depth = some value) :
    ∃ bindings, Bind depth fields bindings := by
  refine exists_forall₂ fun field hfield => ?_
  obtain ⟨value, hvalue⟩ := h field hfield
  exact ⟨(field.1, value), rfl, hvalue⟩

namespace Bind

variable {bindings bindings' : List (String × Json)}

/-- Fields have one list of bindings at most. -/
lemma unique (h : Bind depth fields bindings) (h' : Bind depth fields bindings') :
    bindings = bindings' := by
  refine List.right_unique_forall₂' (fun field b b' hb hb' => ?_) h h'
  have hvalue : some b.2 = some b'.2 := hb.2.symm.trans hb'.2
  exact Prod.ext (hb.1.trans hb'.1.symm) (Option.some.inj hvalue)

/-- Fields that are chosen by their keys have the bindings with these keys. -/
lemma filter (h : Bind depth fields bindings) (p : String → Bool) :
    Bind depth (fields.filter fun field => p field.1) (bindings.filter fun b => p b.1) := by
  refine List.rel_filter (fun field b hb => ?_) h
  exact iff_of_eq (congrArg (fun key => p key = true) hb.1.symm)

/-- The keys are those of the fields. -/
lemma keys_eq (h : Bind depth fields bindings) :
    bindings.map Prod.fst = fields.map Prod.fst := by
  induction h with
  | nil => rfl
  | cons hfirst _ ih => rw [List.map_cons, List.map_cons, hfirst.1, ih]

/-- A binding is the one of some field. -/
lemma exists_field (h : Bind depth fields bindings) {b : String × Json} (hb : b ∈ bindings) :
    ∃ field ∈ fields, b.1 = field.1 ∧ field.2.value? depth = some b.2 :=
  exists_mem_of_forall₂ (List.Forall₂.flip h) hb

/-- A field that is bound has a value. -/
lemma exists_value (h : Bind depth fields bindings) {field : String × Document}
    (hfield : field ∈ fields) : ∃ value, field.2.value? depth = some value := by
  obtain ⟨b, -, -, hvalue⟩ := exists_mem_of_forall₂ h hfield
  exact ⟨b.2, hvalue⟩

end Bind

/-- Binding the values of fields inserts their bindings. -/
lemma bind?_eq_some_iff {found : SortedMap String Json} :
    fields.bind? depth = some found ↔
      ∃ bindings, Bind depth fields bindings ∧ found = ofList bindings := by
  unfold bind? ofList
  generalize SortedMap.empty = start
  induction fields generalizing start with
  | nil =>
    constructor
    · intro h
      cases h
      exact ⟨[], .nil, rfl⟩
    · rintro ⟨bindings, hbind, rfl⟩
      cases hbind
      rfl
  | cons field fields ih =>
    rw [List.foldlM_cons]
    constructor
    · intro h
      obtain ⟨value, hvalue, hrest⟩ : ∃ value, field.2.value? depth = some value ∧
          fields.foldlM (fun found field => do
            let value ← field.2.value? depth
            return found.insert field.1 value) (start.insert field.1 value) = some found := by
        simpa [Option.bind_eq_some_iff] using h
      obtain ⟨bindings, hbind, rfl⟩ := (ih _).1 hrest
      exact ⟨(field.1, value) :: bindings, .cons ⟨rfl, hvalue⟩ hbind, rfl⟩
    · rintro ⟨bindings, hbind, rfl⟩
      cases hbind with
      | @cons _ b _ bindings hb hrest =>
        obtain ⟨hkey, hvalue⟩ := hb
        simp only [hvalue, Option.bind_eq_bind, Option.bind_some, ← hkey]
        exact (ih _).2 ⟨bindings, hrest, rfl⟩

/-- The members of an object are read as its fields are bound. -/
lemma memberValues?_eq (found : SortedMap String Json) (members : List (List Nat × Document))
    (h : members.mapM (fun member => (Document.text? member.1).map fun key => (key, member.2)) =
      some fields) :
    Document.memberValues? depth found members =
      fields.foldlM (fun found field => do
        let value ← field.2.value? depth
        return found.insert field.1 value) found := by
  rw [mapM_eq_some_iff] at h
  induction h generalizing found with
  | nil => rfl
  | cons hfield _ ih =>
    obtain ⟨key, hkey, rfl⟩ := Option.map_eq_some_iff.1 hfield
    simp only [Document.memberValues?, hkey, List.foldlM_cons, Option.bind_eq_bind,
      Option.bind_some, Option.bind_assoc, ih]
    rfl

/-- The value of an object has the values of its fields. -/
lemma value?_eq (hfields : ofDocument? x = some fields) (hdepth : depth < Document.maxNesting) :
    x.value? depth = (fields.bind? (depth + 1)).map fun found => .object found.entries := by
  cases x with
  | object members =>
    rw [Document.value?, if_pos hdepth, memberValues?_eq .empty members hfields]
    rfl
  | _ => cases hfields

/-- Values that have been read are in order. -/
lemma Bind.readMembers {bindings : List (String × Json)} (h : Bind depth fields bindings) :
    Json.ReadMembers (ofList bindings) where
  ascending := SortedMap.ascending_ofList bindings
  values key value hvalue := by
    rw [SortedMap.find?_ofList] at hvalue
    obtain ⟨b, hlast, rfl⟩ := Option.map_eq_some_iff.1 hvalue
    have hb : b ∈ bindings := List.mem_of_mem_filter (List.mem_of_getLast? hlast)
    obtain ⟨field, -, -, hread⟩ := h.exists_field hb
    exact Document.canonical_of_value? field.2 hread

/-! ## Single fields -/

/-- A field that there is occurs once. -/
lemma optional?_eq_some_some_iff {key : String} {y : Document} :
    fields.optional? key = some (some y) ↔
      fields.filter (fun field => field.1 = key) = [(key, y)] := by
  have hkeys : ∀ field ∈ fields.filter (fun field => field.1 = key), field.1 = key := by
    intro field hfield
    simpa using (List.mem_filter.1 hfield).2
  unfold optional?
  generalize fields.filter (fun field => field.1 = key) = found at hkeys
  match found, hkeys with
  | [], _ => simp
  | [(k, z)], hkeys =>
    obtain rfl : k = key := hkeys _ (List.mem_singleton.2 rfl)
    simp
  | _ :: _ :: _, _ => simp

/-- A field that there is not does not occur. -/
lemma optional?_eq_some_none_iff {key : String} :
    fields.optional? key = some none ↔ fields.filter (fun field => field.1 = key) = [] := by
  unfold optional?
  generalize fields.filter (fun field => field.1 = key) = found
  match found with
  | [] => simp
  | [(_, _)] => simp
  | _ :: _ :: _ => simp

/-- The value of a field is found under its key. -/
lemma Bind.value?_of_optional {bindings : List (String × Json)} (h : Bind depth fields bindings)
    {key : String} {y : Document} (hy : fields.optional? key = some (some y)) :
    y.value? depth = (ofList bindings).find? key := by
  have hfilter := h.filter fun k => k = key
  rw [optional?_eq_some_some_iff.1 hy] at hfilter
  rw [SortedMap.find?_ofList]
  generalize bindings.filter (fun b => b.1 = key) = found at hfilter
  cases hfilter with
  | cons hb hrest =>
    cases hrest
    exact hb.2

/-- Where there is no field nothing is found. -/
lemma Bind.find?_of_missing {bindings : List (String × Json)} (h : Bind depth fields bindings)
    {key : String} (hmissing : fields.optional? key = some none) :
    (ofList bindings).find? key = none := by
  have hfilter := h.filter fun k => k = key
  rw [optional?_eq_some_none_iff.1 hmissing] at hfilter
  rw [SortedMap.find?_ofList]
  generalize bindings.filter (fun b => b.1 = key) = found at hfilter
  cases hfilter
  rfl

/-- The member of the key occurs once and has a value of the given kind. -/
def Holds (depth : Nat) (fields : Fields) (key : String) (P : Json → Prop) : Prop :=
  ∃ y v, fields.optional? key = some (some y) ∧ y.value? depth = some v ∧ P v

/-- Where the member is known, it is the value of this member that counts. -/
lemma holds_iff {key : String} {y : Document} (hy : fields.optional? key = some (some y))
    {P : Json → Prop} : fields.Holds depth key P ↔ ∃ v, y.value? depth = some v ∧ P v := by
  unfold Holds
  rw [hy]
  constructor
  · rintro ⟨_, v, hsame, hv⟩
    cases hsame
    exact ⟨v, hv⟩
  · rintro ⟨v, hv⟩
    exact ⟨y, v, rfl, hv⟩

/-! ## Records -/

/-- What is written in place of an object: a value for every key that is known, and the values of
the other fields as they are. -/
structure Record (depth : Nat) (fields : Fields) (known : List String)
    (written extra : List (String × Json)) : Prop where
  /-- A value is written for every key that is known. -/
  keys : written.map Prod.fst = known
  /-- The keys are different. -/
  nodup : known.Nodup
  /-- No key that is known occurs twice. -/
  once : ∀ key ∈ known, ∃ y, fields.optional? key = some y
  /-- The values of the other fields. -/
  extra : fields.extra? depth known = some extra

namespace Record

variable {known : List String} {written extra bindings : List (String × Json)}

/-- The other fields are bound on their own. -/
lemma exists_bind (h : Record depth fields known written extra) :
    ∃ others, Bind depth (fields.filter fun field => !known.contains field.1) others ∧
      extra = (ofList others).entries := by
  have hextra := h.extra
  unfold extra? at hextra
  obtain ⟨found, hfound, rfl⟩ := Option.map_eq_some_iff.1 hextra
  obtain ⟨others, hbind, rfl⟩ := bind?_eq_some_iff.1 hfound
  exact ⟨others, hbind, rfl⟩

/-- The values of the other fields are in order. -/
lemma canonicalMembers_extra (h : Record depth fields known written extra) :
    Json.canonicalMembers extra = extra := by
  obtain ⟨others, hbind, rfl⟩ := h.exists_bind
  exact hbind.readMembers.canonicalMembers_eq

/-- The values that are written may be put in order. -/
lemma canonicalMembers_written (h : Record depth fields known written extra) :
    Record depth fields known (Json.canonicalMembers written) extra where
  keys := by
    rw [← h.keys, Json.canonicalMembers_eq_map, List.map_map]
    rfl
  nodup := h.nodup
  once := h.once
  extra := h.extra

/-- Under a key that is known stands what is written for it. -/
lemma find?_known (h : Record depth fields known written extra) {b : String × Json}
    (hb : b ∈ written) : (ofList (written ++ extra)).find? b.1 = some b.2 := by
  obtain ⟨others, hbind, rfl⟩ := h.exists_bind
  have hknown : b.1 ∈ known := h.keys ▸ List.mem_map_of_mem hb
  have hnone : b.1 ∉ others.map Prod.fst := by
    intro hmem
    obtain ⟨other, hother, hkey⟩ := List.mem_map.1 hmem
    obtain ⟨field, hfield, hsame, -⟩ := hbind.exists_field hother
    have hunknown : field.1 ∉ known := by simpa using (List.mem_filter.1 hfield).2
    rw [← hsame, hkey] at hunknown
    exact hunknown hknown
  rw [SortedMap.find?_ofList_append, (SortedMap.ascending_ofList _).ofList_entries,
    SortedMap.find?_ofList_eq_none_iff.2 hnone,
    SortedMap.find?_ofList_of_mem (h.keys ▸ h.nodup) hb]
  rfl

/-- Under any other key stands the value of the field. -/
lemma find?_other (h : Record depth fields known written extra)
    (hbind : Bind depth fields bindings) {key : String} (hkey : key ∉ known) :
    (ofList (written ++ extra)).find? key = (ofList bindings).find? key := by
  obtain ⟨others, hbind', rfl⟩ := h.exists_bind
  obtain rfl : others = bindings.filter fun b => !known.contains b.1 :=
    hbind'.unique (hbind.filter fun key => !known.contains key)
  have hwritten : key ∉ written.map Prod.fst := h.keys ▸ hkey
  have hsame : bindings.filter (fun b => decide (b.1 = key) && !known.contains b.1) =
      bindings.filter fun b => decide (b.1 = key) := by
    refine List.filter_congr fun b _ => ?_
    by_cases hb : b.1 = key
    · simp [hb, hkey]
    · simp [hb]
  rw [SortedMap.find?_ofList_append, (SortedMap.ascending_ofList _).ofList_entries,
    SortedMap.find?_ofList_eq_none_iff.2 hwritten, Option.or_none, SortedMap.find?_ofList,
    SortedMap.find?_ofList, List.filter_filter, hsame]

/-- Fields have values if those with a key that is known do. -/
lemma exists_bind_of_known (h : Record depth fields known written extra)
    (hknown : ∀ key ∈ known, ∃ y v, fields.optional? key = some (some y) ∧
      y.value? depth = some v) :
    ∃ bindings, Bind depth fields bindings := by
  obtain ⟨others, hbind, -⟩ := h.exists_bind
  refine Fields.exists_bind fun field hfield => ?_
  by_cases hkey : field.1 ∈ known
  · obtain ⟨y, v, hy, hv⟩ := hknown _ hkey
    have hmem : field ∈ fields.filter fun f => f.1 = field.1 := by simp [hfield]
    rw [optional?_eq_some_some_iff.1 hy] at hmem
    obtain rfl : field.2 = y := congrArg Prod.snd (List.mem_singleton.1 hmem)
    exact ⟨v, hv⟩
  · have hmem : field ∈ fields.filter fun f => !known.contains f.1 := by simp [hfield, hkey]
    exact hbind.exists_value hmem

/-- The value of an object, with some values of known keys changed, is what is written in its place
exactly if this is so for every key that is known. -/
theorem value?_iff (hfields : ofDocument? x = some fields) (hdepth : depth < Document.maxNesting)
    (h : Record (depth + 1) fields known written extra) (change : String → Json → Json)
    (hchange : ∀ key, key ∉ known → ∀ v, change key v = v) :
    (∃ j, x.value? depth = some j ∧
        Json.object (ofList (written ++ extra)).entries = j.mapMembers change) ↔
      ∀ b ∈ written, fields.Holds (depth + 1) b.1 fun v => b.2 = change b.1 v := by
  rw [value?_eq hfields hdepth]
  constructor
  · rintro ⟨j, hj, hsame⟩ b hb
    obtain ⟨found, hfound, rfl⟩ := Option.map_eq_some_iff.1 hj
    obtain ⟨bindings, hbind, rfl⟩ := bind?_eq_some_iff.1 hfound
    have hmap : ofList (written ++ extra) = (ofList bindings).mapValues change :=
      congrArg SortedMap.mk (Json.object.inj hsame)
    have hfind : ((ofList bindings).find? b.1).map (change b.1) = some b.2 := by
      rw [← SortedMap.find?_mapValues, ← hmap, h.find?_known hb]
    obtain ⟨v, hv, hchanged⟩ := Option.map_eq_some_iff.1 hfind
    obtain ⟨y, hy⟩ := h.once b.1 (h.keys ▸ List.mem_map_of_mem hb)
    cases y with
    | none =>
      rw [hbind.find?_of_missing hy] at hv
      cases hv
    | some y => exact ⟨y, v, hy, (hbind.value?_of_optional hy).trans hv, hchanged.symm⟩
  · intro hwritten
    have hknown : ∀ key ∈ known, ∃ b ∈ written, b.1 = key := by
      intro key hkey
      rw [← h.keys] at hkey
      exact List.mem_map.1 hkey
    obtain ⟨bindings, hbind⟩ := h.exists_bind_of_known fun key hkey => by
      obtain ⟨b, hb, rfl⟩ := hknown key hkey
      obtain ⟨y, v, hy, hv, -⟩ := hwritten b hb
      exact ⟨y, v, hy, hv⟩
    have hmap : ofList (written ++ extra) = (ofList bindings).mapValues change := by
      refine (SortedMap.ascending_ofList _).ext
        ((SortedMap.ascending_ofList _).mapValues change) fun key => ?_
      rw [SortedMap.find?_mapValues]
      by_cases hkey : key ∈ known
      · obtain ⟨b, hb, rfl⟩ := hknown key hkey
        obtain ⟨y, v, hy, hv, hchanged⟩ := hwritten b hb
        rw [h.find?_known hb, ← hbind.value?_of_optional hy, hv, hchanged, Option.map_some]
      · rw [h.find?_other hbind hkey, funext (hchange key hkey)]
        exact Option.map_id'.symm
    refine ⟨_, Option.map_eq_some_iff.2 ⟨_, bind?_eq_some_iff.2 ⟨bindings, hbind, rfl⟩, rfl⟩, ?_⟩
    exact congrArg (fun m => Json.object m.entries) hmap

/-- The same is so for values that are written as they are and put in order. -/
theorem canonical_iff (hfields : ofDocument? x = some fields)
    (hdepth : depth < Document.maxNesting)
    (h : Record (depth + 1) fields known written extra) (change : String → Json → Json)
    (hchange : ∀ key, key ∉ known → ∀ v, change key v = v) :
    (∃ j, x.value? depth = some j ∧
        (Json.object (written ++ extra)).canonical = j.mapMembers change) ↔
      ∀ b ∈ written, fields.Holds (depth + 1) b.1 fun v => b.2.canonical = change b.1 v := by
  have hcanonical : (Json.object (written ++ extra)).canonical =
      .object (ofList (Json.canonicalMembers written ++ extra)).entries := by
    have happend : Json.canonicalMembers (written ++ extra) =
        Json.canonicalMembers written ++ Json.canonicalMembers extra := by
      simp only [Json.canonicalMembers_eq_map, List.map_append]
    rw [Json.canonical, happend, h.canonicalMembers_extra]
  rw [hcanonical, h.canonicalMembers_written.value?_iff hfields hdepth change hchange,
    Json.canonicalMembers_eq_map]
  exact List.forall_mem_map

/-- In particular this is so where the value of one known key is changed. -/
lemma modify_iff (hfields : ofDocument? x = some fields) (hdepth : depth < Document.maxNesting)
    (h : Record (depth + 1) fields known written extra) {key : String} (hkey : key ∈ known)
    (change : Json → Json) :
    (∃ j, x.value? depth = some j ∧
        (Json.object (written ++ extra)).canonical = j.modify key change) ↔
      ∀ b ∈ written, fields.Holds (depth + 1) b.1 fun v =>
        b.2.canonical = if b.1 = key then change v else v := by
  refine h.canonical_iff hfields hdepth (fun k v => if k = key then change v else v) ?_
  intro k hk v
  exact if_neg (ne_of_mem_of_not_mem hkey hk).symm

end Record

end Fields

end SymbolicScript
