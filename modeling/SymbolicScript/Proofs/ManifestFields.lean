import SymbolicScript.Proofs.JsonFields

/-!
# What a manifest keeps

A manifest is read, its methods are given new offsets, and it is written back.  The fields that are
not known are kept for the manifest, for its interface and for its methods, but not for parameters,
and a parameter may even be an array instead of an object.  The parameters of a method and whether
it is safe may be missing; they are written all the same.

So what is written says the same as what was read, up to the offsets, exactly if all methods say
what need not be said and no parameter says more than its name and its type
(`Manifest.toJson_withOffsets_iff`).  Values are compared up to the order of members.  Keys that
occur twice do no harm, since of fields that are kept the last one counts on both sides, and all
others must occur once.
-/

namespace SymbolicScript

/-! ## New offsets -/

/-- The method at another offset, if one is given. -/
def Method.withOffset (m : Method) (offset : Option Nat) : Method :=
  { m with offset := offset.getD m.offset }

/-- The manifest whose methods begin at the offsets that are given for their places, and otherwise
where they are. -/
def Manifest.withOffsets (m : Manifest) (offsets : Nat → Option Nat) : Manifest :=
  m.withMethods (m.methods.mapIdx fun i method => method.withOffset (offsets i))

/-- Moving one method gives an offset for its place only. -/
lemma Manifest.setOffset_eq_withOffsets (m : Manifest) (index offset : Nat) :
    m.setOffset index offset = m.withOffsets fun i => if i = index then some offset else none := by
  unfold setOffset withOffsets
  congr 1
  refine List.ext_getElem? fun i => ?_
  rw [List.getElem?_modify, List.getElem?_mapIdx]
  refine congrArg (Option.map · m.methods[i]?) (funext fun method => ?_)
  by_cases hplace : i = index
  · simp [Method.withOffset, hplace]
  · simp [Method.withOffset, hplace, Ne.symm hplace]

namespace Json

/-- The value of an offset that is given, or else the old one. -/
def newOffset (offset : Option Nat) (old : Json) : Json :=
  (offset.map fun n => number (.integer n)).getD old

/-- The value of a method in which the offset has been replaced, if another one is given. -/
def replaceOffset (offset : Option Nat) : Json → Json :=
  modify "offset" (newOffset offset)

/-- The value of a manifest in which the offsets of its methods have been replaced. -/
def replaceOffsets (offsets : Nat → Option Nat) : Json → Json :=
  modify "abi" (modify "methods" (mapElements fun i => replaceOffset (offsets i)))

end Json

/-! ## What is said explicitly -/

/-- The member of an object, which must occur once. -/
def Document.member? (key : String) (x : Document) : Option Document :=
  (Fields.ofDocument? x).bind (·.required? key)

/-- The elements of a member that is an array. -/
def Document.elements? (key : String) (x : Document) : Option (List Document) :=
  (x.member? key).bind elementsOf?

/-- A parameter is an object that has a name and a type only. -/
def Parameter.Explicit (x : Document) : Prop :=
  ∃ fields ∈ Fields.ofDocument? x, ∀ field ∈ fields, field.1 ∈ ["name", "type"]

/-- A method says whether it is safe and which parameters it has, and these have no more than a name
and a type. -/
def Method.Explicit (x : Document) : Prop :=
  (x.member? "safe").isSome ∧
    ∃ parameters ∈ x.elements? "parameters", ∀ p ∈ parameters, Parameter.Explicit p

/-- All methods of a manifest say what need not be said, and nothing that is not kept. -/
def Manifest.Explicit (x : Document) : Prop :=
  ∃ abi ∈ x.member? "abi", ∃ methods ∈ abi.elements? "methods",
    ∀ method ∈ methods, Method.Explicit method

instance : DecidablePred Parameter.Explicit := fun x =>
  inferInstanceAs (Decidable (∃ fields ∈ Fields.ofDocument? x,
    ∀ field ∈ fields, field.1 ∈ ["name", "type"]))

instance : DecidablePred Method.Explicit := fun x =>
  inferInstanceAs (Decidable ((x.member? "safe").isSome ∧
    ∃ parameters ∈ x.elements? "parameters", ∀ p ∈ parameters, Parameter.Explicit p))

instance : DecidablePred Manifest.Explicit := fun x =>
  inferInstanceAs (Decidable (∃ abi ∈ x.member? "abi", ∃ methods ∈ abi.elements? "methods",
    ∀ method ∈ methods, Method.Explicit method))

/-! ## Values of what is read -/

lemma value?_of_stringOf? {x : Document} {s : String} (h : stringOf? x = some s) (depth : Nat) :
    x.value? depth = some (.string s) := by
  cases x with
  | string codes =>
    have htext : Document.text? codes = some s := h
    rw [Document.value?, htext]
    rfl
  | _ => cases h

lemma value?_of_booleanOf? {x : Document} {b : Bool} (h : booleanOf? x = some b) (depth : Nat) :
    x.value? depth = some (.bool b) := by
  cases x with
  | bool value =>
    cases h
    rfl
  | _ => cases h

lemma value?_of_offsetOf? {x : Document} {n : Nat} (h : offsetOf? x = some n) (depth : Nat) :
    x.value? depth = some (.number (.integer n)) := by
  cases x with
  | number numeral =>
    have hvalue : Document.numberValue? numeral = some (.integer n) := by
      rw [offsetOf?] at h
      split at h
      · next value hvalue =>
        obtain ⟨hrange, hn⟩ := Option.ite_none_right_eq_some.1 h
        rw [hvalue, ← Option.some.inj hn, Int.toNat_of_nonneg hrange.1]
      · cases h
    rw [Document.value?, hvalue]
    rfl
  | _ => cases h

lemma eq_array_of_elementsOf? {x : Document} {elements : List Document}
    (h : elementsOf? x = some elements) : x = .array elements := by
  cases x with
  | array _ =>
    cases h
    rfl
  | _ => cases h

/-- A field that is required occurs once. -/
lemma Fields.required?_eq_some_iff {fields : Fields} {key : String} {y : Document} :
    fields.required? key = some y ↔ fields.optional? key = some (some y) := by
  unfold required?
  cases fields.optional? key with
  | none => simp
  | some o => simp

/-- A member of an object is the field of its key. -/
lemma Document.member?_eq_some_iff {x y : Document} {fields : Fields} {key : String}
    (hfields : Fields.ofDocument? x = some fields) :
    x.member? key = some y ↔ fields.optional? key = some (some y) := by
  rw [member?, hfields, Option.bind_some, Fields.required?_eq_some_iff]

/-- The elements of a member are those of the field, which is an array. -/
lemma Document.elements?_eq_some_iff {x : Document} {fields : Fields} {key : String}
    {elements : List Document} (hfields : Fields.ofDocument? x = some fields) :
    x.elements? key = some elements ↔ fields.optional? key = some (some (.array elements)) := by
  rw [elements?, Option.bind_eq_some_iff, ← member?_eq_some_iff hfields]
  constructor
  · rintro ⟨y, hy, helements⟩
    rwa [← eq_array_of_elementsOf? helements]
  · intro h
    exact ⟨_, h, rfl⟩

/-- The member of the key occurs once and is read as `a`. -/
def Fields.Reads {α : Type} (fields : Fields) (key : String) (read : Document → Option α) (a : α) :
    Prop :=
  ∃ y, fields.optional? key = some (some y) ∧ read y = some a

/-- Where what is read tells the value, the member has this value. -/
lemma Fields.Reads.holds {α : Type} {fields : Fields} {key : String} {read : Document → Option α}
    {a : α} (h : fields.Reads key read a) {depth : Nat} {v : Json}
    (hvalue : ∀ y, read y = some a → y.value? depth = some v) {P : Json → Prop} (hv : P v) :
    fields.Holds depth key P := by
  obtain ⟨y, hy, hread⟩ := h
  exact ⟨y, v, hy, hvalue y hread, hv⟩

/-- Elements whose values are what is written for them, in some changed form, and the value of the
list. -/
lemma Document.elementValues?_iff {α : Type} {depth : Nat} {read : Document → Option α}
    {E : Document → Prop} {xs : List Document} {as : List α} (hread : xs.mapM read = some as)
    (written : Nat → α → Json) (change : Nat → Json → Json)
    (h : ∀ i x a, read x = some a →
      ((∃ j, x.value? depth = some j ∧ written i a = change i j) ↔ E x)) :
    (∃ js, elementValues? depth xs = some js ∧ as.mapIdx written = js.mapIdx change) ↔
      ∀ x ∈ xs, E x := by
  rw [mapM_eq_some_iff] at hread
  induction hread generalizing written change with
  | nil => exact iff_of_true ⟨[], rfl, rfl⟩ nofun
  | @cons x a xs as ha _ ih =>
    have hrest := ih (fun i => written (i + 1)) (fun i => change (i + 1)) fun i => h (i + 1)
    rw [List.forall_mem_cons, ← h 0 x a ha, ← hrest, List.mapIdx_cons]
    constructor
    · rintro ⟨js, hjs, hsame⟩
      simp only [elementValues?, Option.bind_eq_bind, Option.bind_eq_some_iff] at hjs
      obtain ⟨j, hj, js, hjs, hsome⟩ := hjs
      cases hsome
      rw [List.mapIdx_cons, List.cons.injEq] at hsame
      exact ⟨⟨j, hj, hsame.1⟩, ⟨js, hjs, hsame.2⟩⟩
    · rintro ⟨⟨j, hj, hfirst⟩, ⟨js, hjs, hbehind⟩⟩
      refine ⟨j :: js, ?_, ?_⟩
      · simp only [elementValues?, hj, hjs]
        rfl
      · rw [List.mapIdx_cons, hfirst, hbehind]

/-- The same for an array of these elements. -/
lemma Document.array_value?_iff {α : Type} {depth : Nat} {read : Document → Option α}
    {E : Document → Prop} {elements : List Document} {as : List α}
    (hread : elements.mapM read = some as) (hdepth : depth < maxNesting)
    (written : Nat → α → Json) (change : Nat → Json → Json)
    (h : ∀ i x a, read x = some a →
      ((∃ j, x.value? (depth + 1) = some j ∧ written i a = change i j) ↔ E x)) :
    (∃ j, (Document.array elements).value? depth = some j ∧
        Json.array (as.mapIdx written) = j.mapElements change) ↔ ∀ x ∈ elements, E x := by
  rw [← elementValues?_iff hread written change h, value?, if_pos hdepth]
  constructor
  · rintro ⟨j, hj, hsame⟩
    obtain ⟨js, hjs, rfl⟩ := Option.map_eq_some_iff.1 hj
    exact ⟨js, hjs, Json.array.inj hsame⟩
  · rintro ⟨js, hjs, hsame⟩
    exact ⟨.array js, Option.map_eq_some_iff.2 ⟨js, hjs, rfl⟩, congrArg Json.array hsame⟩

/-! ## Parameters -/

/-- A parameter is read from an array, or from an object with a name and a type. -/
lemma Parameter.cases_of_ofDocument? {x : Document} {p : Parameter}
    (h : Parameter.ofDocument? x = some p) :
    (∃ elements, x = .array elements) ∨
      ∃ fields, Fields.ofDocument? x = some fields ∧ fields.Reads "name" stringOf? p.name ∧
        fields.Reads "type" stringOf? p.type := by
  unfold Parameter.ofDocument? at h
  split at h
  · exact .inl ⟨_, rfl⟩
  · simp only [Option.bind_eq_bind, Option.bind_eq_some_iff, Fields.required?_eq_some_iff] at h
    obtain ⟨fields, hfields, y, hy, name, hname, z, hz, type, htype, hsome⟩ := h
    cases hsome
    exact .inr ⟨fields, hfields, ⟨y, hy, hname⟩, ⟨z, hz, htype⟩⟩

/-- What is written for a parameter whose fields are known is a record without other fields. -/
lemma Parameter.record {fields : Fields} {p : Parameter} (depth : Nat)
    (hname : fields.Reads "name" stringOf? p.name) (htype : fields.Reads "type" stringOf? p.type)
    (hknown : ∀ field ∈ fields, field.1 ∈ ["name", "type"]) :
    fields.Record depth ["name", "type"] [("name", .string p.name), ("type", .string p.type)] []
    where
  keys := rfl
  nodup := by decide
  once := by
    obtain ⟨y, hy, -⟩ := hname
    obtain ⟨z, hz, -⟩ := htype
    simp [hy, hz]
  extra := by
    have hnone : fields.filter (fun field => !(["name", "type"].contains field.1)) = [] := by
      rw [List.filter_eq_nil_iff]
      intro field hfield
      simp only [Bool.not_eq_true', Bool.not_eq_false]
      exact List.elem_eq_true_of_mem (hknown field hfield)
    rw [Fields.extra?, hnone]
    rfl

/-- The value of a parameter is what is written for it exactly if it is explicit. -/
lemma Parameter.value?_iff {x : Document} {p : Parameter} (h : Parameter.ofDocument? x = some p) :
    (∃ j, x.value? 5 = some j ∧ p.toJson.canonical = j) ↔ Parameter.Explicit x := by
  rcases Parameter.cases_of_ofDocument? h with ⟨elements, rfl⟩ | ⟨fields, hfields, hname, htype⟩
  · refine iff_of_false ?_ ?_
    · rintro ⟨j, hj, rfl⟩
      rw [Document.value?, if_pos (by decide)] at hj
      obtain ⟨values, -, hsame⟩ := Option.map_eq_some_iff.1 hj
      cases hsame
    · rintro ⟨fields, hfields, -⟩
      cases hfields
  · constructor
    · rintro ⟨j, hj, rfl⟩
      refine ⟨fields, hfields, fun field hfield => ?_⟩
      rw [Fields.value?_eq hfields (by decide)] at hj
      obtain ⟨found, hfound, hsame⟩ := Option.map_eq_some_iff.1 hj
      obtain ⟨bindings, hbind, rfl⟩ := Fields.bind?_eq_some_iff.1 hfound
      have hbindings : SortedMap.ofList bindings =
          SortedMap.ofList [("name", .string p.name), ("type", .string p.type)] :=
        congrArg SortedMap.mk (Json.object.inj hsame)
      have hbound : (SortedMap.ofList bindings).find? field.1 ≠ none := by
        rw [Ne, SortedMap.find?_ofList_eq_none_iff, hbind.keys_eq, not_not]
        exact List.mem_map_of_mem hfield
      rwa [hbindings, Ne, SortedMap.find?_ofList_eq_none_iff, not_not] at hbound
    · rintro ⟨fields', hfields', hknown⟩
      obtain rfl : fields' = fields := Option.some.inj (hfields'.symm.trans hfields)
      have hrecord := Parameter.record 6 hname htype hknown
      have hiff := hrecord.canonical_iff hfields (by decide) (fun _ v => v) fun _ _ _ => rfl
      simp only [Json.mapMembers_id] at hiff
      refine hiff.2 (List.forall_mem_cons.2 ⟨?_, List.forall_mem_singleton.2 ?_⟩)
      · exact hname.holds (fun y hy => value?_of_stringOf? hy 6) rfl
      · exact htype.holds (fun y hy => value?_of_stringOf? hy 6) rfl

/-! ## Methods -/

/-- Reads the member of a key, which need not occur. -/
def Fields.readOr? {α : Type} (fields : Fields) (key : String) (default : α)
    (read : Document → Option α) : Option α := do
  match ← fields.optional? key with
  | none => some default
  | some y => read y

/-- A member that is missing is read as the default. -/
lemma Fields.readOr?_eq_some_iff {α : Type} {fields : Fields} {key : String} {default a : α}
    {read : Document → Option α} :
    fields.readOr? key default read = some a ↔
      fields.optional? key = some none ∧ default = a ∨ fields.Reads key read a := by
  unfold readOr? Reads
  cases fields.optional? key with
  | none => simp
  | some o => cases o <;> simp

namespace Method

/-- Reads the parameters of a method. -/
def parametersOf? (y : Document) : Option (List Parameter) :=
  (elementsOf? y).bind fun elements => elements.mapM Parameter.ofDocument?

/-- What a method is read from. -/
structure ReadFrom (fields : Fields) (m : Method) : Prop where
  /-- The name. -/
  name : fields.Reads "name" stringOf? m.name
  /-- The parameters, which may be missing. -/
  parameters : fields.readOr? "parameters" [] parametersOf? = some m.parameters
  /-- The type of the result. -/
  returnType : fields.Reads "returntype" stringOf? m.returnType
  /-- The offset. -/
  offset : fields.Reads "offset" offsetOf? m.offset
  /-- Whether the method is safe, which may be missing. -/
  safe : fields.readOr? "safe" false booleanOf? = some m.safe
  /-- The other fields. -/
  extra : fields.extra? 4 ["name", "parameters", "returntype", "offset", "safe"] = some m.extra

/-- A method is read field by field. -/
lemma ofDocument?_eq (x : Document) :
    Method.ofDocument? x = (Fields.ofDocument? x).bind fun fields =>
      (fields.readOr? "parameters" [] parametersOf?).bind fun parameters =>
        (fields.readOr? "safe" false booleanOf?).bind fun safe => do
          return {
            name := ← stringOf? (← fields.required? "name")
            parameters
            returnType := ← stringOf? (← fields.required? "returntype")
            offset := ← offsetOf? (← fields.required? "offset")
            safe
            extra := ← fields.extra? 4 ["name", "parameters", "returntype", "offset", "safe"] } := by
  unfold Method.ofDocument? Fields.readOr? parametersOf?
  cases Fields.ofDocument? x with
  | none => rfl
  | some fields =>
    dsimp only [Option.bind_eq_bind, Option.bind_some]
    cases fields.optional? "parameters" with
    | none => rfl
    | some o =>
      cases fields.optional? "safe" with
      | none =>
        cases o with
        | none => rfl
        | some y =>
          dsimp only [Option.bind_some]
          rw [Option.bind_assoc]
          rfl
      | some o' =>
        cases o' <;> cases o with
        | none => rfl
        | some y =>
          dsimp only [Option.bind_some]
          rw [Option.bind_assoc]

/-- What is read from a document is read from its fields. -/
lemma readFrom_of_ofDocument? {x : Document} {m : Method} (h : Method.ofDocument? x = some m) :
    ∃ fields, Fields.ofDocument? x = some fields ∧ m.ReadFrom fields := by
  rw [ofDocument?_eq] at h
  simp only [Option.bind_eq_bind, Option.bind_eq_some_iff, Fields.required?_eq_some_iff] at h
  obtain ⟨fields, hfields, parameters, hparameters, safe, hsafe, y, hy, name, hname, z, hz,
    returnType, hreturnType, w, hw, offset, hoffset, extra, hextra, hsome⟩ := h
  cases hsome
  exact ⟨fields, hfields, ⟨y, hy, hname⟩, hparameters, ⟨z, hz, hreturnType⟩, ⟨w, hw, hoffset⟩,
    hsafe, hextra⟩

/-- The fields of a method that are known, as they are written. -/
def written (m : Method) : List (String × Json) :=
  [("name", .string m.name), ("parameters", .array (m.parameters.map Parameter.toJson)),
    ("returntype", .string m.returnType), ("offset", .number (.integer m.offset)),
    ("safe", .bool m.safe)]

/-- What is written for a method at any offset is a record. -/
lemma ReadFrom.record {fields : Fields} {m : Method} (h : m.ReadFrom fields)
    (offset : Option Nat) :
    fields.Record 4 ["name", "parameters", "returntype", "offset", "safe"]
      (m.withOffset offset).written m.extra where
  keys := rfl
  nodup := by decide
  once := by
    obtain ⟨y, hy, -⟩ := h.name
    obtain ⟨z, hz, -⟩ := h.returnType
    obtain ⟨w, hw, -⟩ := h.offset
    have hparameters : ∃ o, fields.optional? "parameters" = some o := by
      rcases Fields.readOr?_eq_some_iff.1 h.parameters with ⟨hnone, -⟩ | ⟨y, hy, -⟩
      · exact ⟨_, hnone⟩
      · exact ⟨_, hy⟩
    have hsafe : ∃ o, fields.optional? "safe" = some o := by
      rcases Fields.readOr?_eq_some_iff.1 h.safe with ⟨hnone, -⟩ | ⟨y, hy, -⟩
      · exact ⟨_, hnone⟩
      · exact ⟨_, hy⟩
    simp [hy, hz, hw, hparameters, hsafe]
  extra := h.extra

/-- The value of the parameters is what is written for them exactly if there are parameters and all
of them are explicit. -/
lemma parameters_iff {x : Document} {fields : Fields} {ps : List Parameter}
    (hfields : Fields.ofDocument? x = some fields)
    (h : fields.readOr? "parameters" [] parametersOf? = some ps) :
    (fields.Holds 4 "parameters" fun v =>
        (Json.array (ps.map Parameter.toJson)).canonical = v) ↔
      ∃ parameters ∈ x.elements? "parameters", ∀ p ∈ parameters, Parameter.Explicit p := by
  simp only [Option.mem_def, Document.elements?_eq_some_iff hfields]
  rcases Fields.readOr?_eq_some_iff.1 h with ⟨hnone, -⟩ | ⟨y, hy, hread⟩
  · simp [Fields.Holds, hnone]
  · obtain ⟨elements, helements, hps⟩ := Option.bind_eq_some_iff.1 hread
    obtain rfl := eq_array_of_elementsOf? helements
    have hcanonical : (Json.array (ps.map Parameter.toJson)).canonical =
        .array (ps.mapIdx fun _ p => p.toJson.canonical) := by
      rw [Json.canonical, Json.canonicalElements_eq_map, List.map_map]
      exact congrArg Json.array (List.ext_getElem? (by simp [Function.comp_def]))
    have hiff := Document.array_value?_iff hps (show 4 < Document.maxNesting by decide)
      (fun _ p => p.toJson.canonical) (fun _ j => j) fun _ x p hp => Parameter.value?_iff hp
    simp only [Json.mapElements_id] at hiff
    rw [Fields.holds_iff hy, hcanonical, hiff]
    simp [hy]

/-- What is written for a method at any offset. -/
lemma toJson_withOffset (m : Method) (offset : Option Nat) :
    (m.withOffset offset).toJson = .object ((m.withOffset offset).written ++ m.extra) :=
  rfl

/-- The offset that is written is the one that is given, or the one that was read. -/
lemma offset_withOffset (m : Method) (offset : Option Nat) :
    Json.number (.integer (m.withOffset offset).offset) =
      Json.newOffset offset (.number (.integer m.offset)) := by
  cases offset <;> rfl

/-- The value of a method, with the offset replaced if another one is given, is what is written for
the method at this offset exactly if the method is explicit. -/
lemma value?_iff {x : Document} {m : Method} (h : Method.ofDocument? x = some m)
    (offset : Option Nat) :
    (∃ j, x.value? 3 = some j ∧ (m.withOffset offset).toJson.canonical = j.replaceOffset offset) ↔
      Explicit x := by
  obtain ⟨fields, hfields, hread⟩ := readFrom_of_ofDocument? h
  unfold Json.replaceOffset
  rw [toJson_withOffset, (hread.record offset).modify_iff hfields (by decide) (by decide)]
  simp only [written, List.forall_mem_cons, List.not_mem_nil, IsEmpty.forall_iff, implies_true,
    and_true]
  constructor
  · rintro ⟨-, hparameters, -, -, ⟨y, -, hy, -⟩⟩
    have hsafe : x.member? "safe" = some y := (Document.member?_eq_some_iff hfields).2 hy
    exact ⟨Option.isSome_of_eq_some hsafe,
      (parameters_iff hfields hread.parameters).1 hparameters⟩
  · rintro ⟨hstated, hparameters⟩
    have hsafe : fields.Reads "safe" booleanOf? m.safe := by
      rcases Fields.readOr?_eq_some_iff.1 hread.safe with ⟨hnone, -⟩ | hsafe
      · obtain ⟨y, hy⟩ := Option.isSome_iff_exists.1 hstated
        cases hnone.symm.trans ((Document.member?_eq_some_iff hfields).1 hy)
      · exact hsafe
    refine ⟨?_, ?_, ?_, ?_, ?_⟩
    · exact hread.name.holds (fun y hy => value?_of_stringOf? hy 4) rfl
    · exact (parameters_iff hfields hread.parameters).2 hparameters
    · exact hread.returnType.holds (fun y hy => value?_of_stringOf? hy 4) rfl
    · exact hread.offset.holds (fun y hy => value?_of_offsetOf? hy 4) (offset_withOffset m offset)
    · exact hsafe.holds (fun y hy => value?_of_booleanOf? hy 4) rfl

end Method

/-! ## Interfaces -/

namespace Abi

/-- The interface whose methods begin at the offsets that are given for their places. -/
def withOffsets (a : Abi) (offsets : Nat → Option Nat) : Abi :=
  { a with methods := a.methods.mapIdx fun i method => method.withOffset (offsets i) }

/-- An interface is read from its methods and its other fields. -/
lemma readFrom_of_ofDocument? {x : Document} {a : Abi} (h : Abi.ofDocument? x = some a) :
    ∃ fields elements, Fields.ofDocument? x = some fields ∧
      fields.optional? "methods" = some (some (.array elements)) ∧
      elements.mapM Method.ofDocument? = some a.methods ∧
      fields.extra? 2 ["methods"] = some a.extra := by
  unfold Abi.ofDocument? at h
  simp only [Option.bind_eq_bind, Option.bind_eq_some_iff, Fields.required?_eq_some_iff] at h
  obtain ⟨fields, hfields, y, hy, elements, helements, methods, hmethods, extra, hextra, hsome⟩ := h
  cases hsome
  obtain rfl := eq_array_of_elementsOf? helements
  exact ⟨fields, elements, hfields, hy, hmethods, hextra⟩

/-- The value of an interface, with the offsets replaced that are given, is what is written for it
at these offsets exactly if its methods are explicit. -/
lemma value?_iff {x : Document} {a : Abi} (h : Abi.ofDocument? x = some a)
    (offsets : Nat → Option Nat) :
    (∃ j, x.value? 1 = some j ∧ (a.withOffsets offsets).toJson.canonical =
        j.modify "methods" (Json.mapElements fun i => Json.replaceOffset (offsets i))) ↔
      ∃ methods ∈ x.elements? "methods", ∀ method ∈ methods, Method.Explicit method := by
  obtain ⟨fields, elements, hfields, helements, hmethods, hextra⟩ := readFrom_of_ofDocument? h
  have hmember : x.elements? "methods" = some elements :=
    (Document.elements?_eq_some_iff hfields).2 helements
  have hrecord : fields.Record 2 ["methods"]
      [("methods", .array ((a.withOffsets offsets).methods.map Method.toJson))] a.extra :=
    ⟨rfl, by decide, fun key hkey => ⟨_, List.mem_singleton.1 hkey ▸ helements⟩, hextra⟩
  have hcanonical : (Json.array ((a.withOffsets offsets).methods.map Method.toJson)).canonical =
      .array (a.methods.mapIdx fun i method =>
        (method.withOffset (offsets i)).toJson.canonical) := by
    rw [Json.canonical, Json.canonicalElements_eq_map, List.map_map]
    exact congrArg Json.array (List.ext_getElem? (by simp [withOffsets, Function.comp_def]))
  have hiff := Document.array_value?_iff hmethods (show 2 < Document.maxNesting by decide)
    (fun i method => (method.withOffset (offsets i)).toJson.canonical)
    (fun i => Json.replaceOffset (offsets i)) fun i _ _ hm => Method.value?_iff hm (offsets i)
  have htoJson : (a.withOffsets offsets).toJson =
      .object ([("methods", .array ((a.withOffsets offsets).methods.map Method.toJson))] ++
        a.extra) := rfl
  rw [htoJson, hrecord.modify_iff hfields (by decide) (by decide), List.forall_mem_singleton,
    Fields.holds_iff helements, hcanonical]
  refine hiff.trans ?_
  simp [hmember]

end Abi

/-! ## Manifests -/

namespace Manifest

variable {x : Document} {m : Manifest}

/-- A manifest is read from its name, its interface and its other fields. -/
lemma readFrom_of_ofDocument? (h : Manifest.ofDocument? x = some m) :
    ∃ fields abi, Fields.ofDocument? x = some fields ∧ fields.Reads "name" stringOf? m.name ∧
      fields.optional? "abi" = some (some abi) ∧ Abi.ofDocument? abi = some m.abi ∧
      fields.extra? 1 ["name", "abi"] = some m.extra := by
  unfold Manifest.ofDocument? at h
  simp only [Option.bind_eq_bind, Option.bind_eq_some_iff, Fields.required?_eq_some_iff] at h
  obtain ⟨fields, hfields, y, hy, name, hname, z, hz, abi, habi, extra, hextra, hsome⟩ := h
  cases hsome
  exact ⟨fields, z, hfields, ⟨y, hy, hname⟩, hz, habi, hextra⟩

/-- The value of a manifest, with the offsets replaced that are given, is what is written for it at
these offsets exactly if the manifest is explicit. -/
lemma value?_iff (h : Manifest.ofDocument? x = some m) (offsets : Nat → Option Nat) :
    (∃ j, x.value? 0 = some j ∧ (m.withOffsets offsets).toJson.canonical =
        j.replaceOffsets offsets) ↔ Explicit x := by
  obtain ⟨fields, abi, hfields, hname, habi, hread, hextra⟩ := readFrom_of_ofDocument? h
  have hmember : x.member? "abi" = some abi := (Document.member?_eq_some_iff hfields).2 habi
  have hrecord : fields.Record 1 ["name", "abi"]
      [("name", .string m.name), ("abi", (m.abi.withOffsets offsets).toJson)] m.extra := by
    obtain ⟨y, hy, -⟩ := hname
    exact ⟨rfl, by decide, by simp [hy, habi], hextra⟩
  have htoJson : (m.withOffsets offsets).toJson =
      .object ([("name", .string m.name), ("abi", (m.abi.withOffsets offsets).toJson)] ++
        m.extra) := rfl
  have hheld : fields.Holds 1 "name" fun v => (Json.string m.name).canonical = v :=
    hname.holds (fun y hy => value?_of_stringOf? hy 1) rfl
  unfold Json.replaceOffsets
  rw [htoJson, hrecord.modify_iff hfields (by decide) (by decide), List.forall_mem_cons,
    List.forall_mem_singleton, Fields.holds_iff habi]
  refine (and_iff_right hheld).trans ((Abi.value?_iff hread offsets).trans ?_)
  simp [Explicit, hmember]

/-- A manifest is written as it was read, up to the offsets, exactly if it is explicit.  Whatever
offsets are given to the methods of a manifest that has been read from a text, the value that is
written is the value of the text in which these offsets have been replaced, where all methods say
whether they are safe and which parameters they have, and the parameters have a name and a type
only.  Otherwise it is another value. -/
theorem toJson_withOffsets_iff (text : String) (x : Document) (m : Manifest)
    (hparse : Document.parse? text = some x) (hm : Manifest.parse? text = some m)
    (offsets : Nat → Option Nat) :
    (∃ j, x.value? 0 = some j ∧ (m.withOffsets offsets).toJson.canonical =
        j.replaceOffsets offsets) ↔ Explicit x := by
  have hread : Manifest.ofDocument? x = some m := by
    rw [Manifest.parse?, hparse] at hm
    exact hm
  exact value?_iff hread offsets

/-- The text of a manifest that is explicit, with a field that is not known. -/
def plainText : String :=
  "\x7b\"name\":\"T\",\"trusts\":[],\"abi\":\x7b\"methods\":[\x7b\"name\":\"m\",\"parameters\":" ++
    "[\x7b\"name\":\"a\",\"type\":\"Integer\"\x7d],\"returntype\":\"Void\",\"offset\":0," ++
    "\"safe\":true\x7d]\x7d\x7d"

/-- What the text says. -/
def plainDocument : Document :=
  (Document.parse? plainText).getD .null

/-- The manifest that the text is read as. -/
def plainManifest : Manifest :=
  (Manifest.parse? plainText).getD (.ofMethods "" [])

/-- The text can be read, as a manifest that is explicit. -/
lemma parse?_plainText :
    Document.parse? plainText = some plainDocument ∧
      Manifest.parse? plainText = some plainManifest ∧ Explicit plainDocument := by
  have hreads : ((Document.parse? plainText).any fun x =>
      (Manifest.ofDocument? x).isSome && decide (Explicit x)) = true := by decide +kernel
  obtain ⟨x, hx, hread⟩ := (Option.any_eq_true _ _).1 hreads
  simp only [Bool.and_eq_true, decide_eq_true_eq, Option.isSome_iff_exists] at hread
  obtain ⟨⟨m, hm⟩, hexplicit⟩ := hread
  have hparse : Manifest.parse? plainText = some m := by
    rw [Manifest.parse?, hx]
    exact hm
  unfold plainDocument plainManifest
  rw [hparse, hx]
  exact ⟨rfl, rfl, hexplicit⟩

/-- The manifest is written as it was read, with the new offset and the field that is not known. -/
theorem toJson_withOffsets_iff_plainText :
    Document.parse? plainText = some plainDocument ∧
      Manifest.parse? plainText = some plainManifest ∧ Explicit plainDocument ∧
      ∃ j, plainDocument.value? 0 = some j ∧
        (plainManifest.withOffsets fun _ => some 20).toJson.canonical =
          j.replaceOffsets fun _ => some 20 := by
  obtain ⟨hparse, hm, hexplicit⟩ := parse?_plainText
  refine ⟨hparse, hm, hexplicit, ?_⟩
  exact (toJson_withOffsets_iff plainText _ _ hparse hm fun _ => some 20).2 hexplicit

/-- The text of a manifest with a parameter that is described. -/
def describedText : String :=
  "\x7b\"name\":\"T\",\"abi\":\x7b\"methods\":[\x7b\"name\":\"m\",\"parameters\":[\x7b\"name\":\"a\"," ++
    "\"type\":\"Integer\",\"description\":\"n\"\x7d],\"returntype\":\"Void\",\"offset\":0," ++
    "\"safe\":true\x7d]\x7d\x7d"

/-- A manifest is not always written as it was read: the description of a parameter is lost. -/
theorem toJson_loses_description :
    ¬∀ (text : String) (x : Document) (m : Manifest) (j : Json) (offsets : Nat → Option Nat),
      Document.parse? text = some x → Manifest.parse? text = some m → x.value? 0 = some j →
        (m.withOffsets offsets).toJson.canonical = j.replaceOffsets offsets := by
  have hreads : ((Document.parse? describedText).any fun x =>
      (Manifest.ofDocument? x).isSome && (x.value? 0).isSome && !decide (Explicit x)) = true := by
    decide +kernel
  obtain ⟨x, hx, hread⟩ := (Option.any_eq_true _ _).1 hreads
  simp only [Bool.and_eq_true, Bool.not_eq_true', decide_eq_false_iff_not,
    Option.isSome_iff_exists] at hread
  obtain ⟨⟨⟨m, hm⟩, ⟨j, hj⟩⟩, hexplicit⟩ := hread
  have hparse : Manifest.parse? describedText = some m := by
    rw [Manifest.parse?, hx]
    exact hm
  intro h
  have hsame := h describedText x m j (fun _ => some 20) hx hparse hj
  exact hexplicit ((value?_iff hm fun _ => some 20).1 ⟨j, hj, hsame⟩)

end Manifest

end SymbolicScript
