import SymbolicScript.Machine.JumpTable
import SymbolicScript.Proofs.GroundedItems
import SymbolicScript.Proofs.Outcomes

/-!
# What symbolic items stand for

A symbolic item tells where a value comes from.  Given the values that its unknowns stand for, it
can be evaluated: a derived variable has the value that its instruction gives for the values of the
operands (`Opcode.apply`, `Item.meaning`).  Values are what an item shows apart from handles, that
is, a plain value or the bytes of a buffer.

An item that mentions a buffer, an array or a struct has no such value, since what its instruction
gives depends on what the object contains at the time.  The same holds for an unknown of one of
these types.  All other items are called `Primitive`.

Values may come to be known one by one.  What an item has been evaluated to does not change when
more unknowns get a value (`Item.meaning_mono`).
-/

namespace SymbolicScript

open Semantics

/-! ## Values -/

/-- A value that is no array and no struct. -/
inductive Value where
  /-- A plain value without a handle. -/
  | plain (x : Item)
  /-- The bytes of a buffer. -/
  | buffer (bytes : Bytes)

namespace Value

/-- The integer that the value is taken for. -/
def integer? : Value → Option Int
  | plain x => x.toInteger?.toOption.join
  | buffer _ => none

/-- The truth value. -/
def boolean? : Value → Option Bool
  | plain x => x.toBoolean?.toOption.join
  | buffer _ => some true

/-- The bytes of the value. -/
def bytes? : Value → Option Bytes
  | plain x => (Heap.empty.bytesOf x).toOption.join
  | buffer bytes => some bytes

/-- Whether the value is null. -/
def isNull : Value → Bool
  | plain x => x.isNull
  | buffer _ => false

/-- A value that is taken for an integer is not null. -/
lemma isNull_of_integer? {v : Value} {n : Int} (h : v.integer? = some n) : v.isNull = false := by
  cases v with
  | buffer _ => rfl
  | plain x =>
    cases hnull : x.isNull with
    | false => exact hnull
    | true =>
      have hx : x.toInteger? = .error (.invalidCast .any .integer) := by
        unfold Item.isNull at hnull
        unfold Item.toInteger?
        split at hnull
        · next hvalue => rw [hvalue]; rfl
        · cases hnull
      rw [integer?, hx] at h
      cases h

/-- Values that are all taken for integers are not null. -/
lemma any_isNull_of_integers {vs : List Value} {values : List Int}
    (h : vs.mapM integer? = some values) : vs.any isNull = false := by
  rw [mapM_eq_some_iff] at h
  induction h with
  | nil => rfl
  | cons hinteger _ ih => rw [List.any_cons, isNull_of_integer? hinteger, ih, Bool.or_false]

end Value

/-! ## Applying instructions to values -/

namespace Opcode

/-- The value of a result without a handle. -/
def resultValue (result : Except ExecutionError Item) : Option Value :=
  result.toOption.bind fun x => x.known?.map .plain

/-- The result of an operation on integers. -/
def foldValues (operation : List Int → Except ExecutionError Item) (operands : List Value) :
    Option Value := do
  resultValue (operation (← operands.mapM Value.integer?))

/-- The value that an instruction gives for the values of its operands, for the handlers that push a
derived variable where an operand is not known. -/
def compute (opcode : Opcode) (handler : Handler) (operands : List Value) : Option Value :=
  match handler, operands with
  | .unary, operands => foldValues (fun
    | [x] => unaryResult opcode x
    | _ => .error (.invalidOperand opcode)) operands
  | .binary, operands => foldValues (fun
    | [x, y] => binaryResult opcode x y
    | _ => .error (.invalidOperand opcode)) operands
  | .ternary, operands => foldValues (fun
    | [a, b, c] => ternaryResult opcode a b c
    | _ => .error (.invalidOperand opcode)) operands
  | .logicalNot, [x] => do return .plain (.boolean !(← x.boolean?))
  | .newBuffer, [length] => do return .buffer (List.replicate (← length.integer?).toNat 0)
  | .concat, [x, y] => do return .buffer ((← x.bytes?) ++ (← y.bytes?))
  | .substring, [x, index, count] => do
    let part := slice opcode (← x.bytes?) (← index.integer?).toNat (← count.integer?).toNat
    return .buffer (← part.toOption)
  | .leftPart, [x, count] => do return .buffer ((← x.bytes?).take (← count.integer?).toNat)
  | .rightPart, [x, count] => do
    let bytes ← x.bytes?
    return .buffer (bytes.drop (bytes.length - (← count.integer?).toNat))
  | .size, [x] => do return .plain (.integer (← x.bytes?).length)
  | .pickItem, [x, key] => do
    return .plain (.integer ((← x.bytes?).getD (← key.integer?).toNat 0).toNat)
  | _, _ => none

/-- The value of a connective, which may be determined by one operand. -/
def connect (opcode : Opcode) : List (Option Value) → Option Value
  | [x, y] => do
    return .plain (.boolean (← connective opcode (x.bind Value.boolean?) (y.bind Value.boolean?)))
  | _ => none

/-- The value that an instruction gives for the values of its operands, of which some may be
missing.  Nothing is comparable to null. -/
def apply (opcode : Opcode) (operands : List (Option Value)) : Option Value :=
  if JumpTable.standard.handler opcode = .logical then connect opcode operands
  else if isOrdering opcode && operands.any (·.any Value.isNull) then some (.plain (.boolean false))
  else do compute opcode (JumpTable.standard.handler opcode) (← operands.mapM id)

end Opcode

namespace Opcode

variable {opcode : Opcode} {handler : Handler} {vs : List Value}

/-- Only instructions on two integers compare by size. -/
lemma handler_of_isOrdering (h : isOrdering opcode = true) :
    JumpTable.standard.handler opcode = .binary := by
  unfold isOrdering at h
  split at h
  case h_5 => cases h
  all_goals rfl

/-- Where no value is missing, the value of an instruction is computed. -/
lemma apply_eq_compute (hhandler : JumpTable.standard.handler opcode = handler)
    (hlogical : handler ≠ .logical) (hnull : handler = .binary → vs.any Value.isNull = false) :
    opcode.apply (vs.map some) = opcode.compute handler vs := by
  have hvalues : (vs.map some).mapM id = some vs :=
    mapM_eq_some_iff.2 (List.forall₂_map_left_iff.2 (List.forall₂_same.2 fun _ _ => rfl))
  unfold apply
  rw [hhandler, if_neg hlogical, if_neg, hvalues]
  · rfl
  · rw [Bool.and_eq_true]
    rintro ⟨hordering, hany⟩
    have hbinary := hhandler.symm.trans (handler_of_isOrdering hordering)
    rw [List.any_map, show (Option.any Value.isNull ∘ some) = Value.isNull from rfl,
      hnull hbinary] at hany
    cases hany

/-- The value of an instruction that folds integers is the result of its operation. -/
lemma apply_eq_fold {operation : List Int → Except ExecutionError Item} {values : List Int}
    (hhandler : JumpTable.standard.handler opcode = handler) (hlogical : handler ≠ .logical)
    (hcompute : opcode.compute handler vs = foldValues operation vs)
    (hvs : vs.mapM Value.integer? = some values) :
    opcode.apply (vs.map some) = resultValue (operation values) := by
  rw [apply_eq_compute hhandler hlogical fun _ => Value.any_isNull_of_integers hvs, hcompute,
    foldValues, hvs]
  rfl

end Opcode

/-! ## Values that come to be known -/

/-- The second value may be missing or known where the first one is missing, and else is the first
one. -/
def Completes {α : Type} (b a : Option α) : Prop :=
  ∀ v, a = some v → b = some v

/-- A connective that is determined by less is determined by more in the same way. -/
lemma Semantics.connective_some {opcode : Opcode} {a b a' b' : Option Bool}
    (ha : ∀ p, a = some p → a' = some p) (hb : ∀ p, b = some p → b' = some p) (p : Bool)
    (h : connective opcode a b = some p) : connective opcode a' b' = some p := by
  unfold connective at h
  split at h
  · rw [ha _ rfl, hb _ rfl]
    exact h
  · rw [ha _ rfl]
    cases h
    cases b' <;> rfl
  · rw [hb _ rfl]
    cases h
    rcases a' with _ | _ | _ <;> rfl
  · rw [ha _ rfl, hb _ rfl]
    exact h
  · rw [ha _ rfl]
    cases h
    cases b' <;> rfl
  · rw [hb _ rfl]
    cases h
    rcases a' with _ | _ | _ <;> rfl
  · cases h

namespace Opcode

variable {opcode : Opcode} {xs ys : List (Option Value)}

/-- A value that is null stays null. -/
lemma any_isNull_of_completes (h : List.Forall₂ Completes ys xs)
    (hx : xs.any (·.any Value.isNull) = true) : ys.any (·.any Value.isNull) = true := by
  induction h with
  | nil => exact hx
  | @cons b a _ _ hab _ ih =>
    rw [List.any_cons, Bool.or_eq_true] at hx ⊢
    refine hx.imp (fun hnull => ?_) ih
    cases a with
    | none => cases hnull
    | some v => rwa [hab v rfl]

/-- Values of which none is missing are not completed any further. -/
lemma eq_of_completes (h : List.Forall₂ Completes ys xs) {vs : List Value}
    (hvs : xs.mapM id = some vs) : ys = xs := by
  rw [mapM_eq_some_iff] at hvs
  induction h generalizing vs with
  | nil => rfl
  | cons hab _ ih =>
    cases hvs with
    | cons hv hrest => rw [ih hrest, hab _ hv, ← hv, id]

/-- What is found out about a value is found out when the value is known. -/
lemma bind_of_completes {α : Type} {a b : Option Value} (h : Completes b a) (f : Value → Option α)
    (r : α) (hr : a.bind f = some r) : b.bind f = some r := by
  obtain ⟨v, hv, hf⟩ := Option.bind_eq_some_iff.1 hr
  rw [h v hv]
  exact hf

/-- A connective does not change when more of its operands get a value. -/
lemma connect_mono (h : List.Forall₂ Completes ys xs) :
    Completes (opcode.connect ys) (opcode.connect xs) := by
  intro v hv
  cases h with
  | nil => cases hv
  | cons hx hrest =>
    cases hrest with
    | nil => cases hv
    | cons hy hrest =>
      cases hrest with
      | cons _ _ => cases hv
      | nil =>
        obtain ⟨p, hp, hreturn⟩ := Option.bind_eq_some_iff.1 hv
        refine Option.bind_eq_some_iff.2 ⟨p, ?_, hreturn⟩
        exact connective_some (bind_of_completes hx _) (bind_of_completes hy _) p hp

/-- What an instruction gives does not change when more of its operands get a value. -/
theorem apply_mono (h : List.Forall₂ Completes ys xs) :
    Completes (opcode.apply ys) (opcode.apply xs) := by
  intro v hv
  unfold apply at hv ⊢
  by_cases hlogical : JumpTable.standard.handler opcode = .logical
  · rw [if_pos hlogical] at hv ⊢
    exact connect_mono h v hv
  · rw [if_neg hlogical] at hv ⊢
    by_cases hnull : (isOrdering opcode && xs.any (·.any Value.isNull)) = true
    · rw [if_pos hnull] at hv
      rw [Bool.and_eq_true] at hnull
      rw [if_pos (by rw [Bool.and_eq_true]; exact ⟨hnull.1, any_isNull_of_completes h hnull.2⟩)]
      exact hv
    · rw [if_neg hnull] at hv
      obtain ⟨vs, hvs, -⟩ := Option.bind_eq_some_iff.1 hv
      rw [eq_of_completes h hvs, if_neg hnull]
      exact hv

end Opcode

/-! ## Evaluating items -/

/-- What the unknowns stand for, as far as that is known. -/
abbrev Valuation := UnknownOrigin → Option Value

namespace Item

mutual

/-- What an item stands for. -/
def meaning (σ : Valuation) : Item → Option Value
  | const inner => meaning σ inner
  | unknown _ origin => σ origin
  | derived opcode operands => opcode.apply (meanings σ operands)
  | slot _ _ | storage _ | stackDepth | buffer _ | array _ | struct _ => none
  | x => some (.plain x)

/-- What several items stand for. -/
def meanings (σ : Valuation) : List Item → List (Option Value)
  | [] => []
  | x :: xs => meaning σ x :: meanings σ xs

end

lemma meanings_eq_map (σ : Valuation) (xs : List Item) : meanings σ xs = xs.map (meaning σ) := by
  induction xs with
  | nil => rfl
  | cons x xs ih => rw [meanings, ih, List.map_cons]

/-- Operands that stand for values have no missing ones. -/
lemma meanings_eq {σ : Valuation} {xs : List Item} {vs : List Value}
    (h : List.Forall₂ (fun x v => x.meaning σ = some v) xs vs) : meanings σ xs = vs.map some := by
  induction h with
  | nil => rfl
  | cons hx _ ih => rw [meanings, hx, ih, List.map_cons]

/-- A derived variable stands for what its instruction computes from the values of its operands. -/
lemma meaning_derived {σ : Valuation} {opcode : Opcode} {handler : Handler} {xs : List Item}
    {vs : List Value} (hhandler : JumpTable.standard.handler opcode = handler)
    (hlogical : handler ≠ .logical) (hbinary : handler ≠ .binary)
    (hxs : List.Forall₂ (fun x v => x.meaning σ = some v) xs vs) :
    (derived opcode xs).meaning σ = opcode.compute handler vs := by
  rw [meaning, meanings_eq hxs]
  exact Opcode.apply_eq_compute hhandler hlogical fun h => absurd h hbinary

/-- A known value is known as itself. -/
lemma known?_known {x v : Item} (h : x.known? = some v) : v.known? = some v := by
  fun_induction known? x with
  | case1 inner ih => exact ih h
  | case2 | case3 | case4 | case5 | case6 => cases h
  | case7 plain =>
    cases h
    cases v with
    | null | boolean _ | integer _ | byteString _ | pointer _ | buffer _ | array _ | struct _ => rfl
    | _ => simp_all

/-- A known value has the handle of the item. -/
lemma handle?_known {x v : Item} (h : x.known? = some v) : v.handle? = x.handle? := by
  unfold handle?
  rw [h, known?_known h]

/-- A known value has the type of the item. -/
lemma type_known {x v : Item} (h : x.known? = some v) : v.type = x.type := by
  fun_induction known? x with
  | case1 inner ih => exact ih h
  | case2 | case3 | case4 | case5 | case6 => cases h
  | case7 plain =>
    cases h
    rfl

/-- An item with a handle has the type of an object. -/
lemma type_of_handle? {x : Item} (h : x.handle? ≠ none) :
    x.type = .buffer ∨ x.type = .array ∨ x.type = .struct := by
  unfold handle? at h
  split at h
  case h_1 hv => exact .inl (type_known hv).symm
  case h_2 hv => exact .inr (.inl (type_known hv).symm)
  case h_3 hv => exact .inr (.inr (type_known hv).symm)
  case h_4 => exact absurd rfl h

/-- A known value without a handle stands for itself. -/
lemma meaning_of_known {σ : Valuation} {x v : Item} (h : x.known? = some v)
    (hx : x.handle? = none) : x.meaning σ = some (.plain v) := by
  fun_induction known? x with
  | case1 inner ih => exact ih h hx
  | case2 | case3 | case4 | case5 | case6 => cases h
  | case7 plain =>
    cases h
    cases v with
    | buffer _ | array _ | struct _ => cases hx
    | null | boolean _ | integer _ | byteString _ | pointer _ => rfl
    | _ => simp_all

mutual

/-- What an item stands for does not change when more unknowns get a value. -/
lemma meaning_mono {σ σ' : Valuation} (h : ∀ origin, Completes (σ' origin) (σ origin)) :
    (x : Item) → Completes (x.meaning σ') (x.meaning σ)
  | const inner => meaning_mono h inner
  | unknown _ origin => h origin
  | derived _ operands => Opcode.apply_mono (meanings_mono h operands)
  | null | boolean _ | integer _ | byteString _ | pointer _ | buffer _ | array _ | struct _
  | slot _ _ | storage _ | stackDepth => fun _ hv => hv

/-- What several items stand for does not change when more unknowns get a value. -/
lemma meanings_mono {σ σ' : Valuation} (h : ∀ origin, Completes (σ' origin) (σ origin)) :
    (xs : List Item) → List.Forall₂ Completes (meanings σ' xs) (meanings σ xs)
  | [] => .nil
  | x :: xs => .cons (meaning_mono h x) (meanings_mono h xs)

end

/-! ## Items without objects -/

/-- The item mentions no buffer, no array and no struct, and no unknown of one of these types. -/
def Primitive (x : Item) : Prop :=
  ∀ y : Item, y.OccursIn x → y.type ≠ .buffer ∧ y.type ≠ .array ∧ y.type ≠ .struct

namespace Primitive

variable {x : Item}

/-- What is wrapped in a primitive item is primitive. -/
lemma of_const (h : (Item.const x).Primitive) : x.Primitive :=
  fun y hy => h y (.const hy)

/-- Operands of a primitive item are primitive. -/
lemma operand {opcode : Opcode} {operands : List Item}
    (h : (Item.derived opcode operands).Primitive)
    (hx : x ∈ operands) : x.Primitive :=
  fun y hy => h y (.operand hx hy)

/-- A wrapped primitive item is primitive. -/
lemma const (h : x.Primitive) : (Item.const x).Primitive := by
  intro y hy
  cases hy with
  | self => exact h x .self
  | const hy => exact h y hy

/-- A derived variable is primitive if its operands are. -/
lemma derived {opcode : Opcode} {operands : List Item} (h : ∀ x ∈ operands, x.Primitive) :
    (Item.derived opcode operands).Primitive := by
  intro y hy
  cases hy with
  | self => exact ⟨nofun, nofun, nofun⟩
  | operand hx hy => exact h _ hx y hy

/-- An item that is of the same type as a primitive item has no handle. -/
lemma handle?_of_type {y : Item} (h : x.Primitive) (hy : y.type = x.type) : y.handle? = none := by
  obtain ⟨hbuffer, harray, hstruct⟩ := h x .self
  by_contra hhandle
  rcases type_of_handle? hhandle with htype | htype | htype
  · exact hbuffer (hy.symm.trans htype)
  · exact harray (hy.symm.trans htype)
  · exact hstruct (hy.symm.trans htype)

end Primitive

/-! ## What an item shows -/

/-- The value that a known item shows on a heap whose buffers hold the given bytes. -/
inductive Shows (retained : Nat → Option Bytes) (y : Item) : Value → Prop
  /-- A value without a handle shows itself. -/
  | plain {v : Item} (hy : y.known? = some v) (hv : v.handle? = none) : Shows retained y (.plain v)
  /-- A buffer shows its bytes. -/
  | buffer {l : Nat} {bytes : Bytes} (hy : y.known? = some (.buffer l))
    (hbytes : retained l = some bytes) : Shows retained y (.buffer bytes)

namespace Shows

variable {retained retained' : Nat → Option Bytes} {y : Item} {v : Value}

lemma mono (h : y.Shows retained v)
    (hretained : ∀ l, Completes (retained' l) (retained l)) : y.Shows retained' v := by
  cases h with
  | plain hy hv => exact .plain hy hv
  | buffer hy hbytes => exact .buffer hy (hretained _ _ hbytes)

/-- An item that shows a value is known. -/
lemma isSome_known? (h : y.Shows retained v) : y.known?.isSome := by
  cases h with
  | plain hy _ => rw [hy, Option.isSome_some]
  | buffer hy _ => rw [hy, Option.isSome_some]

/-- The integer of an item is that of the value it shows. -/
lemma integer? (h : y.Shows retained v) {n : Int} (hn : y.toInteger? = .ok (some n)) :
    v.integer? = some n := by
  cases h with
  | @plain v hy hv =>
    have heq : v.toInteger? = y.toInteger? := by
      unfold toInteger?
      rw [hy, known?_known hy]
    rw [Value.integer?, heq, hn]
    rfl
  | buffer hy _ =>
    unfold toInteger? at hn
    rw [hy] at hn
    cases hn

/-- The truth value of an item is that of the value it shows. -/
lemma boolean? (h : y.Shows retained v) {p : Bool} (hp : y.toBoolean? = .ok (some p)) :
    v.boolean? = some p := by
  cases h with
  | @plain v hy hv =>
    have heq : v.toBoolean? = y.toBoolean? := by
      unfold toBoolean?
      rw [hy, known?_known hy]
    rw [Value.boolean?, heq, hp]
    rfl
  | buffer hy _ =>
    unfold toBoolean? at hp
    rw [hy] at hp
    cases hp
    rfl

/-- The bytes of an item are those of the value it shows. -/
lemma bytes? {heap : Heap} (h : y.Shows retained v)
    (hheap : ∀ l bytes, retained l = some bytes → heap.objects[l]? = some (.buffer bytes))
    {bytes : Bytes} (hbytes : heap.bytesOf y = .ok (some bytes)) : v.bytes? = some bytes := by
  cases h with
  | @plain v hy hv =>
    have heq : Heap.empty.bytesOf v = heap.bytesOf y := by
      unfold Heap.bytesOf
      rw [hy, known?_known hy]
      unfold handle? at hv
      rw [known?_known hy] at hv
      split <;> first | rfl | simp_all
    rw [Value.bytes?, heq, hbytes]
    rfl
  | buffer hy hretained =>
    unfold Heap.bytesOf at hbytes
    rw [hy] at hbytes
    simp only [Heap.bytes_eq_ok.2 (hheap _ _ hretained), Except.map] at hbytes
    cases hbytes
    rfl

/-- An item that is null shows null. -/
lemma isNull (h : y.Shows retained v) (hnull : y.isNull = true) : v.isNull = true := by
  cases h with
  | @plain v hy hv =>
    unfold Item.isNull at hnull
    rw [Value.isNull, Item.isNull, known?_known hy]
    rwa [hy] at hnull
  | buffer hy _ =>
    unfold Item.isNull at hnull
    rw [hy] at hnull
    cases hnull

end Shows

end Item

end SymbolicScript
