import SymbolicScript.Proofs.IntegerOperands
import SymbolicScript.Proofs.Lockstep
import SymbolicScript.Semantics.ByteString
import SymbolicScript.Semantics.Constant
import SymbolicScript.Semantics.Stack
import SymbolicScript.Semantics.Typing

/-!
# Instructions on data in lockstep

For every handler that works on data this file proves that the machine that knows more can follow
the lesser machine.  The proof for a handler follows its text.  Where the lesser machine finds an
operand symbolic, it pushes a symbolic item, and the other one may fold the operands, allocate an
object or push a symbolic item as well; in all other places both make the same steps.  Where the
lesser machine pushes a derived variable, it has to be shown that the other one obtains what the
variable stands for.  Which value that is depends on the handler that the instruction has in the
standard table, so the handler is assumed to be this one if values are traced.
-/

namespace SymbolicScript

open Exec

variable {L : Link}

namespace Semantics

variable (config : Config) (i : Instruction)

/-! ## Constants -/

/-- Both machines may push an item without a handle. -/
lemma accompanies_push {x : Item} (hx : x.handle? = none) : Accompanies L (push x) (push x) :=
  (tracks_push (.of_handle? hx)).accompanies

lemma accompanies_pushPointer : Accompanies L (pushPointer i) (pushPointer i) := by
  refine (tracks_same i.target_resolved).bind ?_
  rintro target _ rfl
  refine tracks_world.bind fun w w' hw => ?_
  rw [hw.script]
  exact .ite Iff.rfl (fun _ _ => accompanies_push rfl) fun _ _ => follows_throw

lemma accompanies_pushData : Accompanies L (pushData config i) (pushData config i) := by
  unfold pushData
  exact .check rfl fun _ _ => accompanies_push rfl

/-! ## Rearranging the stack -/

lemma tracks_popDepth (opcode : Opcode) :
    Tracks L (popDepth opcode) (popDepth opcode) fun m n => m = n := by
  refine (tracks_popCount opcode).bind ?_
  rintro m _ rfl
  exact .ite Iff.rfl (fun _ _ => tracks_pure rfl) fun _ _ => follows_throw

lemma accompanies_drop : Accompanies L drop drop := by
  have h : Accompanies L (pop >>= fun _ => pure ()) (pop >>= fun _ => pure ()) :=
    tracks_pop.bind fun _ _ _ => accompanies_pure _ _
  exact h

lemma accompanies_removeAt (n : Nat) :
    Accompanies L (modifyStack fun s => (s.removeAt n).2) (modifyStack fun s => (s.removeAt n).2) :=
  (tracks_modifyStack fun _ _ hst => hst.removeAt n).accompanies

lemma accompanies_xdrop : Accompanies L (xdrop i) (xdrop i) := by
  refine (tracks_popDepth i.opcode).bind ?_
  rintro n _ rfl
  exact accompanies_removeAt n

lemma accompanies_clear : Accompanies L clear clear :=
  (tracks_modifyStack fun s t _ => .clear s t fun _ _ => .of_symbolic rfl rfl).accompanies

lemma accompanies_copyFrom (index : Nat) : Accompanies L (copyFrom index) (copyFrom index) :=
  (tracks_peek index).bind fun _ _ hxy => (tracks_push hxy).accompanies

lemma accompanies_pick : Accompanies L (pick i) (pick i) := by
  refine (tracks_popDepth i.opcode).bind ?_
  rintro n _ rfl
  exact accompanies_copyFrom n

lemma accompanies_tuck : Accompanies L tuck tuck :=
  (tracks_modifyStack fun s t hst => by
    have htop := hst 0
    rw [← s.peek_fst, ← t.peek_fst] at htop
    exact (hst.peek 0).insertAt htop 2).accompanies

lemma accompanies_moveUp (index : Nat) : Accompanies L (moveUp index) (moveUp index) :=
  (tracks_modifyStack fun s t hst => by
    have hitem := hst index
    rw [← s.removeAt_fst, ← t.removeAt_fst] at hitem
    exact (hst.removeAt index).push hitem).accompanies

lemma accompanies_roll : Accompanies L (roll i) (roll i) := by
  refine (tracks_popDepth i.opcode).bind ?_
  rintro n _ rfl
  exact .ite Iff.rfl (fun _ _ => accompanies_pure _ _) fun _ _ => accompanies_moveUp n

lemma accompanies_reverse (n : Nat) :
    Accompanies L (modifyStack (·.reverse n)) (modifyStack (·.reverse n)) :=
  (tracks_modifyStack fun _ _ hst => hst.reverse n).accompanies

lemma accompanies_reverseCounted : Accompanies L (reverseCounted i) (reverseCounted i) := by
  refine (tracks_popDepth i.opcode).bind ?_
  rintro n _ rfl
  exact accompanies_reverse n

/-! ## Arithmetic -/

/-- Operands are popped in lockstep. -/
lemma tracks_popOperands (count : Nat) :
    Tracks L (popOperands count) (popOperands count) (List.Forall₂ (Item.Linked L)) :=
  (tracks_popMany count).bind fun _ _ hxy => tracks_pure (List.rel_reverse hxy)

/-- Operands that are all known to the lesser machine have the same integers for the other one. -/
lemma integers_some {xs ys : List Item} {values : List Int}
    (h : List.Forall₂ (Item.Linked L) xs ys) (hx : integers xs = .ok (some values)) :
    integers ys = .ok (some values) := by
  rw [integers_eq_some_iff] at hx ⊢
  induction h generalizing values with
  | nil => exact hx
  | cons hxy _ ih =>
    cases hx with
    | cons hvalue hvalues => exact .cons (hxy.approximates.toInteger?_some hvalue) (ih hvalues)

/-- Operands that are all known to the machine that knows more have its integers as values. -/
lemma meanings_of_integers {xs ys : List Item} {values : List Int}
    (h : List.Forall₂ (Item.Linked L) xs ys) (hy : integers ys = .ok (some values))
    (htraces : L.traces) (hprimitive : ∀ x ∈ xs, x.Primitive) :
    ∃ vs : List Value, List.Forall₂ (fun x v => x.meaning L.valuation = some v) xs vs ∧
      vs.mapM Value.integer? = some values := by
  simp only [integers_eq_some_iff, mapM_eq_some_iff] at hy ⊢
  induction h generalizing values with
  | nil =>
    cases hy
    exact ⟨[], .nil, .nil⟩
  | cons hxy _ ih =>
    rw [List.forall_mem_cons] at hprimitive
    cases hy with
    | cons hvalue hvalues =>
      obtain ⟨v, hmeaning, hinteger⟩ := hxy.denotes.integer? hvalue htraces hprimitive.1 _ rfl
      obtain ⟨vs, hmeanings, hintegers⟩ := ih hprimitive.2 hvalues
      exact ⟨v :: vs, .cons hmeaning hmeanings, .cons hinteger hintegers⟩

/-- Results of folding: they have no handle, and failures are not unresolved. -/
structure Plain (result : Except ExecutionError Item) : Prop where
  /-- A failure is not unresolved. -/
  resolved : SymbolicScript.Resolved result
  /-- An item has no handle. -/
  plain : ∀ x, result = .ok x → x.handle? = none

namespace Plain

lemma ok {x : Item} (hx : x.handle? = none) : Plain (.ok x) where
  resolved := .ok x
  plain := by
    rintro _ ⟨⟩
    exact hx

lemma error {e : ExecutionError} (he : e.isUnresolved = false) : Plain (.error e) where
  resolved := .error he
  plain := by
    rintro _ ⟨⟩

lemma ite {c : Prop} [Decidable c] {x y : Except ExecutionError Item} (hx : Plain x)
    (hy : Plain y) : Plain (if c then x else y) := by
  split
  · exact hx
  · exact hy

/-- A sequence gives a plain result if its last part does. -/
lemma bind {α : Type} {x : Except ExecutionError α} {k : α → Except ExecutionError Item}
    (hx : SymbolicScript.Resolved x) (hk : ∀ a, Plain (k a)) : Plain (x >>= k) where
  resolved := hx.bind fun a _ => (hk a).resolved
  plain y h := by
    obtain ⟨a, -, hy⟩ := except_bind_eq_ok.1 h
    exact (hk a).plain y hy

end Plain

lemma bounded_plain (opcode : Opcode) (value : Int) : Plain (bounded opcode value) :=
  .ite (.ok rfl) (.error rfl)

lemma nonzero_resolved (opcode : Opcode) (value : Int) :
    SymbolicScript.Resolved (nonzero opcode value) :=
  .ite (fun _ => .error rfl) fun _ => .ok _

lemma shiftAmount_resolved (opcode : Opcode) (value : Int) :
    SymbolicScript.Resolved (shiftAmount opcode value) :=
  .ite (fun _ => .ok _) fun _ => .error rfl

lemma modularInverse_resolved (opcode : Opcode) (value modulus : Int) :
    SymbolicScript.Resolved (modularInverse opcode value modulus) := by
  refine .ite (fun _ => .error rfl) fun _ => .ite (fun _ => .error rfl) fun _ => ?_
  split
  · exact .ok _
  · exact .error rfl

lemma modularPower_resolved (opcode : Opcode) (value exponent modulus : Int) :
    SymbolicScript.Resolved (modularPower opcode value exponent modulus) :=
  (nonzero_resolved opcode modulus).bind fun _ _ =>
    .ite (fun _ => modularInverse_resolved _ _ _) fun _ =>
      .ite (fun _ => .error rfl) fun _ => .ok _

lemma unaryResult_plain (opcode : Opcode) (x : Int) : Plain (unaryResult opcode x) := by
  unfold unaryResult
  split
  case h_2 | h_8 => exact .ok rfl
  case h_7 => exact .ite (.error rfl) (bounded_plain _ _)
  case h_9 => exact .error rfl
  all_goals exact bounded_plain _ _

lemma binaryResult_plain (opcode : Opcode) (x y : Int) : Plain (binaryResult opcode x y) := by
  unfold binaryResult
  split
  case h_7 | h_8 => exact .bind (nonzero_resolved _ _) fun _ => bounded_plain _ _
  case h_9 | h_10 | h_11 => exact .bind (shiftAmount_resolved _ _) fun _ => bounded_plain _ _
  case h_20 => exact .error rfl
  case h_1 | h_2 | h_3 | h_4 | h_5 | h_6 => exact bounded_plain _ _
  all_goals exact .ok rfl

lemma ternaryResult_plain (opcode : Opcode) (a b c : Int) :
    Plain (ternaryResult opcode a b c) := by
  unfold ternaryResult
  split
  · exact .bind (nonzero_resolved _ _) fun _ => bounded_plain _ _
  · exact .bind (modularPower_resolved _ _ _ _) fun _ => bounded_plain _ _
  · exact .ok rfl
  · exact .error rfl

/-- Where the lesser machine pushes a derived variable, the other one may push an item without a
handle that is the value of the instruction. -/
lemma accompanies_push_derived {opcode : Opcode} {xs : List Item} {y : Item} (hy : y.handle? = none)
    (h : L.traces → (∀ x ∈ xs, x.Primitive) →
      (Item.derived opcode xs).meaning L.valuation = y.known?.map .plain) :
    Accompanies L (push (.derived opcode xs)) (push y) := by
  refine (tracks_push_symbolic rfl fun htraces hprimitive hknown => ?_).accompanies
  obtain ⟨v, hv⟩ := Option.isSome_iff_exists.1 hknown
  refine ⟨.plain v, .plain hv ((Item.handle?_known hv).trans hy), ?_⟩
  rw [h htraces fun x hx => hprimitive.operand hx, hv, Option.map_some]

/-- Folding stays in lockstep if the operation gives plain results, which are the values of the
instruction. -/
lemma accompanies_fold {opcode : Opcode} {xs ys : List Item}
    {operation : List Int → Except ExecutionError Item}
    (hoperation : ∀ values, Plain (operation values))
    (hvalue : L.traces → ∀ (vs : List Value) values, vs.mapM Value.integer? = some values →
      opcode.apply (vs.map some) = Opcode.resultValue (operation values))
    (h : List.Forall₂ (Item.Linked L) xs ys) :
    Accompanies L (fold opcode xs operation) (fold opcode ys operation) := by
  refine (tracks_lift (Q := fun a b => (∀ n, a = some n → b = some n) ∧ integers ys = .ok b)
    (integers_resolved ys) fun a b ha hb => ⟨?_, hb⟩).bind fun a b hab => ?_
  · rintro n rfl
    exact Except.ok.inj (hb.symm.trans (integers_some h ha))
  obtain ⟨hsome, hb⟩ := hab
  cases a with
  | some values =>
    rw [hsome values rfl]
    have hplain := hoperation values
    refine (tracks_lift (Q := fun x y => x = y ∧ x.handle? = none) hplain.resolved ?_).bind ?_
    · rintro x y hx hy
      exact ⟨Except.ok.inj (hx.symm.trans hy), hplain.plain x hx⟩
    · rintro x _ ⟨rfl, hx⟩
      exact accompanies_push hx
  | none =>
    cases b with
    | some values =>
      refine .right_lift (hoperation values).resolved fun y hy => ?_
      refine accompanies_push_derived ((hoperation values).plain y hy) fun htraces hprimitive => ?_
      obtain ⟨vs, hmeanings, hintegers⟩ := meanings_of_integers h hb htraces hprimitive
      rw [Item.meaning, Item.meanings_eq hmeanings, hvalue htraces vs values hintegers, hy]
      rfl
    | none => exact (tracks_push (.of_symbolic rfl rfl)).accompanies

lemma accompanies_unary (hhandler : L.traces → JumpTable.standard.handler i.opcode = .unary) :
    Accompanies L (unary i) (unary i) :=
  (tracks_popOperands 1).bind fun _ _ hxy => accompanies_fold (fun values => by
    split
    · exact unaryResult_plain _ _
    · exact .error rfl)
    (fun htraces _ _ => Opcode.apply_eq_fold (hhandler htraces) (by decide) rfl) hxy

/-- Folding two integers stays in lockstep. -/
lemma accompanies_fold_binary {xs ys : List Item}
    (hhandler : L.traces → JumpTable.standard.handler i.opcode = .binary)
    (h : List.Forall₂ (Item.Linked L) xs ys) :
    Accompanies L
      (fold i.opcode xs fun
        | [x, y] => binaryResult i.opcode x y
        | _ => .error (.invalidOperand i.opcode))
      (fold i.opcode ys fun
        | [x, y] => binaryResult i.opcode x y
        | _ => .error (.invalidOperand i.opcode)) :=
  accompanies_fold (fun values => by
    split
    · exact binaryResult_plain _ _ _
    · exact .error rfl)
    (fun htraces _ _ => Opcode.apply_eq_fold (hhandler htraces) (by decide) rfl) h

/-- Where the lesser machine finds a null operand, the other one finds it as well. -/
lemma any_isNull {xs ys : List Item} (h : List.Forall₂ (Item.Linked L) xs ys)
    (hx : xs.any Item.isNull = true) : ys.any Item.isNull = true := by
  induction h with
  | nil => exact hx
  | cons hxy _ ih =>
    rw [List.any_cons, Bool.or_eq_true] at hx ⊢
    exact hx.imp hxy.approximates.isNull ih

/-- Where the machine that knows more finds a null operand, an operand of the other one stands for
null. -/
lemma meanings_of_any_isNull {xs ys : List Item} (h : List.Forall₂ (Item.Linked L) xs ys)
    (hy : ys.any Item.isNull = true) (htraces : L.traces) (hprimitive : ∀ x ∈ xs, x.Primitive) :
    (Item.meanings L.valuation xs).any (·.any Value.isNull) = true := by
  induction h with
  | nil => exact hy
  | cons hxy _ ih =>
    rw [List.forall_mem_cons] at hprimitive
    rw [List.any_cons, Bool.or_eq_true] at hy
    rw [Item.meanings, List.any_cons, Bool.or_eq_true]
    refine hy.imp (fun hnull => ?_) fun hrest => ih hrest hprimitive.2
    obtain ⟨v, hmeaning, hv⟩ := hxy.denotes.isNull hnull htraces hprimitive.1
    rw [hmeaning]
    exact hv

/-- Where only the machine that knows more finds a null operand, not all operands of the lesser one
are known integers. -/
lemma integers_of_any_isNull {xs ys : List Item} {values : Option (List Int)}
    (h : List.Forall₂ (Item.Linked L) xs ys) (hy : ys.any Item.isNull = true)
    (hx : integers xs = .ok values) : values = none := by
  cases values with
  | none => rfl
  | some values =>
    rw [any_isNull_of_integers (integers_some h hx)] at hy
    cases hy

lemma accompanies_binary (hhandler : L.traces → JumpTable.standard.handler i.opcode = .binary) :
    Accompanies L (binary i) (binary i) := by
  refine (tracks_popOperands 2).bind fun xs ys h => ?_
  split
  · next hx =>
    rw [Bool.and_eq_true] at hx
    rw [if_pos (by rw [Bool.and_eq_true]; exact ⟨hx.1, any_isNull h hx.2⟩)]
    exact accompanies_push rfl
  · split
    · next hy =>
      rw [Bool.and_eq_true] at hy
      refine .left_lift fun values hvalues => ?_
      rw [integers_of_any_isNull h hy.2 hvalues]
      refine accompanies_push_derived rfl fun htraces hprimitive => ?_
      have hlogical : JumpTable.standard.handler i.opcode ≠ .logical := by
        rw [hhandler htraces]
        decide
      have hnull := meanings_of_any_isNull h hy.2 htraces hprimitive
      rw [Item.meaning, Opcode.apply, if_neg hlogical,
        if_pos (by rw [Bool.and_eq_true]; exact ⟨hy.1, hnull⟩)]
      rfl
    · exact accompanies_fold_binary i hhandler h

lemma accompanies_ternary (hhandler : L.traces → JumpTable.standard.handler i.opcode = .ternary) :
    Accompanies L (ternary i) (ternary i) :=
  (tracks_popOperands 3).bind fun _ _ hxy => accompanies_fold (fun values => by
    split
    · exact ternaryResult_plain _ _ _ _
    · exact .error rfl)
    (fun htraces _ _ => Opcode.apply_eq_fold (hhandler htraces) (by decide) rfl) hxy

/-- An optional result that the lesser machine pushes is pushed by the other one as well, which may
push one where the lesser machine pushes a derived variable that stands for it. -/
lemma accompanies_pushBoolean {opcode : Opcode} {a b : Option Bool} {xs ys : List Item}
    {f : Bool → Bool} (h : ∀ p, a = some p → b = some p)
    (hvalue : L.traces → (∀ x ∈ xs, x.Primitive) → ∀ p, b = some p →
      (Item.derived opcode xs).meaning L.valuation = some (.plain (.boolean (f p)))) :
    Accompanies L
      (match a with
        | some p => push (.boolean (f p))
        | none => push (.derived opcode xs))
      (match b with
        | some p => push (.boolean (f p))
        | none => push (.derived opcode ys)) := by
  cases a with
  | some p =>
    rw [h p rfl]
    exact accompanies_push rfl
  | none =>
    cases b with
    | some p =>
      exact accompanies_push_derived rfl fun htraces hprimitive => hvalue htraces hprimitive p rfl
    | none => exact (tracks_push (.of_symbolic rfl rfl)).accompanies

lemma accompanies_logicalNot
    (hhandler : L.traces → JumpTable.standard.handler i.opcode = .logicalNot) :
    Accompanies L (logicalNot i) (logicalNot i) :=
  tracks_pop.bind fun x _ hxy => (tracks_toBoolean? hxy).bind fun _ _ hab =>
    accompanies_pushBoolean (f := Bool.not) hab.1 fun htraces hprimitive p hp => by
      obtain ⟨v, hmeaning, hv⟩ := hab.2 htraces (hprimitive x (by simp)) p hp
      rw [Item.meaning_derived (hhandler htraces) (by decide) (by decide) (.cons hmeaning .nil),
        Opcode.compute, hv]
      rfl

lemma accompanies_logical (hhandler : L.traces → JumpTable.standard.handler i.opcode = .logical) :
    Accompanies L (logical i) (logical i) :=
  tracks_pop.bind fun y _ hy => tracks_pop.bind fun x _ hx =>
    (tracks_toBoolean? hx).bind fun _ _ ha => (tracks_toBoolean? hy).bind fun _ _ hb =>
    accompanies_pushBoolean (f := id) (connective_some ha.1 hb.1) fun htraces hprimitive p hp => by
      have hvalue {z : Item} {c : Option Bool} (hz : z ∈ [x, y])
          (hc : z.Foretells L Value.boolean? c) (q : Bool) (hq : c = some q) :
          (z.meaning L.valuation).bind Value.boolean? = some q := by
        obtain ⟨v, hmeaning, hv⟩ := hc htraces (hprimitive z hz) q hq
        rw [hmeaning]
        exact hv
      have hconnective := connective_some (hvalue (by simp) ha.2) (hvalue (by simp) hb.2) p hp
      rw [Item.meaning, Opcode.apply, if_pos (hhandler htraces), Item.meanings_eq_map]
      exact Option.bind_eq_some_iff.2 ⟨p, hconnective, rfl⟩

/-! ## Types and equality -/

/-- A question that the lesser machine answers has the same answer for the other one.  The unknown
that stands for an answer is new, so that it may stand for the answer of the other machine. -/
lemma accompanies_pushAnswer {a b : Option Bool} (h : ∀ p, a = some p → b = some p) :
    Accompanies L (pushAnswer a) (pushAnswer b) := by
  cases a with
  | some p =>
    rw [h p rfl]
    exact accompanies_push rfl
  | none =>
    cases b with
    | some p =>
      exact .left_fresh (.plain (.boolean p)) fun L' x _ hx hmeaning =>
        (tracks_push_symbolic hx fun _ _ _ => ⟨_, .plain rfl rfl, hmeaning⟩).accompanies
    | none =>
      exact (follows_fresh .boolean).bind fun _ _ _ _ hxy => (tracks_push hxy).accompanies

lemma accompanies_equal : Accompanies L (equal i) (equal i) := by
  refine tracks_pop.bind fun y y' hy => tracks_pop.bind fun x x' hx =>
    tracks_heap.bind fun a b hab => ?_
  refine (tracks_lift (Q := fun p q => ∀ answer, p = some answer → q = some answer)
    (b.equals_resolved x' y') ?_).bind fun p q hpq => accompanies_pushAnswer ?_
  · rintro p q hp hq answer rfl
    exact hab.toSimulates.equals hx.approximates hy.approximates hp hq
  · intro answer hanswer
    obtain ⟨same, rfl, hsame⟩ := Option.map_eq_some_iff.1 hanswer
    rw [hpq same rfl, Option.map_some, hsame]

lemma accompanies_isNull : Accompanies L isNull isNull := by
  refine tracks_pop.bind fun x y hxy => accompanies_pushAnswer fun p hp => ?_
  split at hp
  · cases hp
  · next hx =>
    rw [Bool.not_eq_true] at hx
    obtain ⟨v, hv⟩ := Item.exists_known?_of_isSymbolic hx
    obtain ⟨w, hw, hvw⟩ := hxy.approximates v hv
    have hy := hxy.approximates.isSymbolic hx
    have hnull : y.isNull = x.isNull := by
      have h := hvw.isNull_eq
      unfold Item.isNull at h ⊢
      rwa [hvw.known_left, hvw.known_right, ← hv, ← hw] at h
    rw [hy, if_neg Bool.false_ne_true, hnull]
    exact hp

lemma typeOperand_resolved : SymbolicScript.Resolved (typeOperand i) := by
  refine (i.unsignedToken_resolved 0 1).bind fun byte _ => ?_
  split
  · exact .error rfl
  · exact .error rfl
  · exact .ok _

lemma accompanies_isType : Accompanies L (isType i) (isType i) := by
  refine (tracks_same (typeOperand_resolved i)).bind ?_
  rintro type _ rfl
  refine tracks_pop.bind fun x y hxy => accompanies_pushAnswer fun p hp => ?_
  obtain ⟨v, hv, hanswer⟩ := Option.map_eq_some_iff.1 hp
  obtain ⟨w, hw, hvw⟩ := hxy.approximates v hv
  rw [hw, Option.map_some, hvw.isNull_eq, hvw.type_eq, hanswer]

lemma accompanies_convert : Accompanies L (convert i) (convert i) := by
  refine (tracks_same (typeOperand_resolved i)).bind ?_
  rintro type _ rfl
  refine tracks_pop.bind fun x y hxy => follows_freshId.bind fun L₁ id id' hle hid =>
    tracks_heap.bind fun a b hab => ?_
  refine (tracks_lift (Q := fun p q => ∃ L', L₁ ≤ L' ∧ L'.supply = L₁.supply ∧ p.2.Linked L' q.2 ∧
    p.1.Linked L' q.1) (b.convert_resolved id' y type) ?_).bind ?_
  · rintro ⟨x', a'⟩ ⟨y', b'⟩ hx hy
    exact hab.convert (hxy.mono hle) hid.1 hid.2 hx hy
  · rintro ⟨x', a'⟩ ⟨y', b'⟩ ⟨L', hle', hsupply, hheap, hitem⟩
    refine (follows_setHeap hle' hsupply hheap).bind ?_
    rintro _ _ _ - rfl
    exact (tracks_push hitem).accompanies

/-! ## Splicing bytes -/

lemma checkSize_resolved (size : Nat) : SymbolicScript.Resolved (checkSize config size) :=
  .ite (fun _ => .error rfl) fun _ => .ok _

lemma slice_resolved (opcode : Opcode) (bytes : Bytes) (index count : Nat) :
    SymbolicScript.Resolved (slice opcode bytes index count) :=
  .ite (fun _ => .ok _) fun _ => .error rfl

/-- The bytes of an operand are found in lockstep. -/
lemma tracks_bytesOf {x y : Item} (h : x.Linked L y) :
    Tracks L (bytesOf x) (bytesOf y) fun a b =>
      (∀ bs, a = some bs → b = some bs) ∧ x.Foretells L Value.bytes? b := by
  refine tracks_heap.bind fun a b hab => tracks_lift (b.bytesOf_resolved y) fun p q hp hq =>
    ⟨?_, hab.bytes? h.denotes hq⟩
  rintro bs rfl
  exact Except.ok.inj (hq.symm.trans (hab.toSimulates.bytesOf_some h.approximates hp))

lemma accompanies_newBuffer
    (hhandler : L.traces → JumpTable.standard.handler i.opcode = .newBuffer) :
    Accompanies L (newBuffer config i) (newBuffer config i) := by
  refine tracks_pop.bind fun x y hxy => (tracks_toInteger? hxy).bind fun a b hab => ?_
  cases a with
  | some value =>
    rw [hab.1 value rfl]
    exact .check rfl fun _ _ => (tracks_same (checkSize_resolved config _)).bind fun _ _ _ =>
      accompanies_pushBuffer _
  | none =>
    cases b with
    | some value =>
      refine .right_check rfl fun _ => .right_lift (checkSize_resolved config _) fun _ _ =>
        accompanies_push_pushBuffer rfl fun htraces hprimitive => ?_
      obtain ⟨v, hmeaning, hv⟩ := hab.2 htraces (hprimitive.operand (by simp)) value rfl
      rw [Item.meaning_derived (hhandler htraces) (by decide) (by decide) (.cons hmeaning .nil),
        Opcode.compute, hv]
      rfl
    | none => exact (tracks_push (.of_symbolic rfl rfl)).accompanies

/-- Changing the bytes of counterparts stays in lockstep if the change itself does. -/
lemma tracks_modifyBytes {k l : Nat} (hkl : L.counterparts k l)
    {change change' : Bytes → Except ExecutionError Bytes}
    (hchange : ∀ bytes changed, change bytes = .ok changed → change' bytes = .ok changed) :
    Tracks L (modifyBytes k change) (modifyBytes l change') fun _ _ => True :=
  tracks_heap.bind fun _ _ hab =>
    (tracks_lift_ok fun _ ha => hab.modifyBytes hkl hchange ha).bind
      fun _ _ hheap => tracks_setHeap hheap

lemma accompanies_memcpy : Accompanies L (memcpy i) (memcpy i) := by
  refine (tracks_popCount i.opcode).bind ?_
  rintro count _ rfl
  refine (tracks_popCount i.opcode).bind ?_
  rintro sourceIndex _ rfl
  refine tracks_pop.bind fun source source' hsource => (tracks_bytesOf hsource).bind
    fun _ _ hbytes => (tracks_demand hbytes.1).bind ?_
  rintro bytes _ rfl
  refine (tracks_same (slice_resolved i.opcode bytes sourceIndex count)).bind ?_
  rintro part _ rfl
  refine (tracks_popCount i.opcode).bind ?_
  rintro index _ rfl
  refine tracks_pop.bind fun x y hxy => ?_
  cases hv : x.known? with
  | none => exact follows_throw
  | some v =>
    obtain ⟨w, hw, hvw⟩ := hxy.approximates v hv
    rw [hw]
    cases hvw with
    | buffer hkl => exact (tracks_modifyBytes hkl fun _ _ h => h).accompanies
    | _ => exact follows_throw

lemma accompanies_concat (hhandler : L.traces → JumpTable.standard.handler i.opcode = .concat) :
    Accompanies L (concat config i) (concat config i) := by
  refine tracks_pop.bind fun y y' hy => tracks_pop.bind fun x x' hx =>
    (tracks_bytesOf hx).bind fun a a' ha => (tracks_bytesOf hy).bind fun b b' hb => ?_
  -- Without all bytes the lesser machine pushes a derived variable, whatever the other one does.
  have hsymbolic : Accompanies L (push (.derived i.opcode [x, y]))
      (push (.derived i.opcode [x', y'])) := (tracks_push (.of_symbolic rfl rfl)).accompanies
  have hbuffer {first second : Bytes} (hfirst : a' = some first) (hsecond : b' = some second) :
      Accompanies L (push (.derived i.opcode [x, y])) (do
        checkSize config (first.length + second.length)
        pushBuffer (first ++ second)) := by
    refine .right_lift (checkSize_resolved config _) fun _ _ =>
      accompanies_push_pushBuffer rfl fun htraces hprimitive => ?_
    obtain ⟨v, hmeaning, hv⟩ := ha.2 htraces (hprimitive.operand (by simp)) first hfirst
    obtain ⟨w, hmeaning', hw⟩ := hb.2 htraces (hprimitive.operand (by simp)) second hsecond
    rw [Item.meaning_derived (hhandler htraces) (by decide) (by decide)
      (.cons hmeaning (.cons hmeaning' .nil)), Opcode.compute, hv, hw]
    rfl
  cases a with
  | none =>
    cases a' with
    | none => exact hsymbolic
    | some first =>
      cases b' with
      | none => exact hsymbolic
      | some second => exact hbuffer rfl rfl
  | some first =>
    cases ha.1 first rfl
    cases b with
    | none =>
      cases b' with
      | none => exact hsymbolic
      | some second => exact hbuffer rfl rfl
    | some second =>
      cases hb.1 second rfl
      exact (tracks_same (checkSize_resolved config _)).bind fun _ _ _ =>
        accompanies_pushBuffer _

lemma accompanies_substring
    (hhandler : L.traces → JumpTable.standard.handler i.opcode = .substring) :
    Accompanies L (substring i) (substring i) := by
  refine (tracks_popCount i.opcode).bind ?_
  rintro count _ rfl
  refine (tracks_popCount i.opcode).bind ?_
  rintro index _ rfl
  refine tracks_pop.bind fun x y hxy => (tracks_bytesOf hxy).bind fun a b hab => ?_
  cases a with
  | some bytes =>
    rw [hab.1 bytes rfl]
    refine (tracks_same (slice_resolved i.opcode bytes index count)).bind ?_
    rintro part _ rfl
    exact accompanies_pushBuffer part
  | none =>
    cases b with
    | some bytes =>
      refine .right_lift (slice_resolved _ _ _ _) fun part hpart =>
        accompanies_push_pushBuffer rfl fun htraces hprimitive => ?_
      obtain ⟨v, hmeaning, hv⟩ := hab.2 htraces (hprimitive.operand (by simp)) bytes rfl
      rw [Item.meaning_derived (hhandler htraces) (by decide) (by decide)
        (.cons hmeaning (.cons rfl (.cons rfl .nil))), Opcode.compute, hv]
      change (slice i.opcode bytes index count).toOption.bind _ = _
      rw [hpart]
      rfl
    | none => exact (tracks_push (.of_symbolic rfl rfl)).accompanies

/-- Taking bytes from an end stays in lockstep if the bytes are the value of the instruction. -/
lemma accompanies_takeEnd {part : Nat → Bytes → Bytes}
    (hvalue : L.traces → ∀ x v count bytes, x.meaning L.valuation = some v → v.bytes? = some bytes →
      (Item.derived i.opcode [x, countItem count]).meaning L.valuation =
        some (.buffer (part count bytes))) :
    Accompanies L (takeEnd part i) (takeEnd part i) := by
  refine (tracks_popCount i.opcode).bind ?_
  rintro count _ rfl
  refine tracks_pop.bind fun x y hxy => (tracks_bytesOf hxy).bind fun a b hab => ?_
  cases a with
  | some bytes =>
    rw [hab.1 bytes rfl]
    exact .ite Iff.rfl (fun _ _ => accompanies_pushBuffer _) fun _ _ => follows_throw
  | none =>
    cases b with
    | some bytes =>
      simp only
      split
      · refine accompanies_push_pushBuffer rfl fun htraces hprimitive => ?_
        obtain ⟨v, hmeaning, hv⟩ := hab.2 htraces (hprimitive.operand (by simp)) bytes rfl
        exact hvalue htraces x v count bytes hmeaning hv
      · exact follows_of_throw rfl
    | none => exact (tracks_push (.of_symbolic rfl rfl)).accompanies

lemma accompanies_leftPart
    (hhandler : L.traces → JumpTable.standard.handler i.opcode = .leftPart) :
    Accompanies L (leftPart i) (leftPart i) :=
  accompanies_takeEnd i fun htraces x v count bytes hmeaning hv => by
    rw [Item.meaning_derived (hhandler htraces) (by decide) (by decide)
      (.cons hmeaning (.cons rfl .nil)), Opcode.compute, hv]
    rfl

lemma accompanies_rightPart
    (hhandler : L.traces → JumpTable.standard.handler i.opcode = .rightPart) :
    Accompanies L (rightPart i) (rightPart i) :=
  accompanies_takeEnd i fun htraces x v count bytes hmeaning hv => by
    rw [Item.meaning_derived (hhandler htraces) (by decide) (by decide)
      (.cons hmeaning (.cons rfl .nil)), Opcode.compute, hv]
    rfl

end Semantics

end SymbolicScript
