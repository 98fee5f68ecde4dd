import SymbolicScript.Proofs.LinkedStates
import SymbolicScript.Proofs.Resolved

/-!
# Computations in lockstep

Two machines execute the same instruction, and the one that knows less succeeds.  Then the other one
succeeds as well and the states stay linked, or it fails for a reason that the lesser machine could
not see.  The one thing that cannot happen is that the machine that knows more is stuck with an
unresolved operand.

`Exec.Follows L x y Q` states this for two computations `x` and `y` on states that are related by
the link `L`: the link may grow, and the results are related by `Q`.  The property composes along
`do` blocks, so the proof for a handler follows the text of the handler.  Most steps allocate nothing
and keep the link (`Exec.Tracks`).  Where the machine that knows more takes another branch than the
lesser one, the steps that only it makes are taken one at a time: it may look something up
(`Follows.right_lift`), look at its heap (`Follows.right_heap`) or allocate a buffer that is retained
(`Follows.right_buffer`).
-/

namespace SymbolicScript

namespace Exec

variable {α β γ δ : Type} {L L' : Link}

/-! ## The relation between computations -/

/-- Whenever the first computation succeeds, the second one keeps the states related if it succeeds,
and is not unresolved if it fails. -/
def Follows (L : Link) (x : Exec α) (y : Exec β) (Q : Link → α → β → Prop) : Prop :=
  ∀ s t a s', s.Linked L t → x s = .ok a s' →
    (∀ e t', y t = .error e t' → e.isUnresolved = false) ∧
      ∀ b t', y t = .ok b t' → ∃ L', L ≤ L' ∧ s'.Linked L' t' ∧ Q L' a b

/-- The computations stay in lockstep without changing the link. -/
abbrev Tracks (L : Link) (x : Exec α) (y : Exec β) (Q : α → β → Prop) : Prop :=
  Follows L x y fun L' a b => L' = L ∧ Q a b

/-- The computations stay in lockstep, whatever their results are. -/
abbrev Accompanies (L : Link) (x : Exec α) (y : Exec β) : Prop :=
  Follows L x y fun _ _ _ => True

/-- The results may be related in a weaker way. -/
lemma Follows.weaken {x : Exec α} {y : Exec β} {Q R : Link → α → β → Prop}
    (h : Follows L x y Q) (hR : ∀ L' a b, L ≤ L' → Q L' a b → R L' a b) : Follows L x y R := by
  intro s t a s' hst hx
  obtain ⟨hresolved, hok⟩ := h s t a s' hst hx
  refine ⟨hresolved, fun b t' hy => ?_⟩
  obtain ⟨L', hle, hst', hQ⟩ := hok b t' hy
  exact ⟨L', hle, hst', hR L' a b hle hQ⟩

/-- Computations that stay in lockstep do so whatever their results are. -/
lemma Follows.accompanies {x : Exec α} {y : Exec β} {Q : Link → α → β → Prop}
    (h : Follows L x y Q) : Accompanies L x y :=
  h.weaken fun _ _ _ _ _ => trivial

/-- Sequences stay in lockstep if their parts do. -/
lemma Follows.bind {x : Exec α} {y : Exec β} {Q : Link → α → β → Prop} {k : α → Exec γ}
    {l : β → Exec δ} {R : Link → γ → δ → Prop} (hxy : Follows L x y Q)
    (hkl : ∀ L' a b, L ≤ L' → Q L' a b → Follows L' (k a) (l b) R) :
    Follows L (x >>= k) (y >>= l) R := by
  intro s t c s'' hst hx
  obtain ⟨a, s', hx, hk⟩ := bind_eq_ok.1 hx
  obtain ⟨hresolved, hok⟩ := hxy s t a s' hst hx
  simp only [Bind.bind, EStateM.bind]
  cases hy : y t with
  | error e t' =>
    refine ⟨?_, by rintro _ _ ⟨⟩⟩
    rintro _ _ ⟨⟩
    exact hresolved e t' hy
  | ok b t' =>
    obtain ⟨L', hle, hst', hQ⟩ := hok b t' hy
    obtain ⟨hresolved', hok'⟩ := hkl L' a b hle hQ s' t' c s'' hst' hk
    refine ⟨hresolved', fun d t'' hl => ?_⟩
    obtain ⟨L'', hle', hst'', hR⟩ := hok' d t'' hl
    exact ⟨L'', le_trans hle hle', hst'', hR⟩

/-- A step that keeps the link is followed by the rest under the same link. -/
lemma Tracks.bind {x : Exec α} {y : Exec β} {Q : α → β → Prop} {k : α → Exec γ} {l : β → Exec δ}
    {R : Link → γ → δ → Prop} (hxy : Tracks L x y Q)
    (hkl : ∀ a b, Q a b → Follows L (k a) (l b) R) : Follows L (x >>= k) (y >>= l) R :=
  Follows.bind hxy fun _ a b _ ⟨heq, hQ⟩ => heq ▸ hkl a b hQ

/-- Steps whose results do not matter are followed by the rest. -/
lemma Accompanies.bind {x : Exec α} {y : Exec β} {k : α → Exec γ} {l : β → Exec δ}
    {R : Link → γ → δ → Prop} (hxy : Accompanies L x y)
    (hkl : ∀ L' a b, L ≤ L' → Follows L' (k a) (l b) R) : Follows L (x >>= k) (y >>= l) R :=
  Follows.bind hxy fun L' a b hle _ => hkl L' a b hle

/-- Results that are related are returned in lockstep. -/
lemma tracks_pure {a : α} {b : β} {Q : α → β → Prop} (h : Q a b) :
    Tracks L (pure a) (pure b) Q := by
  rintro s t _ _ hst ⟨⟩
  constructor
  · rintro _ _ ⟨⟩
  · rintro _ _ ⟨⟩
    exact ⟨L, le_refl L, hst, rfl, h⟩

lemma accompanies_pure (a : α) (b : β) : Accompanies L (pure a) (pure b) :=
  (tracks_pure (Q := fun _ _ => True) trivial).accompanies

/-- Nothing is to be shown where the lesser machine fails. -/
lemma follows_throw {e : ExecutionError} {y : Exec β} {Q : Link → α → β → Prop} :
    Follows L (throw e) y Q := by
  rintro s t a s' hst ⟨⟩

/-- Where the lesser machine succeeds, the other one may fail for a reason of its own. -/
lemma follows_of_throw {x : Exec α} {e : ExecutionError} {Q : Link → α → β → Prop}
    (he : e.isUnresolved = false) : Follows L x (throw e) Q := by
  intro s t a s' hst hx
  constructor
  · rintro _ _ ⟨⟩
    exact he
  · rintro _ _ ⟨⟩

/-- A choice is made in the same way on both sides if its conditions are equivalent. -/
lemma Follows.ite {c c' : Prop} [Decidable c] [Decidable c'] {x x' : Exec α} {y y' : Exec β}
    {Q : Link → α → β → Prop} (hc : c ↔ c') (hthen : c → c' → Follows L x y Q)
    (helse : ¬c → ¬c' → Follows L x' y' Q) :
    Follows L (if c then x else x') (if c' then y else y') Q := by
  by_cases h : c
  · rw [if_pos h, if_pos (hc.1 h)]
    exact hthen h (hc.1 h)
  · rw [if_neg h, if_neg fun h' => h (hc.2 h')]
    exact helse h fun h' => h (hc.2 h')

/-- Where the lesser machine passes a check, the other one passes it as well, or fails for a reason
of its own. -/
lemma Follows.check {c c' : Prop} [Decidable c] [Decidable c'] {e e' : ExecutionError}
    {k : Unit → Exec α} {l : Unit → Exec β} {Q : Link → α → β → Prop}
    (he : e'.isUnresolved = false) (hkl : ¬c → ¬c' → Follows L (k ()) (l ()) Q) :
    Follows L (if c then throw e >>= k else k ()) (if c' then throw e' >>= l else l ()) Q := by
  split
  · rintro s t a s' hst ⟨⟩
  · next h =>
    split
    · rintro s t a s' hst hx
      constructor
      · rintro _ _ ⟨⟩
        exact he
      · rintro _ _ ⟨⟩
    · next h' => exact hkl h h'

/-! ## Steps of one side -/

/-- The machine that knows more may look up a result on its own. -/
lemma Follows.right_lift {x : Exec α} {result : Except ExecutionError β} {l : β → Exec γ}
    {Q : Link → α → γ → Prop} (hresolved : SymbolicScript.Resolved result)
    (hl : ∀ b, result = .ok b → Follows L x (l b) Q) : Follows L x (liftM result >>= l) Q := by
  cases hresult : result with
  | error e => exact follows_of_throw (hresolved e hresult)
  | ok b => exact hl b hresult

/-- The lesser machine may look up a result on its own. -/
lemma Follows.left_lift {result : Except ExecutionError α} {y : Exec β} {k : α → Exec γ}
    {Q : Link → γ → β → Prop} (hk : ∀ a, result = .ok a → Follows L (k a) y Q) :
    Follows L (liftM result >>= k) y Q := by
  cases hresult : result with
  | error e => exact follows_throw
  | ok a => exact hk a hresult

/-- Nothing is to be related where the machine that knows more fails for a reason of its own. -/
lemma follows_of_fails {x : Exec α} {y : Exec β} {Q : Link → α → β → Prop}
    (hresolved : Resolved y) (hfails : ∀ t b t', y t ≠ .ok b t') : Follows L x y Q :=
  fun _ t _ _ _ _ => ⟨hresolved t, fun b t' hy => absurd hy (hfails t b t')⟩

/-- The machine that knows more may look at its heap on its own. -/
lemma Follows.right_heap {x : Exec α} {l : Heap → Exec β} {Q : Link → α → β → Prop}
    (hl : ∀ a b : Heap, a.Linked L b → Follows L x (l b) Q) : Follows L x (heap >>= l) Q := by
  intro s t a s' hst hx
  cases ht : t.frames with
  | nil =>
    simp only [Bind.bind, EStateM.bind, heap, world, ht]
    constructor
    · rintro _ _ ⟨⟩
      rfl
    · rintro _ _ ⟨⟩
  | cons g rest =>
    rw [bind_of_ok (heap_eq ht), hst.frame_world ht]
    exact hl _ _ hst.world.heap s t a s' hst hx

/-- The machine that knows more may allocate a buffer on its own, which is retained. -/
lemma Follows.right_buffer {x : Exec α} {bytes : Bytes} {l : Heap → Exec β}
    {Q : Link → α → β → Prop}
    (hl : ∀ b L', L ≤ L' → L'.valuation = L.valuation → L'.retained b.size = some bytes →
      Follows L' x (l b) Q) :
    Follows L x (heap >>= fun b => setHeap (b.add (.buffer bytes)) >>= fun _ => l b) Q := by
  intro s t a s' hst hx
  cases ht : t.frames with
  | nil =>
    simp only [Bind.bind, EStateM.bind, heap, world, ht]
    constructor
    · rintro _ _ ⟨⟩
      rfl
    · rintro _ _ ⟨⟩
  | cons g rest =>
    rw [bind_of_ok (heap_eq ht), bind_of_ok (setHeap_eq ht _), hst.frame_world ht]
    have hheap := hst.world.heap
    have hle := Link.le_retain hheap.retained_size bytes
    have hworld : (s.worldAt 0).Linked (L.retain (t.worldAt 0).heap.size bytes)
        { t.worldAt 0 with heap := (t.worldAt 0).heap.add (.buffer bytes) } :=
      hst.world.withHeap hle (hheap.retain bytes)
    obtain ⟨hresolved, hok⟩ := hl _ _ hle rfl (Function.update_self _ _ _) s _ a s'
      (hst.setWorld_right hle rfl hworld) hx
    refine ⟨hresolved, fun b t' hy => ?_⟩
    obtain ⟨L', hle', hend, hQ⟩ := hok b t' hy
    exact ⟨L', le_trans hle hle', hend, hQ⟩

/-- The machine that knows more may make a check on its own. -/
lemma Follows.right_check {c : Prop} [Decidable c] {e : ExecutionError} {x : Exec α}
    {l : Unit → Exec β} {Q : Link → α → β → Prop} (he : e.isUnresolved = false)
    (hl : ¬c → Follows L x (l ()) Q) :
    Follows L x (if c then throw e >>= l else l ()) Q := by
  split
  · intro s t a s' hst hx
    constructor
    · rintro _ _ ⟨⟩
      exact he
    · rintro _ _ ⟨⟩
  · next h => exact hl h

/-! ## Looking at the state -/

/-- Results are looked up in lockstep if the machine that knows more finds what the other one
finds. -/
lemma tracks_lift {result : Except ExecutionError α} {result' : Except ExecutionError β}
    {Q : α → β → Prop} (hresolved : SymbolicScript.Resolved result')
    (h : ∀ a b, result = .ok a → result' = .ok b → Q a b) :
    Tracks L (liftM result : Exec α) (liftM result' : Exec β) Q := by
  intro s t a s' hst hx
  obtain ⟨hresult, rfl⟩ := liftM_eq_ok.1 hx
  refine ⟨fun e t' hy => Resolved.lift hresolved t e t' hy, fun b t' hy => ?_⟩
  obtain ⟨hresult', rfl⟩ := liftM_eq_ok.1 hy
  exact ⟨L, le_refl L, hst, rfl, h a b hresult hresult'⟩

/-- Results are looked up in lockstep if whatever the lesser machine finds has a counterpart. -/
lemma tracks_lift_ok {result : Except ExecutionError α} {result' : Except ExecutionError β}
    {Q : α → β → Prop} (h : ∀ a, result = .ok a → ∃ b, result' = .ok b ∧ Q a b) :
    Tracks L (liftM result : Exec α) (liftM result' : Exec β) Q := by
  cases hresult : result with
  | error e => exact follows_throw
  | ok a =>
    obtain ⟨b, hb, hQ⟩ := h a hresult
    rw [hb]
    exact tracks_pure hQ

/-- The same result is the same on both sides. -/
lemma tracks_same {result : Except ExecutionError α}
    (hresolved : SymbolicScript.Resolved result) :
    Tracks L (liftM result : Exec α) (liftM result : Exec α) fun a b => a = b :=
  tracks_lift hresolved fun _ _ ha hb => Except.ok.inj (ha.symm.trans hb)

/-- What the lesser machine has to know, the other one knows as well. -/
lemma tracks_demand {opcode : Opcode} {x y : Option α} (h : ∀ a, x = some a → y = some a) :
    Tracks L (demand opcode x) (demand opcode y) fun a b => a = b := by
  cases x with
  | none => exact follows_throw
  | some a =>
    rw [h a rfl]
    exact tracks_pure rfl

lemma tracks_get : Tracks L (get : Exec State) get (State.Linked L) := by
  rintro s t _ _ hst ⟨⟩
  constructor
  · rintro _ _ ⟨⟩
  · rintro _ _ ⟨⟩
    exact ⟨L, le_refl L, hst, rfl, hst⟩

lemma tracks_frame : Tracks L frame frame (Frame.Linked L) := by
  intro s t a s' hst hx
  refine ⟨Resolved.frame t, fun b t' hy => ?_⟩
  unfold frame at hx hy
  cases hs : s.frames with
  | nil =>
    rw [hs] at hx
    cases hx
  | cons f rest =>
    obtain ⟨g, rest', ht, hfg, -⟩ := hst.frames_cons hs
    rw [hs] at hx
    rw [ht] at hy
    cases hx
    cases hy
    exact ⟨L, le_refl L, hst, rfl, hfg⟩

/-- Work on the world of the current frame stays in lockstep if it keeps the worlds related. -/
lemma follows_onWorld {change : World → α × World} {change' : World → β × World}
    {Q : α → β → Prop} (hle : L ≤ L') (hsupply : L'.supply = L.supply)
    (h : ∀ w w' : World, w.Linked L w' →
      (change w).2.Linked L' (change' w').2 ∧ Q (change w).1 (change' w').1) :
    Follows L (onWorld change) (onWorld change') fun L₁ a b => L₁ = L' ∧ Q a b := by
  intro s t a s' hst hx
  refine ⟨Resolved.onWorld change' t, fun b t' hy => ?_⟩
  unfold onWorld at hx hy
  cases hs : s.frames with
  | nil =>
    rw [hs] at hx
    cases hx
  | cons f rest =>
    obtain ⟨g, rest', ht, hfg, -⟩ := hst.frames_cons hs
    rw [hs] at hx
    rw [ht] at hy
    cases hx
    cases hy
    rw [hfg.world, hfg.first]
    obtain ⟨hw, hQ⟩ := h _ _ hst.world
    exact ⟨L', hle, hst.setWorld hle hsupply hw, rfl, hQ⟩

lemma tracks_onWorld {change : World → α × World} {change' : World → β × World}
    {Q : α → β → Prop}
    (h : ∀ w w' : World, w.Linked L w' →
      (change w).2.Linked L (change' w').2 ∧ Q (change w).1 (change' w').1) :
    Tracks L (onWorld change) (onWorld change') Q :=
  follows_onWorld (le_refl L) rfl h

lemma tracks_world : Tracks L world world (World.Linked L) := by
  intro s t a s' hst hx
  refine ⟨Resolved.world t, fun b t' hy => ?_⟩
  unfold world at hx hy
  cases hs : s.frames with
  | nil =>
    rw [hs] at hx
    cases hx
  | cons f rest =>
    obtain ⟨g, rest', ht, hfg, -⟩ := hst.frames_cons hs
    rw [hs] at hx
    rw [ht] at hy
    cases hx
    cases hy
    rw [hfg.world, hfg.first]
    exact ⟨L, le_refl L, hst, rfl, hst.world⟩

lemma tracks_heap : Tracks L heap heap (Heap.Linked L) :=
  tracks_world.bind fun _ _ hw => tracks_pure hw.heap

/-! ## Changing the state -/

lemma tracks_modifyWorld {change change' : World → World}
    (h : ∀ w w' : World, w.Linked L w' → (change w).Linked L (change' w')) :
    Tracks L (modifyWorld change) (modifyWorld change') fun _ _ => True :=
  tracks_onWorld fun w w' hw => ⟨h w w' hw, trivial⟩

/-- Work on the evaluation stack stays in lockstep if it keeps the stacks related. -/
lemma tracks_onStack {change : EvaluationStack → α × EvaluationStack}
    {change' : EvaluationStack → β × EvaluationStack} {Q : α → β → Prop}
    (h : ∀ s t : EvaluationStack, s.Linked L t →
      (change s).2.Linked L (change' t).2 ∧ Q (change s).1 (change' t).1) :
    Tracks L (onStack change) (onStack change') Q := by
  refine tracks_onWorld fun w w' hw => ?_
  obtain ⟨hstack, hQ⟩ := h _ _ hw.stack
  exact ⟨{ hw with stack := hstack }, hQ⟩

lemma tracks_modifyStack {change change' : EvaluationStack → EvaluationStack}
    (h : ∀ s t : EvaluationStack, s.Linked L t → (change s).Linked L (change' t)) :
    Tracks L (modifyStack change) (modifyStack change') fun _ _ => True :=
  tracks_onStack fun s t hst => ⟨h s t hst, trivial⟩

/-- Heaps may be put in the place of the present ones under a link that has grown. -/
lemma follows_setHeap {a b : Heap} (hle : L ≤ L') (hsupply : L'.supply = L.supply)
    (h : a.Linked L' b) :
    Follows L (setHeap a) (setHeap b) fun L₁ _ _ => L₁ = L' := by
  unfold setHeap modifyWorld
  refine Follows.weaken (follows_onWorld (Q := fun _ _ => True) hle hsupply fun w w' hw => ?_)
    fun _ _ _ _ hQ => hQ.1
  exact ⟨hw.withHeap hle h, trivial⟩

lemma tracks_setHeap {a b : Heap} (h : a.Linked L b) :
    Tracks L (setHeap a) (setHeap b) fun _ _ => True :=
  (follows_setHeap (le_refl L) rfl h).weaken fun _ _ _ _ heq => ⟨heq, trivial⟩

lemma tracks_setFrame {f g : Frame} (h : f.Linked L g) :
    Tracks L (setFrame f) (setFrame g) fun _ _ => True := by
  intro s t a s' hst hx
  refine ⟨Resolved.setFrame g t, fun b t' hy => ?_⟩
  unfold setFrame at hx hy
  cases hs : s.frames with
  | nil =>
    rw [hs] at hx
    cases hx
  | cons f' rest =>
    obtain ⟨g', rest', ht, -, hrest⟩ := hst.frames_cons hs
    rw [hs] at hx
    rw [ht] at hy
    cases hx
    cases hy
    exact ⟨L, le_refl L, { hst with frames := .cons h hrest }, rfl, trivial⟩

lemma tracks_modify {change change' : State → State}
    (h : ∀ s t : State, s.Linked L t → (change s).Linked L (change' t)) :
    Tracks L (modify change : Exec Unit) (modify change') fun _ _ => True := by
  rintro s t _ _ hst ⟨⟩
  constructor
  · rintro _ _ ⟨⟩
  · rintro _ _ ⟨⟩
    exact ⟨L, le_refl L, h s t hst, rfl, trivial⟩

/-- Accesses are recorded outside of what is related. -/
lemma tracks_recordRead (a : Access) (offset : Nat) :
    Tracks L (recordRead a offset) (recordRead a offset) fun _ _ => True :=
  tracks_modifyWorld fun _ _ hw => ⟨hw.script, hw.stack, hw.statics, hw.heap⟩

/-- Accesses are recorded outside of what is related. -/
lemma tracks_recordWrite (a : Access) (offset : Nat) :
    Tracks L (recordWrite a offset) (recordWrite a offset) fun _ _ => True :=
  tracks_modifyWorld fun _ _ hw => ⟨hw.script, hw.stack, hw.statics, hw.heap⟩

/-! ## Items on the evaluation stack -/

lemma tracks_push {x y : Item} (h : x.Linked L y) :
    Tracks L (push x) (push y) fun _ _ => True :=
  tracks_modifyStack fun _ _ hst => hst.push h.constant

/-- Where the lesser machine pushes a symbolic item, the other one may push what that stands for. -/
lemma tracks_push_symbolic {x y : Item} (hx : x.known? = none) (h : x.Denotes L y) :
    Tracks L (push x) (push y) fun _ _ => True :=
  tracks_push (.of_denotes hx h)

lemma tracks_pop : Tracks L pop pop (Item.Linked L) :=
  tracks_onStack fun _ _ hst => ⟨hst.pop, by simpa using hst 0⟩

lemma tracks_peek (index : Nat) : Tracks L (peek index) (peek index) (Item.Linked L) :=
  tracks_onStack fun _ _ hst => ⟨hst.peek index, by simpa using hst index⟩

lemma tracks_popMany (count : Nat) :
    Tracks L (popMany count) (popMany count) (List.Forall₂ (Item.Linked L)) :=
  tracks_onStack fun _ _ hst => ⟨hst.popMany count, hst.popMany_fst count⟩

/-- The truth value of an operand is found in lockstep. -/
lemma tracks_toBoolean? {x y : Item} (h : x.Linked L y) :
    Tracks L (liftM x.toBoolean? : Exec (Option Bool)) (liftM y.toBoolean?) fun a b =>
      (∀ p, a = some p → b = some p) ∧ x.Foretells L Value.boolean? b :=
  tracks_lift y.toBoolean?_resolved fun _ _ ha hb =>
    ⟨by
      rintro p rfl
      exact Except.ok.inj (hb.symm.trans (h.approximates.toBoolean?_some ha)),
      h.denotes.boolean? hb⟩

/-- The integer of an operand is found in lockstep. -/
lemma tracks_toInteger? {x y : Item} (h : x.Linked L y) :
    Tracks L (liftM x.toInteger? : Exec (Option Int)) (liftM y.toInteger?) fun a b =>
      (∀ n, a = some n → b = some n) ∧ x.Foretells L Value.integer? b :=
  tracks_lift y.toInteger?_resolved fun _ _ ha hb =>
    ⟨by
      rintro n rfl
      exact Except.ok.inj (hb.symm.trans (h.approximates.toInteger?_some ha)),
      h.denotes.integer? hb⟩

lemma tracks_popInteger (opcode : Opcode) :
    Tracks L (popInteger opcode) (popInteger opcode) fun m n => m = n :=
  tracks_pop.bind fun _ _ hxy => (tracks_toInteger? hxy).bind fun _ _ hab => tracks_demand hab.1

lemma tracks_popBoolean (opcode : Opcode) :
    Tracks L (popBoolean opcode) (popBoolean opcode) fun p q => p = q :=
  tracks_pop.bind fun _ _ hxy => (tracks_toBoolean? hxy).bind fun _ _ hab => tracks_demand hab.1

lemma tracks_popCount (opcode : Opcode) :
    Tracks L (popCount opcode) (popCount opcode) fun m n => m = n := by
  refine (tracks_popInteger opcode).bind ?_
  rintro m _ rfl
  exact .ite Iff.rfl (fun _ _ => tracks_pure rfl) fun _ _ => follows_throw

/-! ## Unknowns -/

/-- The identity that the lesser machine introduces has no value yet. -/
lemma follows_freshId :
    Follows L freshId freshId fun L' id _ =>
      id < L'.supply ∧ L'.valuation (.fresh id) = none := by
  rintro s t _ _ hst ⟨⟩
  constructor
  · rintro _ _ ⟨⟩
  · rintro _ _ ⟨⟩
    refine ⟨_, L.le_introduce s.supply, ?_, Nat.lt_of_lt_of_le (Nat.lt_succ_self _)
      (Nat.le_max_right _ _), L.unassigned _ hst.supply⟩
    exact (hst.withSupply (Nat.le_succ _) _).introduce s.supply (Nat.lt_succ_self _)

/-- Unknowns that both machines introduce are linked. -/
lemma follows_fresh (type : ItemType) :
    Follows L (fresh type) (fresh type) fun L' x y => x.Linked L' y :=
  follows_freshId.bind fun _ _ _ _ _ =>
    (tracks_pure (Q := Item.Linked _) (.of_symbolic rfl rfl)).weaken fun _ _ _ _ hQ => hQ.1 ▸ hQ.2

/-- An unknown that the lesser machine introduces on its own may stand for a value. -/
lemma Follows.left_fresh {type : ItemType} {y : Exec β} {k : Item → Exec α}
    {Q : Link → α → β → Prop} (v : Value)
    (hk : ∀ L' x, L ≤ L' → x.known? = none → x.meaning L'.valuation = some v →
      Follows L' (k x) y Q) :
    Follows L (fresh type >>= k) y Q := by
  intro s t a s' hst hx
  have hnone := L.unassigned s.supply hst.supply
  have hintroduced := (hst.withSupply (Nat.le_succ _) t.supply).introduce s.supply
    (Nat.lt_succ_self _)
  have hid : s.supply < (L.introduce s.supply).supply :=
    Nat.lt_of_lt_of_le (Nat.lt_succ_self _) (Nat.le_max_right _ _)
  have hle := le_trans (L.le_introduce s.supply) (Link.le_assign hid hnone v)
  obtain ⟨hresolved, hok⟩ := hk _ (.unknown type (.fresh s.supply)) hle rfl
    (Function.update_self _ _ _) _ t a s' (hintroduced.assign hid hnone v) hx
  refine ⟨hresolved, fun b t' hy => ?_⟩
  obtain ⟨L', hle', hend, hQ⟩ := hok b t' hy
  exact ⟨L', le_trans hle hle', hend, hQ⟩

/-! ## Objects on the heap -/

lemma accompanies_pushBuffer (bytes : Bytes) :
    Accompanies L (pushBuffer bytes) (pushBuffer bytes) := by
  refine tracks_heap.bind fun a b hab => ?_
  obtain ⟨L', hle, hsupply, hheap, hitem⟩ := hab.newBuffer bytes
  refine (follows_setHeap hle hsupply hheap).bind ?_
  rintro _ _ _ - rfl
  exact (tracks_push hitem).accompanies

/-- Where the lesser machine pushes a symbolic item, the other one may push a buffer of the bytes
that the item stands for. -/
lemma accompanies_push_pushBuffer {x : Item} {bytes : Bytes} (hx : x.known? = none)
    (h : L.traces → x.Primitive → x.meaning L.valuation = some (.buffer bytes)) :
    Accompanies L (push x) (pushBuffer bytes) := by
  refine .right_buffer fun b L' hle hvaluation hretained => ?_
  refine (tracks_push_symbolic hx fun htraces hprimitive _ => ?_).accompanies
  rw [hvaluation]
  exact ⟨_, .buffer rfl hretained, h ((Link.traces_iff hle).1 htraces) hprimitive⟩

lemma accompanies_pushCompound (kind : CompoundKind) {xs ys : List Item}
    (h : List.Forall₂ (Item.Linked L) xs ys) :
    Accompanies L (pushCompound kind xs) (pushCompound kind ys) := by
  refine tracks_heap.bind fun a b hab => ?_
  obtain ⟨L', hle, hsupply, hheap, hitem⟩ := hab.newCompound kind h
  refine (follows_setHeap hle hsupply hheap).bind ?_
  rintro _ _ _ - rfl
  exact (tracks_push hitem).accompanies

/-- What is stored in a compound is linked to what the other machine stores. -/
lemma follows_cloneStruct {x y : Item} (h : x.Linked L y) :
    Follows L (cloneStruct x) (cloneStruct y) fun L' x' y' => x'.Linked L' y' := by
  refine tracks_heap.bind fun a b hab => ?_
  have hresolved := b.cloneStruct_resolved y
  rcases hx : a.cloneStruct x with ⟨copy | copy, a'⟩
  · rintro s t x' s' - hfails
    obtain ⟨_, _, -, hcopy⟩ := bind_eq_ok.1 hfails
    cases hcopy
  · rcases hy : b.cloneStruct y with ⟨e | copy', b'⟩
    · refine follows_of_fails (.bind (.setHeap b') fun _ => .lift ?_) fun t y' t' hok => ?_
      · rwa [hy] at hresolved
      · obtain ⟨_, _, -, hcopy⟩ := bind_eq_ok.1 hok
        cases hcopy
    · obtain ⟨L', hle, hsupply, hheap, hitem⟩ := hab.cloneStruct h hx hy
      refine (follows_setHeap hle hsupply hheap).bind ?_
      rintro _ _ _ - rfl
      exact (tracks_pure hitem).weaken fun _ _ _ _ hQ => hQ.1 ▸ hQ.2

end Exec

end SymbolicScript
