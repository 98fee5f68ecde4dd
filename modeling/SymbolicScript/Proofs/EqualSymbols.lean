import SymbolicScript.Proofs.KnownFacts

/-!
# Equal symbolic items

Symbolic items are equal if they tell the same provenance, and equal items are taken for the same
value.  This file proves when they have the same value: if a script is executed once from an empty
stack and once from a stack that already holds some items, and the first execution holds the same
primitive item at two places and times, then the second one holds the same bytes there, as far as it
knows them (`Machine.equal_bytes_of_primitive`).  The reason is that the items that the second
execution starts with and the answers that it finds give every unknown one value for the whole run,
and that a primitive item stands for the same value whenever it is evaluated
(`Machine.exists_valuation`).

Items that mention a buffer, an array or a struct do not have this property.  They hold on to the
handle of an object whose contents may change between two reads (`Machine.equal_symbols_differ`).
-/

namespace SymbolicScript

/-- The link between a machine that starts with nothing on its evaluation stack and one that starts
with some items, for which the entries below the stack of the first machine stand. -/
def Link.preloaded (items : List Item) : Link where
  counterparts _ _ := False
  valuation
    | .extension k => (items[k]?.bind Item.known?).map .plain
    | .fresh _ => none
  supply := 0
  unassigned _ _ := rfl
  retained _ := none
  traces := True

namespace Machine

variable {a b a' b' : Machine}

/-- An entry below the stack is linked to the item that the other machine starts with, which has no
handle. -/
lemma preloaded_linked {items : List Item} (hitems : ∀ c ∈ items, c.handle? = none) :
    EvaluationStack.empty.Linked (.preloaded items) (EvaluationStack.empty.pushAll items) := by
  intro k
  have hbelow := EvaluationStack.view_of_le (s := .empty) (Nat.zero_le k)
  rw [hbelow, EvaluationStack.view_pushAll]
  split
  · next hk =>
    refine .of_denotes rfl fun _ _ hknown => ?_
    obtain ⟨v, hv⟩ := Option.isSome_iff_exists.1 hknown
    have hplain := (Item.handle?_known hv).trans (hitems _ (List.getElem_mem hk))
    refine ⟨.plain v, .plain hv hplain, ?_⟩
    simp [Item.meaning, EvaluationStack.extension, Link.preloaded, EvaluationStack.empty, hk, hv]
  · exact .of_symbolic rfl (by rw [EvaluationStack.view_of_le (Nat.zero_le _)]; rfl)

/-- A machine that has just loaded a script is linked to one that also has items without handles on
its stack. -/
lemma loaded_linked (script : Script) (config : Config) (watchdog watchdog' : Watchdog)
    (supply supply' offset : Nat) {items : List Item} (hitems : ∀ c ∈ items, c.handle? = none) :
    (loaded script config watchdog supply offset).Linked (.preloaded items)
      ((loaded script config watchdog' supply' offset).preload items) where
  config := rfl
  table := rfl
  table' := rfl
  state :=
    { size := rfl
      size' := rfl
      world :=
        { script := rfl
          stack := preloaded_linked hitems
          statics := .of_untouched _
          heap :=
            { toSimulates := .empty _
              linked := nofun
              retained := nofun
              released := nofun } }
      frames := .cons ⟨rfl, rfl, rfl, rfl, .of_untouched _, .of_untouched _, rfl⟩ .nil
      status := rfl
      jumping := rfl
      exception := .none
      supply := Nat.zero_le _ }

/-- Along a run of linked machines whose values are traced, the unknowns have values under which
every primitive item on the stack of the lesser machine stands for the bytes that the other machine
holds in its place. -/
theorem exists_valuation {L : Link} {n : Nat} (h : a.Linked L b) (htraces : L.traces)
    (hhost : ∀ k < n, ∀ i, (steps k a).2.next = .ok (some i) → i.opcode ≠ .syscall)
    (ha : steps n a = (.ok (), a')) (hb : steps n b = (.ok (), b')) :
    ∃ σ : Valuation, ∀ k ≤ n, ∀ p bytes,
      (((steps k a).2.state.worldAt 0).stack.view p).Primitive →
      ((steps k b).2.state.worldAt 0).heap.bytesOf
          (((steps k b).2.state.worldAt 0).stack.view p) = .ok (some bytes) →
      ((((steps k a).2.state.worldAt 0).stack.view p).meaning σ).bind Value.bytes? =
        some bytes := by
  obtain ⟨L', hle, -, hbetween⟩ := h.steps hhost ha hb
  refine ⟨L'.valuation, fun k hk p bytes hprimitive hbytes => ?_⟩
  obtain ⟨L₁, hle₁, hk⟩ := hbetween k hk
  have htraces₁ : L₁.traces := (Link.traces_iff hle₁).1 ((Link.traces_iff hle).2 htraces)
  obtain ⟨v, hmeaning, hv⟩ := hk.state.world.heap.bytes? (hk.state.world.stack p).denotes hbytes
    htraces₁ hprimitive bytes rfl
  rw [Item.meaning_mono (Link.valuation_le hle₁) _ v hmeaning]
  exact hv

/-- A script is executed from an empty evaluation stack, and once more with items without handles on
the stack.  All steps succeed in both executions, and none calls the host.  If the first execution
holds the same item at two places and times, and neither a buffer, an array or a struct nor an
unknown of such a type occurs in the item, then whatever bytes the second execution holds at these
places and times are the same. -/
theorem equal_bytes_of_primitive {script : Script} {config : Config} {watchdog watchdog' : Watchdog}
    {supply supply' offset n : Nat} {items : List Item} {a₀ b₀ : Machine}
    (hload : (create config watchdog supply).loadScript script offset = (.ok (), a₀))
    (hload' : (create config watchdog' supply').loadScript script offset = (.ok (), b₀))
    (hitems : ∀ c ∈ items, c.handle? = none)
    (ha : steps n a₀ = (.ok (), a)) (hb : steps n (b₀.preload items) = (.ok (), b))
    (hhost : ∀ k < n, ∀ i, (steps k a₀).2.next = .ok (some i) → i.opcode ≠ .syscall)
    {s t p q : Nat} (hs : s ≤ n) (ht : t ≤ n)
    (hequal : ((steps s a₀).2.state.worldAt 0).stack.view p =
      ((steps t a₀).2.state.worldAt 0).stack.view q)
    (hprimitive : (((steps s a₀).2.state.worldAt 0).stack.view p).Primitive)
    {bytes bytes' : Bytes}
    (hbytes : ((steps s (b₀.preload items)).2.state.worldAt 0).heap.bytesOf
      (((steps s (b₀.preload items)).2.state.worldAt 0).stack.view p) = .ok (some bytes))
    (hbytes' : ((steps t (b₀.preload items)).2.state.worldAt 0).heap.bytesOf
      (((steps t (b₀.preload items)).2.state.worldAt 0).stack.view q) = .ok (some bytes')) :
    bytes = bytes' := by
  obtain ⟨rfl, -, -⟩ := loadScript_ok hload
  obtain ⟨rfl, -, -⟩ := loadScript_ok hload'
  have hlinked := loaded_linked script config watchdog watchdog' supply supply' offset hitems
  obtain ⟨σ, hσ⟩ := exists_valuation hlinked trivial hhost ha hb
  have hfirst := hσ s hs p bytes hprimitive hbytes
  rw [hequal] at hfirst hprimitive
  have hsecond := hσ t ht q bytes' hprimitive hbytes'
  exact Option.some.inj (hfirst.symm.trans hsecond)

/-- A run calls the host nowhere if none of the instructions that are next is such a call. -/
lemma not_syscall_of_all {n : Nat}
    (h : ∀ k < n, (steps k a).2.next.toOption.join.all (·.opcode ≠ .syscall) = true) :
    ∀ k < n, ∀ i, (steps k a).2.next = .ok (some i) → i.opcode ≠ .syscall := by
  intro k hk i hi
  have hall := h k hk
  rw [hi] at hall
  exact of_decide_eq_true hall

/-- The script `DUP PUSH1 LEFT SWAP PUSH1 LEFT`, which takes the first byte of an item twice. -/
def splittingScript : Script :=
  ⟨[0x4A, 0x11, 0x8D, 0x50, 0x11, 0x8D]⟩

/-- The first byte of the entry below an empty stack. -/
lemma splittingScript_view :
    ((steps 3 (loaded splittingScript {} .lazy 0 0)).2.state.worldAt 0).stack.view 0 =
      .derived .left [.unknown .any (.extension 0), .const (.integer 1)] := by
  decide +kernel

/-- It is the same symbolic item both times, and above a byte string it is the same byte. -/
theorem equal_bytes_splittingScript :
    ∃ a b : Machine,
      (create {} .lazy 0).loadScript splittingScript 0 = (.ok (), a) ∧
      b = a.preload [.byteString [7, 8]] ∧
      (steps 6 a).1 = .ok () ∧ (steps 6 b).1 = .ok () ∧
      ((steps 3 a).2.state.worldAt 0).stack.view 0 =
        ((steps 6 a).2.state.worldAt 0).stack.view 0 ∧
      ∃ bytes bytes',
        ((steps 3 b).2.state.worldAt 0).heap.bytesOf
          (((steps 3 b).2.state.worldAt 0).stack.view 0) = .ok (some bytes) ∧
        ((steps 6 b).2.state.worldAt 0).heap.bytesOf
          (((steps 6 b).2.state.worldAt 0).stack.view 0) = .ok (some bytes') ∧
        bytes = bytes' := by
  have hload : (create {} .lazy 0).loadScript splittingScript 0 =
    (.ok (), loaded splittingScript {} .lazy 0 0) := rfl
  have ha : (steps 6 (loaded splittingScript {} .lazy 0 0)).1 = .ok () := by rfl
  have hb : (steps 6 ((loaded splittingScript {} .lazy 0 0).preload [.byteString [7, 8]])).1 =
    .ok () := by rfl
  have hequal : ((steps 3 (loaded splittingScript {} .lazy 0 0)).2.state.worldAt 0).stack.view 0 =
      ((steps 6 (loaded splittingScript {} .lazy 0 0)).2.state.worldAt 0).stack.view 0 := by
    decide +kernel
  have hprimitive : (((steps 3 (loaded splittingScript {} .lazy 0 0)).2.state.worldAt 0).stack.view
      0).Primitive := by
    have hentry : (Item.unknown .any (.extension 0)).Primitive := fun _ hy => by
      cases hy with
      | self => decide
    have hcount : (Item.integer 1).Primitive := fun _ hy => by
      cases hy with
      | self => decide
    rw [splittingScript_view]
    exact .derived (List.forall_mem_cons.2 ⟨hentry, List.forall_mem_singleton.2 hcount.const⟩)
  exact ⟨_, _, hload, rfl, ha, hb, hequal, [7], [7], by rfl, by rfl,
    equal_bytes_of_primitive hload hload (List.forall_mem_singleton.2 rfl) (Prod.ext ha rfl)
      (Prod.ext hb rfl) (not_syscall_of_all (by decide +kernel)) (by decide) (by decide) hequal
      hprimitive (by rfl) (by rfl)⟩

/-- The script `PUSH1 NEWBUFFER DUP PUSH2 PICK CAT OVER PUSH0 PUSH5 SETITEM SWAP PUSH2 PICK CAT`,
which joins a buffer and an item twice, and sets a byte of the buffer in between. -/
def changingScript : Script :=
  ⟨[0x11, 0x88, 0x4A, 0x12, 0x4D, 0x8B, 0x4B, 0x10, 0x15, 0xD0, 0x50, 0x12, 0x4D, 0x8B]⟩

/-- A derived variable keeps the handle of a buffer whose bytes change between two reads.  The entry
below an empty stack is joined to the buffer in the same symbolic item both times, but above a byte
string the bytes differ. -/
theorem equal_symbols_differ :
    ∃ a b : Machine,
      (create {} .lazy 0).loadScript changingScript 0 = (.ok (), a) ∧
      b = a.preload [.byteString [7]] ∧
      (steps 14 a).1 = .ok () ∧ (steps 14 b).1 = .ok () ∧
      (∀ k < 14, ∀ i, (steps k a).2.next = .ok (some i) → i.opcode ≠ .syscall) ∧
      (((steps 6 a).2.state.worldAt 0).stack.view 0).isSymbolic = true ∧
      ((steps 6 a).2.state.worldAt 0).stack.view 0 =
        ((steps 14 a).2.state.worldAt 0).stack.view 0 ∧
      ((steps 6 b).2.state.worldAt 0).heap.bytesOf
        (((steps 6 b).2.state.worldAt 0).stack.view 0) = .ok (some [0, 7]) ∧
      ((steps 14 b).2.state.worldAt 0).heap.bytesOf
        (((steps 14 b).2.state.worldAt 0).stack.view 0) = .ok (some [5, 7]) :=
  ⟨loaded changingScript {} .lazy 0 0, _, rfl, rfl, by rfl, by rfl,
    not_syscall_of_all (by decide +kernel), by rfl, by decide +kernel, by rfl, by rfl⟩

end Machine

end SymbolicScript
