import SymbolicScript.Proofs.Approximation
import SymbolicScript.Proofs.Loading

/-!
# Values returned between scripts

Every world has a heap of its own, and a handle is an index into the heap of the world that it
comes from.  A frame that returns to a frame of another world hands over the items on its stack as
they are, so behind the return a handle on them is read as an index into another heap.

Two handles of two heaps have the same meaning if the objects behind them, and those that these
mention in turn, are the same up to a renaming of handles (`Heap.SameMeaning`).  No renaming has to
be found to decide this: it is enough to follow the handles that the objects mention, from one
object to the next.  The meaning is the same exactly if no path leads to objects of different
outlines, and two paths meet in one heap if and only if they meet in the other one
(`Heap.sameMeaning_iff`).

An item that is returned keeps its meaning exactly if the heap of the caller happens to look like
the heap that the item comes from, seen from one and the same index
(`Exec.ret_keeps_meaning_iff`).
-/

namespace SymbolicScript

/-! ## What an item mentions -/

namespace Item

mutual

/-- The handles that an item mentions, from left to right. -/
def handles : Item → List Nat
  | buffer handle | array handle | struct handle => [handle]
  | const inner => handles inner
  | storage key => handles key
  | derived _ operands => handlesOfAll operands
  | null | boolean _ | integer _ | byteString _ | pointer _ | unknown _ _ | slot _ _
  | stackDepth => []

/-- The handles that several items mention. -/
def handlesOfAll : List Item → List Nat
  | [] => []
  | x :: xs => handles x ++ handlesOfAll xs

end

mutual

/-- What is left of an item if it does not matter which handles it mentions. -/
def outline : Item → Item
  | buffer _ => buffer 0
  | array _ => array 0
  | struct _ => struct 0
  | const inner => const (outline inner)
  | storage key => storage (outline key)
  | derived opcode operands => derived opcode (outlines operands)
  | x => x

/-- The outlines of several items. -/
def outlines : List Item → List Item
  | [] => []
  | x :: xs => outline x :: outlines xs

end

mutual

/-- The outline of an item tells how many handles it mentions. -/
lemma length_handles_outline : (x : Item) → x.outline.handles.length = x.handles.length
  | buffer _ | array _ | struct _ => rfl
  | const inner => by simpa only [outline, handles] using length_handles_outline inner
  | storage key => by simpa only [outline, handles] using length_handles_outline key
  | derived _ operands => by
    simpa only [outline, handles] using length_handlesOfAll_outlines operands
  | null | boolean _ | integer _ | byteString _ | pointer _ | unknown _ _ | slot _ _
  | stackDepth => rfl

/-- The outlines of several items tell how many handles these mention. -/
lemma length_handlesOfAll_outlines :
    (xs : List Item) → (handlesOfAll (outlines xs)).length = (handlesOfAll xs).length
  | [] => rfl
  | x :: xs => by
    simp only [outlines, handlesOfAll, List.length_append, length_handles_outline x,
      length_handlesOfAll_outlines xs]

end

end Item

namespace HeapObject

/-- The handles that the elements of an object mention. -/
def handles : HeapObject → List Nat
  | buffer _ => []
  | compound _ items _ => Item.handlesOfAll items

/-- What is left of an object if it does not matter which handles its elements mention, nor
whether it is frozen. -/
def outline : HeapObject → HeapObject
  | buffer bytes => buffer bytes
  | compound kind items _ => compound kind (Item.outlines items) false

/-- Objects of the same kind and with the same contents, but for handles that are renamed. -/
structure SameUpTo (ρ : Renaming) (o o' : HeapObject) : Prop where
  /-- Apart from handles they are the same. -/
  outline : o'.outline = o.outline
  /-- The handles mentioned at the same places are related. -/
  handles : List.Forall₂ ρ o.handles o'.handles

/-- The outline of an object tells how many handles it mentions. -/
lemma length_handles_outline (o : HeapObject) : o.outline.handles.length = o.handles.length := by
  cases o with
  | buffer bytes => rfl
  | compound kind items readOnly => exact Item.length_handlesOfAll_outlines items

/-- Objects with one outline mention equally many handles. -/
lemma length_handles_of_outline {o o' : HeapObject} (h : o'.outline = o.outline) :
    o'.handles.length = o.handles.length := by
  rw [← length_handles_outline, h, length_handles_outline]

end HeapObject

/-! ## The meaning of a handle -/

namespace Heap

/-- The renaming carries the objects of the first heap over to the same objects of the second one,
wherever it is defined.  Handles without an object may be renamed to any handle. -/
structure Translates (ρ : Renaming) (a b : Heap) : Prop where
  /-- A handle has one name. -/
  functional : ∀ k l l', ρ k l → ρ k l' → l = l'
  /-- Different handles have different names. -/
  injective : ∀ k k' l, ρ k l → ρ k' l → k = k'
  /-- Objects are carried over to the same objects. -/
  objects : ∀ k l o, ρ k l → a.objects[k]? = some o →
    ∃ o', b.objects[l]? = some o' ∧ o.SameUpTo ρ o'

/-- A handle of one heap refers to an object of the same kind and with the same contents, down to
all objects that these mention, as a handle of another heap does, up to a renaming of handles. -/
def SameMeaning (a : Heap) (k : Nat) (b : Heap) (l : Nat) : Prop :=
  ∃ ρ, Translates ρ a b ∧ ρ k l

/-- The handle to which a path leads: at every object, its next number tells which one of the
handles that the object mentions to follow. -/
def follow (heap : Heap) : List Nat → Nat → Option Nat
  | [], k => some k
  | i :: path, k => do
    let object ← heap.objects[k]?
    follow heap path (← object.handles[i]?)

/-- No path tells a handle of one heap from a handle of another heap. -/
structure LooksLike (a : Heap) (k : Nat) (b : Heap) (l : Nat) : Prop where
  /-- Where a path leads to an object, it leads to one of the same outline. -/
  outline : ∀ path i o, a.follow path k = some i → a.objects[i]? = some o →
    ∃ j o', b.follow path l = some j ∧ b.objects[j]? = some o' ∧ o'.outline = o.outline
  /-- Paths that meet do so in both heaps. -/
  meet : ∀ path path' i i' j j', a.follow path k = some i → a.follow path' k = some i' →
    b.follow path l = some j → b.follow path' l = some j' → (i = i' ↔ j = j')

variable {a b : Heap} {ρ : Renaming}

/-- A heap looks like itself. -/
lemma LooksLike.refl (a : Heap) (k : Nat) : a.LooksLike k a k where
  outline _ i o hi ho := ⟨i, o, hi, ho, rfl⟩
  meet _ _ i i' j j' hi hi' hj hj' := by
    cases hi.symm.trans hj
    cases hi'.symm.trans hj'
    rfl

/-- A path that leads to an object leads on to every handle that this object mentions. -/
lemma follow_concat (path : List Nat) (n k : Nat) :
    a.follow (path ++ [n]) k =
      (a.follow path k).bind fun i => a.objects[i]?.bind fun o => o.handles[n]? := by
  induction path generalizing k with
  | nil => simp [follow]
  | cons m path ih =>
    simp only [List.cons_append, follow, bind, Option.bind_assoc]
    refine Option.bind_congr fun o _ => Option.bind_congr fun next _ => ih next

/-- A path leads to handles that a renaming relates. -/
lemma Translates.follow (h : Translates ρ a b) {path : List Nat} {k l i : Nat} (hkl : ρ k l)
    (hi : a.follow path k = some i) : ∃ j, b.follow path l = some j ∧ ρ i j := by
  induction path generalizing k l with
  | nil =>
    cases hi
    exact ⟨l, rfl, hkl⟩
  | cons n path ih =>
    obtain ⟨o, ho, next, hnext, hi⟩ : ∃ o, a.objects[k]? = some o ∧
        ∃ next, o.handles[n]? = some next ∧ a.follow path next = some i := by
      simpa only [Heap.follow, bind, Option.bind_eq_some_iff] using hi
    obtain ⟨o', ho', hsame⟩ := h.objects k l o hkl ho
    obtain ⟨hlt, rfl⟩ := List.getElem?_eq_some_iff.1 hnext
    have hlt' : n < o'.handles.length := hsame.handles.length_eq ▸ hlt
    have hnames : ρ o.handles[n] o'.handles[n] := hsame.handles.get hlt hlt'
    obtain ⟨j, hj, hij⟩ := ih hnames hi
    refine ⟨j, ?_, hij⟩
    simpa only [Heap.follow, bind, ho', List.getElem?_eq_getElem hlt', Option.bind_some] using hj

/-- Handles have the same meaning exactly if no path tells them apart. -/
theorem sameMeaning_iff {k l : Nat} : a.SameMeaning k b l ↔ a.LooksLike k b l := by
  constructor
  · rintro ⟨ρ, h, hkl⟩
    refine ⟨fun path i o hi ho => ?_, fun path path' i i' j j' hi hi' hj hj' => ?_⟩
    · obtain ⟨j, hj, hij⟩ := h.follow hkl hi
      obtain ⟨o', ho', hsame⟩ := h.objects i j o hij ho
      exact ⟨j, o', hj, ho', hsame.outline⟩
    · have hij : ρ i j := by
        obtain ⟨j₁, hj₁, hij⟩ := h.follow hkl hi
        rwa [Option.some.inj (hj.symm.trans hj₁)]
      have hij' : ρ i' j' := by
        obtain ⟨j₁, hj₁, hij⟩ := h.follow hkl hi'
        rwa [Option.some.inj (hj'.symm.trans hj₁)]
      constructor
      · rintro rfl
        exact h.functional i j j' hij hij'
      · rintro rfl
        exact h.injective i i' j hij hij'
  · intro h
    -- Two handles correspond if one path leads to both.
    refine ⟨fun i j => ∃ path, a.follow path k = some i ∧ b.follow path l = some j, ⟨?_, ?_, ?_⟩,
      [], rfl, rfl⟩
    · rintro i j j' ⟨path, hi, hj⟩ ⟨path', hi', hj'⟩
      exact (h.meet path path' i i j j' hi hi' hj hj').1 rfl
    · rintro i i' j ⟨path, hi, hj⟩ ⟨path', hi', hj'⟩
      exact (h.meet path path' i i' j j hi hi' hj hj').2 rfl
    · rintro i j o ⟨path, hi, hj⟩ ho
      obtain ⟨j₁, o', hj₁, ho', houtline⟩ := h.outline path i o hi ho
      cases hj.symm.trans hj₁
      refine ⟨o', ho', houtline, List.forall₂_iff_get.2 ⟨?_, fun n hn hn' => ?_⟩⟩
      · exact (HeapObject.length_handles_of_outline houtline).symm
      · refine ⟨path ++ [n], ?_, ?_⟩
        · rw [follow_concat, hi, Option.bind_some, ho, Option.bind_some, List.get_eq_getElem]
          exact List.getElem?_eq_getElem hn
        · rw [follow_concat, hj, Option.bind_some, ho', Option.bind_some, List.get_eq_getElem]
          exact List.getElem?_eq_getElem hn'

end Heap

/-! ## Returning to another world -/

/-- All items that are present land on the other stack, in their order. -/
lemma EvaluationStack.moveTo_snd (s t : EvaluationStack) :
    (s.moveTo t none).2 = t.pushAll s.items := by
  simp [moveTo, transferCount, EvaluationStack.length, extend_of_le]

namespace Exec

variable {s s' : State} {f caller : Frame} {rest : List Frame}

/-- A return to a frame of another world hands over the stack, unless the number of its items is
not the announced one. -/
lemma ret_across (hs : s.frames = f :: caller :: rest) (hworlds : f.world ≠ caller.world) :
    ret s =
      if 0 ≤ f.returnCount ∧ f.returnCount ≠ (s.worldAt f.world).stack.length then
        .error (.returnCountMismatch f.returnCount (s.worldAt f.world).stack.length)
          { s with frames := caller :: rest }
      else .ok () { handOver f.world { s with frames := caller :: rest } with jumping := true } := by
  have hother : ¬(caller :: rest).head?.any f.sharesWorld = true := by
    simpa [Frame.sharesWorld] using hworlds
  rw [ret, bind_of_ok (unloadFrame_eq hs), bind_of_ok (get_eq _), if_neg hother]
  split
  · next hcount => exact (if_pos hcount).symm
  · next hcount => exact (if_neg hcount).symm

/-- The stack handed over lies on top of the stack of the other world, whose heap stays. -/
lemma worldAt_handOver (hs : s.frames = caller :: rest) (source : Nat)
    (hcaller : caller.world < s.worlds.size) :
    (handOver source s).worldAt caller.world =
      { s.worldAt caller.world with
        stack := (s.worldAt caller.world).stack.pushAll (s.worldAt source).stack.items } := by
  unfold handOver
  simp only [hs, State.worldAt_setWorld, State.size_setWorld, EvaluationStack.moveTo_snd]
  exact if_pos ⟨trivial, hcaller⟩

/-- A return to a frame of another world puts the items of the returning frame, as they are, on the
stack of the other world and leaves the heap of that world alone.  Hence a buffer, an array or a
struct among them keeps its meaning exactly if no path tells what its handle refers to in the heap
that it comes from from what it refers to in the heap that it gets to. -/
theorem ret_keeps_meaning_iff (hs : s.frames = f :: caller :: rest)
    (hworlds : f.world ≠ caller.world) (hcaller : caller.world < s.worlds.size)
    (hret : ret s = .ok () s') :
    s'.frames = caller :: rest ∧
    (s'.worldAt caller.world).stack.items =
      (s.worldAt f.world).stack.items ++ (s.worldAt caller.world).stack.items ∧
    (s'.worldAt caller.world).heap = (s.worldAt caller.world).heap ∧
    ∀ x ∈ (s.worldAt f.world).stack.items, ∀ k, x.handle? = some k →
      ((s.worldAt f.world).heap.SameMeaning k (s'.worldAt caller.world).heap k ↔
        (s.worldAt f.world).heap.LooksLike k (s.worldAt caller.world).heap k) := by
  rw [ret_across hs hworlds] at hret
  split at hret
  · cases hret
  cases hret
  have hworld := worldAt_handOver (s := { s with frames := caller :: rest }) rfl f.world hcaller
  have hstack := congrArg (·.stack.items) hworld
  have hheap := congrArg World.heap hworld
  refine ⟨?_, hstack, hheap, fun x _ k _ => ?_⟩
  · rfl
  · change (s.worldAt f.world).heap.SameMeaning k
      ((handOver f.world { s with frames := caller :: rest }).worldAt caller.world).heap k ↔ _
    rw [hheap]
    exact Heap.sameMeaning_iff

/-- The state in which a script that has allocated a buffer of one byte has been suspended by
another script, which has allocated a buffer of `size` bytes and is about to return it. -/
def suspended (size : UInt8) : State :=
  let lower := ((Machine.create {} .lazy 0).loadScript ⟨[0x11, 0x88, 0x45, 0xCA, 0x40]⟩ 0).2
  let upper := ((lower.steps 3).2.loadScript ⟨[0x10 + size, 0x88, 0x40]⟩ 0).2
  (upper.steps 2).2.state

/-- The frame of the script that returns. -/
def returning : Frame :=
  { world := 1, position := 2, returnCount := -1, locals := .untouched .local,
    arguments := .untouched .argument, tries := [] }

/-- The frame of the script that is returned to. -/
def awaiting : Frame :=
  { world := 0, position := 3, returnCount := -1, locals := .untouched .local,
    arguments := .untouched .argument, tries := [] }

/-- A buffer of one byte keeps its meaning, since the other script has allocated one as well. -/
theorem ret_keeps_meaning_suspended :
    (suspended 1).frames = [returning, awaiting] ∧ returning.world ≠ awaiting.world ∧
      awaiting.world < (suspended 1).worlds.size ∧
      ∃ s', ret (suspended 1) = .ok () s' ∧
        (s'.worldAt awaiting.world).stack.items = [.const (.buffer 0)] ∧
        ((suspended 1).worldAt returning.world).heap.SameMeaning 0
          (s'.worldAt awaiting.world).heap 0 := by
  have hs : (suspended 1).frames = [returning, awaiting] := by decide +kernel
  have hworlds : returning.world ≠ awaiting.world := by decide
  have hcaller : awaiting.world < (suspended 1).worlds.size := by decide +kernel
  have hreturned : ((suspended 1).worldAt returning.world).stack.items = [.const (.buffer 0)] := by
    decide +kernel
  have hbelow : ((suspended 1).worldAt awaiting.world).stack.items = [] := by decide +kernel
  have hheap : ((suspended 1).worldAt returning.world).heap =
      ((suspended 1).worldAt awaiting.world).heap := by decide +kernel
  have hret := (ret_across hs hworlds).trans (if_neg (not_and_of_not_left _ (by decide)))
  obtain ⟨-, hstack, -, hkeeps⟩ := ret_keeps_meaning_iff hs hworlds hcaller hret
  rw [hreturned] at hkeeps
  rw [hreturned, hbelow] at hstack
  refine ⟨hs, hworlds, hcaller, _, hret, hstack, ?_⟩
  refine (hkeeps (.const (.buffer 0)) (List.mem_singleton.2 rfl) 0 rfl).2 ?_
  rw [hheap]
  exact .refl _ _

/-- A buffer of two bytes becomes the buffer of one byte that the other script has allocated. -/
theorem ret_changes_meaning :
    (suspended 2).frames = [returning, awaiting] ∧
      ((suspended 2).worldAt returning.world).heap = ⟨#[.buffer [0, 0]]⟩ ∧
      ∃ s', ret (suspended 2) = .ok () s' ∧
        (s'.worldAt awaiting.world).stack.items = [.const (.buffer 0)] ∧
        (s'.worldAt awaiting.world).heap = ⟨#[.buffer [0]]⟩ ∧
        ¬((suspended 2).worldAt returning.world).heap.SameMeaning 0
          (s'.worldAt awaiting.world).heap 0 := by
  have hs : (suspended 2).frames = [returning, awaiting] := by decide +kernel
  have hsource : ((suspended 2).worldAt returning.world).heap = ⟨#[.buffer [0, 0]]⟩ := by
    decide +kernel
  have hret := (ret_across hs (by decide)).trans (if_neg (not_and_of_not_left _ (by decide)))
  have hworld := worldAt_handOver (s := { suspended 2 with frames := [awaiting] }) rfl
    returning.world (by decide +kernel)
  have hstack := congrArg (·.stack.items) hworld
  have hheap := congrArg World.heap hworld
  have htarget : ((suspended 2).worldAt awaiting.world).heap = ⟨#[.buffer [0]]⟩ := by
    decide +kernel
  refine ⟨hs, hsource, _, hret, hstack.trans (by decide +kernel), hheap.trans htarget, ?_⟩
  intro hsame
  rw [Heap.sameMeaning_iff, hsource] at hsame
  obtain ⟨j, o', hj, ho', houtline⟩ := hsame.outline [] 0 (.buffer [0, 0]) rfl rfl
  cases hj
  have hfound := congrArg (·.objects[0]?) (hheap.trans htarget)
  cases ho'.symm.trans hfound
  cases houtline

end Exec

end SymbolicScript
