import SymbolicScript.Machine.JumpTable
import SymbolicScript.Proofs.StackAndHeap

/-!
# Splicing is exact

`MEMCPY` overwrites a part of a buffer, and `CAT`, `SUBSTR`, `LEFT` and `RIGHT` make a new buffer of
parts of others.  Each of them has a specification of its own over the operands that it finds on the
stack (`State.Offers`): when it succeeds, and which bytes the buffer then has
(`Semantics.splicing_exact`).

The bytes that are copied have been read before the destination is looked at.  Therefore nothing has
to be assumed about source and destination being different, and overlapping ranges need no care.
Positions are unbounded numbers here.  A machine has words for them, and bytes that it holds are
never more than a word can count (`Heap.Countable`).
-/

namespace SymbolicScript

/-- The bytes of an item are no more than a machine word can count. -/
def Heap.Countable (heap : Heap) (x : Item) : Prop :=
  ∀ bytes, heap.bytesOf x = .ok (some bytes) → bytes.length ≤ Limits.word

/-! ## Operands on the stack -/

namespace State

/-- The operands lie on the stack of the current frame, topmost first, and its world has the heap.
-/
structure Offers (s : State) (f : Frame) (heap : Heap) (operands : List Item) : Prop where
  /-- The frame is the current one. -/
  current : ∃ rest, s.frames = f :: rest
  /-- It has a world. -/
  world : f.world < s.worlds.size
  /-- The heap of that world. -/
  heap : (s.worldAt f.world).heap = heap
  /-- The topmost items of its stack. -/
  operands : ((s.worldAt f.world).stack.popMany operands.length).1 = operands

/-- The state in which some operands have been popped, and which has another heap. -/
def consumed (s : State) (f : Frame) (operands : Nat) (heap : Heap) : State :=
  s.holding f.world ((s.worldAt f.world).stack.popMany operands).2 heap

/-- The state in which some operands have been replaced by a new buffer. -/
def withBuffer (s : State) (f : Frame) (operands : Nat) (bytes : Bytes) : State :=
  let w := s.worldAt f.world
  s.holding f.world ((w.stack.popMany operands).2.push (.const (.buffer w.heap.size)))
    (w.heap.add (.buffer bytes))

namespace Offers

variable {s : State} {f : Frame} {heap : Heap} {operands : List Item}

/-- The state holds the heap. -/
lemma holding_eq (h : s.Offers f heap operands) :
    s.holding f.world (s.worldAt f.world).stack heap = s := by
  rw [← h.heap]
  exact s.holding_self f.world

/-- The operands are the first items of the view. -/
lemma view_eq (h : s.Offers f heap operands) {k : Nat} {x : Item} (hx : operands[k]? = some x) :
    (s.worldAt f.world).stack.view k = x := by
  have hoperands := h.operands
  rw [EvaluationStack.popMany_fst] at hoperands
  have hk : k < operands.length := (List.getElem?_eq_some_iff.1 hx).1
  rw [← hoperands, List.getElem?_map, List.getElem?_range hk] at hx
  exact Option.some.inj hx

/-- Nothing has been pushed onto the operands that a buffer replaces. -/
lemma withBuffer_eq (h : s.Offers f heap operands) (bytes : Bytes) :
    s.withBuffer f operands.length bytes = s.holding f.world
      (((s.worldAt f.world).stack.popMany operands.length).2.push (.const (.buffer heap.size)))
      (heap.add (.buffer bytes)) := by
  unfold withBuffer
  simp only [h.heap]

end Offers

end State

namespace Semantics

variable {s s' : State} {f : Frame} {rest : List Frame} {stack : EvaluationStack} {heap : Heap}
  {x y source target : Item} {bytes first second old : Bytes} {handle : Nat} (config : Config)
  (i : Instruction)

/-! ## What the instructions do -/

/-- Bytes can be cut out where there are enough. -/
lemma slice_eq_ok {opcode : Opcode} {index count : Nat} {part : Bytes} :
    slice opcode bytes index count = .ok part ↔
      index + count ≤ bytes.length ∧ part = (bytes.drop index).take count := by
  unfold slice
  split
  · next h => simp [h, eq_comm]
  · next h => simp [h]

/-- Bytes can be overwritten where there are enough. -/
lemma overwrite_eq_ok {opcode : Opcode} {index : Nat} {part changed : Bytes} :
    overwrite opcode index part old = .ok changed ↔ index + part.length ≤ old.length ∧
      changed = old.take index ++ part ++ old.drop (index + part.length) := by
  unfold overwrite
  split
  · next h => simp [h, eq_comm]
  · next h => simp [h]

/-- A size is checked against the limit. -/
lemma checkSize_eq_ok {size : Nat} :
    checkSize config size = .ok () ↔ size ≤ config.maxItemSize := by
  unfold checkSize
  split
  · next h => simp [Nat.not_le.2 h]
  · next h => simp [Nat.le_of_not_lt h]

section Holding

variable (hframes : s.frames = f :: rest) (hworld : f.world < s.worlds.size)
include hframes hworld

/-- The bytes that are read are those that the item has in the heap. -/
lemma bytesOf_bind_eq_ok {k : Option Bytes → Exec Unit} :
    (bytesOf x >>= k) (s.holding f.world stack heap) = .ok () s' ↔
      ∃ bytes?, heap.bytesOf x = .ok bytes? ∧
        k bytes? (s.holding f.world stack heap) = .ok () s' := by
  unfold bytesOf
  rw [bind_assoc, Exec.heap_holding_bind hframes hworld]
  exact Exec.lift_bind_eq_ok

/-- Only a buffer can be overwritten. -/
lemma overwriteTarget_eq_ok {opcode : Opcode} {change : Bytes → Except ExecutionError Bytes} :
    (match target.known? with
      | some (.buffer handle) => do
        Exec.setHeap (← (← Exec.heap).modifyBytes handle change)
      | some other => throw (.invalidCast other.type .buffer)
      | none => throw (.nonConstantOperand opcode) : Exec Unit)
        (s.holding f.world stack heap) = .ok () s' ↔
      ∃ handle old changed, target.known? = some (.buffer handle) ∧
        heap.objects[handle]? = some (.buffer old) ∧ change old = .ok changed ∧
        s' = s.holding f.world stack (heap.put handle (.buffer changed)) := by
  have hmodify (handle : Nat) :
      modifyBytes handle change (s.holding f.world stack heap) = .ok () s' ↔ _ :=
    modifyBytes_holding_eq_ok hframes hworld
  unfold modifyBytes at hmodify
  constructor
  · intro h
    rcases htarget : target.known? with _ | plain <;> rw [htarget] at h
    · cases h
    · cases plain with
      | buffer handle =>
        obtain ⟨old, changed, hold, hchanged, hs'⟩ := (hmodify handle).1 h
        exact ⟨handle, old, changed, rfl, hold, hchanged, hs'⟩
      | _ => cases h
  · rintro ⟨handle, old, changed, htarget, hold, hchanged, hs'⟩
    rw [htarget]
    exact (hmodify handle).2 ⟨old, changed, hold, hchanged, hs'⟩

/-- When bytes are copied, and what becomes of the heap. -/
lemma memcpy_eq_ok : memcpy i (s.holding f.world stack heap) = .ok () s' ↔
    ∃ (count sourceIndex index handle : Nat) (bytes old : Bytes),
      (stack.view 0).toInteger? = .ok (some (count : Int)) ∧ count ≤ Limits.word ∧
      (stack.view 1).toInteger? = .ok (some (sourceIndex : Int)) ∧ sourceIndex ≤ Limits.word ∧
      heap.bytesOf (stack.view 2) = .ok (some bytes) ∧ sourceIndex + count ≤ bytes.length ∧
      (stack.view 3).toInteger? = .ok (some (index : Int)) ∧ index ≤ Limits.word ∧
      (stack.view 4).known? = some (.buffer handle) ∧
      heap.objects[handle]? = some (.buffer old) ∧ index + count ≤ old.length ∧
      s' = s.holding f.world (stack.popMany 5).2 (heap.put handle (.buffer
        (old.take index ++ (bytes.drop sourceIndex).take count ++ old.drop (index + count)))) := by
  have hlength {count sourceIndex : Nat} {bytes : Bytes}
      (h : sourceIndex + count ≤ bytes.length) :
      ((bytes.drop sourceIndex).take count).length = count := by
    rw [List.length_take, List.length_drop]
    omega
  have hpopped : (stack.popMany 5).2 = stack.pop.2.pop.2.pop.2.pop.2.pop.2 :=
    stack.popMany_snd 5
  unfold memcpy
  simp only [Exec.popCount_holding_bind_eq_ok hframes hworld,
    Exec.pop_holding_bind hframes hworld, bytesOf_bind_eq_ok hframes hworld,
    Exec.demand_bind_eq_ok, Exec.lift_bind_eq_ok, slice_eq_ok, EvaluationStack.view_pop, hpopped]
  constructor
  · rintro ⟨count, hcount, hcountWord, sourceIndex, hsourceIndex, hsourceWord, _, hbytes, bytes,
      rfl, _, ⟨hsource, rfl⟩, index, hindex, hindexWord, hoverwrites⟩
    obtain ⟨handle, old, changed, htarget, hold, hchanged, rfl⟩ :=
      (overwriteTarget_eq_ok hframes hworld).1 hoverwrites
    obtain ⟨hfits, rfl⟩ := overwrite_eq_ok.1 hchanged
    rw [hlength hsource] at hfits ⊢
    exact ⟨count, sourceIndex, index, handle, bytes, old, hcount, hcountWord, hsourceIndex,
      hsourceWord, hbytes, hsource, hindex, hindexWord, htarget, hold, hfits, rfl⟩
  · rintro ⟨count, sourceIndex, index, handle, bytes, old, hcount, hcountWord, hsourceIndex,
      hsourceWord, hbytes, hsource, hindex, hindexWord, htarget, hold, hfits, rfl⟩
    have hchanged : overwrite i.opcode index ((bytes.drop sourceIndex).take count) old =
        .ok (old.take index ++ (bytes.drop sourceIndex).take count ++
          old.drop (index + count)) :=
      overwrite_eq_ok.2 ⟨by rwa [hlength hsource], by rw [hlength hsource]⟩
    exact ⟨count, hcount, hcountWord, sourceIndex, hsourceIndex, hsourceWord, _, hbytes, bytes,
      rfl, _, ⟨hsource, rfl⟩, index, hindex, hindexWord,
      (overwriteTarget_eq_ok hframes hworld).2 ⟨handle, old, _, htarget, hold, hchanged, rfl⟩⟩

/-- When the bytes of two items are joined. -/
lemma concat_eq_ok (hfirst : heap.bytesOf (stack.view 1) = .ok (some first))
    (hsecond : heap.bytesOf (stack.view 0) = .ok (some second)) :
    concat config i (s.holding f.world stack heap) = .ok () s' ↔
      first.length + second.length ≤ config.maxItemSize ∧
      s' = s.holding f.world ((stack.popMany 2).2.push (.const (.buffer heap.size)))
        (heap.add (.buffer (first ++ second))) := by
  have hpopped : (stack.popMany 2).2 = stack.pop.2.pop.2 :=
    stack.popMany_snd 2
  unfold concat
  simp only [Exec.pop_holding_bind hframes hworld, bytesOf_bind_eq_ok hframes hworld,
    EvaluationStack.view_pop, hpopped]
  constructor
  · rintro ⟨_, hfirst', _, hsecond', hpushes⟩
    rw [hfirst] at hfirst'
    rw [hsecond] at hsecond'
    cases hfirst'
    cases hsecond'
    obtain ⟨⟨⟩, hsize, hpush⟩ := Exec.lift_bind_eq_ok.1 hpushes
    rw [Exec.pushBuffer_holding hframes hworld] at hpush
    cases hpush
    exact ⟨(checkSize_eq_ok config).1 hsize, rfl⟩
  · rintro ⟨hsize, rfl⟩
    refine ⟨_, hfirst, _, hsecond,
      Exec.lift_bind_eq_ok.2 ⟨(), (checkSize_eq_ok config).2 hsize, ?_⟩⟩
    exact Exec.pushBuffer_holding hframes hworld _

/-- When bytes are taken from the middle of an item. -/
lemma substring_eq_ok (hbytes : heap.bytesOf (stack.view 2) = .ok (some bytes)) :
    substring i (s.holding f.world stack heap) = .ok () s' ↔
      ∃ count index : Nat, (stack.view 0).toInteger? = .ok (some (count : Int)) ∧
        count ≤ Limits.word ∧ (stack.view 1).toInteger? = .ok (some (index : Int)) ∧
        index ≤ Limits.word ∧ index + count ≤ bytes.length ∧
        s' = s.holding f.world ((stack.popMany 3).2.push (.const (.buffer heap.size)))
          (heap.add (.buffer ((bytes.drop index).take count))) := by
  have hpopped : (stack.popMany 3).2 = stack.pop.2.pop.2.pop.2 :=
    stack.popMany_snd 3
  unfold substring
  simp only [Exec.popCount_holding_bind_eq_ok hframes hworld,
    Exec.pop_holding_bind hframes hworld, bytesOf_bind_eq_ok hframes hworld,
    EvaluationStack.view_pop, hpopped]
  constructor
  · rintro ⟨count, hcount, hcountWord, index, hindex, hindexWord, _, hbytes', hpushes⟩
    rw [hbytes] at hbytes'
    cases hbytes'
    obtain ⟨part, hpart, hpush⟩ := Exec.lift_bind_eq_ok.1 hpushes
    obtain ⟨hfits, rfl⟩ := slice_eq_ok.1 hpart
    rw [Exec.pushBuffer_holding hframes hworld] at hpush
    cases hpush
    exact ⟨count, index, hcount, hcountWord, hindex, hindexWord, hfits, rfl⟩
  · rintro ⟨count, index, hcount, hcountWord, hindex, hindexWord, hfits, rfl⟩
    exact ⟨count, hcount, hcountWord, index, hindex, hindexWord, _, hbytes,
      Exec.lift_bind_eq_ok.2 ⟨_, slice_eq_ok.2 ⟨hfits, rfl⟩,
        Exec.pushBuffer_holding hframes hworld _⟩⟩

/-- When bytes are taken from an end of an item. -/
lemma takeEnd_eq_ok (part : Nat → Bytes → Bytes)
    (hbytes : heap.bytesOf (stack.view 1) = .ok (some bytes)) :
    takeEnd part i (s.holding f.world stack heap) = .ok () s' ↔
      ∃ count : Nat, (stack.view 0).toInteger? = .ok (some (count : Int)) ∧
        count ≤ Limits.word ∧ count ≤ bytes.length ∧
        s' = s.holding f.world ((stack.popMany 2).2.push (.const (.buffer heap.size)))
          (heap.add (.buffer (part count bytes))) := by
  have hpopped : (stack.popMany 2).2 = stack.pop.2.pop.2 :=
    stack.popMany_snd 2
  unfold takeEnd
  simp only [Exec.popCount_holding_bind_eq_ok hframes hworld,
    Exec.pop_holding_bind hframes hworld, bytesOf_bind_eq_ok hframes hworld,
    EvaluationStack.view_pop, hpopped]
  constructor
  · rintro ⟨count, hcount, hcountWord, _, hbytes', hpushes⟩
    rw [hbytes] at hbytes'
    cases hbytes'
    by_cases hle : count ≤ bytes.length
    · simp only [if_pos hle] at hpushes
      rw [Exec.pushBuffer_holding hframes hworld] at hpushes
      cases hpushes
      exact ⟨count, hcount, hcountWord, hle, rfl⟩
    · simp only [if_neg hle] at hpushes
      cases hpushes
  · rintro ⟨count, hcount, hcountWord, hle, rfl⟩
    refine ⟨count, hcount, hcountWord, _, hbytes, ?_⟩
    simp only [if_pos hle]
    exact Exec.pushBuffer_holding hframes hworld _

end Holding

/-! ## Over the operands -/

/-- What the instruction of an opcode does. -/
abbrev run (op : Opcode) (config : Config) (i : Instruction) : Exec Unit :=
  (JumpTable.standard.handler op).run config i

/-- Wherever the instruction finds the operands over the heap, it succeeds exactly if the condition
holds, and then it replaces the operands by a new buffer with the bytes. -/
def MakesBufferIf (op : Opcode) (config : Config) (heap : Heap) (operands : List Item) (fits : Prop)
    (bytes : Bytes) : Prop :=
  ∀ (i : Instruction) (s : State) (f : Frame), s.Offers f heap operands → ∀ s',
    run op config i s = .ok () s' ↔ fits ∧ s' = s.withBuffer f operands.length bytes

/-- Wherever the instruction finds the operands over the heap, it replaces them by a new buffer with
the bytes. -/
def MakesBuffer (op : Opcode) (config : Config) (heap : Heap) (operands : List Item)
    (bytes : Bytes) : Prop :=
  ∀ (i : Instruction) (s : State) (f : Frame), s.Offers f heap operands →
    run op config i s = .ok () (s.withBuffer f operands.length bytes)

/-- The operands of `MEMCPY` are numbers, bytes and a buffer, and both ranges fit. -/
structure CopyFits (heap : Heap) (count sourceIndex source index target : Item)
    (n start place handle : Nat) (bytes old : Bytes) : Prop where
  /-- So many bytes are copied. -/
  count : count.toInteger? = .ok (some (n : Int))
  /-- They start here in the source. -/
  sourceIndex : sourceIndex.toInteger? = .ok (some (start : Int))
  /-- This is the source. -/
  source : heap.bytesOf source = .ok (some bytes)
  /-- They are copied to this place. -/
  index : index.toInteger? = .ok (some (place : Int))
  /-- The destination is a buffer. -/
  target : target.known? = some (.buffer handle)
  /-- These are its bytes. -/
  overwritten : heap.objects[handle]? = some (.buffer old)
  /-- The source has the bytes that are copied. -/
  sourceFits : start + n ≤ bytes.length
  /-- The destination has room for them. -/
  targetFits : place + n ≤ old.length

lemma MakesBufferIf.makesBuffer {op : Opcode} {operands : List Item} {fits : Prop}
    (h : MakesBufferIf op config heap operands fits bytes) (hfits : fits) :
    MakesBuffer op config heap operands bytes :=
  fun i s f hoffers => (h i s f hoffers _).2 ⟨hfits, rfl⟩

variable {count index : Item} {n start : Nat}

lemma makesBufferIf_substr (hbytes : heap.bytesOf x = .ok (some bytes))
    (hword : bytes.length ≤ Limits.word) (hcount : count.toInteger? = .ok (some (n : Int)))
    (hindex : index.toInteger? = .ok (some (start : Int))) :
    MakesBufferIf .substr config heap [count, index, x] (start + n ≤ bytes.length)
      ((bytes.drop start).take n) := by
  intro i s f h s'
  obtain ⟨rest, hframes⟩ := h.current
  have hx : heap.bytesOf ((s.worldAt f.world).stack.view 2) = .ok (some bytes) := by
    rwa [h.view_eq (k := 2) rfl]
  have hsubstring : substring i (s.holding f.world (s.worldAt f.world).stack heap) =
      .ok () s' ↔ _ := substring_eq_ok i hframes h.world hx
  rw [h.holding_eq, h.view_eq (k := 0) rfl, h.view_eq (k := 1) rfl, hcount, hindex] at hsubstring
  rw [h.withBuffer_eq]
  refine hsubstring.trans ⟨?_, ?_⟩
  · rintro ⟨_, _, ⟨⟩, -, ⟨⟩, -, hfits, hs'⟩
    exact ⟨hfits, hs'⟩
  · rintro ⟨hfits, hs'⟩
    exact ⟨n, start, rfl, by omega, rfl, by omega, hfits, hs'⟩

/-- The instructions that take an end of an item. -/
lemma makesBufferIf_takeEnd {op : Opcode} (part : Nat → Bytes → Bytes)
    (hrun : ∀ i, run op config i = takeEnd part i) (hbytes : heap.bytesOf x = .ok (some bytes))
    (hword : bytes.length ≤ Limits.word) (hcount : count.toInteger? = .ok (some (n : Int))) :
    MakesBufferIf op config heap [count, x] (n ≤ bytes.length) (part n bytes) := by
  intro i s f h s'
  obtain ⟨rest, hframes⟩ := h.current
  have hx : heap.bytesOf ((s.worldAt f.world).stack.view 1) = .ok (some bytes) := by
    rwa [h.view_eq (k := 1) rfl]
  have htake : takeEnd part i (s.holding f.world (s.worldAt f.world).stack heap) =
      .ok () s' ↔ _ := takeEnd_eq_ok i hframes h.world part hx
  rw [h.holding_eq, h.view_eq (k := 0) rfl, hcount] at htake
  rw [hrun, h.withBuffer_eq]
  refine htake.trans ⟨?_, ?_⟩
  · rintro ⟨_, ⟨⟩, -, hfits, hs'⟩
    exact ⟨hfits, hs'⟩
  · rintro ⟨hfits, hs'⟩
    exact ⟨n, rfl, by omega, hfits, hs'⟩

lemma makesBufferIf_left (hbytes : heap.bytesOf x = .ok (some bytes))
    (hword : bytes.length ≤ Limits.word) (hcount : count.toInteger? = .ok (some (n : Int))) :
    MakesBufferIf .left config heap [count, x] (n ≤ bytes.length) (bytes.take n) :=
  makesBufferIf_takeEnd config (fun n bytes => bytes.take n) (fun _ => rfl) hbytes hword hcount

lemma makesBufferIf_right (hbytes : heap.bytesOf x = .ok (some bytes))
    (hword : bytes.length ≤ Limits.word) (hcount : count.toInteger? = .ok (some (n : Int))) :
    MakesBufferIf .right config heap [count, x] (n ≤ bytes.length)
      (bytes.drop (bytes.length - n)) :=
  makesBufferIf_takeEnd config (fun n bytes => bytes.drop (bytes.length - n)) (fun _ => rfl) hbytes
    hword hcount

lemma makesBufferIf_cat (hfirst : heap.bytesOf x = .ok (some first))
    (hsecond : heap.bytesOf y = .ok (some second)) :
    MakesBufferIf .cat config heap [y, x] (first.length + second.length ≤ config.maxItemSize)
      (first ++ second) := by
  intro i s f h s'
  obtain ⟨rest, hframes⟩ := h.current
  have hx : heap.bytesOf ((s.worldAt f.world).stack.view 1) = .ok (some first) := by
    rwa [h.view_eq (k := 1) rfl]
  have hy : heap.bytesOf ((s.worldAt f.world).stack.view 0) = .ok (some second) := by
    rwa [h.view_eq (k := 0) rfl]
  have hconcat : concat config i (s.holding f.world (s.worldAt f.world).stack heap) =
      .ok () s' ↔ _ := concat_eq_ok config i hframes h.world hx hy
  rw [h.holding_eq] at hconcat
  rw [h.withBuffer_eq]
  exact hconcat

/-! ### Copying -/

section Copying

variable {sourceIndex : Item} {place : Nat}

/-- Where the ranges fit, the bytes are copied. -/
lemma memcpy_copies
    (h : s.Offers f heap [count, sourceIndex, source, index, target])
    (hsource : heap.Countable source) (htarget : heap.Countable target)
    (hfits : CopyFits heap count sourceIndex source index target n start place handle bytes old) :
    run .memcpy config i s = .ok () (s.consumed f 5 (heap.put handle (.buffer
      (old.take place ++ (bytes.drop start).take n ++ old.drop (place + n))))) := by
  obtain ⟨rest, hframes⟩ := h.current
  have hbytes := hsource bytes hfits.source
  have hold := htarget old (by
    unfold Heap.bytesOf
    rw [hfits.target]
    exact congrArg (Except.map some) (Heap.bytes_eq_ok.2 hfits.overwritten))
  have hn := hfits.sourceFits
  have hplace := hfits.targetFits
  have hcopies : memcpy i (s.holding f.world (s.worldAt f.world).stack heap) =
      .ok () (s.consumed f 5 (heap.put handle (.buffer
        (old.take place ++ (bytes.drop start).take n ++ old.drop (place + n))))) ↔ _ :=
    memcpy_eq_ok i hframes h.world
  rw [h.holding_eq, h.view_eq (k := 0) rfl, h.view_eq (k := 1) rfl, h.view_eq (k := 2) rfl,
    h.view_eq (k := 3) rfl, h.view_eq (k := 4) rfl] at hcopies
  exact hcopies.2 ⟨n, start, place, handle, bytes, old, hfits.count, by omega,
    hfits.sourceIndex, by omega, hfits.source, hn, hfits.index, by omega, hfits.target,
    hfits.overwritten, hplace, rfl⟩

/-- Where bytes have been copied, the ranges have fitted. -/
lemma exists_copyFits (h : s.Offers f heap [count, sourceIndex, source, index, target])
    (hsucceeds : run .memcpy config i s = .ok () s') :
    ∃ n start place handle bytes old,
      CopyFits heap count sourceIndex source index target n start place handle bytes old := by
  obtain ⟨rest, hframes⟩ := h.current
  have hcopies : memcpy i (s.holding f.world (s.worldAt f.world).stack heap) =
      .ok () s' ↔ _ := memcpy_eq_ok i hframes h.world
  rw [h.holding_eq, h.view_eq (k := 0) rfl, h.view_eq (k := 1) rfl, h.view_eq (k := 2) rfl,
    h.view_eq (k := 3) rfl, h.view_eq (k := 4) rfl] at hcopies
  obtain ⟨n, start, place, handle, bytes, old, hcount, -, hsourceIndex, -, hsource, hsourceFits,
    hindex, -, htarget, hold, htargetFits, -⟩ := hcopies.1 hsucceeds
  exact ⟨n, start, place, handle, bytes, old,
    { count := hcount, sourceIndex := hsourceIndex, source := hsource, index := hindex,
      target := htarget, overwritten := hold, sourceFits := hsourceFits,
      targetFits := htargetFits }⟩

end Copying

/-! ## What does not change -/

lemma keepsObjects_bytesOf (x : Item) : Exec.Keeps State.KeepsObjects (bytesOf x) :=
  Exec.keepsObjects_heap.bind fun _ => Exec.keeps_liftM _

/-- The instructions that make a buffer change no object, whether they succeed or fail. -/
lemma keepsObjects_run {op : Opcode} (hop : op ∈ [.cat, .substr, .left, .right]) :
    Exec.Keeps State.KeepsObjects (run op config i) := by
  have htakeEnd (part : Nat → Bytes → Bytes) :
      Exec.Keeps State.KeepsObjects (takeEnd part i) := by
    refine (Exec.keepsObjects_popCount _).bind fun count => Exec.keepsObjects_pop.bind fun x =>
      (keepsObjects_bytesOf x).bind fun bytes? => ?_
    cases bytes? with
    | none => exact Exec.keepsObjects_push _
    | some bytes => exact (Exec.keepsObjects_pushBuffer _).ite (Exec.keeps_throw _)
  simp only [List.mem_cons, List.not_mem_nil, or_false] at hop
  rcases hop with rfl | rfl | rfl | rfl
  · change Exec.Keeps State.KeepsObjects (concat config i)
    refine Exec.keepsObjects_pop.bind fun y => Exec.keepsObjects_pop.bind fun x =>
      (keepsObjects_bytesOf x).bind fun first? => (keepsObjects_bytesOf y).bind fun second? => ?_
    cases first? with
    | none => exact Exec.keepsObjects_push _
    | some first =>
      cases second? with
      | none => exact Exec.keepsObjects_push _
      | some second => exact (Exec.keeps_liftM _).bind fun _ => Exec.keepsObjects_pushBuffer _
  · change Exec.Keeps State.KeepsObjects (substring i)
    refine (Exec.keepsObjects_popCount _).bind fun count =>
      (Exec.keepsObjects_popCount _).bind fun index => Exec.keepsObjects_pop.bind fun x =>
        (keepsObjects_bytesOf x).bind fun bytes? => ?_
    cases bytes? with
    | none => exact Exec.keepsObjects_push _
    | some bytes => exact (Exec.keeps_liftM _).bind fun _ => Exec.keepsObjects_pushBuffer _
  · exact htakeEnd _
  · exact htakeEnd _

/-- A copy that fails changes no object. -/
lemma spares_memcpy : Exec.Spares (memcpy i) := by
  refine (Exec.keepsObjects_popCount _).bind_spares fun count =>
    (Exec.keepsObjects_popCount _).bind_spares fun start => Exec.keepsObjects_pop.bind_spares
      fun x => (keepsObjects_bytesOf x).bind_spares fun bytes? =>
        (Exec.keeps_demand _ _).bind_spares fun bytes => (Exec.keeps_liftM _).bind_spares
          fun part => (Exec.keepsObjects_popCount _).bind_spares fun place =>
            Exec.keepsObjects_pop.bind_spares fun target => ?_
  cases target.known? with
  | none => exact (Exec.keeps_throw _).spares
  | some plain =>
    cases plain with
    | buffer handle => exact spares_modifyBytes _
    | _ => exact (Exec.keeps_throw _).spares

/-! ## The parts make up the whole -/

/-- The last bytes of the first ones are those from the middle. -/
lemma drop_take_eq {length : Nat} (h : start + n ≤ bytes.length)
    (hlength : length = (bytes.take (start + n)).length) :
    (bytes.take (start + n)).drop (length - n) = (bytes.drop start).take n := by
  rw [hlength, List.length_take, Nat.min_eq_left h, Nat.add_sub_cancel, List.drop_take,
    Nat.add_sub_cancel_left]

/-- Splicing is exact, and nothing but the destination of a copy changes.

`MEMCPY` succeeds exactly if its operands are numbers that are not negative, bytes and a buffer, and
both ranges fit.  Then the range of the destination has the bytes that the source has had before,
whether or not it is the destination, and every other object is the same.  `SUBSTR`, `LEFT`, `RIGHT`
and `CAT` succeed exactly if there are enough bytes, or not too many, and replace their operands by
a new buffer with the bytes in question.  So the first bytes and the others make up the whole, and
bytes from the middle are the last ones of the first ones.  These four change no object, and where
any of the five fails none has changed. -/
theorem splicing_exact (config : Config) (heap : Heap) :
    (∀ (i : Instruction) (s : State) (f : Frame) (count sourceIndex source index target : Item),
      s.Offers f heap [count, sourceIndex, source, index, target] →
      heap.Countable source → heap.Countable target →
      ((∃ s', run .memcpy config i s = .ok () s') ↔ ∃ n start place handle bytes old,
        CopyFits heap count sourceIndex source index target n start place handle bytes old) ∧
      ∀ n start place handle bytes old,
        CopyFits heap count sourceIndex source index target n start place handle bytes old →
        ∃ heap' : Heap, run .memcpy config i s = .ok () (s.consumed f 5 heap') ∧
          heap'.objects[handle]? = some (.buffer
            (old.take place ++ (bytes.drop start).take n ++ old.drop (place + n))) ∧
          ∀ other ≠ handle, heap'.objects[other]? = heap.objects[other]?) ∧
    (∀ (x : Item) (bytes : Bytes), heap.bytesOf x = .ok (some bytes) → heap.Countable x →
      (∀ (count index : Item) (n start : Nat), count.toInteger? = .ok (some (n : Int)) →
        index.toInteger? = .ok (some (start : Int)) →
        MakesBufferIf .substr config heap [count, index, x] (start + n ≤ bytes.length)
          ((bytes.drop start).take n)) ∧
      (∀ (count : Item) (n : Nat), count.toInteger? = .ok (some (n : Int)) →
        MakesBufferIf .left config heap [count, x] (n ≤ bytes.length) (bytes.take n) ∧
        MakesBufferIf .right config heap [count, x] (n ≤ bytes.length)
          (bytes.drop (bytes.length - n))) ∧
      (∀ (y : Item) (second : Bytes), heap.bytesOf y = .ok (some second) →
        MakesBufferIf .cat config heap [y, x]
          (bytes.length + second.length ≤ config.maxItemSize) (bytes ++ second))) ∧
    (∀ (heap' : Heap) (x : Item) (bytes : Bytes), heap.bytesOf x = .ok (some bytes) →
      heap'.bytesOf x = .ok (some bytes) → heap.Countable x →
      (∀ (count others : Item) (n : Nat), n ≤ bytes.length →
        count.toInteger? = .ok (some (n : Int)) →
        others.toInteger? = .ok (some ((bytes.length - n : Nat) : Int)) →
        ∃ left right : Bytes, MakesBuffer .left config heap [count, x] left ∧
          MakesBuffer .right config heap' [others, x] right ∧ left ++ right = bytes) ∧
      (∀ (count index both : Item) (n start : Nat), start + n ≤ bytes.length →
        count.toInteger? = .ok (some (n : Int)) → index.toInteger? = .ok (some (start : Int)) →
        both.toInteger? = .ok (some ((start + n : Nat) : Int)) →
        ∃ left part : Bytes, MakesBuffer .left config heap [both, x] left ∧
          MakesBuffer .substr config heap [count, index, x] part ∧
          ∀ y : Item, heap'.bytesOf y = .ok (some left) →
            MakesBuffer .right config heap' [count, y] part)) ∧
    (∀ op ∈ [Opcode.cat, .substr, .left, .right], ∀ (i : Instruction) (s : State),
      s.KeepsObjects ((run op config i).after s)) ∧
    ∀ op ∈ [Opcode.memcpy, .cat, .substr, .left, .right], ∀ (i : Instruction) (s s' : State)
      (e : ExecutionError), run op config i s = .error e s' → s.KeepsObjects s' := by
  refine ⟨?_, ?_, ?_, ?_, ?_⟩
  · intro i s f count sourceIndex source index target hoffers hsource htarget
    refine ⟨⟨?_, ?_⟩, ?_⟩
    · rintro ⟨s', hsucceeds⟩
      exact exists_copyFits config i hoffers hsucceeds
    · rintro ⟨n, start, place, handle, bytes, old, hfits⟩
      exact ⟨_, memcpy_copies config i hoffers hsource htarget hfits⟩
    · intro n start place handle bytes old hfits
      exact ⟨_, memcpy_copies config i hoffers hsource htarget hfits,
        Heap.getElem?_put_self (Heap.lt_size_of_object hfits.overwritten),
        fun other hother => Heap.getElem?_put_of_ne hother⟩
  · intro x bytes hbytes hcountable
    have hword := hcountable bytes hbytes
    exact ⟨fun count index n start hcount hindex =>
        makesBufferIf_substr config hbytes hword hcount hindex,
      fun count n hcount => ⟨makesBufferIf_left config hbytes hword hcount,
        makesBufferIf_right config hbytes hword hcount⟩,
      fun y second hsecond => makesBufferIf_cat config hbytes hsecond⟩
  · intro heap' x bytes hbytes hbytes' hcountable
    have hword := hcountable bytes hbytes
    constructor
    · intro count others n hle hcount hothers
      refine ⟨_, _, (makesBufferIf_left config hbytes hword hcount).makesBuffer config hle,
        (makesBufferIf_right config hbytes' hword hothers).makesBuffer config (by omega), ?_⟩
      rw [Nat.sub_sub_self hle, List.take_append_drop]
    · intro count index both n start hle hcount hindex hboth
      refine ⟨_, _, (makesBufferIf_left config hbytes hword hboth).makesBuffer config hle,
        (makesBufferIf_substr config hbytes hword hcount hindex).makesBuffer config hle,
        fun y hy => ?_⟩
      have hlength : (bytes.take (start + n)).length = start + n := by
        rw [List.length_take, Nat.min_eq_left hle]
      rw [← drop_take_eq hle rfl]
      exact (makesBufferIf_right config hy (by omega) hcount).makesBuffer config (by omega)
  · intro op hop i s
    exact keepsObjects_run config i hop s
  · intro op hop i s s' e hfails
    rcases List.mem_cons.1 hop with rfl | hop
    · exact spares_memcpy i s e s' hfails
    · exact (keepsObjects_run config i hop).spares s e s' hfails

/-- A buffer of four bytes. -/
def fourBytes : Heap := ⟨#[.buffer [1, 2, 3, 4]]⟩

/-- The frame of a machine that works on the buffer. -/
def fourBytesFrame : Frame :=
  { world := 0, position := 0, returnCount := -1, locals := .untouched .local,
    arguments := .untouched .argument, tries := [] }

/-- The state of such a machine, which is about to copy the first three bytes one place on. -/
def overlappingCopy : State :=
  { State.initial 0 with
    worlds := #[{ World.ofScript ⟨[]⟩ with
      stack := ⟨[.integer 3, .integer 0, .buffer 0, .integer 1, .buffer 0], 0⟩
      heap := fourBytes }]
    frames := [fourBytesFrame] }

/-- The copy reads what the buffer has held before, and the parts of the buffer make it up. -/
theorem splicing_exact_overlappingCopy :
    overlappingCopy.Offers fourBytesFrame fourBytes
        [.integer 3, .integer 0, .buffer 0, .integer 1, .buffer 0] ∧
      fourBytes.Countable (.buffer 0) ∧
      CopyFits fourBytes (.integer 3) (.integer 0) (.buffer 0) (.integer 1) (.buffer 0) 3 0 1 0
        [1, 2, 3, 4] [1, 2, 3, 4] ∧
      (∃ heap' : Heap, run .memcpy {} ⟨0, .memcpy, []⟩ overlappingCopy =
          .ok () (overlappingCopy.consumed fourBytesFrame 5 heap') ∧
        heap'.objects[0]? = some (.buffer [1, 1, 2, 3])) ∧
      (∃ left right : Bytes, MakesBuffer .left {} fourBytes [.integer 1, .buffer 0] left ∧
        MakesBuffer .right {} fourBytes [.integer 3, .buffer 0] right ∧
        left ++ right = [1, 2, 3, 4]) ∧
      MakesBufferIf .substr {} fourBytes [.integer 2, .integer 2, .buffer 0] (2 + 2 ≤ 4) [3, 4] ∧
      MakesBufferIf .substr {} fourBytes [.integer 2, .integer 3, .buffer 0] (3 + 2 ≤ 4) [4] := by
  obtain ⟨hcopies, hmakes, hlaws, -, -⟩ := splicing_exact {} fourBytes
  have hoffers : overlappingCopy.Offers fourBytesFrame fourBytes
      [.integer 3, .integer 0, .buffer 0, .integer 1, .buffer 0] :=
    { current := ⟨[], rfl⟩, world := Nat.one_pos, heap := rfl, operands := rfl }
  have hbytes : fourBytes.bytesOf (.buffer 0) = .ok (some [1, 2, 3, 4]) := rfl
  have hcountable : fourBytes.Countable (.buffer 0) := by
    rintro bytes h
    rw [hbytes] at h
    cases h
    decide
  have hfits : CopyFits fourBytes (.integer 3) (.integer 0) (.buffer 0) (.integer 1) (.buffer 0)
      3 0 1 0 [1, 2, 3, 4] [1, 2, 3, 4] :=
    { count := rfl, sourceIndex := rfl, source := hbytes, index := rfl, target := rfl,
      overwritten := rfl, sourceFits := by decide, targetFits := by decide }
  obtain ⟨heap', hrun, hobject, -⟩ := (hcopies ⟨0, .memcpy, []⟩ overlappingCopy fourBytesFrame _ _ _
    _ _ hoffers hcountable hcountable).2 _ _ _ _ _ _ hfits
  exact ⟨hoffers, hcountable, hfits, ⟨heap', hrun, hobject⟩,
    (hlaws fourBytes _ _ hbytes hbytes hcountable).1 _ _ 1 (by decide) rfl rfl,
    (hmakes _ _ hbytes hcountable).1 _ _ 2 2 rfl rfl,
    (hmakes _ _ hbytes hcountable).1 _ _ 2 3 rfl rfl⟩

end Semantics

end SymbolicScript
