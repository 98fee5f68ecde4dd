import Mathlib.Data.List.Induction
import Mathlib.Tactic.Common
import SymbolicScript.Access

/-!
# What a tracker records of a trace

A trace lists accesses to locations in the order in which they are made.  A tracker that records
them one after the other ends up with two maps, and this file says what they are in terms of the
trace alone.  A location is among the reads if its first access is a read, with the offset of that
access (`AccessTracker.find?_reads_recordAll`), and among the writes if it is written at all, with
the offset of the last write (`AccessTracker.find?_writes_recordAll`).

Traces grow at their end, so both facts are proved by induction from there, together with the fact
that a tracker knows of every location that has been accessed at all.
-/

namespace SymbolicScript

/-- What an access does to its location. -/
inductive AccessMode where
  | read
  | write
  deriving DecidableEq, Repr

/-- An access to a location, by the instruction at an offset. -/
structure AccessEvent where
  /-- What the access does. -/
  mode : AccessMode
  /-- The location. -/
  location : Access
  /-- The offset of the instruction. -/
  offset : Nat
  deriving DecidableEq, Repr

/-- The first access of the trace to the location is a read, and it is made at the offset. -/
def ReadFirst (trace : List AccessEvent) (a : Access) (offset : Nat) : Prop :=
  ∃ before after, trace = before ++ ⟨.read, a, offset⟩ :: after ∧ ∀ e ∈ before, e.location ≠ a

/-- The last write of the trace to the location is made at the offset. -/
def WrittenLast (trace : List AccessEvent) (a : Access) (offset : Nat) : Prop :=
  ∃ before after, trace = before ++ ⟨.write, a, offset⟩ :: after ∧
    ∀ e ∈ after, e.location = a → e.mode = .read

variable {trace : List AccessEvent} {e : AccessEvent} {a : Access} {offset : Nat}

/-! ## Traces that grow -/

/-- Of two ways to cut a list in front of an element, one has the element at the end of a list that
has grown by one. -/
lemma exists_cut_concat {α : Type} {l : List α} {x y : α} {P : List α → List α → Prop} :
    (∃ before after, l ++ [y] = before ++ x :: after ∧ P before after) ↔
      (∃ before after, l = before ++ x :: after ∧ P before (after ++ [y])) ∨ y = x ∧ P l [] := by
  constructor
  · rintro ⟨before, after, hcut, hP⟩
    rcases List.eq_nil_or_concat after with rfl | ⟨after, z, rfl⟩
    · obtain ⟨rfl, hlast⟩ := List.append_inj' hcut rfl
      cases hlast
      exact .inr ⟨rfl, hP⟩
    · have hcut' : l ++ [y] = (before ++ x :: after) ++ [z] := by simp [hcut]
      obtain ⟨rfl, hlast⟩ := List.append_inj' hcut' rfl
      cases hlast
      refine .inl ⟨before, after, rfl, ?_⟩
      rwa [List.concat_eq_append] at hP
  · rintro (⟨before, after, rfl, hP⟩ | ⟨rfl, hP⟩)
    · exact ⟨before, after ++ [y], by simp, hP⟩
    · exact ⟨l, [], rfl, hP⟩

/-- A further access is the first one to its location if it is the only one. -/
lemma readFirst_concat :
    ReadFirst (trace ++ [e]) a offset ↔
      ReadFirst trace a offset ∨ e = ⟨.read, a, offset⟩ ∧ ∀ e ∈ trace, e.location ≠ a :=
  exists_cut_concat (P := fun (before _ : List AccessEvent) => ∀ e ∈ before, e.location ≠ a)

/-- A further access is the last write to its location, or it leaves the last write as it is, unless
it is another one. -/
lemma writtenLast_concat :
    WrittenLast (trace ++ [e]) a offset ↔
      WrittenLast trace a offset ∧ (e.location = a → e.mode = .read) ∨
        e = ⟨.write, a, offset⟩ := by
  unfold WrittenLast
  rw [exists_cut_concat
    (P := fun (_ after : List AccessEvent) => ∀ e ∈ after, e.location = a → e.mode = .read)]
  constructor
  · rintro (⟨before, after, htrace, hafter⟩ | ⟨rfl, -⟩)
    · obtain ⟨hafter', he⟩ := List.forall_mem_append.1 hafter
      exact .inl ⟨⟨before, after, htrace, hafter'⟩, he e (List.mem_singleton_self e)⟩
    · exact .inr rfl
  · rintro (⟨⟨before, after, htrace, hafter⟩, he⟩ | rfl)
    · refine .inl ⟨before, after, htrace, List.forall_mem_append.2 ⟨hafter, ?_⟩⟩
      exact List.forall_mem_singleton.2 he
    · exact .inr ⟨rfl, nofun⟩

/-! ## Recording a trace -/

namespace AccessTracker

/-- Records an access. -/
def record (t : AccessTracker) (e : AccessEvent) : AccessTracker :=
  match e.mode with
  | .read => t.recordRead e.location e.offset
  | .write => t.recordWrite e.location e.offset

/-- Records the accesses of a trace. -/
def recordAll (t : AccessTracker) (trace : List AccessEvent) : AccessTracker :=
  trace.foldl record t

variable {t : AccessTracker}

lemma recordAll_append (trace later : List AccessEvent) :
    t.recordAll (trace ++ later) = (t.recordAll trace).recordAll later :=
  List.foldl_append

lemma recordAll_concat : t.recordAll (trace ++ [e]) = (t.recordAll trace).record e :=
  t.recordAll_append trace [e]

/-- The tracker knows of the location. -/
def Knows (t : AccessTracker) (a : Access) : Prop :=
  (∃ offset, t.reads.find? a = some offset) ∨ ∃ offset, t.writes.find? a = some offset

/-- What the tracker knows of it has recorded as a read or as written. -/
lemma knows_iff : t.Knows a ↔ t.written a || t.reads.contains a := by
  unfold Knows written SortedMap.contains
  rw [Bool.or_eq_true, Option.isSome_iff_exists, Option.isSome_iff_exists, or_comm]

/-- A further access is among the reads if it is a read of a location that the tracker did not know
of. -/
lemma find?_reads_record :
    (t.record e).reads.find? a = some offset ↔
      t.reads.find? a = some offset ∨ e = ⟨.read, a, offset⟩ ∧ ¬t.Knows a := by
  obtain ⟨mode, location, position⟩ := e
  cases mode with
  | read =>
    change (t.recordRead location position).reads.find? a = some offset ↔ _
    by_cases hknown : t.Knows location
    · have hsame : t.recordRead location position = t := if_pos (knows_iff.1 hknown)
      rw [hsame]
      refine ⟨.inl, ?_⟩
      rintro (hold | ⟨heq, hunknown⟩)
      · exact hold
      · cases heq
        exact absurd hknown hunknown
    · have hinsert : t.recordRead location position =
          { t with reads := t.reads.insert location position } :=
        if_neg fun h => hknown (knows_iff.2 h)
      rw [hinsert]
      simp only [SortedMap.find?_insert]
      by_cases ha : a = location
      · subst ha
        have hnone : ∀ offset, t.reads.find? a ≠ some offset := fun _ h => hknown (.inl ⟨_, h⟩)
        simp [hknown, hnone]
      · simp [ha, Ne.symm ha]
  | write =>
    simp [record, recordWrite]

/-- A further access is among the writes if it is one, in the place of an earlier write to its
location. -/
lemma find?_writes_record :
    (t.record e).writes.find? a = some offset ↔
      t.writes.find? a = some offset ∧ (e.location = a → e.mode = .read) ∨
        e = ⟨.write, a, offset⟩ := by
  obtain ⟨mode, location, position⟩ := e
  cases mode with
  | read =>
    have hsame : (t.recordRead location position).writes = t.writes := by
      unfold recordRead
      split
      · rfl
      · rfl
    simp [record, hsame]
  | write =>
    simp only [record, recordWrite, SortedMap.find?_insert]
    by_cases ha : a = location
    · subst ha
      simp
    · simp [ha, Ne.symm ha]

/-- After an access the tracker knows of its location, and otherwise of the same locations. -/
lemma knows_record : (t.record e).Knows a ↔ t.Knows a ∨ e.location = a := by
  constructor
  · rintro (⟨offset, hread⟩ | ⟨offset, hwritten⟩)
    · rcases find?_reads_record.1 hread with hold | ⟨rfl, -⟩
      · exact .inl (.inl ⟨offset, hold⟩)
      · exact .inr rfl
    · rcases find?_writes_record.1 hwritten with ⟨hold, -⟩ | rfl
      · exact .inl (.inr ⟨offset, hold⟩)
      · exact .inr rfl
  · -- A write replaces what was known of its location, a read leaves it as it is.
    intro h
    by_cases hwrite : e = ⟨.write, a, e.offset⟩
    · exact .inr ⟨e.offset, find?_writes_record.2 (.inr hwrite)⟩
    · have hread : e.location = a → e.mode = .read := by
        rintro rfl
        cases hmode : e.mode with
        | read => rfl
        | write =>
          refine absurd ?_ hwrite
          rw [← hmode]
      by_cases hknown : t.Knows a
      · rcases hknown with ⟨offset, hold⟩ | ⟨offset, hold⟩
        · exact .inl ⟨offset, find?_reads_record.2 (.inl hold)⟩
        · exact .inr ⟨offset, find?_writes_record.2 (.inl ⟨hold, hread⟩)⟩
      · obtain rfl := h.resolve_left hknown
        refine .inl ⟨e.offset, find?_reads_record.2 (.inr ⟨?_, hknown⟩)⟩
        rw [← hread rfl]

/-- A new tracker that records a trace knows of the locations that the trace accesses. -/
lemma knows_recordAll : (empty.recordAll trace).Knows a ↔ ∃ e ∈ trace, e.location = a := by
  induction trace using List.reverseRecOn with
  | nil => simp [recordAll, Knows, empty]
  | append_singleton trace e ih =>
    rw [recordAll_concat, knows_record, ih]
    simp [or_and_right, exists_or]

/-- Among the reads are the locations whose first access is a read, with the offset of it. -/
theorem find?_reads_recordAll :
    (empty.recordAll trace).reads.find? a = some offset ↔ ReadFirst trace a offset := by
  induction trace using List.reverseRecOn with
  | nil => simp [recordAll, empty, ReadFirst]
  | append_singleton trace e ih =>
    rw [recordAll_concat, find?_reads_record, readFirst_concat, knows_recordAll, ih]
    push Not
    rfl

/-- Among the writes are the locations that are written, with the offset of the last write. -/
theorem find?_writes_recordAll :
    (empty.recordAll trace).writes.find? a = some offset ↔ WrittenLast trace a offset := by
  induction trace using List.reverseRecOn with
  | nil => simp [recordAll, empty, WrittenLast]
  | append_singleton trace e ih =>
    rw [recordAll_concat, find?_writes_record, writtenLast_concat, ih]

end AccessTracker

end SymbolicScript
