import SymbolicScript.Proofs.BlockRuns
import SymbolicScript.Proofs.Budget
import SymbolicScript.Proofs.EffectFree
import SymbolicScript.Proofs.EntryPlacement
import SymbolicScript.Proofs.ItemOrder
import SymbolicScript.Proofs.TrackedRuns

/-!
# Which accesses a report lists

A report lists the accesses that the tracker has recorded when the scan ends, and names an offset to
which the entry of the method can be moved.  The instructions in front of that offset, and the
routines that they call and that return, are the ones skipped (`Machine.Skips`).

The turns skipped are the first ones of the scan, since the entry frame never moves back
(`Scan.Walks.skips_of_le`).  Hence the report lists what is skipped if the scan ends in the entry
frame with a reason to move the entry there.  But if it ends in a routine, or if the method halts or
aborts, turns remain that are executed and not skipped, and the report lists their accesses as well.
It then lists those of the skipped turns exactly if the remaining ones add no location
(`analyzeMethod_lists_skipped_iff`).
-/

namespace SymbolicScript

/-! ## Listed accesses -/

/-- The lists are, in order and without repetition, the locations that a trace reads before it
writes them, and those that it writes. -/
structure Lists (reads writes : List Access) (trace : List AccessEvent) : Prop where
  /-- The locations read are in order. -/
  reads_ascend : reads.Pairwise fun a b => compare a b = .lt
  /-- The locations written are in order. -/
  writes_ascend : writes.Pairwise fun a b => compare a b = .lt
  /-- The locations read are those whose first access is a read. -/
  mem_reads : ∀ a, a ∈ reads ↔ ∃ offset, ReadFirst trace a offset
  /-- The locations written are those with a last write. -/
  mem_writes : ∀ a, a ∈ writes ↔ ∃ offset, WrittenLast trace a offset

section Traces

variable {trace front back : List AccessEvent} {a : Access} {reads writes : List Access}

/-- A location has a last write if it is written. -/
lemma exists_writtenLast_iff :
    (∃ offset, WrittenLast trace a offset) ↔ ∃ e ∈ trace, e.location = a ∧ e.mode = .write := by
  induction trace using List.reverseRecOn with
  | nil => simp [WrittenLast]
  | append_singleton trace e ih =>
    simp only [writtenLast_concat, exists_or, exists_and_right, ih, List.mem_append,
      List.mem_singleton, or_and_right, exists_eq_left]
    constructor
    · rintro (⟨hold, -⟩ | ⟨offset, rfl⟩)
      · exact .inl hold
      · exact .inr ⟨rfl, rfl⟩
    · rintro (hold | ⟨hlocation, hmode⟩)
      · by_cases hwrite : e.location = a → e.mode = .read
        · exact .inl ⟨hold, hwrite⟩
        · push Not at hwrite
          have hmode : e.mode = .write := by
            cases hmode : e.mode with
            | read => exact absurd hmode hwrite.2
            | write => rfl
          exact .inr ⟨e.offset, by rw [← hwrite.1, ← hmode]⟩
      · exact .inr ⟨e.offset, by rw [← hlocation, ← hmode]⟩

/-- The first access of a longer trace is that of its front, if there is one. -/
lemma exists_readFirst_append :
    (∃ offset, ReadFirst (front ++ back) a offset) ↔
      (∃ offset, ReadFirst front a offset) ∨
        (∀ e ∈ front, e.location ≠ a) ∧ ∃ offset, ReadFirst back a offset := by
  induction back using List.reverseRecOn with
  | nil => simp [ReadFirst]
  | append_singleton back e ih =>
    simp only [← List.append_assoc, readFirst_concat, exists_or, ih, List.forall_mem_append,
      exists_and_right]
    tauto

/-- A location that is accessed is read first, or written. -/
lemma exists_readFirst_or_written (h : ∃ e ∈ trace, e.location = a) :
    (∃ offset, ReadFirst trace a offset) ∨ ∃ offset, WrittenLast trace a offset := by
  have hknown := AccessTracker.knows_recordAll.2 h
  unfold AccessTracker.Knows at hknown
  simpa only [AccessTracker.find?_reads_recordAll, AccessTracker.find?_writes_recordAll] using
    hknown

/-- What is read first is accessed. -/
lemma ReadFirst.exists_mem {offset : Nat} (h : ReadFirst trace a offset) :
    ∃ e ∈ trace, e.location = a := by
  obtain ⟨before, after, rfl, -⟩ := h
  exact ⟨⟨.read, a, offset⟩, by simp, rfl⟩

/-- Lists of the accesses of a trace are those of its front alone exactly if what follows adds no
location to what the front accesses, and none to what the front writes. -/
theorem Lists.front_iff (h : Lists reads writes (front ++ back)) :
    Lists reads writes front ↔
      ∀ e ∈ back, ∃ e' ∈ front, e'.location = e.location ∧ (e.mode = .write → e'.mode = .write) := by
  have hwrites (a : Access) :
      a ∈ writes ↔ (∃ e ∈ front, e.location = a ∧ e.mode = .write) ∨
        ∃ e ∈ back, e.location = a ∧ e.mode = .write := by
    rw [h.mem_writes, exists_writtenLast_iff]
    simp only [List.mem_append, or_and_right, exists_or]
  constructor
  · intro hfront e he
    have hwritten (a : Access) (ha : a ∈ writes) : ∃ e' ∈ front, e'.location = a ∧
        e'.mode = .write := exists_writtenLast_iff.1 ((hfront.mem_writes a).1 ha)
    cases hmode : e.mode with
    | write =>
      obtain ⟨e', he', hlocation, hmode'⟩ :=
        hwritten e.location ((hwrites _).2 (.inr ⟨e, he, rfl, hmode⟩))
      exact ⟨e', he', hlocation, fun _ => hmode'⟩
    | read =>
      have hknown : ∃ e' ∈ front, e'.location = e.location := by
        by_contra hunknown
        push Not at hunknown
        rcases exists_readFirst_or_written ⟨e, he, rfl⟩ with hread | hwrite
        · have hlisted := (h.mem_reads e.location).2
            (exists_readFirst_append.2 (.inr ⟨hunknown, hread⟩))
          obtain ⟨offset, hfirst⟩ := (hfront.mem_reads _).1 hlisted
          obtain ⟨e', he', hlocation⟩ := hfirst.exists_mem
          exact hunknown e' he' hlocation
        · obtain ⟨e', he', hlocation, -⟩ :=
            hwritten e.location ((hwrites _).2 (.inr (exists_writtenLast_iff.1 hwrite)))
          exact hunknown e' he' hlocation
      obtain ⟨e', he', hlocation⟩ := hknown
      exact ⟨e', he', hlocation, nofun⟩
  · intro hknown
    refine ⟨h.reads_ascend, h.writes_ascend, fun a => ?_, fun a => ?_⟩
    · rw [h.mem_reads, exists_readFirst_append]
      refine or_iff_left ?_
      rintro ⟨hunknown, offset, hread⟩
      obtain ⟨e, he, rfl⟩ := hread.exists_mem
      obtain ⟨e', he', hlocation, -⟩ := hknown e he
      exact hunknown e' he' hlocation
    · rw [hwrites, exists_writtenLast_iff]
      refine or_iff_left_of_imp ?_
      rintro ⟨e, he, rfl, hmode⟩
      obtain ⟨e', he', hlocation, hwrite⟩ := hknown e he
      exact ⟨e', he', hlocation, hwrite hmode⟩

end Traces

/-- What a tracker lists that has recorded a trace. -/
theorem AccessTracker.lists_recordAll (trace : List AccessEvent) :
    Lists (empty.recordAll trace).readSet (empty.recordAll trace).writeSet trace := by
  have hascending := ascending_recordAll trace
  refine ⟨hascending.reads, hascending.writes, fun a => ?_, fun a => ?_⟩
  · rw [readSet, ← SortedMap.contains_iff_mem_keys, SortedMap.contains, Option.isSome_iff_exists]
    exact exists_congr fun _ => find?_reads_recordAll
  · rw [writeSet, ← SortedMap.contains_iff_mem_keys, SortedMap.contains, Option.isSome_iff_exists]
    exact exists_congr fun _ => find?_writes_recordAll

/-! ## Skipped turns -/

namespace Machine

/-- Whether the next instruction lies at an offset from `start` on and before `finish`. -/
def nextWithin (m : Machine) (start finish : Nat) : Bool :=
  match m.next with
  | .ok (some i) => start ≤ i.offset && i.offset < finish
  | _ => false

/-- Of the first `count` turns, the one with a number is skipped if the entry of the method moves
from `start` to `finish`: the entry frame executes one of the instructions in between, or it has
called a routine there that executes this turn and returns. -/
def Skips (m : Machine) (start finish count turn : Nat) : Prop :=
  ∃ c ∈ List.range (turn + 1),
    ((m.after c).state.depth ≤ 1 ∧ (m.after c).nextWithin start finish) ∧
    (∀ k ∈ List.range (turn + 1), c < k → 1 < (m.after k).state.depth) ∧
    (c = turn ∨ ∃ k ∈ List.range (count + 1), turn < k ∧ (m.after k).state.depth ≤ 1)

instance (m : Machine) (start finish count : Nat) : DecidablePred (m.Skips start finish count) :=
  fun _ => inferInstanceAs (Decidable (∃ c ∈ List.range _, _ ∧ _ ∧ _))

/-- The accesses of those of the first `count` turns that have a property. -/
def traceOf (m : Machine) (count : Nat) (p : Nat → Prop) [DecidablePred p] : List AccessEvent :=
  ((List.range count).filter p).filterMap fun k => (m.after k).access?

/-- The accesses of the turns skipped. -/
def skippedTrace (m : Machine) (start finish count : Nat) : List AccessEvent :=
  m.traceOf count (m.Skips start finish count)

/-- The accesses of the turns that are executed and not skipped. -/
def remainingTrace (m : Machine) (start finish count : Nat) : List AccessEvent :=
  m.traceOf count fun k => ¬m.Skips start finish count k

end Machine

/-- A range of numbers begins with those that have a property, if that is passed on downwards. -/
lemma filter_range_append {p : Nat → Prop} [DecidablePred p] {count : Nat}
    (h : ∀ j k, j ≤ k → k < count → p k → p j) :
    (List.range count).filter p ++ (List.range count).filter (fun k => ¬p k) =
      List.range count := by
  induction count with
  | zero => rfl
  | succ count ih =>
    have hih := ih fun j k hjk hk => h j k hjk (Nat.lt_succ_of_lt hk)
    by_cases hp : p count
    · have hall : ∀ k ∈ List.range (count + 1), p k := fun k hk =>
        h k count (Nat.le_of_lt_succ (List.mem_range.1 hk)) (Nat.lt_succ_self count) hp
      rw [List.filter_eq_self.2 (by simpa using hall),
        List.filter_eq_nil_iff.2 (by simpa using hall), List.append_nil]
    · rw [List.range_succ, List.filter_append, List.filter_append]
      simp only [List.filter_cons, List.filter_nil, hp, not_false_eq_true, decide_true,
        decide_false, if_true, Bool.false_eq_true, if_false, List.append_nil]
      rw [← List.append_assoc, hih]

/-- If the turns with a property come first, so do their accesses. -/
lemma Machine.trace_eq_append (m : Machine) {p : Nat → Prop} [DecidablePred p] {count : Nat}
    (h : ∀ j k, j ≤ k → k < count → p k → p j) :
    m.trace count = m.traceOf count p ++ m.traceOf count fun k => ¬p k := by
  unfold trace traceOf
  rw [← List.filterMap_append, filter_range_append h]

/-! ## The entry frame -/

/-- Where the entry frame stands. -/
def State.entryPosition (s : State) : Nat :=
  (s.entry?.map Frame.position).getD 0

namespace Machine

variable {script : Script} {config : Config} {m m' : Machine} {i : Instruction} {entry : Nat}

/-- The next instruction lies where the current frame stands. -/
lemma offset_of_next {f : Frame} {rest : List Frame} (hframes : m.state.frames = f :: rest)
    (hnext : m.next = .ok (some i)) : i.offset = f.position := by
  rcases next_cases hframes hnext with hdecoded | rfl
  · exact (Script.instructionAt_some hdecoded).1
  · rfl

/-- In the entry frame the next instruction lies where that frame stands. -/
lemma offset_of_atEntry (hdepth : m.state.depth ≤ 1) (hnext : m.next = .ok (some i)) :
    i.offset = m.state.entryPosition := by
  obtain ⟨f, rest, hframes⟩ := exists_frame_of_next hnext
  unfold State.depth at hdepth
  rw [hframes, List.length_cons] at hdepth
  have hrest : rest = [] := List.eq_nil_of_length_eq_zero (by omega)
  rw [offset_of_next hframes hnext]
  unfold State.entryPosition State.entry?
  rw [hframes, hrest]
  rfl

/-- A turn of a scan moves the entry frame behind the instruction that it executes, and leaves it
where it stands while a routine is followed. -/
lemma Scanning.turn_entryPosition {scan scan' : Scan} (h : Scanning script config m)
    (hturn : m.Turn (Scan.predicate entry config.followCalls) scan scan' m' i) :
    (m.state.depth ≤ 1 → m'.state.entryPosition = i.nextOffset) ∧
      (1 < m.state.depth → m'.state.entryPosition = m.state.entryPosition) := by
  obtain ⟨f, rest, hframes⟩ := exists_frame_of_next hturn.next
  obtain ⟨-, hstep, hentry, -⟩ := h.turn hframes hturn
  have hdepth : m.state.depth = rest.length + 1 := by simp [State.depth, hframes]
  unfold State.entryPosition State.entry?
  rw [hframes]
  generalize m'.state.frames = frames' at hstep
  refine ⟨fun hle => ?_, fun hlt => ?_⟩
  · have hrest : rest = [] := List.eq_nil_of_length_eq_zero (by omega)
    subst hrest
    cases hstep with
    | @plain f' _ hskeleton =>
      change f'.skeleton.position = i.nextOffset
      rw [hskeleton]
      rfl
    | call => rfl
    | ret hop => exact absurd hop (hentry rfl).1.ne_ret
  · obtain ⟨g, below, rfl⟩ : ∃ g below, rest = g :: below :=
      List.exists_cons_of_length_pos (by omega)
    cases hstep with
    | plain | call | ret => simp

end Machine

namespace Scan

open Machine (TurnsIn Scanning)

/-- What is known of the first turns of a scan: the entry frame executes instructions where it
stands and goes on behind them, and waits while a routine is followed. -/
structure Walks (m : Machine) (count : Nat) : Prop where
  /-- The scan begins in the entry frame. -/
  entry : m.state.depth ≤ 1
  /-- It begins at an offset that can be represented. -/
  max : m.state.entryPosition ≤ maxOffset
  /-- There is a next instruction, behind which the entry frame goes on. -/
  turn : ∀ k < count, ∃ i, (m.after k).next = .ok (some i) ∧
    ((m.after k).state.depth ≤ 1 → (m.after (k + 1)).state.entryPosition = i.nextOffset) ∧
    (1 < (m.after k).state.depth →
      (m.after (k + 1)).state.entryPosition = (m.after k).state.entryPosition)

variable {script : Script} {config : Config} {m m' : Machine} {i : Instruction}
  {entry count start finish j k : Nat} {scan scan' : Scan}

/-- The turns of a scan lead to the machines behind its steps, all of which have the shape of a
scan. -/
lemma walks_of_turns (hscanning : Scanning script config m) (hentry : m.state.depth ≤ 1)
    (hmax : m.state.entryPosition ≤ maxOffset)
    (h : TurnsIn (predicate entry config.followCalls) scan m count scan' m') :
    Walks m count ∧ Scanning script config m' ∧ m' = m.after count := by
  induction h with
  | none => exact ⟨⟨hentry, hmax, nofun⟩, hscanning, rfl⟩
  | @more count _ _ m₁ m₂ i _ turn ih =>
    obtain ⟨hwalks, hscanning₁, rfl⟩ := ih
    have hstep : m₂ = m.after (count + 1) := by
      rw [Machine.after, Machine.step_of_next turn.next, turn.executes]
    obtain ⟨f, rest, hframes⟩ := Machine.exists_frame_of_next turn.next
    have hturn := hscanning₁.turn_entryPosition turn
    rw [hstep] at hturn
    refine ⟨⟨hentry, hmax, fun k hk => ?_⟩, (hscanning₁.turn hframes turn).1, hstep⟩
    rcases Nat.lt_succ_iff_lt_or_eq.1 hk with hlt | rfl
    · exact hwalks.turn k hlt
    · exact ⟨i, turn.next, hturn⟩

/-- The turns of a scan keep its invariant. -/
lemma OnPath.turnsIn (h : OnPath script config entry scan m)
    (hturns : TurnsIn (predicate entry config.followCalls) scan m count scan' m') :
    OnPath script config entry scan' m' := by
  induction hturns with
  | none => exact h
  | more _ turn ih => exact ih.turn turn

namespace Walks

/-- A turn of the entry frame takes it behind the instruction on which it stands. -/
lemma turn_atEntry (h : Walks m count) (hk : k < count) (hdepth : (m.after k).state.depth ≤ 1) :
    ∃ i, (m.after k).next = .ok (some i) ∧ i.offset = (m.after k).state.entryPosition ∧
      (m.after (k + 1)).state.entryPosition = i.nextOffset := by
  obtain ⟨i, hnext, hentry, -⟩ := h.turn k hk
  exact ⟨i, hnext, Machine.offset_of_atEntry hdepth hnext, hentry hdepth⟩

/-- The entry frame does not go beyond the greatest offset. -/
lemma entryPosition_le_maxOffset (h : Walks m count) (hk : k ≤ count) :
    (m.after k).state.entryPosition ≤ maxOffset := by
  induction k with
  | zero => exact h.max
  | succ k ih =>
    obtain ⟨i, -, hentry, hcallee⟩ := h.turn k hk
    by_cases hdepth : (m.after k).state.depth ≤ 1
    · rw [hentry hdepth]
      exact Nat.min_le_right _ _
    · rw [hcallee (Nat.not_le.1 hdepth)]
      exact ih (by omega)

/-- The entry frame never moves back. -/
lemma entryPosition_le (h : Walks m count) (hjk : j ≤ k) (hk : k ≤ count) :
    (m.after j).state.entryPosition ≤ (m.after k).state.entryPosition := by
  induction hjk with
  | refl => exact Nat.le_refl _
  | @step k _ ih =>
    refine Nat.le_trans (ih (by omega)) ?_
    by_cases hdepth : (m.after k).state.depth ≤ 1
    · obtain ⟨i, -, hoffset, hnext⟩ := h.turn_atEntry hk hdepth
      have hmax := h.entryPosition_le_maxOffset (k := k) (by omega)
      rw [Nat.succ_eq_add_one, hnext]
      unfold Instruction.nextOffset
      omega
    · obtain ⟨i, -, -, hcallee⟩ := h.turn k hk
      rw [Nat.succ_eq_add_one, hcallee (Nat.not_le.1 hdepth)]

/-- Every turn is one of the entry frame or follows one, with turns of routines in between. -/
lemma exists_lastEntry (h : Walks m count) (turn : Nat) :
    ∃ c ≤ turn, (m.after c).state.depth ≤ 1 ∧
      ∀ k, c < k → k ≤ turn → 1 < (m.after k).state.depth := by
  induction turn with
  | zero => exact ⟨0, Nat.le_refl _, h.entry, fun k hlt hle => by omega⟩
  | succ turn ih =>
    by_cases hdepth : (m.after (turn + 1)).state.depth ≤ 1
    · exact ⟨turn + 1, Nat.le_refl _, hdepth, fun k hlt hle => by omega⟩
    · obtain ⟨c, hc, hentry, hbetween⟩ := ih
      refine ⟨c, by omega, hentry, fun k hlt hle => ?_⟩
      rcases Nat.le_succ_iff.1 hle with hle | rfl
      · exact hbetween k hlt hle
      · exact Nat.not_le.1 hdepth

/-- Which turns are skipped, in terms of where the entry frame stands. -/
lemma skips_iff (h : Walks m count) (hk : k < count) :
    m.Skips start finish count k ↔
      ∃ c ≤ k, (m.after c).state.depth ≤ 1 ∧
        (start ≤ (m.after c).state.entryPosition ∧ (m.after c).state.entryPosition < finish) ∧
        (∀ j, c < j → j ≤ k → 1 < (m.after j).state.depth) ∧
        (c = k ∨ ∃ r ≤ count, k < r ∧ (m.after r).state.depth ≤ 1) := by
  have hwithin (c : Nat) (hc : c ≤ k) (hdepth : (m.after c).state.depth ≤ 1) :
      (m.after c).nextWithin start finish = true ↔
        start ≤ (m.after c).state.entryPosition ∧ (m.after c).state.entryPosition < finish := by
    obtain ⟨i, hnext, hoffset, -⟩ := h.turn_atEntry (k := c) (by omega) hdepth
    unfold Machine.nextWithin
    rw [hnext, ← hoffset]
    simp
  unfold Machine.Skips
  simp only [List.mem_range, Nat.lt_succ_iff]
  constructor
  · rintro ⟨c, hc, ⟨hdepth, hnext⟩, hbetween, hreturns⟩
    exact ⟨c, hc, hdepth, (hwithin c hc hdepth).1 hnext, fun j hlt hle => hbetween j hle hlt,
      hreturns⟩
  · rintro ⟨c, hc, hdepth, hlies, hbetween, hreturns⟩
    exact ⟨c, hc, ⟨hdepth, (hwithin c hc hdepth).2 hlies⟩, fun j hle hlt => hbetween j hlt hle,
      hreturns⟩

/-- The turns in front of one that is skipped are skipped as well. -/
theorem skips_of_le (h : Walks m count) (hjk : j ≤ k) (hk : k < count)
    (hskips : m.Skips m.state.entryPosition finish count k) :
    m.Skips m.state.entryPosition finish count j := by
  obtain ⟨c', hc', hdepth', ⟨-, hbefore⟩, hbetween', hreturns'⟩ := (h.skips_iff hk).1 hskips
  obtain ⟨c, hc, hdepth, hbetween⟩ := h.exists_lastEntry j
  have hle : c ≤ c' := by
    -- The last turn of the entry frame up to `k` is not in front of one up to `j`.
    by_contra hlt
    have hcallee := hbetween' c (by omega) (by omega)
    omega
  have hstart := h.entryPosition_le (Nat.zero_le c) (by omega)
  have hback := h.entryPosition_le hle (by omega)
  refine (h.skips_iff (by omega)).2 ⟨c, hc, hdepth, ⟨hstart, by omega⟩, hbetween, ?_⟩
  by_cases hcj : c = j
  · exact .inl hcj
  refine .inr ?_
  by_cases hreturned : j < c'
  · exact ⟨c', by omega, hreturned, hdepth'⟩
  · rcases hreturns' with rfl | ⟨r, hr, hkr, hentry⟩
    · obtain rfl : j = c' := by omega
      have hcallee := hbetween j (by omega) (Nat.le_refl j)
      omega
    · exact ⟨r, hr, by omega, hentry⟩

/-- All turns are skipped if the entry moves to where the entry frame stands afterwards, as its
current frame. -/
lemma skips_of_atEntry (h : Walks m count) (hdepth : (m.after count).state.depth ≤ 1)
    (hmax : (m.after count).state.entryPosition < maxOffset) (hk : k < count) :
    m.Skips m.state.entryPosition (m.after count).state.entryPosition count k := by
  obtain ⟨c, hc, hentry, hbetween⟩ := h.exists_lastEntry k
  obtain ⟨i, -, hoffset, hnext⟩ := h.turn_atEntry (k := c) (by omega) hentry
  have hstart := h.entryPosition_le (Nat.zero_le c) (by omega)
  have hbehind := h.entryPosition_le (j := c + 1) (k := count) (by omega) (Nat.le_refl _)
  have hlies : (m.after c).state.entryPosition < (m.after count).state.entryPosition := by
    have hsize : 1 ≤ i.size := Instruction.size_pos
    rw [hnext] at hbehind
    unfold Instruction.nextOffset at hbehind
    omega
  exact (h.skips_iff hk).2 ⟨c, hc, hentry, ⟨hstart, hlies⟩, hbetween,
    .inr ⟨count, Nat.le_refl _, hk, hdepth⟩⟩

/-- The accesses of the scan are those of the turns skipped and, behind them, those of the turns
that remain. -/
lemma trace_eq (h : Walks m count) (finish : Nat) :
    m.trace count = m.skippedTrace m.state.entryPosition finish count ++
      m.remainingTrace m.state.entryPosition finish count :=
  m.trace_eq_append fun _ _ hjk hk => h.skips_of_le hjk hk

end Walks

end Scan

/-! ## What is recorded at the end -/

namespace Machine

variable {script : Script} {config : Config} {m m' : Machine} {i : Instruction} {entry : Nat}

/-- However the handler of an instruction ends that a scan lets pass, a frame is left. -/
lemma Scanning.dispatch_frames (h : Scanning script config m) (hpass : i.Passable m.state.depth) :
    ((JumpTable.standard.dispatch config i).after m.state).frames ≠ [] := by
  obtain ⟨f, rest, hframes⟩ := List.exists_cons_of_ne_nil h.nonempty
  cases hterminator : i.opcode.isTerminator with
  | false =>
    have hsame := JumpTable.dispatch_sameSkeleton config hterminator m.state
    obtain ⟨f', hframes', -⟩ := hsame.frames_eq hframes
    rw [hframes']
    exact List.cons_ne_nil _ _
  | true =>
    rcases hpass.terminator hterminator with hcall | ⟨hret, hdepth⟩
    · rw [dispatch_call hcall]
      cases htarget : i.target with
      | error e =>
        have hfails : Semantics.call config i m.state = .error e m.state := by
          unfold Semantics.call
          rw [htarget]
          rfl
        rw [Exec.after_of_error hfails]
        exact h.nonempty
      | ok target =>
        have hcalls : Semantics.call config i m.state = Exec.call config target m.state :=
          bind_of_ok (Exec.liftM_eq_ok.2 ⟨htarget, rfl⟩)
        rcases Exec.call_cases config target hframes with ⟨-, hok⟩ | ⟨e, hfails⟩
        · rw [Exec.after_of_ok (hcalls.trans hok)]
          exact List.cons_ne_nil _ _
        · rw [Exec.after_of_error (hcalls.trans hfails)]
          exact h.nonempty
    · rw [dispatch_ret hret]
      obtain ⟨g, below, rfl⟩ : ∃ g below, rest = g :: below := by
        refine List.exists_cons_of_length_pos ?_
        unfold State.depth at hdepth
        rw [hframes, List.length_cons] at hdepth
        omega
      have hworld : f.world = g.world := by
        rw [(h.simple f (by simp [hframes])).world, (h.simple g (by simp [hframes])).world]
      rw [Exec.after_of_ok (Exec.ret_eq hframes hworld)]
      exact List.cons_ne_nil _ _

/-- Where an instruction fails that a scan lets pass, a frame is left. -/
lemma Scanning.frames_of_fails {e : LocatedError} (h : Scanning script config m)
    (hpass : i.Passable m.state.depth) (hfails : m.execute i = (.error e, m')) :
    m'.state.frames ≠ [] := by
  by_cases hpermits : m.Permits
  · rw [execute_of_permits hpermits] at hfails
    obtain ⟨hresult, rfl⟩ := Prod.mk.inj hfails
    have hperforms := performInstruction_performs m.config m.table i m.state
    have hafter := h.dispatch_frames hpass
    rw [h.table, h.configured] at hperforms hresult ⊢
    generalize performInstruction config .standard i m.state = outcome at hperforms hresult
    cases hperforms with
    | fails hdispatch _ =>
      rw [Exec.after_of_error hdispatch] at hafter
      exact hafter
    | jumps => cases hresult
    | advances => cases hresult
    | leaves hdispatch _ hadvance =>
      rw [Exec.after_of_ok hdispatch] at hafter
      obtain rfl := advance_error hadvance
      exact hafter
  · rcases execute_of_not_permits hpermits i with ⟨-, hrefused⟩ | ⟨-, -, hrefused⟩
    · rw [hrefused] at hfails
      cases hfails
      exact h.nonempty
    · rw [hrefused] at hfails
      cases hfails
      exact h.nonempty

/-- Where a scan of a loaded script ends, the accesses of its turns have been recorded. -/
theorem Scanning.accesses_of_ends {watchdog : Watchdog} {supply count : Nat} {scan : Scan}
    {ending : Ending Scan}
    (h : Scanning script config ((loaded script config watchdog supply entry).after count))
    (hends : Ends (Scan.predicate entry config.followCalls) scan
      ((loaded script config watchdog supply entry).after count) ending) :
    ending.machine.state.accesses =
      AccessTracker.empty.recordAll ((loaded script config watchdog supply entry).trace count) := by
  have hgrounded := loaded_grounded script config watchdog supply entry
  have hrecord (k : Nat)
      (hframes : ((loaded script config watchdog supply entry).after k).state.frames ≠ []) :
      ((loaded script config watchdog supply entry).after k).state.accesses =
        AccessTracker.empty.recordAll ((loaded script config watchdog supply entry).trace k) := by
    obtain ⟨-, g, -, hk⟩ := (reaches_after _ k).grounded rfl hgrounded
    rw [hk.accesses_eq hframes, record_after rfl hgrounded k]
    rfl
  have hend := hrecord count h.nonempty
  cases hends with
  | halted | malformed | finished | stopped => exact hend
  | @failed i _ e m' _ hnext hstop hfails =>
    -- The step that fails is one more step, and makes no access.
    have hstep : ((loaded script config watchdog supply entry).after count).step = (.error e, m') :=
      (step_of_next hnext).trans hfails
    have hafter : (loaded script config watchdog supply entry).after (count + 1) = m' := by
      rw [after, hstep]
    have hnone : ((loaded script config watchdog supply entry).after count).access? = none := by
      unfold access?
      rw [hnext, hstep]
    have hframes := h.frames_of_fails (Scan.passable_of_passes hstop) hfails
    rw [← hafter] at hframes
    have hlater := hrecord (count + 1) hframes
    rw [trace_succ, hnone, Option.toList_none, List.append_nil, hafter] at hlater
    exact hlater

end Machine

/-! ## Reports -/

/-- Where a scan concludes in the entry frame with a reason to move the entry, it moves it to where
that frame stands. -/
lemma Scan.Concludes.eq_entryPosition {config : Config} {entry : Nat} {scan : Scan} {m m' : Machine}
    {placement : Nat × StopReason × Option LocatedError}
    (h : Concludes config entry scan m placement m') (hdepth : m.state.depth ≤ 1)
    (hhalted : placement.2.1 ≠ .halted) (haborted : placement.2.1 ≠ .aborted) :
    placement.1 = m.state.entryPosition := by
  cases h with
  | stays hreason =>
    rcases hreason with rfl | rfl
    · exact absurd rfl hhalted
    · exact absurd rfl haborted
  | stopsAtEntry _ hnext => exact Machine.offset_of_atEntry hdepth hnext
  | failsAtEntry _ hnext => exact Machine.offset_of_atEntry hdepth hnext
  | stopsInCallee hcallee => omega
  | failsInCallee hcallee => omega

/-- Without a scan, since the script cannot be loaded, nothing is skipped and nothing is listed. -/
lemma analyzeMethod_of_not_loaded {script : Script} {config : Config} {watchdog : Watchdog}
    {method : Method} {e : LocatedError} {m : Machine}
    (hload : (Machine.create config watchdog 0).loadScript script method.offset = (.error e, m)) :
    (analyzeMethod script config watchdog method).1.newOffset = method.offset ∧
      (analyzeMethod script config watchdog method).1.reads = [] ∧
      (analyzeMethod script config watchdog method).1.writes = [] := by
  have hreport : (analyzeMethod script config watchdog method).1 =
      .ofMachine method m (method.offset, .aborted, some e) := by
    unfold analyzeMethod
    rw [hload]
  have haccesses : m.state.accesses = .empty := by
    rw [Machine.loadScript_error hload]
    rfl
  rw [hreport]
  refine ⟨rfl, ?_, ?_⟩
  · change m.state.accesses.readSet = []
    rw [haccesses]
    rfl
  · change m.state.accesses.writeSet = []
    rw [haccesses]
    rfl

/-- If the script can be loaded, the report is on the machine that the scan leaves. -/
lemma analyzeMethod_of_loaded {script : Script} {config : Config} {watchdog : Watchdog}
    {method : Method} {m : Machine}
    (hload : (Machine.create config watchdog 0).loadScript script method.offset = (.ok (), m)) :
    (analyzeMethod script config watchdog method).1 =
      .ofMachine method (m.run (Scan.predicate method.offset config.followCalls) .start).machine
        ((m.run (Scan.predicate method.offset config.followCalls) .start).placement
          method.offset) := by
  unfold analyzeMethod
  rw [hload]

/-- The report on a method lists, in order and without repetition, the locations that the scan reads
before it writes them, and those that it writes.  The turns skipped by the new offset are the first
ones of the scan.  What the report lists is what they access exactly if each access of the remaining
turns is to a location that they access as well, and that they write if it is a write.  No turn
remains if the scan ends in the entry frame and finds a reason to move the entry there.  Without a
scan, since the script cannot be loaded, nothing is listed and nothing is skipped. -/
theorem analyzeMethod_lists_skipped_iff (script : Script) (config : Config) (watchdog : Watchdog)
    (method : Method) :
    let report := (analyzeMethod script config watchdog method).1
    let scans := Scan.predicate method.offset config.followCalls
    (∀ e m, (Machine.create config watchdog 0).loadScript script method.offset = (.error e, m) →
      report.newOffset = method.offset ∧ report.reads = [] ∧ report.writes = []) ∧
    ∀ m, (Machine.create config watchdog 0).loadScript script method.offset = (.ok (), m) →
      (∃ count scan m', m.TurnsIn scans .start count scan m' ∧
        m'.Ends scans scan (m.run scans .start)) ∧
      ∀ count scan m', m.TurnsIn scans .start count scan m' →
        m'.Ends scans scan (m.run scans .start) →
        Lists report.reads report.writes (m.trace count) ∧
        m.trace count = m.skippedTrace method.offset report.newOffset count ++
          m.remainingTrace method.offset report.newOffset count ∧
        (Lists report.reads report.writes (m.skippedTrace method.offset report.newOffset count) ↔
          ∀ e ∈ m.remainingTrace method.offset report.newOffset count,
            ∃ e' ∈ m.skippedTrace method.offset report.newOffset count,
              e'.location = e.location ∧ (e.mode = .write → e'.mode = .write)) ∧
        (m'.state.depth ≤ 1 → report.reason ≠ .halted → report.reason ≠ .aborted →
          report.newOffset < maxOffset →
            m.remainingTrace method.offset report.newOffset count = []) := by
  intro report scans
  refine ⟨fun e m hload => analyzeMethod_of_not_loaded hload, fun m hload => ?_⟩
  have hreport : report = _ := analyzeMethod_of_loaded hload
  obtain ⟨rfl, -, hmax, -⟩ := Machine.loadScript_ok hload
  constructor
  · obtain ⟨count, scan, m', -, hturns, hends⟩ := Machine.run_ends scans .start
      (Machine.loaded script config watchdog 0 method.offset)
    exact ⟨count, scan, m', hturns, hends⟩
  intro count scan m' hturns hends
  have hstart : Scan.OnPath script config method.offset .start
      (Machine.loaded script config watchdog 0 method.offset) :=
    ⟨Machine.loaded_scanning script config watchdog 0 method.offset, rfl, .atEntry .here⟩
  have hpath := hstart.turnsIn hturns
  obtain ⟨hwalks, hscanning, rfl⟩ :=
    Scan.walks_of_turns hstart.scanning (Nat.le_refl 1) hmax hturns
  have htrace := hwalks.trace_eq report.newOffset
  have hlists : Lists report.reads report.writes
      ((Machine.loaded script config watchdog 0 method.offset).trace count) := by
    have hrecorded := AccessTracker.lists_recordAll
      ((Machine.loaded script config watchdog 0 method.offset).trace count)
    rw [← hscanning.accesses_of_ends hends] at hrecorded
    rw [hreport]
    exact hrecorded
  refine ⟨hlists, htrace, ?_, fun hdepth hhalted haborted hbounded => ?_⟩
  · rw [htrace] at hlists
    exact hlists.front_iff
  · rw [hreport] at hhalted haborted hbounded ⊢
    have hmoved := (hpath.concludes hends).eq_entryPosition hdepth hhalted haborted
    change _ < maxOffset at hbounded
    unfold Machine.remainingTrace Machine.traceOf
    rw [List.filter_eq_nil_iff.2 ?_, List.filterMap_nil]
    intro k hk
    have hskips := hwalks.skips_of_atEntry hdepth (hmoved ▸ hbounded) (List.mem_range.1 hk)
    rw [← hmoved] at hskips
    rw [decide_eq_true_eq, not_not]
    exact hskips

/-- A script that loads an argument, drops it and loads a static field. -/
def readingScript : Script := ⟨[0x78, 0x45, 0x58]⟩

/-- The machine that has loaded the script. -/
def readingMachine : Machine :=
  .loaded readingScript {} .lazy 0 0

/-- The scan stops in front of the static field, and what it has read is skipped. -/
theorem analyzeMethod_lists_skipped_readingScript :
    (Machine.create {} .lazy 0).loadScript readingScript 0 = (.ok (), readingMachine) ∧
      (analyzeMethod readingScript {} .lazy (.ofName "main" 0)).1.newOffset = 2 ∧
      readingMachine.remainingTrace 0 2 2 = [] ∧
      Lists (analyzeMethod readingScript {} .lazy (.ofName "main" 0)).1.reads
        (analyzeMethod readingScript {} .lazy (.ofName "main" 0)).1.writes
        (readingMachine.skippedTrace 0 2 2) := by
  have hload : (Machine.create {} .lazy 0).loadScript readingScript 0 = (.ok (), readingMachine) :=
    rfl
  have hfirst : readingMachine.Turn (Scan.predicate 0 false) .start .start (readingMachine.after 1)
      ⟨0, .ldArg0, []⟩ := ⟨nofun, rfl, rfl, rfl⟩
  have hsecond : (readingMachine.after 1).Turn (Scan.predicate 0 false) .start .start
      (readingMachine.after 2) ⟨1, .drop, []⟩ := ⟨nofun, rfl, rfl, rfl⟩
  have hstops : (readingMachine.after 2).Ends (Scan.predicate 0 false) .start
      ⟨.ok (.stopped ⟨2, .ldSFld0, []⟩), readingMachine.after 2, ⟨none, some (2, .effectful)⟩⟩ :=
    .stopped nofun rfl rfl
  have hrun := (hfirst.run_eq.trans hsecond.run_eq).trans hstops.run_eq
  have hends := hstops
  rw [← hrun] at hends
  have hreport : (analyzeMethod readingScript {} .lazy (.ofName "main" 0)).1 =
      .ofMachine (.ofName "main" 0) (readingMachine.after 2) (2, .effectful, none) := by
    change MethodReport.ofMachine (.ofName "main" 0)
      (readingMachine.run (Scan.predicate 0 false) .start).machine
      ((readingMachine.run (Scan.predicate 0 false) .start).placement 0) = _
    rw [hrun]
    rfl
  have hlists := ((analyzeMethod_lists_skipped_iff readingScript {} .lazy (.ofName "main" 0)).2
    readingMachine hload).2 2 .start (readingMachine.after 2) (.more (.more .none hfirst) hsecond)
    hends
  rw [hreport] at hlists ⊢
  obtain ⟨-, -, hskipped, hremains⟩ := hlists
  have hnone := hremains (Nat.le_refl 1) nofun nofun (by decide)
  refine ⟨hload, rfl, hnone, hskipped.2 ?_⟩
  rw [hnone]
  exact nofun

/-- Nothing is skipped by an entry that stays where it is. -/
lemma Machine.skippedTrace_self (m : Machine) (entry count : Nat) :
    m.skippedTrace entry entry count = [] := by
  have hnone : ∀ k ∈ List.range count, ¬m.Skips entry entry count k := by
    rintro k - ⟨c, -, ⟨-, hnext⟩, -⟩
    unfold nextWithin at hnext
    split at hnext
    · simp only [Bool.and_eq_true, decide_eq_true_eq] at hnext
      omega
    · cases hnext
  unfold skippedTrace traceOf
  rw [List.filter_eq_nil_iff.2 (by simpa using hnone), List.filterMap_nil]

/-- A script that loads an argument and returns. -/
def returningScript : Script := ⟨[0x78, 0x40]⟩

/-- The entry of the method stays where it is, since the method halts, and the report lists the
argument all the same, although nothing is skipped. -/
theorem analyzeMethod_lists_unskipped :
    (analyzeMethod returningScript {} .lazy (.ofName "main" 0)).1.newOffset = 0 ∧
      (analyzeMethod returningScript {} .lazy (.ofName "main" 0)).1.reads = [.slot .argument 0] ∧
      ∀ count, (Machine.loaded returningScript {} .lazy 0 0).skippedTrace 0 0 count = [] := by
  have hfirst : (Machine.loaded returningScript {} .lazy 0 0).Turn (Scan.predicate 0 false) .start
      .start ((Machine.loaded returningScript {} .lazy 0 0).after 1) ⟨0, .ldArg0, []⟩ :=
    ⟨nofun, rfl, rfl, rfl⟩
  have hstops : ((Machine.loaded returningScript {} .lazy 0 0).after 1).Ends (Scan.predicate 0 false)
      .start ⟨.ok (.stopped ⟨1, .ret, []⟩), (Machine.loaded returningScript {} .lazy 0 0).after 1,
        ⟨none, some (0, .halted)⟩⟩ :=
    .stopped nofun rfl rfl
  have hreport : (analyzeMethod returningScript {} .lazy (.ofName "main" 0)).1 =
      .ofMachine (.ofName "main" 0) ((Machine.loaded returningScript {} .lazy 0 0).after 1)
        (0, .halted, none) := by
    change MethodReport.ofMachine (.ofName "main" 0)
      ((Machine.loaded returningScript {} .lazy 0 0).run (Scan.predicate 0 false) .start).machine
      (((Machine.loaded returningScript {} .lazy 0 0).run (Scan.predicate 0 false) .start).placement
        0) = _
    rw [hfirst.run_eq.trans hstops.run_eq]
    rfl
  rw [hreport]
  exact ⟨rfl, rfl, Machine.skippedTrace_self _ 0⟩

end SymbolicScript
