import AdCoder.ProjectStore.Journal
import Mathlib.Data.List.Nodup

/-!
# What is committed is a contiguous prefix

The committed ranges follow each other from the initial next sequence to the
state's next one. Between two calls no entry waits for that number: the loop
that drains the entries leaves none.
-/

namespace AdCoder.ProjectStore

open AdCoder.Foundation

/-! ## Contiguous ranges -/

/-- The ranges follow each other without a gap from one number up to another. -/
def Contiguous (first : Nat) : List SequenceRange → Nat → Prop
  | [], next => first = next
  | range :: rest, next => range.first = first ∧ Contiguous (range.last + 1) rest next

variable {first next n : Nat} {ranges : List SequenceRange} {range : SequenceRange}

theorem Contiguous.concat (h : Contiguous first ranges range.first) :
    Contiguous first (ranges ++ [range]) (range.last + 1) := by
  induction ranges generalizing first with
  | nil => exact ⟨h.symm, rfl⟩
  | cons other rest ih => exact ⟨h.1, ih h.2⟩

theorem Contiguous.le (h : Contiguous first ranges next) : first ≤ next := by
  induction ranges generalizing first with
  | nil => exact Nat.le_of_eq h
  | cons range rest ih =>
      have start := h.1
      have ordered := range.ordered
      have later := ih h.2
      omega

/-- The numbers passed are those of the ranges. -/
theorem Contiguous.covers (h : Contiguous first ranges next) :
    (first ≤ n ∧ n < next) ↔ ∃ range ∈ ranges, range.first ≤ n ∧ n ≤ range.last := by
  induction ranges generalizing first with
  | nil =>
      have same : first = next := h
      simp only [List.not_mem_nil, false_and, exists_false, iff_false]
      omega
  | cons range rest ih =>
      have start := h.1
      have ordered := range.ordered
      have later := h.2.le
      have tail := ih h.2
      rw [List.exists_mem_cons_iff, ← tail]
      omega

theorem Contiguous.increasing (h : Contiguous first ranges next) :
    ranges.Pairwise fun a b => a.last < b.first := by
  induction ranges generalizing first with
  | nil => exact .nil
  | cons range rest ih =>
      refine .cons ?_ (ih h.2)
      intro other member
      have reached := (h.2.covers (n := other.first)).mpr ⟨other, member, Nat.le_refl _, other.ordered⟩
      omega

/-! ## The entries of a journal -/

variable {format : NumberFormat} {file : Option (List Char)} {journal : Journal}
  {state : OrderedAppendState} {entry : OrderedAppend} {outcome : WriteOutcome}
  {settlement : Settlement} {call : Nat}

/-- The first number that a journal of this file commits. -/
def initialNext (format : NumberFormat) (file : Option (List Char)) : Nat :=
  (lastCommittedSequence format file).getD 0 + 1

def Overlaps (a b : SequenceRange) : Prop := a.first ≤ b.last ∧ b.first ≤ a.last

/-- A call that never came to wait: its number was passed, another call has taken it, or the
journal could not be read. -/
def Refused (initial : Nat) (journal : Journal) (entry : OrderedAppend) : Prop :=
  entry.sequence.first < initial ∨
    (∃ other ∈ journal.calls, other.call ≠ entry.call ∧ Overlaps entry.sequence other.sequence) ∨
    (entry.call, Settlement.rejected) ∈ journal.settled

/-- What holds of a journal and the entry it has in `orderedAppends`, also in the middle of a
flush. -/
structure Sound (file : Option (List Char)) (initial : Nat) (state : OrderedAppendState)
    (journal : Journal) : Prop where
  contiguous : Contiguous initial (journal.committed.map (·.sequence)) state.nextSequence
  numbered : journal.calls.map (·.call) = List.range journal.calls.length
  once : (state.pending ++ journal.writes.map (·.entry)).Nodup
  keys : (state.pending.map (·.sequence.first)).Nodup
  known : ∀ entry ∈ state.pending ++ journal.writes.map (·.entry), entry ∈ journal.calls
  traced : ∀ entry ∈ journal.calls, entry ∈ state.pending ++ journal.writes.map (·.entry) ∨
    Refused initial journal entry
  settled : ∀ ending ∈ journal.settled, ending.1 < journal.calls.length
  text : journal.file.getD [] = file.getD [] ++ journal.writes.flatMap Write.text

theorem Sound.call_lt {initial : Nat} (h : Sound file initial state journal)
    (member : entry ∈ journal.calls) : entry.call < journal.calls.length := by
  have number : entry.call ∈ journal.calls.map (·.call) := List.mem_map_of_mem member
  rw [h.numbered] at number
  exact List.mem_range.mp number

theorem Journal.mem_settle_of_mem {other : Nat × Settlement} (h : other ∈ journal.settled) :
    other ∈ (journal.settle call settlement).settled := by
  unfold Journal.settle
  split
  · exact h
  · exact List.mem_append_left _ h

theorem Journal.settle_eq (journal : Journal) (call : Nat) (settlement : Settlement) :
    ∃ settled, journal.settle call settlement = { journal with settled := settled } ∧
      ∀ ending ∈ settled, ending ∈ journal.settled ∨ ending.1 = call := by
  unfold Journal.settle
  split
  · exact ⟨_, rfl, fun ending member => .inl member⟩
  · refine ⟨_, rfl, fun ending member => ?_⟩
    rcases List.mem_append.mp member with before | here
    · exact .inl before
    · exact .inr (congrArg Prod.fst (List.mem_singleton.mp here))

theorem Sound.settle {initial : Nat} (h : Sound file initial state journal)
    (known : call < journal.calls.length) (settlement : Settlement) :
    Sound file initial state (journal.settle call settlement) := by
  have kept : ∀ {other}, other ∈ journal.settled →
      other ∈ (journal.settle call settlement).settled := Journal.mem_settle_of_mem
  obtain ⟨settled, same, from'⟩ := journal.settle_eq call settlement
  rw [same] at kept ⊢
  refine ⟨h.contiguous, h.numbered, h.once, h.keys, h.known, ?_, ?_, h.text⟩
  rotate_left
  · intro ending member
    rcases from' ending member with before | here
    · exact h.settled ending before
    · exact here ▸ known
  intro entry member
  rcases h.traced entry member with waits | passed | taken | rejected
  · exact .inl waits
  · exact .inr (.inl passed)
  · exact .inr (.inr (.inl taken))
  · exact .inr (.inr (.inr (kept rejected)))

/-- The entry in `orderedAppends` is none of the journal's history. -/
theorem Sound.reopen {initial : Nat} (h : Sound file initial state journal)
    (opened : Option OrderedAppendState) :
    Sound file initial state { journal with opened := opened } :=
  ⟨h.contiguous, h.numbered, h.once, h.keys, h.known, h.traced, h.settled, h.text⟩

/-! ## One round of the flush -/

theorem get_eq_some (h : state.get n = some entry) :
    entry ∈ state.pending ∧ entry.sequence.first = n := by
  have found := List.find?_some h
  exact ⟨List.mem_of_find?_eq_some h, by simpa using found⟩

theorem mem_delete {other : OrderedAppend} :
    other ∈ (state.delete n).pending ↔ other ∈ state.pending ∧ other.sequence.first ≠ n := by
  simp [OrderedAppendState.delete]

theorem committed_write : (journal.write entry outcome).committed =
    journal.committed ++ if outcome = .written then [entry] else [] := by
  cases outcome with
  | written => simp [Journal.committed, Journal.write]
  | failed kept => simp [Journal.committed, Journal.write]
  | thrown => simp [Journal.committed, Journal.write]

theorem file_write : (journal.write entry outcome).file.getD [] =
    journal.file.getD [] ++ Write.text ⟨entry, outcome⟩ := by
  cases outcome with
  | written => simp [Journal.write]
  | failed kept => simp [Journal.write]
  | thrown => simp [Journal.write, Write.text]

/-- Where the loop goes on after a write. -/
def afterWrite (state : OrderedAppendState) (entry : OrderedAppend) (outcome : WriteOutcome) :
    OrderedAppendState :=
  { state.delete state.nextSequence with
    nextSequence := if outcome = .written then entry.sequence.last + 1 else state.nextSequence }

theorem Sound.write {initial : Nat} (h : Sound file initial state journal)
    (found : state.get state.nextSequence = some entry) (outcome : WriteOutcome) :
    Sound file initial (afterWrite state entry outcome) (journal.write entry outcome) := by
  obtain ⟨waits, turn⟩ := get_eq_some found
  have members : ∀ {other}, other ∈ (afterWrite state entry outcome).pending ↔
      other ∈ state.pending ∧ other.sequence.first ≠ state.nextSequence := mem_delete
  have writes : (journal.write entry outcome).writes.map (·.entry) =
      journal.writes.map (·.entry) ++ [entry] := by
    simp [Journal.write]
  have apart := List.nodup_append.mp h.once
  refine ⟨?_, h.numbered, ?_, ?_, ?_, ?_, h.settled, ?_⟩
  · rw [committed_write, List.map_append]
    by_cases whole : outcome = .written
    · simp only [afterWrite, whole, if_true]
      exact Contiguous.concat (turn ▸ h.contiguous)
    · simp only [afterWrite, whole, if_false, List.map_nil, List.append_nil]
      exact h.contiguous
  · rw [writes]
    apply List.nodup_append.mpr
    refine ⟨apart.1.filter _, ?_, ?_⟩
    · apply List.nodup_append.mpr
      refine ⟨apart.2.1, List.nodup_singleton _, ?_⟩
      intro other member last lastMember same
      rw [List.mem_singleton.mp lastMember] at same
      exact apart.2.2 entry waits other member same.symm
    · intro other member last lastMember same
      obtain ⟨pending, key⟩ := members.mp member
      rcases List.mem_append.mp lastMember with tried | here
      · exact apart.2.2 other pending last tried same
      · rw [same, List.mem_singleton.mp here] at key
        exact key turn
  · exact h.keys.sublist (List.filter_sublist.map _)
  · rw [writes]
    intro other member
    rcases List.mem_append.mp member with pending | tried
    · exact h.known other (List.mem_append_left _ (members.mp pending).1)
    · rcases List.mem_append.mp tried with before | here
      · exact h.known other (List.mem_append_right _ before)
      · rw [List.mem_singleton.mp here]
        exact h.known entry (List.mem_append_left _ waits)
  · rw [writes]
    intro other member
    rcases h.traced other member with known | refused
    · left
      rcases List.mem_append.mp known with pending | tried
      · by_cases key : other.sequence.first = state.nextSequence
        · have same : other = entry :=
            List.inj_on_of_nodup_map h.keys pending waits (key.trans turn.symm)
          simp [same]
        · exact List.mem_append_left _ (members.mpr ⟨pending, key⟩)
      · exact List.mem_append_right _ (List.mem_append_left _ tried)
    · exact .inr refused
  · rw [file_write, h.text]
    simp [Journal.write]

/-- A flush with fuel for its entries keeps the journal sound and leaves no entry whose turn it
is. -/
theorem flushTransactions_sound {initial : Nat} (outcomes : OrderedAppend → WriteOutcome)
    (fuel : Nat) (h : Sound file initial state journal) (known : call < journal.calls.length)
    (enough : state.pending.length < fuel) :
    ∃ later, (journal.flushTransactions outcomes call fuel state).opened = some later ∧
      Sound file initial later (journal.flushTransactions outcomes call fuel state) ∧
      later.get later.nextSequence = none := by
  induction fuel generalizing state journal with
  | zero => cases enough
  | succ fuel ih =>
      simp only [Journal.flushTransactions]
      cases found : state.get state.nextSequence with
      | none => exact ⟨state, rfl, h.reopen _, found⟩
      | some entry =>
          have written := h.write found (outcomes entry)
          obtain ⟨waits, turn⟩ := get_eq_some found
          have caller : entry.call < journal.calls.length :=
            h.call_lt (h.known entry (List.mem_append_left _ waits))
          have gone : (state.delete state.nextSequence).get state.nextSequence = none := by
            simp [OrderedAppendState.get, OrderedAppendState.delete]
          cases outcome : outcomes entry with
          | written =>
              rw [outcome] at written
              simp only [outcome]
              have settled := written.settle caller .ok
              obtain ⟨ended, same, -⟩ :=
                (journal.write entry .written).settle_eq entry.call .ok
              apply ih settled (by rw [same]; exact known)
              have shorter : (state.delete state.nextSequence).pending.length <
                  state.pending.length :=
                List.length_filter_lt_length_iff_exists.mpr ⟨entry, waits, by simp [turn]⟩
              exact Nat.lt_of_lt_of_le shorter (Nat.lt_succ_iff.mp enough)
          | failed kept =>
              rw [outcome] at written
              simp only [outcome]
              exact ⟨_, rfl, (written.settle caller .failed).reopen _, gone⟩
          | thrown =>
              rw [outcome] at written
              simp only [outcome]
              exact ⟨_, rfl, (written.settle known .rejected).reopen _, gone⟩

/-! ## One call -/

/-- The journal in which a call has been made. -/
def Journal.called (journal : Journal) (entry : OrderedAppend) : Journal :=
  { journal with calls := journal.calls ++ [entry] }

theorem Refused.called {initial : Nat} {other : OrderedAppend}
    (h : Refused initial journal entry) : Refused initial (journal.called other) entry := by
  rcases h with passed | ⟨another, member, apart, overlaps⟩ | rejected
  · exact .inl passed
  · exact .inr (.inl ⟨another, List.mem_append_left _ member, apart, overlaps⟩)
  · exact .inr (.inr rejected)

theorem Refused.settle {initial : Nat} (h : Refused initial journal entry) :
    Refused initial (journal.settle call settlement) entry := by
  have kept : ∀ {other}, other ∈ journal.settled →
      other ∈ (journal.settle call settlement).settled := Journal.mem_settle_of_mem
  obtain ⟨settled, same, -⟩ := journal.settle_eq call settlement
  rw [same] at kept ⊢
  rcases h with passed | taken | rejected
  · exact .inl passed
  · exact .inr (.inl taken)
  · exact .inr (.inr (kept rejected))

section Call

variable {initial : Nat} (entry) (h : Sound file initial state journal)
  (fresh : entry.call = journal.calls.length)
include h fresh

theorem Sound.numbered_called :
    (journal.called entry).calls.map (·.call) = List.range (journal.called entry).calls.length := by
  rw [Journal.called, List.map_append, h.numbered, List.length_append, List.length_singleton,
    List.range_succ, List.map_singleton, fresh]

theorem Sound.fresh_notMem {other : OrderedAppend} (member : other ∈ journal.calls) :
    other.call ≠ entry.call := by
  have below := h.call_lt member
  omega

/-- A call that is refused changes no entry. -/
theorem Sound.refuse (settlement : Settlement)
    (refused : Refused initial ((journal.called entry).settle entry.call settlement) entry) :
    Sound file initial state ((journal.called entry).settle entry.call settlement) := by
  have kept : ∀ {other}, other ∈ (journal.called entry).settled →
      other ∈ ((journal.called entry).settle entry.call settlement).settled :=
    Journal.mem_settle_of_mem
  obtain ⟨settled, same, from'⟩ := (journal.called entry).settle_eq entry.call settlement
  rw [same] at kept refused ⊢
  refine ⟨h.contiguous, h.numbered_called entry fresh, h.once, h.keys, ?_, ?_, ?_, h.text⟩
  · intro other member
    exact List.mem_append_left _ (h.known other member)
  · intro other member
    rcases List.mem_append.mp member with before | here
    · rcases h.traced other before with waits | passed | ⟨another, taken⟩ | rejected
      · exact .inl waits
      · exact .inr (.inl passed)
      · exact .inr (.inr (.inl ⟨another, List.mem_append_left _ taken.1, taken.2⟩))
      · exact .inr (.inr (.inr (kept rejected)))
    · rw [List.mem_singleton.mp here]
      exact .inr refused
  · intro ending member
    have grown : (journal.called entry).calls.length = journal.calls.length + 1 := by
      simp [Journal.called]
    show ending.1 < (journal.called entry).calls.length
    rcases from' ending member with before | here
    · have below := h.settled ending before
      omega
    · omega

/-- A call whose number is free comes to wait. -/
theorem Sound.park (free : state.get entry.sequence.first = none) :
    Sound file initial (state.set entry) (journal.called entry) := by
  have unknown : ∀ other ∈ state.pending ++ journal.writes.map (·.entry), other ≠ entry := by
    intro other member same
    exact h.fresh_notMem entry fresh (h.known other member) (congrArg OrderedAppend.call same)
  have apart := List.nodup_append.mp h.once
  refine ⟨h.contiguous, h.numbered_called entry fresh, ?_, ?_, ?_, ?_, ?_, h.text⟩
  · apply List.nodup_append.mpr
    refine ⟨?_, apart.2.1, ?_⟩
    · apply List.nodup_append.mpr
      refine ⟨apart.1, List.nodup_singleton _, ?_⟩
      intro other member last lastMember same
      rw [List.mem_singleton.mp lastMember] at same
      exact unknown other (List.mem_append_left _ member) same
    · intro other member last lastMember same
      rcases List.mem_append.mp member with pending | here
      · exact apart.2.2 other pending last lastMember same
      · rw [List.mem_singleton.mp here] at same
        exact unknown last (List.mem_append_right _ lastMember) same.symm
  · rw [OrderedAppendState.set, List.map_append]
    apply List.nodup_append.mpr
    refine ⟨h.keys, List.nodup_singleton _, ?_⟩
    intro key member last lastMember same
    obtain ⟨other, pending, rfl⟩ := List.mem_map.mp member
    rw [List.map_singleton, List.mem_singleton] at lastMember
    have none' := List.find?_eq_none.mp free other pending
    simp [same.trans lastMember] at none'
  · intro other member
    rcases List.mem_append.mp member with waits | tried
    · rcases List.mem_append.mp waits with pending | here
      · exact List.mem_append_left _ (h.known other (List.mem_append_left _ pending))
      · exact List.mem_append_right _ here
    · exact List.mem_append_left _ (h.known other (List.mem_append_right _ tried))
  · intro other member
    rcases List.mem_append.mp member with before | here
    · rcases h.traced other before with known | refused
      · left
        rcases List.mem_append.mp known with pending | tried
        · exact List.mem_append_left _ (List.mem_append_left _ pending)
        · exact List.mem_append_right _ tried
      · exact .inr refused.called
    · exact .inl (List.mem_append_left _ (List.mem_append_right _ here))
  · intro ending member
    have below := h.settled ending member
    simp only [Journal.called, List.length_append, List.length_singleton]
    omega

/-- A number that was passed is below the first one or taken by a committed call. -/
theorem Sound.refused_of_lt (passed : entry.sequence.first < state.nextSequence) :
    Refused initial (journal.called entry) entry := by
  by_cases early : entry.sequence.first < initial
  · exact .inl early
  · obtain ⟨range, member, lower, upper⟩ :=
      h.contiguous.covers.mp ⟨Nat.not_lt.mp early, passed⟩
    obtain ⟨other, committed, rfl⟩ := List.mem_map.mp member
    obtain ⟨write, tried, rfl⟩ := List.mem_map.mp committed
    have known : write.entry ∈ journal.calls := h.known write.entry
      (List.mem_append_right _ (List.mem_map_of_mem (List.mem_of_mem_filter tried)))
    have ordered := entry.sequence.ordered
    exact .inr (.inl ⟨write.entry, List.mem_append_left _ known, h.fresh_notMem entry fresh known,
      upper, Nat.le_trans lower ordered⟩)

theorem Sound.refused_of_pending {other : OrderedAppend}
    (taken : state.get entry.sequence.first = some other) :
    Refused initial (journal.called entry) entry := by
  obtain ⟨pending, key⟩ := get_eq_some taken
  have known := h.known other (List.mem_append_left _ pending)
  have ordered := entry.sequence.ordered
  have ordered' := other.sequence.ordered
  refine .inr (.inl ⟨other, List.mem_append_left _ known, h.fresh_notMem entry fresh known, ?_⟩)
  constructor
  · omega
  · omega

end Call

/-! ## Every order of arrivals -/

/-- The entry in `orderedAppends`, or the one that the next call makes. -/
def Journal.ordered (journal : Journal) (initial : Nat) : OrderedAppendState :=
  journal.opened.getD ⟨initial, []⟩

theorem Journal.ordered_of_opened {later : OrderedAppendState} (initial : Nat)
    (h : journal.opened = some later) : journal.ordered initial = later := by
  rw [Journal.ordered, h]
  rfl

/-- What holds between two calls. -/
structure Between (format : NumberFormat) (file : Option (List Char)) (journal : Journal) :
    Prop where
  sound : Sound file (initialNext format file) (journal.ordered (initialNext format file)) journal
  drained : (journal.ordered (initialNext format file)).get
    (journal.ordered (initialNext format file)).nextSequence = none
  unopened : journal.opened = none → journal.file = file

theorem between_start : Between format file (Journal.start file) where
  sound := ⟨rfl, rfl, .nil, .nil, by simp [Journal.start, Journal.ordered],
    by simp [Journal.start], by simp [Journal.start], by simp [Journal.start]⟩
  drained := rfl
  unopened _ := rfl

theorem Between.opened {later : OrderedAppendState}
    (sound : Sound file (initialNext format file) later journal)
    (drained : later.get later.nextSequence = none) :
    Between format file { journal with opened := some later } :=
  ⟨sound.reopen _, drained, fun none' => by cases none'⟩

theorem Between.appendTransaction (h : Between format file journal) (answers : Journal.Answers)
    (content : List Char) (sequence : SequenceRange) :
    Between format file (journal.appendTransaction format answers content sequence) := by
  have same : journal.opened.getD ⟨(lastCommittedSequence format journal.file).getD 0 + 1, []⟩ =
      journal.ordered (initialNext format file) := by
    cases opened : journal.opened with
    | none => simp [Journal.ordered, initialNext, opened, h.unopened opened]
    | some state => simp [Journal.ordered, opened]
  have caller : journal.calls.length <
      (journal.called ⟨journal.calls.length, content, sequence⟩).calls.length := by
    simp [Journal.called]
  simp only [Journal.appendTransaction]
  split
  · next failed =>
      -- The journal could not be read: the call is rejected and nothing is opened.
      have refused : (journal.calls.length, Settlement.rejected) ∈
          ((journal.called ⟨journal.calls.length, content, sequence⟩).settle
            journal.calls.length .rejected).settled := by
        have unsettled : ¬ ∃ ending ∈ journal.settled, ending.1 = journal.calls.length := by
          rintro ⟨ending, member, here⟩
          have below := h.sound.settled ending member
          omega
        simp [Journal.settle, Journal.called, unsettled]
      have sound := h.sound.refuse ⟨journal.calls.length, content, sequence⟩ rfl .rejected
        (.inr (.inr refused))
      obtain ⟨settled, same, -⟩ :=
        (journal.called ⟨journal.calls.length, content, sequence⟩).settle_eq
          journal.calls.length .rejected
      have untouched : ((journal.called ⟨journal.calls.length, content, sequence⟩).settle
          journal.calls.length .rejected).ordered (initialNext format file) =
          journal.ordered (initialNext format file) := by
        rw [same]
        rfl
      constructor
      · exact untouched.symm ▸ sound
      · exact untouched.symm ▸ h.drained
      · intro _
        have file' := congrArg Journal.file same
        exact file'.trans (h.unopened failed.1)
  · next readable =>
      rw [same]
      split
      · next passed =>
          have refused := h.sound.refused_of_lt ⟨journal.calls.length, content, sequence⟩ rfl passed
          exact Between.opened (h.sound.refuse _ rfl .alreadyCommitted refused.settle) h.drained
      · split
        · next passed taken =>
            obtain ⟨other, taken⟩ := Option.isSome_iff_exists.mp taken
            have refused := h.sound.refused_of_pending ⟨journal.calls.length, content, sequence⟩ rfl
              taken
            exact Between.opened (h.sound.refuse _ rfl .alreadyPending refused.settle) h.drained
        · next passed free =>
            have parked := h.sound.park ⟨journal.calls.length, content, sequence⟩ rfl
              (by simpa using free)
            obtain ⟨later, opened, sound, drained⟩ :=
              flushTransactions_sound answers.outcomes
                ((journal.ordered (initialNext format file)).pending.length + 2) parked caller
                (by simp [OrderedAppendState.set])
            have state := Journal.ordered_of_opened (initialNext format file) opened
            constructor
            · exact state.symm ▸ sound
            · exact state.symm ▸ drained
            · intro unopened
              exact absurd (opened.symm.trans unopened) (by simp)

theorem between_run (h : Between format file journal) (arrivals : List Journal.Arrival) :
    Between format file (journal.run format arrivals) := by
  induction arrivals generalizing journal with
  | nil => exact h
  | cons arrival rest ih => exact ih (h.appendTransaction _ _ _)

/-! ## The calls of a run -/

theorem settle_calls : (journal.settle call settlement).calls = journal.calls := by
  obtain ⟨settled, same, -⟩ := journal.settle_eq call settlement
  rw [same]

theorem flushTransactions_calls {outcomes : OrderedAppend → WriteOutcome} (fuel : Nat)
    (state : OrderedAppendState) (journal : Journal) :
    (journal.flushTransactions outcomes call fuel state).calls = journal.calls := by
  induction fuel generalizing state journal with
  | zero => rfl
  | succ fuel ih =>
      simp only [Journal.flushTransactions]
      split
      · rfl
      · next entry found =>
          split
          · exact settle_calls
          · exact settle_calls
          · rw [ih, settle_calls]
            rfl

theorem appendTransaction_calls (journal : Journal) (answers : Journal.Answers)
    (content : List Char) (sequence : SequenceRange) :
    (journal.appendTransaction format answers content sequence).calls =
      journal.calls ++ [⟨journal.calls.length, content, sequence⟩] := by
  simp only [Journal.appendTransaction]
  split
  · exact settle_calls
  · split
    · exact settle_calls
    · split
      · exact settle_calls
      · exact flushTransactions_calls _ _ _

/-- The calls of a run are its arrivals, numbered in their order. -/
theorem run_calls (journal : Journal) (arrivals : List Journal.Arrival) :
    (journal.run format arrivals).calls = journal.calls ++ arrivals.mapIdx fun index arrival =>
      ⟨journal.calls.length + index, arrival.content, arrival.sequence⟩ := by
  induction arrivals generalizing journal with
  | nil => simp [Journal.run]
  | cons arrival rest ih =>
      rw [Journal.run, List.foldl_cons, ← Journal.run, ih, appendTransaction_calls]
      simp [List.mapIdx_cons, Nat.add_assoc, Nat.add_comm 1]

/-! ## The journal -/

/-- Every number from the first one up to the transaction is that of a committed one. -/
def PredecessorsCommitted (initial : Nat) (journal : Journal) (entry : OrderedAppend) : Prop :=
  ∀ n, initial ≤ n → n < entry.sequence.first →
    ∃ other ∈ journal.committed, other.sequence.first ≤ n ∧ n ≤ other.sequence.last

def DisjointFromOthers (journal : Journal) (entry : OrderedAppend) : Prop :=
  ∀ other ∈ journal.calls, other.call ≠ entry.call → ¬ Overlaps entry.sequence other.sequence

theorem Between.committed (h : Between format file journal) (member : entry ∈ journal.calls)
    (apart : DisjointFromOthers journal entry)
    (late : initialNext format file ≤ entry.sequence.first)
    (predecessors : PredecessorsCommitted (initialNext format file) journal entry) :
    entry ∈ journal.committed ∨
      (∃ write ∈ journal.writes, write.entry = entry ∧ write.outcome ≠ .written) ∨
      (entry.call, Settlement.rejected) ∈ journal.settled := by
  have sound := h.sound
  rcases sound.traced entry member with known | passed | ⟨other, known, distinct, overlaps⟩ |
    rejected
  · rcases List.mem_append.mp known with waits | tried
    · -- An entry that waits is past the committed ones, so its turn has come.
      exfalso
      have reached : (journal.ordered (initialNext format file)).nextSequence ≤
          entry.sequence.first := by
        by_contra passed
        obtain ⟨range, committed, lower, upper⟩ :=
          sound.contiguous.covers.mp ⟨late, Nat.not_le.mp passed⟩
        obtain ⟨other, chosen, rfl⟩ := List.mem_map.mp committed
        obtain ⟨write, tried, rfl⟩ := List.mem_map.mp chosen
        have tried := List.mem_map_of_mem (f := (·.entry)) (List.mem_of_mem_filter tried)
        have distinct : write.entry.call ≠ entry.call := by
          intro same
          have calls : write.entry = entry := List.inj_on_of_nodup_map
            (by rw [sound.numbered]; exact List.nodup_range)
            (sound.known _ (List.mem_append_right _ tried)) member same
          exact (List.nodup_append.mp sound.once).2.2 entry waits _ tried calls.symm
        have ordered := entry.sequence.ordered
        exact apart write.entry (sound.known _ (List.mem_append_right _ tried)) distinct
          ⟨upper, Nat.le_trans lower ordered⟩
      have turn : entry.sequence.first = (journal.ordered (initialNext format file)).nextSequence := by
        by_contra early
        obtain ⟨other, committed, lower, upper⟩ := predecessors
          (journal.ordered (initialNext format file)).nextSequence sound.contiguous.le (by omega)
        have covered := sound.contiguous.covers.mpr
          ⟨other.sequence, List.mem_map_of_mem committed, lower, upper⟩
        omega
      have none' := List.find?_eq_none.mp h.drained entry waits
      simp [turn] at none'
    · obtain ⟨write, tried, same⟩ := List.mem_map.mp tried
      by_cases whole : write.outcome = .written
      · refine .inl (List.mem_map.mpr ⟨write, List.mem_filter.mpr ⟨tried, ?_⟩, same⟩)
        simpa using whole
      · exact .inr (.inl ⟨write, tried, same, whole⟩)
  · exact absurd passed (Nat.not_lt.mpr late)
  · exact absurd overlaps (apart other known distinct)
  · exact .inr (.inr rejected)

/-- The journal of a file after the calls that arrived. -/
def journalAfter (format : NumberFormat) (file : Option (List Char))
    (arrivals : List Journal.Arrival) : Journal :=
  (Journal.start file).run format arrivals

/-- A host that reads every numeral as NaN. -/
def noNumbers : NumberFormat := ⟨fun _ => .nan, fun _ => ""⟩

theorem one_le_one : 1 ≤ 1 := Nat.le_refl 1

/-- The first transaction of a new journal, whose write fails with nothing kept. -/
def failingArrival : Journal.Arrival :=
  ⟨⟨false, fun _ => .failed 0⟩, [], ⟨1, 1, one_le_one⟩⟩

/-- A call for a number that the journal of a fresh file never gives. -/
def earlyArrival : Journal.Arrival :=
  ⟨⟨false, fun _ => .written⟩, [], ⟨0, 0, Nat.le_refl 0⟩⟩

end AdCoder.ProjectStore
