import AdCoder.ProjectStore.JournalOrder
import Mathlib.Data.List.Induction

/-!
# Appends that are passed over

A parked append is settled when its turn comes. A range that is written may
reach over the number at which another append waits, whose turn then never
comes; and what a write throws settles the call that made it, not the append
that it was for. Where neither happens no append waits for ever.
-/

namespace AdCoder.ProjectStore

open AdCoder.Foundation

variable {format : NumberFormat} {file : Option (List Char)} {journal : Journal}
  {state : OrderedAppendState} {entry : OrderedAppend} {outcomes : OrderedAppend → WriteOutcome}
  {initial call n : Nat}

/-! ## What a call should leave -/

/-- Each call is settled or parked, and nothing that is parked was passed. -/
structure Attended (state : OrderedAppendState) (journal : Journal) : Prop where
  ahead : ∀ entry ∈ state.pending, state.nextSequence ≤ entry.sequence.first
  settled : ∀ entry ∈ journal.calls, entry ∈ state.pending ∨
    ∃ settlement, (entry.call, settlement) ∈ journal.settled

/-- A call that is parked has not been settled. -/
def Unsettled (state : OrderedAppendState) (journal : Journal) : Prop :=
  ∀ entry ∈ state.pending, ∀ settlement, (entry.call, settlement) ∉ journal.settled

/-- The numbers whose turn comes in the flush of what waits. -/
inductive Turn (waiting : List OrderedAppend) (outcomes : OrderedAppend → WriteOutcome)
    (next : Nat) : Nat → Prop
  | now : Turn waiting outcomes next next
  | after {entry : OrderedAppend} (turn : Turn waiting outcomes next entry.sequence.first)
      (waits : entry ∈ waiting) (written : outcomes entry = .written) :
      Turn waiting outcomes next (entry.sequence.last + 1)

/-- No range that is written reaches over the number of another one that waits, and no write
throws but for the call in hand. -/
structure Unhindered (waiting : List OrderedAppend) (outcomes : OrderedAppend → WriteOutcome)
    (call next : Nat) : Prop where
  apart : ∀ entry ∈ waiting, Turn waiting outcomes next entry.sequence.first →
    outcomes entry = .written → ∀ other ∈ waiting,
      other.sequence.first ≤ entry.sequence.first ∨ entry.sequence.last < other.sequence.first
  own : ∀ entry ∈ waiting, Turn waiting outcomes next entry.sequence.first →
    outcomes entry = .thrown → entry.call = call

/-! ## Turns -/

theorem Turn.le {waiting : List OrderedAppend} (turn : Turn waiting outcomes initial n) :
    initial ≤ n := by
  induction turn with
  | now => exact Nat.le_refl _
  | @after entry _ _ _ ih =>
      have ordered := entry.sequence.ordered
      omega

/-- Where nothing that can be written waits at a number, no later number has its turn. -/
theorem Turn.stays {waiting : List OrderedAppend} (turn : Turn waiting outcomes initial n)
    (stops : ∀ entry ∈ waiting, entry.sequence.first = initial → outcomes entry ≠ .written) :
    n = initial := by
  induction turn with
  | now => rfl
  | after _ waits written here => exact absurd written (stops _ waits here)

section Keys

variable (keys : (state.pending.map (·.sequence.first)).Nodup) (waits : entry ∈ state.pending)
include keys waits

theorem waiting_unique {other : OrderedAppend} (waits' : other ∈ state.pending)
    (same : other.sequence.first = entry.sequence.first) : other = entry :=
  List.inj_on_of_nodup_map keys waits' waits same

/-- The turns of a flush are its first one and those of the flush after the first write. -/
theorem turn_iff (turn : entry.sequence.first = state.nextSequence)
    (written : outcomes entry = .written) :
    Turn state.pending outcomes state.nextSequence n ↔ n = state.nextSequence ∨
      Turn (state.delete state.nextSequence).pending outcomes (entry.sequence.last + 1) n := by
  constructor
  · intro reached
    induction reached with
    | now => exact .inl rfl
    | @after other _ waits' written' ih =>
        right
        rcases ih with first | later
        · obtain rfl := waiting_unique keys waits waits' (first.trans turn.symm)
          exact .now
        · have ordered := entry.sequence.ordered
          have bound := later.le
          have kept := mem_delete (n := state.nextSequence).mpr ⟨waits', by omega⟩
          exact .after later kept written'
  · rintro (rfl | later)
    · exact .now
    · induction later with
      | now => exact .after (turn ▸ .now) waits written
      | after _ waits' written' ih => exact .after ih (mem_delete.mp waits').1 written'

end Keys

/-! ## Settling -/

theorem settled_settle (journal : Journal) (call : Nat) (settlement : Settlement) :
    ∃ ending, (call, ending) ∈ (journal.settle call settlement).settled := by
  unfold Journal.settle
  split
  · next before =>
      obtain ⟨⟨found, ending⟩, member, same⟩ := List.any_eq_true.mp before
      obtain rfl : found = call := by simpa using same
      exact ⟨ending, member⟩
  · exact ⟨settlement, List.mem_append_right _ (List.mem_singleton_self _)⟩

theorem not_mem_settle {settlement : Settlement} {other : Nat} (apart : other ≠ call)
    (unsettled : ∀ ending, (other, ending) ∉ journal.settled) (ending : Settlement) :
    (other, ending) ∉ (journal.settle call settlement).settled := by
  obtain ⟨settled, same, only⟩ := journal.settle_eq call settlement
  rw [same]
  intro member
  rcases only _ member with before | here
  · exact unsettled ending before
  · exact apart here

/-! ## One flush -/

/-- What was passed stays parked. -/
theorem flushTransactions_passed {fuel : Nat} (waits : entry ∈ state.pending)
    (passed : entry.sequence.first < state.nextSequence) {later : OrderedAppendState}
    (opened : (journal.flushTransactions outcomes call fuel state).opened = some later) :
    entry ∈ later.pending ∧ entry.sequence.first < later.nextSequence := by
  induction fuel generalizing state journal with
  | zero =>
      cases opened
      exact ⟨waits, passed⟩
  | succ fuel ih =>
      simp only [Journal.flushTransactions] at opened
      have kept := mem_delete (n := state.nextSequence).mpr ⟨waits, Nat.ne_of_lt passed⟩
      split at opened
      · cases opened
        exact ⟨waits, passed⟩
      · next pending found =>
          have turn := (get_eq_some found).2
          have ordered := pending.sequence.ordered
          split at opened
          · cases opened
            exact ⟨kept, passed⟩
          · cases opened
            exact ⟨kept, passed⟩
          · exact ih (by exact kept) (by dsimp only; omega) opened

theorem unhindered_of_not_written (keys : (state.pending.map (·.sequence.first)).Nodup)
    (waits : entry ∈ state.pending) (turn : entry.sequence.first = state.nextSequence)
    (unwritten : outcomes entry ≠ .written) :
    Unhindered state.pending outcomes call state.nextSequence ↔
      (outcomes entry = .thrown → entry.call = call) := by
  have only : ∀ other ∈ state.pending,
      Turn state.pending outcomes state.nextSequence other.sequence.first → other = entry := by
    intro other waits' reached
    refine waiting_unique keys waits waits' ((reached.stays ?_).trans turn.symm)
    intro another waits'' here
    rwa [waiting_unique keys waits waits'' (here.trans turn.symm)]
  constructor
  · intro unhindered thrown
    exact unhindered.own entry waits (turn ▸ .now) thrown
  · intro own
    constructor
    · intro other waits' reached written
      exact absurd (only other waits' reached ▸ written) unwritten
    · intro other waits' reached thrown
      obtain rfl := only other waits' reached
      exact own thrown

/-- After a write whose range reaches over nothing, the rest of the flush is unhindered just when
the whole of it is. -/
theorem unhindered_of_written (keys : (state.pending.map (·.sequence.first)).Nodup)
    (waits : entry ∈ state.pending) (turn : entry.sequence.first = state.nextSequence)
    (written : outcomes entry = .written)
    (clear : ∀ other ∈ (state.delete state.nextSequence).pending,
      entry.sequence.last + 1 ≤ other.sequence.first) :
    Unhindered state.pending outcomes call state.nextSequence ↔
      Unhindered (state.delete state.nextSequence).pending outcomes call
        (entry.sequence.last + 1) := by
  have member : ∀ {other}, other ∈ (state.delete state.nextSequence).pending ↔
      other ∈ state.pending ∧ other.sequence.first ≠ state.nextSequence := mem_delete
  constructor
  · intro unhindered
    constructor
    · intro other waits' reached written' another waits''
      exact unhindered.apart other (member.mp waits').1
        ((turn_iff keys waits turn written).mpr (.inr reached)) written' another
        (member.mp waits'').1
    · intro other waits' reached thrown
      exact unhindered.own other (member.mp waits').1
        ((turn_iff keys waits turn written).mpr (.inr reached)) thrown
  · intro unhindered
    constructor
    · intro other waits' reached written' another waits''
      rcases (turn_iff keys waits turn written).mp reached with first | later
      · obtain rfl := waiting_unique keys waits waits' (first.trans turn.symm)
        by_cases here : another.sequence.first = state.nextSequence
        · exact .inl (by omega)
        · exact .inr (clear another (member.mpr ⟨waits'', here⟩))
      · have ordered := entry.sequence.ordered
        have bound := later.le
        by_cases here : another.sequence.first = state.nextSequence
        · exact .inl (by omega)
        · exact unhindered.apart other (member.mpr ⟨waits', by omega⟩) later written' another
            (member.mpr ⟨waits'', here⟩)
    · intro other waits' reached thrown
      rcases (turn_iff keys waits turn written).mp reached with first | later
      · obtain rfl := waiting_unique keys waits waits' (first.trans turn.symm)
        rw [written] at thrown
        cases thrown
      · have ordered := entry.sequence.ordered
        have bound := later.le
        exact unhindered.own other (member.mpr ⟨waits', by omega⟩) later thrown

/-- Who is settled after a settlement: whoever was, and the call it is for. -/
theorem Attended.settle {left : OrderedAppendState} {settlement : Settlement}
    (ahead : ∀ other ∈ left.pending, left.nextSequence ≤ other.sequence.first)
    (settled : ∀ other ∈ journal.calls, other.call ≠ call → other ∈ left.pending ∨
      ∃ ending, (other.call, ending) ∈ journal.settled) :
    Attended left (journal.settle call settlement) where
  ahead := ahead
  settled other member := by
    rw [settle_calls] at member
    by_cases here : other.call = call
    · exact .inr (here ▸ settled_settle journal call settlement)
    · refine (settled other member here).imp id ?_
      rintro ⟨ending, before⟩
      exact ⟨ending, Journal.mem_settle_of_mem before⟩

theorem Unsettled.settle {left : OrderedAppendState} {settlement : Settlement}
    (unsettled : Unsettled left journal) (apart : ∀ other ∈ left.pending, other.call ≠ call) :
    Unsettled left (journal.settle call settlement) :=
  fun other waits ending => not_mem_settle (apart other waits) (unsettled other waits) ending

/-- A flush leaves every call attended just when it is unhindered. -/
theorem flushTransactions_attended {fuel : Nat} (h : Sound file initial state journal)
    (attended : Attended state journal) (unsettled : Unsettled state journal)
    (known : call < journal.calls.length) (enough : state.pending.length < fuel) :
    ∃ later, (journal.flushTransactions outcomes call fuel state).opened = some later ∧
      (Attended later (journal.flushTransactions outcomes call fuel state) ↔
        Unhindered state.pending outcomes call state.nextSequence) ∧
      (Attended later (journal.flushTransactions outcomes call fuel state) →
        Unsettled later (journal.flushTransactions outcomes call fuel state)) := by
  induction fuel generalizing state journal with
  | zero => cases enough
  | succ fuel ih =>
      simp only [Journal.flushTransactions]
      cases found : state.get state.nextSequence with
      | none =>
          have nobody : ∀ other ∈ state.pending, other.sequence.first ≠ state.nextSequence := by
            simpa [OrderedAppendState.get] using found
          have only : ∀ other ∈ state.pending,
              ¬ Turn state.pending outcomes state.nextSequence other.sequence.first :=
            fun other waits reached => nobody other waits
              (reached.stays fun another waits' here => absurd here (nobody another waits'))
          refine ⟨state, rfl, iff_of_true ⟨attended.ahead, attended.settled⟩ ⟨?_, ?_⟩,
            fun _ => unsettled⟩
          · exact fun other waits reached => absurd reached (only other waits)
          · exact fun other waits reached => absurd reached (only other waits)
      | some entry =>
          obtain ⟨waits, turn⟩ := get_eq_some found
          have member := h.known entry (List.mem_append_left _ waits)
          have gone : ∀ other ∈ (state.delete state.nextSequence).pending,
              other ∈ state.pending ∧ other.sequence.first ≠ state.nextSequence :=
            fun other left => mem_delete.mp left
          have distinct : ∀ other ∈ (state.delete state.nextSequence).pending,
              other.call ≠ entry.call := by
            intro other left same
            have calls : (journal.calls.map (·.call)).Nodup := by
              rw [h.numbered]
              exact List.nodup_range
            have other' := h.known other (List.mem_append_left _ (gone other left).1)
            obtain rfl := List.inj_on_of_nodup_map calls other' member same
            exact (gone other left).2 turn
          -- Whoever waited before is the entry in turn, waits still, or was settled before.
          have others : ∀ other ∈ journal.calls, other.call ≠ entry.call →
              other ∈ (state.delete state.nextSequence).pending ∨
                ∃ ending, (other.call, ending) ∈ journal.settled := by
            intro other mem apart
            refine (attended.settled other mem).imp (fun waits' => ?_) id
            refine mem_delete.mpr ⟨waits', fun here => apart ?_⟩
            rw [waiting_unique h.keys waits waits' (here.trans turn.symm)]
          have still : Unsettled (state.delete state.nextSequence)
              (journal.write entry (outcomes entry)) :=
            fun other left => unsettled other (gone other left).1
          have ahead : ∀ other ∈ (state.delete state.nextSequence).pending,
              (state.delete state.nextSequence).nextSequence ≤ other.sequence.first :=
            fun other left => attended.ahead other (gone other left).1
          cases outcome : outcomes entry with
          | written =>
              simp only [outcome]
              rw [outcome] at still
              have sound := h.write found .written
              have sound := sound.settle (h.call_lt member) .ok
              have shorter : (state.delete state.nextSequence).pending.length <
                  state.pending.length :=
                List.length_filter_lt_length_iff_exists.mpr ⟨entry, waits, by simp [turn]⟩
              have fewer := Nat.lt_of_lt_of_le shorter (Nat.lt_succ_iff.mp enough)
              by_cases clear : ∀ other ∈ (state.delete state.nextSequence).pending,
                  entry.sequence.last + 1 ≤ other.sequence.first
              · obtain ⟨later, opened, iff, open'⟩ := ih sound (Attended.settle clear others)
                  (still.settle distinct) (by rwa [settle_calls]) fewer
                exact ⟨later, opened, iff.trans
                  (unhindered_of_written h.keys waits turn outcome clear).symm, open'⟩
              · obtain ⟨later, opened, -⟩ := flushTransactions_sound outcomes fuel sound
                  (by rwa [settle_calls]) fewer
                obtain ⟨other, left, passed⟩ : ∃ other ∈ (state.delete state.nextSequence).pending,
                    other.sequence.first < entry.sequence.last + 1 := by
                  simpa only [not_forall, Nat.not_le, exists_prop] using clear
                obtain ⟨parked, below⟩ := flushTransactions_passed (by exact left) passed opened
                have stuck (after : Journal) : ¬ Attended later after :=
                  fun attended => Nat.not_lt.mpr (attended.ahead other parked) below
                refine ⟨later, opened, iff_of_false (stuck _) ?_,
                  fun attended => absurd attended (stuck _)⟩
                intro unhindered
                have waits' := (gone other left).1
                have bound := attended.ahead other waits'
                have other' := (gone other left).2
                rcases unhindered.apart entry waits (turn ▸ .now) outcome other waits' with le | lt
                · omega
                · omega
          | failed kept =>
              simp only [outcome]
              have settled : Attended (state.delete state.nextSequence)
                  ((journal.write entry (.failed kept)).settle entry.call .failed) :=
                Attended.settle ahead others
              refine ⟨_, rfl, iff_of_true ⟨settled.ahead, settled.settled⟩ ?_,
                fun _ => Unsettled.settle (outcome ▸ still) distinct⟩
              rw [unhindered_of_not_written h.keys waits turn (by simp [outcome])]
              simp [outcome]
          | thrown =>
              simp only [outcome]
              rw [unhindered_of_not_written h.keys waits turn (by simp [outcome])]
              simp only [outcome, true_implies]
              have own (attended : Attended (state.delete state.nextSequence)
                  ((journal.write entry .thrown).settle call .rejected)) : entry.call = call := by
                -- The entry is not parked any more, and only the call in hand was settled.
                by_contra apart
                rcases attended.settled entry (by rw [settle_calls]; exact member) with
                  left | ⟨ending, settled⟩
                · exact (gone entry left).2 turn
                · exact not_mem_settle apart (by exact unsettled entry waits) ending settled
              refine ⟨_, rfl, ⟨fun after => own ⟨after.ahead, after.settled⟩, ?_⟩, fun after => ?_⟩
              · rintro rfl
                have settled : Attended (state.delete state.nextSequence)
                    ((journal.write entry .thrown).settle entry.call .rejected) :=
                  Attended.settle ahead others
                exact ⟨settled.ahead, settled.settled⟩
              · obtain rfl := own ⟨after.ahead, after.settled⟩
                exact Unsettled.settle (outcome ▸ still) distinct

/-! ## Every run -/

/-- The flush that a call makes, if it comes to one, leaves nobody behind. -/
def Journal.Unhindered (format : NumberFormat) (file : Option (List Char)) (journal : Journal)
    (arrival : Journal.Arrival) : Prop :=
  let state := journal.ordered (initialNext format file)
  let entry : OrderedAppend := ⟨journal.calls.length, arrival.content, arrival.sequence⟩
  ¬ (journal.opened = none ∧ arrival.answers.unreadable = true) →
    state.nextSequence ≤ arrival.sequence.first → state.get arrival.sequence.first = none →
    ProjectStore.Unhindered (state.set entry).pending arrival.answers.outcomes entry.call
      state.nextSequence

/-- What holds between two calls while everybody is attended. -/
structure Cared (format : NumberFormat) (file : Option (List Char)) (journal : Journal) : Prop where
  between : Between format file journal
  attended : Attended (journal.ordered (initialNext format file)) journal
  unsettled : Unsettled (journal.ordered (initialNext format file)) journal

theorem cared_start : Cared format file (Journal.start file) where
  between := between_start
  attended := ⟨by simp [Journal.start, Journal.ordered], by simp [Journal.start]⟩
  unsettled := by simp [Unsettled, Journal.start, Journal.ordered]

/-- A call that is refused at once is settled at once. -/
theorem Cared.refuse (h : Cared format file journal) (settlement : Settlement)
    (content : List Char) (sequence : SequenceRange) :
    let after := (journal.called ⟨journal.calls.length, content, sequence⟩).settle
      journal.calls.length settlement
    Attended (journal.ordered (initialNext format file)) after ∧
      Unsettled (journal.ordered (initialNext format file)) after := by
  intro after
  have fresh : ∀ other ∈ journal.calls, other.call ≠ journal.calls.length :=
    fun other member => Nat.ne_of_lt (h.between.sound.call_lt member)
  constructor
  · refine Attended.settle h.attended.ahead ?_
    intro other member apart
    rcases List.mem_append.mp member with before | here
    · exact h.attended.settled other before
    · exact absurd (congrArg OrderedAppend.call (List.mem_singleton.mp here)) apart
  · refine Unsettled.settle (fun other waits => h.unsettled other waits) ?_
    exact fun other waits =>
      fresh other (h.between.sound.known other (List.mem_append_left _ waits))

theorem Attended.park (attended : Attended state journal) (entry : OrderedAppend)
    (ahead : state.nextSequence ≤ entry.sequence.first) :
    Attended (state.set entry) (journal.called entry) where
  ahead other waits := by
    rcases List.mem_append.mp waits with before | here
    · exact attended.ahead other before
    · exact (List.mem_singleton.mp here).symm ▸ ahead
  settled other member := by
    rcases List.mem_append.mp member with before | here
    · exact (attended.settled other before).imp (List.mem_append_left _) id
    · exact .inl (List.mem_append_right _ here)

/-- The number of a call that is being made is new. -/
theorem Cared.park (h : Cared format file journal) (entry : OrderedAppend)
    (fresh : entry.call = journal.calls.length) :
    Unsettled ((journal.ordered (initialNext format file)).set entry) (journal.called entry) := by
  intro other waits settlement settled
  rcases List.mem_append.mp waits with before | here
  · exact h.unsettled other before settlement settled
  · have below := h.between.sound.settled _ settled
    rw [List.mem_singleton.mp here, fresh] at below
    exact Nat.lt_irrefl _ below

/-- A call is refused at once, or it is parked and flushes. -/
theorem Between.appendTransaction_cases (h : Between format file journal)
    (arrival : Journal.Arrival) :
    let state := journal.ordered (initialNext format file)
    let entry : OrderedAppend := ⟨journal.calls.length, arrival.content, arrival.sequence⟩
    let after := journal.appendTransaction format arrival.answers arrival.content arrival.sequence
    (∃ settlement, after.ordered (initialNext format file) = state ∧
      after.calls = ((journal.called entry).settle entry.call settlement).calls ∧
      after.settled = ((journal.called entry).settle entry.call settlement).settled ∧
      (state.nextSequence ≤ arrival.sequence.first → state.get arrival.sequence.first = none →
        journal.opened = none ∧ arrival.answers.unreadable = true)) ∨
    (state.nextSequence ≤ arrival.sequence.first ∧ state.get arrival.sequence.first = none ∧
      ¬ (journal.opened = none ∧ arrival.answers.unreadable = true) ∧
      after = (journal.called entry).flushTransactions arrival.answers.outcomes entry.call
        (state.pending.length + 2) (state.set entry)) := by
  intro state entry after
  have same : journal.opened.getD ⟨(lastCommittedSequence format journal.file).getD 0 + 1, []⟩ =
      state := by
    cases opened : journal.opened with
    | none => simp [state, Journal.ordered, initialNext, opened, h.unopened opened]
    | some found => simp [state, Journal.ordered, opened]
  by_cases failed : journal.opened = none ∧ arrival.answers.unreadable = true
  · refine .inl ⟨.rejected, ?_⟩
    have refused : after = (journal.called entry).settle entry.call .rejected := if_pos failed
    obtain ⟨settled, kept, -⟩ := (journal.called entry).settle_eq entry.call .rejected
    refine ⟨?_, by rw [refused], by rw [refused], fun _ _ => failed⟩
    rw [refused, kept]
    rfl
  · have read : after =
        if arrival.sequence.first < state.nextSequence then
          { (journal.called entry).settle entry.call .alreadyCommitted with opened := some state }
        else if (state.get arrival.sequence.first).isSome then
          { (journal.called entry).settle entry.call .alreadyPending with opened := some state }
        else (journal.called entry).flushTransactions arrival.answers.outcomes entry.call
          (state.pending.length + 2) (state.set entry) := by
      simp only [after, Journal.appendTransaction, failed, if_false, same]
      rfl
    by_cases passed : arrival.sequence.first < state.nextSequence
    · rw [if_pos passed] at read
      refine .inl ⟨.alreadyCommitted, by rw [read]; rfl, by rw [read], by rw [read], ?_⟩
      exact fun ahead => absurd passed (Nat.not_lt.mpr ahead)
    · rw [if_neg passed] at read
      by_cases taken : (state.get arrival.sequence.first).isSome
      · rw [if_pos taken] at read
        refine .inl ⟨.alreadyPending, by rw [read]; rfl, by rw [read], by rw [read], ?_⟩
        exact fun _ free => absurd taken (by simp [free])
      · rw [if_neg taken] at read
        exact .inr ⟨Nat.not_lt.mp passed, by simpa using taken, failed, read⟩

/-- A call that finds everybody attended leaves them so just when it is unhindered. -/
theorem Cared.appendTransaction (h : Cared format file journal) (arrival : Journal.Arrival) :
    let after := journal.appendTransaction format arrival.answers arrival.content arrival.sequence
    (Attended (after.ordered (initialNext format file)) after ↔
      journal.Unhindered format file arrival) ∧
      (Attended (after.ordered (initialNext format file)) after → Cared format file after) := by
  intro after
  have between : Between format file after :=
    h.between.appendTransaction arrival.answers arrival.content arrival.sequence
  rcases h.between.appendTransaction_cases arrival with
    ⟨settlement, state, calls, settled, early⟩ | ⟨ahead, free, readable, flushed⟩
  · obtain ⟨attended, unsettled⟩ := h.refuse settlement arrival.content arrival.sequence
    rw [← state] at attended unsettled
    have cared : Cared format file after := by
      refine ⟨between, ⟨attended.ahead, ?_⟩, ?_⟩
      · rw [calls, settled]
        exact attended.settled
      · intro other waits
        rw [settled]
        exact unsettled other waits
    refine ⟨iff_of_true cared.attended ?_, fun _ => cared⟩
    intro readable ahead free
    exact absurd (early ahead free) readable
  · have fresh : ∀ other ∈ journal.calls, other.call ≠ journal.calls.length :=
      fun other member => Nat.ne_of_lt (h.between.sound.call_lt member)
    have parked := h.between.sound.park
      ⟨journal.calls.length, arrival.content, arrival.sequence⟩ rfl free
    have flush : ∃ later, after.opened = some later ∧
        (Attended later after ↔ Unhindered
          ((journal.ordered (initialNext format file)).set
            ⟨journal.calls.length, arrival.content, arrival.sequence⟩).pending
          arrival.answers.outcomes journal.calls.length
          (journal.ordered (initialNext format file)).nextSequence) ∧
        (Attended later after → Unsettled later after) := by
      rw [show after = _ from flushed]
      exact flushTransactions_attended parked (h.attended.park _ ahead) (h.park _ rfl)
        (by simp [Journal.called]) (by simp [OrderedAppendState.set])
    obtain ⟨later, opened, iff, unsettled⟩ := flush
    have state := Journal.ordered_of_opened (initialNext format file) opened
    rw [state]
    refine ⟨iff.trans ⟨fun unhindered _ _ _ => unhindered, fun unhindered => ?_⟩, fun attended => ?_⟩
    · exact unhindered readable ahead free
    · exact ⟨between, state.symm ▸ attended, state.symm ▸ unsettled attended⟩

theorem journalAfter_concat (arrivals : List Journal.Arrival) (arrival : Journal.Arrival) :
    journalAfter format file (arrivals ++ [arrival]) =
      (journalAfter format file arrivals).appendTransaction format arrival.answers
        arrival.content arrival.sequence := by
  simp [journalAfter, Journal.run]

/-- Everybody is cared for as long as everybody is attended. -/
theorem cared_run (arrivals : List Journal.Arrival)
    (attended : ∀ before, before <+: arrivals →
      Attended ((journalAfter format file before).ordered (initialNext format file))
        (journalAfter format file before)) :
    Cared format file (journalAfter format file arrivals) := by
  induction arrivals using List.reverseRecOn with
  | nil => exact cared_start
  | append_singleton before arrival ih =>
      have cared := ih fun earlier start => attended earlier (start.trans (List.prefix_append _ _))
      have now := attended _ (List.prefix_refl _)
      rw [journalAfter_concat] at now ⊢
      exact (cared.appendTransaction arrival).2 now

theorem attended_run (arrivals : List Journal.Arrival)
    (unhindered : ∀ before arrival, before ++ [arrival] <+: arrivals →
      (journalAfter format file before).Unhindered format file arrival) :
    Cared format file (journalAfter format file arrivals) := by
  induction arrivals using List.reverseRecOn with
  | nil => exact cared_start
  | append_singleton before arrival ih =>
      have cared := ih fun earlier other start =>
        unhindered earlier other (start.trans (List.prefix_append _ _))
      have now := unhindered before arrival (List.prefix_refl _)
      rw [journalAfter_concat]
      exact (cared.appendTransaction arrival).2 ((cared.appendTransaction arrival).1.mpr now)

/-- For every order of arrivals and whatever the file system answers: after each call every
append is settled, or parked at a number that is not below the next one, just when no flush is
hindered. -/
theorem nobody_waits_iff (format : NumberFormat) (file : Option (List Char))
    (arrivals : List Journal.Arrival) :
    (∀ before, before <+: arrivals →
      Attended ((journalAfter format file before).ordered (initialNext format file))
        (journalAfter format file before)) ↔
    ∀ before arrival, before ++ [arrival] <+: arrivals →
      (journalAfter format file before).Unhindered format file arrival := by
  constructor
  · intro attended before arrival start
    have cared := cared_run before fun earlier earliest =>
      attended earlier (earliest.trans ((List.prefix_append _ _).trans start))
    have after := attended _ start
    rw [journalAfter_concat] at after
    exact (cared.appendTransaction arrival).1.mp after
  · intro unhindered before start
    exact (attended_run before fun earlier arrival earliest =>
      unhindered earlier arrival (earliest.trans start)).attended

theorem two_le_two : 2 ≤ 2 := Nat.le_refl 2

/-- An append that waits for its turn. -/
def parkedArrival : Journal.Arrival :=
  ⟨⟨false, fun _ => .written⟩, [], ⟨2, 2, two_le_two⟩⟩

theorem one_le_two : 1 ≤ 2 := by decide

/-- One whose range reaches over it. -/
def wideArrival : Journal.Arrival :=
  ⟨⟨false, fun _ => .written⟩, [], ⟨1, 2, one_le_two⟩⟩

/-- The second call commits both numbers, and the first one is parked below the next. -/
theorem overlapped_append_waits :
    ∃ state entry, (journalAfter noNumbers none [parkedArrival, wideArrival]).opened = some state ∧
      entry ∈ state.pending ∧ entry.sequence.first < state.nextSequence ∧
      ∀ settlement, (entry.call, settlement) ∉
        (journalAfter noNumbers none [parkedArrival, wideArrival]).settled := by
  refine ⟨⟨3, [⟨0, [], ⟨2, 2, two_le_two⟩⟩]⟩, ⟨0, [], ⟨2, 2, two_le_two⟩⟩, by decide +kernel,
    by decide +kernel, by decide +kernel, ?_⟩
  intro settlement
  cases settlement <;> decide +kernel

end AdCoder.ProjectStore
