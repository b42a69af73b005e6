import AdCoder.Orchestration.TrivialEdit

/-!
# Runs of guarded edits

First the guarded calls of a run one after another, with the windows that the
approved reviews separate; then any interleaving of them at their awaits, with
the times at which an edit was applied and a review started.
-/

namespace AdCoder.Orchestration

open Foundation

/-! ## One call after another -/

/-- What the environment answers to one guarded call. -/
structure GuardAnswers where
  oldContent : Option String
  applied : Bool
  cover : CoverAnswer
  ts : Nat

inductive GuardFailure where
  | exceeded (message : String)
  | tool
  deriving DecidableEq

/-- A whole guarded call: the record after it, unless it throws. -/
def guardExecute (entries : List TrivialEditEntry) (call : GuardedCall)
    (answers : GuardAnswers) : Except GuardFailure (List TrivialEditEntry) :=
  let change := call.change answers.oldContent
  if exceedsBound entries change then .error (.exceeded (boundExceeded entries change))
  else if !answers.applied then .error .tool
  else .ok (recordEdit entries change answers.ts answers.cover)

/-- The record, with the successful edits since the last approved review and the
windows that approved reviews have closed. -/
structure GuardedRun where
  entries : List TrivialEditEntry
  window : List TrivialEditChange
  closed : List (List TrivialEditChange)

def GuardedRun.start : GuardedRun := ⟨[], [], []⟩

def GuardedRun.step (run : GuardedRun) (made : GuardedCall × GuardAnswers) : GuardedRun :=
  let (call, answers) := made
  match guardExecute run.entries call answers with
  | .error _ => run
  | .ok entries =>
      let edits := run.window ++ [call.change answers.oldContent]
      if answers.cover.approves then ⟨entries, [], edits :: run.closed⟩
      else ⟨entries, edits, run.closed⟩

abbrev GuardedRun.Steps (run : GuardedRun) (made : GuardedCall × GuardAnswers)
    (next : GuardedRun) : Prop := next = run.step made

/-- An edit that no review approves is recorded on a full record whose oldest
entry is uncovered. -/
def EvictsUncovered (run : GuardedRun) (made : GuardedCall × GuardAnswers) : Prop :=
  trivialEditMaxEntries ≤ run.entries.length ∧
    (∃ oldest ∈ run.entries.head?, oldest.covered = false) ∧
    exceedsBound run.entries (made.1.change made.2.oldContent) = false ∧
    made.2.applied = true ∧ made.2.cover.approves = false

theorem length_keepNewest {α : Type} (entries : List α) :
    (keepNewest entries).length ≤ trivialEditMaxEntries := by
  rw [keepNewest, List.length_drop]
  omega

theorem length_recordEdit (entries : List TrivialEditEntry) (change : TrivialEditChange)
    (ts : Nat) (answer : CoverAnswer) :
    (recordEdit entries change ts answer).length ≤ trivialEditMaxEntries := by
  have appended := length_keepNewest
    (entries ++ [(⟨change, ts, answer.cover, false⟩ : TrivialEditEntry)])
  cases answer with
  | unavailable => exact appended
  | failed => exact appended
  | settled verdict reviewerRunId issueCount =>
      have settled : (recordEdit entries change ts
          (.settled verdict reviewerRunId issueCount)).length = _ := List.length_map _
      exact settled.trans_le appended

/-- Recording drops no uncovered entry while the record has room or its oldest
entry is covered. -/
theorem windowOf_keepNewest {entries : List TrivialEditEntry} {entry : TrivialEditEntry}
    (short : entries.length ≤ trivialEditMaxEntries)
    (kept : entries.length < trivialEditMaxEntries ∨
      ∀ oldest ∈ entries.head?, oldest.covered = true) :
    windowOf (keepNewest (entries ++ [entry])) = windowOf (entries ++ [entry]) := by
  rcases Nat.lt_or_ge entries.length trivialEditMaxEntries with room | full
  · rw [keepNewest_of_length]
    rw [List.length_append, List.length_singleton]
    omega
  · have length : entries.length = trivialEditMaxEntries := Nat.le_antisymm short full
    cases entries with
    | nil => simp [trivialEditMaxEntries] at length
    | cons oldest rest =>
        have covered : oldest.covered = true := by
          rcases kept with room | covered
          · omega
          · exact covered oldest rfl
        have dropped : keepNewest (oldest :: rest ++ [entry]) = rest ++ [entry] := by
          have one : (oldest :: rest ++ [entry]).length - trivialEditMaxEntries = 1 := by
            rw [List.length_append, length, List.length_singleton]
            omega
          rw [keepNewest, one]
          rfl
        rw [dropped]
        simp [windowOf, uncovered, covered]

/-- A guarded call changes nothing, or it records the change that it was allowed. -/
theorem GuardedRun.step_cases (run : GuardedRun) (call : GuardedCall) (answers : GuardAnswers) :
    run.step (call, answers) = run ∨
      (exceedsBound run.entries (call.change answers.oldContent) = false ∧
        answers.applied = true ∧
        run.step (call, answers) =
          let change := call.change answers.oldContent
          let entries := recordEdit run.entries change answers.ts answers.cover
          if answers.cover.approves then
            ⟨entries, [], (run.window ++ [change]) :: run.closed⟩
          else ⟨entries, run.window ++ [change], run.closed⟩) := by
  rw [GuardedRun.step, guardExecute]
  cases exceeds : exceedsBound run.entries (call.change answers.oldContent) with
  | true => exact Or.inl (by simp)
  | false =>
      cases applied : answers.applied with
      | false => exact Or.inl (by simp)
      | true => exact Or.inr ⟨rfl, rfl, by simp⟩

/-- What holds after every sequence of guarded calls that evicts nothing. -/
structure GuardedRun.Sound (run : GuardedRun) : Prop where
  length : run.entries.length ≤ trivialEditMaxEntries
  window : windowOf run.entries = run.window
  opened : Trivial run.window
  closed : ∀ window ∈ run.closed, Trivial window

theorem GuardedRun.Sound.start : GuardedRun.start.Sound :=
  ⟨by simp [GuardedRun.start], rfl, Trivial.nil, by simp [GuardedRun.start]⟩

theorem GuardedRun.Sound.step {run : GuardedRun} (h : run.Sound)
    {made : GuardedCall × GuardAnswers} (allowed : ¬ EvictsUncovered run made) :
    (run.step made).Sound := by
  obtain ⟨call, answers⟩ := made
  rcases run.step_cases call answers with same | ⟨fits, applied, made⟩
  · rw [same]
    exact h
  have opened : Trivial (run.window ++ [call.change answers.oldContent]) := by
    rw [← h.window]
    refine Trivial.extend ?_ fits
    rw [h.window]
    exact h.opened
  have recorded := windowOf_recordEdit run.entries (call.change answers.oldContent)
    answers.ts answers.cover
  rw [made]
  cases approves : answers.cover.approves with
  | true =>
      refine ⟨length_recordEdit .., by simpa [approves] using recorded, Trivial.nil, ?_⟩
      intro window hwindow
      rcases List.mem_cons.mp hwindow with rfl | hwindow
      · exact opened
      · exact h.closed window hwindow
  | false =>
      have kept : run.entries.length < trivialEditMaxEntries ∨
          ∀ oldest ∈ run.entries.head?, oldest.covered = true := by
        rcases Nat.lt_or_ge run.entries.length trivialEditMaxEntries with room | full
        · exact Or.inl room
        · refine Or.inr fun oldest holdest => ?_
          by_contra uncovered
          exact allowed ⟨full, ⟨oldest, holdest, by simpa using uncovered⟩, fits, applied,
            approves⟩
      refine ⟨length_recordEdit .., ?_, opened, h.closed⟩
      rw [approves, if_neg Bool.false_ne_true, windowOf_keepNewest h.length kept,
        windowOf_append _ _ rfl, h.window] at recorded
      exact recorded

/-- While no uncovered entry is evicted, the edits between two approved reviews
stay within the allowance, and all of them are still in the window. -/
theorem trivial_allowance {calls : List (GuardedCall × GuardAnswers)} {run : GuardedRun}
    (made : Run (Guarded GuardedRun.Steps fun s c => ¬ EvictsUncovered s c) .start calls run) :
    (∀ window ∈ run.window :: run.closed, Trivial window) ∧
      windowOf run.entries = run.window := by
  have sound : run.Sound := by
    refine made.invariant ?_ GuardedRun.Sound.start
    rintro a call b h ⟨allowed, rfl⟩
    exact h.step allowed
  refine ⟨?_, sound.window⟩
  intro window hwindow
  rcases List.mem_cons.mp hwindow with rfl | hwindow
  · exact sound.opened
  · exact sound.closed window hwindow

/-- A write that succeeds and is not reviewed. -/
def unreviewedWrite (file content : String) (oldContent : Option String) :
    GuardedCall × GuardAnswers :=
  (⟨file, .write content⟩, ⟨oldContent, true, .unavailable, 0⟩)

/-- One line is written and removed again, and the empty file is written until
both entries are evicted; then the whole allowance is used once more. -/
def evictingScript : List (GuardedCall × GuardAnswers) :=
  [unreviewedWrite "a" "x\n" none, unreviewedWrite "a" "" (some "x\n")] ++
    List.replicate 50 (unreviewedWrite "a" "" (some "")) ++
    [unreviewedWrite "a" "1\n2\n3\n4\n5\n" (some "")]

theorem trivial_allowance_oneWrite :
    ∃ run : GuardedRun, run.entries.length = 1 ∧
      (∀ window ∈ run.window :: run.closed, Trivial window) ∧
      windowOf run.entries = run.window := by
  have first : ¬ EvictsUncovered .start (unreviewedWrite "a" "x\n" none) := by
    rintro ⟨full, _⟩
    simp [GuardedRun.start, trivialEditMaxEntries] at full
  have made : Run (Guarded GuardedRun.Steps fun s c => ¬ EvictsUncovered s c) .start
      [unreviewedWrite "a" "x\n" none]
      (GuardedRun.start.step (unreviewedWrite "a" "x\n" none)) :=
    Run.single ⟨first, rfl⟩
  exact ⟨_, by decide +kernel, trivial_allowance made⟩

/-- Seven changed lines pass with no approved review among them. -/
theorem trivial_allowance_refuted :
    ¬ ∀ (calls : List (GuardedCall × GuardAnswers)) (run : GuardedRun),
      Run GuardedRun.Steps .start calls run →
        (∀ window ∈ run.window :: run.closed, Trivial window) ∧
          windowOf run.entries = run.window := by
  intro claim
  have made := Run.foldl GuardedRun.step .start evictingScript
  have lines := ((claim evictingScript _ made).1 _ List.mem_cons_self).lines
  have seven : (((evictingScript.foldl GuardedRun.step .start).window).map
      TrivialEditChange.lines).sum = 7 := by decide +kernel
  rw [seven, trivialEditMaxChangedLines] at lines
  omega

/-! ## Interleaved calls -/

/-- A recorded edit, with the time at which its tool applied it and the start of
the review that covered it. -/
structure TimedEdit where
  entry : TrivialEditEntry
  appliedAt : Nat
  coveredBy : Option Nat
  deriving DecidableEq

/-- Where a guarded call awaits. After its check it holds the record it read. -/
inductive CallPhase where
  | reading (call : GuardedCall)
  | applying (change : TrivialEditChange) (seen : List TimedEdit)
  | applied (change : TrivialEditChange) (seen : List TimedEdit) (appliedAt : Nat)
  | reviewing (change : TrivialEditChange) (seen : List TimedEdit) (appliedAt startedAt : Nat)

/-- The record of a run and its guarded calls in flight. -/
structure GuardSystem where
  hasCover : Bool
  edits : List TimedEdit
  calls : Nat → Option CallPhase
  tick : Nat

inductive GuardEvent where
  | calls (id : Nat) (call : GuardedCall)
  | reads (id : Nat) (oldContent : Option String)
  | applies (id : Nat)
  | fails (id : Nat)
  | returns (id ts : Nat)
  | answers (id ts : Nat) (answer : CoverAnswer)

/-- `settledEntry`, noting the start of the review that covers the entry. -/
def settledEdit (verdict : CoverVerdict) (reviewerRunId : String) (issueCount : Option Nat)
    (startedAt : Nat) (edit : TimedEdit) : TimedEdit :=
  { edit with
    entry := settledEntry verdict reviewerRunId issueCount edit.entry
    coveredBy := if edit.entry.covered = false ∧ verdict = .approved then some startedAt
      else edit.coveredBy }

/-- `recordEdit` on timed edits. -/
def recordTimed (edits : List TimedEdit) (change : TrivialEditChange) (appliedAt startedAt : Nat)
    (ts : Nat) (answer : CoverAnswer) : List TimedEdit :=
  let appended := keepNewest (edits ++ [⟨⟨change, ts, answer.cover, false⟩, appliedAt, none⟩])
  match answer with
  | .settled verdict reviewerRunId issueCount =>
      appended.map (settledEdit (coverVerdict verdict) reviewerRunId issueCount startedAt)
  | _ => appended

/-- The record without its times. -/
def recordOf (edits : List TimedEdit) : List TrivialEditEntry := edits.map (·.entry)

theorem recordOf_settled (edits : List TimedEdit) (verdict : CoverVerdict)
    (reviewerRunId : String) (issueCount : Option Nat) (startedAt : Nat) :
    recordOf (edits.map (settledEdit verdict reviewerRunId issueCount startedAt)) =
      settleTrivialEditCover (recordOf edits) verdict reviewerRunId issueCount := by
  simp [recordOf, settleTrivialEditCover, settledEdit, Function.comp_def]

/-- Timed edits are recorded as the guard records them. -/
theorem recordOf_recordTimed (edits : List TimedEdit) (change : TrivialEditChange)
    (appliedAt startedAt ts : Nat) (answer : CoverAnswer) :
    recordOf (recordTimed edits change appliedAt startedAt ts answer) =
      recordEdit (recordOf edits) change ts answer := by
  have appended : recordOf (keepNewest
      (edits ++ [⟨⟨change, ts, answer.cover, false⟩, appliedAt, none⟩])) =
      appendTrivialEditEntry (recordOf edits) ⟨change, ts, answer.cover, false⟩ := by
    simp [recordOf, appendTrivialEditEntry, keepNewest, List.map_drop]
  cases answer with
  | unavailable => exact appended
  | failed => exact appended
  | settled verdict reviewerRunId issueCount =>
      have settled := congrArg (settleTrivialEditCover · (coverVerdict verdict) reviewerRunId
        issueCount) appended
      exact (recordOf_settled ..).trans settled

namespace GuardSystem

def start (hasCover : Bool) : GuardSystem := ⟨hasCover, [], fun _ => none, 0⟩

/-- Move one call on, and the time. -/
def moved (system : GuardSystem) (id : Nat) (phase : Option CallPhase) : GuardSystem :=
  { system with
    calls := Function.update system.calls id phase
    tick := system.tick + 1 }

/-- End a call with its entry recorded. -/
def recorded (system : GuardSystem) (id : Nat) (change : TrivialEditChange)
    (appliedAt startedAt ts : Nat) (answer : CoverAnswer) : GuardSystem :=
  { system.moved id none with
    edits := recordTimed system.edits change appliedAt startedAt ts answer }

/-- One event of one call; an event that does not fit the call's phase does nothing. -/
def step (system : GuardSystem) : GuardEvent → GuardSystem
  | .calls id call => system.moved id (some (.reading call))
  | .reads id oldContent =>
      match system.calls id with
      | some (.reading call) =>
          let change := call.change oldContent
          if exceedsBound (recordOf system.edits) change then system.moved id none
          else system.moved id (some (.applying change system.edits))
      | _ => system
  | .applies id =>
      match system.calls id with
      | some (.applying change seen) =>
          system.moved id (some (.applied change seen system.tick))
      | _ => system
  | .fails id => system.moved id none
  | .returns id ts =>
      match system.calls id with
      | some (.applied change seen appliedAt) =>
          if system.hasCover then
            system.moved id (some (.reviewing change seen appliedAt system.tick))
          else system.recorded id change appliedAt system.tick ts .unavailable
      | _ => system
  | .answers id ts answer =>
      match system.calls id with
      | some (.reviewing change _ appliedAt startedAt) =>
          system.recorded id change appliedAt startedAt ts answer
      | _ => system

abbrev Steps (system : GuardSystem) (event : GuardEvent) (next : GuardSystem) : Prop :=
  next = system.step event

end GuardSystem

/-- A call records its edit on a record that another call has changed since the
first one checked it. -/
def StaleRecord (system : GuardSystem) : GuardEvent → Prop
  | .returns id _ => system.hasCover = false ∧ ∃ change seen appliedAt,
      system.calls id = some (.applied change seen appliedAt) ∧ seen ≠ system.edits
  | .answers id _ _ => ∃ change seen appliedAt startedAt,
      system.calls id = some (.reviewing change seen appliedAt startedAt) ∧ seen ≠ system.edits
  | _ => False

/-! ### What recording does -/

section Recording

variable {edits : List TimedEdit} {change : TrivialEditChange} {appliedAt startedAt ts : Nat}
  {answer : CoverAnswer}

/-- An edit of the new record comes from the old one or is the new edit, and is
covered only as it was before or by the review that settles. -/
theorem mem_recordTimed {edit : TimedEdit}
    (h : edit ∈ recordTimed edits change appliedAt startedAt ts answer) :
    ∃ before ∈ edits ++ [⟨⟨change, ts, answer.cover, false⟩, appliedAt, none⟩],
      edit.appliedAt = before.appliedAt ∧ (edit.entry.covered = true →
        (before.entry.covered = true ∧ edit.coveredBy = before.coveredBy) ∨
          edit.coveredBy = some startedAt) := by
  have kept := (keepNewest_sublist
    (edits ++ [⟨⟨change, ts, answer.cover, false⟩, appliedAt, none⟩])).subset
  cases answer with
  | unavailable => exact ⟨edit, kept h, rfl, fun covered => Or.inl ⟨covered, rfl⟩⟩
  | failed => exact ⟨edit, kept h, rfl, fun covered => Or.inl ⟨covered, rfl⟩⟩
  | settled verdict reviewerRunId issueCount =>
      obtain ⟨before, hbefore, rfl⟩ := List.mem_map.mp h
      refine ⟨before, kept hbefore, rfl, ?_⟩
      cases old : before.entry.covered with
      | true => exact fun _ => Or.inl ⟨rfl, by simp [settledEdit, old]⟩
      | false =>
          cases decided : coverVerdict verdict with
          | approved => exact fun _ => Or.inr (by simp [settledEdit, old])
          | changesRequested =>
              intro covered
              simp [settledEdit, settledEntry, old] at covered

theorem windowOf_sublist {entries part : List TrivialEditEntry} (sub : part.Sublist entries) :
    (windowOf part).Sublist (windowOf entries) :=
  (sub.filter _).map _

/-- Recording a change that fits leaves a trivial window. -/
theorem trivial_recordEdit {entries : List TrivialEditEntry}
    (h : Trivial (windowOf entries)) (fits : exceedsBound entries change = false) :
    Trivial (windowOf (recordEdit entries change ts answer)) := by
  rw [windowOf_recordEdit]
  split_ifs
  · exact Trivial.nil
  · have extended := h.extend fits
    rw [← windowOf_append entries ⟨change, ts, answer.cover, false⟩ rfl] at extended
    exact extended.sublist (windowOf_sublist (keepNewest_sublist _))

end Recording

/-! ### The invariant -/

/-- A call that has checked its change saw only edits applied before its review. -/
def SoundPhase (tick : Nat) : CallPhase → Prop
  | .reading _ => True
  | .applying change seen =>
      exceedsBound (recordOf seen) change = false ∧ ∀ edit ∈ seen, edit.appliedAt < tick
  | .applied change seen appliedAt => exceedsBound (recordOf seen) change = false ∧
      (∀ edit ∈ seen, edit.appliedAt < tick) ∧ appliedAt < tick
  | .reviewing change seen appliedAt startedAt => exceedsBound (recordOf seen) change = false ∧
      (∀ edit ∈ seen, edit.appliedAt < startedAt) ∧ appliedAt < startedAt ∧ startedAt < tick

theorem SoundPhase.later {tick : Nat} {phase : CallPhase} (h : SoundPhase tick phase) :
    SoundPhase (tick + 1) phase := by
  cases phase with
  | reading call => trivial
  | applying change seen =>
      exact ⟨h.1, fun edit hedit => Nat.lt_succ_of_lt (h.2 edit hedit)⟩
  | applied change seen appliedAt =>
      exact ⟨h.1, fun edit hedit => Nat.lt_succ_of_lt (h.2.1 edit hedit),
        Nat.lt_succ_of_lt h.2.2⟩
  | reviewing change seen appliedAt startedAt =>
      exact ⟨h.1, h.2.1, h.2.2.1, Nat.lt_succ_of_lt h.2.2.2⟩

/-- An edit was covered by a review that started after it had been applied. -/
def CoveredLater (edit : TimedEdit) : Prop :=
  edit.entry.covered = true → ∃ started, edit.coveredBy = some started ∧ edit.appliedAt < started

namespace GuardSystem

structure Sound (system : GuardSystem) : Prop where
  window : Trivial (windowOf (recordOf system.edits))
  past : ∀ edit ∈ system.edits, edit.appliedAt < system.tick
  covered : ∀ edit ∈ system.edits, CoveredLater edit
  calls : ∀ {id phase}, system.calls id = some phase → SoundPhase system.tick phase

namespace Sound

variable {system : GuardSystem}

theorem start (hasCover : Bool) : (GuardSystem.start hasCover).Sound := by
  refine ⟨Trivial.nil, ?_, ?_, ?_⟩ <;> simp [GuardSystem.start]

theorem moved (h : system.Sound) (id : Nat) {phase : Option CallPhase}
    (sound : ∀ p ∈ phase, SoundPhase (system.tick + 1) p) : (system.moved id phase).Sound := by
  refine ⟨h.window, fun edit hedit => Nat.lt_succ_of_lt (h.past edit hedit), h.covered, ?_⟩
  intro other p found
  replace found : Function.update system.calls id phase other = some p := found
  by_cases same : other = id
  · subst same
    rw [Function.update_self] at found
    exact sound p found
  · rw [Function.update_of_ne same] at found
    exact (h.calls found).later

/-- A call records on the record that its check read. -/
theorem recorded (h : system.Sound) (id : Nat) {change : TrivialEditChange}
    {appliedAt startedAt ts : Nat} {answer : CoverAnswer}
    (fits : exceedsBound (recordOf system.edits) change = false)
    (before : ∀ edit ∈ system.edits, edit.appliedAt < startedAt)
    (applied : appliedAt < startedAt) (started : startedAt ≤ system.tick) :
    (system.recorded id change appliedAt startedAt ts answer).Sound := by
  have left := h.moved id (by simp : ∀ p ∈ none, SoundPhase (system.tick + 1) p)
  have older : ∀ edit ∈ system.edits ++
      [⟨⟨change, ts, answer.cover, false⟩, appliedAt, none⟩], edit.appliedAt < startedAt := by
    intro edit hedit
    rcases List.mem_append.mp hedit with hedit | hedit
    · exact before edit hedit
    · rw [List.mem_singleton.mp hedit]
      exact applied
  refine ⟨?_, ?_, ?_, left.calls⟩
  · rw [GuardSystem.recorded, recordOf_recordTimed]
    exact trivial_recordEdit h.window fits
  · intro edit hedit
    obtain ⟨old, hold, same, _⟩ := mem_recordTimed hedit
    rw [same]
    exact Nat.lt_succ_of_le ((older old hold).le.trans started)
  · intro edit hedit covered
    obtain ⟨old, hold, same, why⟩ := mem_recordTimed hedit
    rw [same]
    rcases why covered with ⟨wasCovered, coveredBy⟩ | coveredBy
    · rw [coveredBy]
      rcases List.mem_append.mp hold with hold | hold
      · exact h.covered old hold wasCovered
      · rw [List.mem_singleton.mp hold] at wasCovered
        cases wasCovered
    · exact ⟨startedAt, coveredBy, older old hold⟩

theorem step (h : system.Sound) {event : GuardEvent} (current : ¬ StaleRecord system event) :
    (system.step event).Sound := by
  rw [GuardSystem.step.eq_def]
  cases event with
  | calls id call => exact h.moved id (by simp [SoundPhase])
  | reads id oldContent =>
      dsimp only
      split
      · split_ifs with exceeds
        · exact h.moved id (by simp)
        · refine h.moved id ?_
          intro p hp
          obtain rfl := Option.some.inj hp
          exact ⟨Bool.eq_false_of_not_eq_true exceeds,
            fun edit hedit => Nat.lt_succ_of_lt (h.past edit hedit)⟩
      · exact h
  | applies id =>
      dsimp only
      split
      · next change seen found =>
          refine h.moved id ?_
          intro p hp
          obtain rfl := Option.some.inj hp
          obtain ⟨fits, past⟩ := h.calls found
          exact ⟨fits, fun edit hedit => Nat.lt_succ_of_lt (past edit hedit), Nat.lt_succ_self _⟩
      · exact h
  | fails id => exact h.moved id (by simp)
  | returns id ts =>
      dsimp only
      split
      · next change seen appliedAt found =>
          obtain ⟨fits, past, applied⟩ := h.calls found
          split_ifs with hasCover
          · refine h.moved id ?_
            intro p hp
            obtain rfl := Option.some.inj hp
            exact ⟨fits, past, applied, Nat.lt_succ_self _⟩
          · have same : seen = system.edits := by
              by_contra stale
              exact current ⟨by simpa using hasCover, change, seen, appliedAt, found, stale⟩
            rw [same] at fits
            exact h.recorded id fits h.past applied (Nat.le_refl _)
      · exact h
  | answers id ts answer =>
      dsimp only
      split
      · next change seen appliedAt startedAt found =>
          obtain ⟨fits, past, applied, started⟩ := h.calls found
          have same : seen = system.edits := by
            by_contra stale
            exact current ⟨change, seen, appliedAt, startedAt, found, stale⟩
          rw [same] at fits past
          exact h.recorded id fits past applied started.le
      · exact h

end Sound

end GuardSystem

/-- Where every call records its edit on the record that it checked, the window
never exceeds the allowance, and an edit is covered only by an approved review
that started after it had been applied. -/
theorem cover_interleaved {hasCover : Bool} {events : List GuardEvent} {system : GuardSystem}
    (made : Run (Guarded GuardSystem.Steps fun s e => ¬ StaleRecord s e)
      (GuardSystem.start hasCover) events system) :
    Trivial (windowOf (recordOf system.edits)) ∧ ∀ edit ∈ system.edits, CoveredLater edit := by
  have sound : system.Sound := by
    refine made.invariant ?_ (GuardSystem.Sound.start hasCover)
    rintro a event b h ⟨current, rfl⟩
    exact h.step current
  exact ⟨sound.window, sound.covered⟩

/-! ### Scripted interleavings -/

/-- One call from its start until its tool has returned. -/
def writeEvents (id : Nat) (file content : String) : List GuardEvent :=
  [.calls id ⟨file, .write content⟩, .reads id none, .applies id, .returns id 0]

def approval : CoverAnswer := .settled .approved "r" none

/-- Two calls one after the other, each reviewed. -/
def reviewedInTurn : List GuardEvent :=
  writeEvents 0 "a" "1\n2\n3\n4\n5\n" ++ [.answers 0 0 approval] ++
    writeEvents 1 "b" "1\n" ++ [.answers 1 0 approval]

/-- Both calls check the empty record before either records its edit. -/
def checkedTogether : List GuardEvent :=
  [.calls 0 ⟨"a", .write "1\n2\n3\n4\n5\n"⟩, .calls 1 ⟨"b", .write "1\n2\n3\n4\n5\n"⟩,
    .reads 0 none, .reads 1 none, .applies 0, .applies 1, .returns 0 0, .returns 1 0]

/-- No call that records has seen another record. -/
def recordsCurrent (system : GuardSystem) : GuardEvent → Bool
  | .returns id _ =>
      match system.calls id with
      | some (.applied _ seen _) => system.hasCover || seen == system.edits
      | _ => true
  | .answers id _ _ =>
      match system.calls id with
      | some (.reviewing _ seen _ _) => seen == system.edits
      | _ => true
  | _ => true

theorem not_staleRecord {system : GuardSystem} {event : GuardEvent}
    (h : recordsCurrent system event = true) : ¬ StaleRecord system event := by
  cases event with
  | returns id ts =>
      rintro ⟨bare, change, seen, appliedAt, found, stale⟩
      simp [recordsCurrent, found, bare, stale] at h
  | answers id ts answer =>
      rintro ⟨change, seen, appliedAt, startedAt, found, stale⟩
      simp [recordsCurrent, found, stale] at h
  | _ => exact id

theorem cover_interleaved_reviewedInTurn :
    ∃ system : GuardSystem, system.edits.length = 2 ∧
      Trivial (windowOf (recordOf system.edits)) ∧ ∀ edit ∈ system.edits, CoveredLater edit := by
  have made := Run.guarded_foldl (fun _ _ => not_staleRecord)
    (by decide +kernel :
      Run.checked GuardSystem.step recordsCurrent (.start true) reviewedInTurn = true)
  exact ⟨_, by decide +kernel, cover_interleaved made⟩

/-- Calls that check together exceed the allowance together. -/
theorem cover_interleaved_refuted :
    ¬ ∀ (hasCover : Bool) (events : List GuardEvent) (system : GuardSystem),
      Run GuardSystem.Steps (GuardSystem.start hasCover) events system →
        Trivial (windowOf (recordOf system.edits)) ∧
          ∀ edit ∈ system.edits, CoveredLater edit := by
  intro claim
  have lines := (claim false checkedTogether _ (Run.foldl GuardSystem.step _ _)).1.lines
  have ten : ((windowOf (recordOf
      (checkedTogether.foldl GuardSystem.step (.start false)).edits)).map
        TrivialEditChange.lines).sum = 10 := by decide +kernel
  rw [ten, trivialEditMaxChangedLines] at lines
  omega

end AdCoder.Orchestration
