import AdCoder.Orchestration.VerdictFindings
import AdCoder.ProjectOperations.CoordinatorInvariants

/-!
# Decisions and reviews at closeout

A run that is closed out has every contract review approved, no decision
pending and its workflow done, as long as no approved contract is reviewed
again outside the workflow and an approval does not close the loop of `run`
over another contract that was sent back.
-/

namespace AdCoder.ProjectOperations

open Foundation Foundation.Section Orchestration

/-! ## Consistent checkpoints -/

/-- Every review record is the only one of an accepted contract. -/
structure Recorded (decisions : List OperatorDecision) (reviews : List ContractReviewRecord) :
    Prop where
  unique : Unique decisions
  contracts : ∀ record ∈ reviews, ∃ decision ∈ decisions,
    decision.id = record.decisionId ∧ decision.IsAcceptedContract
  distinct : (reviews.map (·.decisionId)).Nodup

/-- Nothing is left to decide, to review or to run. -/
structure ClosedOut (c : RunCheckpoint) : Prop where
  approved : ∀ record ∈ c.contractReviews, record.status = .verdict .approved
  resolved : ∀ decision ∈ c.decisions, decision.status ≠ .pending
  done : c.workflowState.done = true

structure ConsistentCheckpoint (c : RunCheckpoint) : Prop where
  recorded : Recorded c.decisions c.contractReviews
  reviewing : c.phase = .followUps ∨ c.phase = .decisions → c.workflowState.done = false →
    ∃ record ∈ c.contractReviews, record.status ≠ .verdict .approved
  closed : c.phase = .closeout ∨ c.phase = .complete → ClosedOut c ∧ Vetted c

/-- A checkpoint of a running workflow has nothing more to keep. -/
theorem ConsistentCheckpoint.running {c : RunCheckpoint} (phase : c.phase = .workflow)
    (recorded : Recorded c.decisions c.contractReviews) : ConsistentCheckpoint c := by
  refine ⟨recorded, ?_, ?_⟩ <;> simp [phase]

namespace Recorded

variable {decisions : List OperatorDecision} {reviews : List ContractReviewRecord}

/-- Only the decisions that the records name matter. -/
theorem map (h : Recorded decisions reviews) {f : ContractReviewRecord → ContractReviewRecord}
    (named : ∀ record ∈ reviews, (f record).decisionId = record.decisionId) :
    Recorded decisions (reviews.map f) := by
  refine ⟨h.unique, ?_, ?_⟩
  · intro record member
    obtain ⟨old, hold, rfl⟩ := List.mem_map.mp member
    rw [named old hold]
    exact h.contracts old hold
  · have same : (reviews.map f).map (·.decisionId) = reviews.map (·.decisionId) := by
      rw [List.map_map]
      exact List.map_congr_left named
    rw [same]
    exact h.distinct

theorem reviewedContracts (h : Recorded decisions reviews) (result : StepResult) :
    Recorded decisions (reviewedContracts result reviews) := by
  rw [ProjectOperations.reviewedContracts.eq_def]
  split_ifs
  · refine h.map fun record _ => ?_
    split_ifs <;> rfl
  · exact h

theorem reviewedRecords {c : RunCheckpoint} (h : Recorded c.decisions c.contractReviews)
    (id : String) (status : VerdictStatus) (runId : String) :
    Recorded c.decisions (reviewedRecords c id status runId) := by
  refine h.map fun record _ => ?_
  split_ifs with same
  · exact same.symm
  · rfl

theorem append (h : Recorded decisions reviews) {decision : OperatorDecision}
    (fresh : ∀ other ∈ decisions, other.id ≠ decision.id) :
    Recorded (decisions ++ [decision]) reviews := by
  refine ⟨h.unique.append fresh, ?_, h.distinct⟩
  intro record member
  obtain ⟨held, hheld, named⟩ := h.contracts record member
  exact ⟨held, List.mem_append_left _ hheld, named⟩

/-- A decision that stays an accepted contract, or is not one, may be replaced. -/
theorem replace (h : Recorded decisions reviews) {current next : OperatorDecision}
    (found : decisions.find? (·.id == next.id) = some current)
    (stays : current.IsAcceptedContract → next.IsAcceptedContract) :
    Recorded (replaceDecision decisions next) reviews := by
  refine ⟨?_, ?_, h.distinct⟩
  · rw [Unique, replaceDecision_map_id]
    exact h.unique
  · intro record member
    obtain ⟨decision, hdecision, named, accepted⟩ := h.contracts record member
    have held := h.unique.find? hdecision
    by_cases same : decision.id = next.id
    · rw [same, found] at held
      obtain rfl := Option.some.inj held
      refine ⟨next, List.mem_of_find?_eq_some (find?_replaceDecision found), ?_, stays accepted⟩
      rw [← same, named]
    · rw [← find?_replaceDecision_of_ne same] at held
      exact ⟨decision, List.mem_of_find?_eq_some held, named, accepted⟩

/-- The contract of a decision goes into review. -/
theorem review {c : RunCheckpoint} (h : Recorded c.decisions c.contractReviews)
    {decision : OperatorDecision} (member : decision ∈ c.decisions)
    (accepted : decision.IsAcceptedContract) (text : String) :
    Recorded c.decisions (reviewCheckpoint c decision.id text).contractReviews := by
  dsimp only [reviewCheckpoint]
  split_ifs with recorded
  · exact h
  · refine ⟨h.unique, ?_, ?_⟩
    · intro record hrecord
      rcases List.mem_append.mp hrecord with old | new
      · exact h.contracts record old
      · obtain rfl := List.mem_singleton.mp new
        exact ⟨decision, member, rfl, accepted⟩
    · rw [List.map_append, List.map_singleton, List.nodup_append']
      refine ⟨h.distinct, List.nodup_singleton _, ?_⟩
      simpa using recorded

/-- Where every accepted contract has been approved, so has every record. -/
theorem approved {c : RunCheckpoint} (h : Recorded c.decisions c.contractReviews) (vetted : Vetted c)
    {record : ContractReviewRecord} (member : record ∈ c.contractReviews) :
    record.status = .verdict .approved := by
  obtain ⟨decision, hdecision, named, accepted⟩ := h.contracts record member
  obtain ⟨other, hother, same, approved⟩ := vetted decision hdecision accepted
  rw [List.inj_on_of_nodup_map h.distinct member hother (named.symm.trans same.symm)]
  exact approved

end Recorded

theorem mem_replaceDecision {decisions : List OperatorDecision} {decision next : OperatorDecision}
    (member : decision ∈ replaceDecision decisions next) : decision = next ∨ decision ∈ decisions := by
  induction decisions with
  | nil => cases member
  | cons first rest ih =>
      rw [replaceDecision] at member
      split_ifs at member
      · rcases List.mem_cons.mp member with rfl | later
        · exact Or.inl rfl
        · exact Or.inr (List.mem_cons_of_mem _ later)
      · rcases List.mem_cons.mp member with rfl | later
        · exact Or.inr List.mem_cons_self
        · exact (ih later).imp_right (List.mem_cons_of_mem _)

namespace ConsistentCheckpoint

variable {c next : RunCheckpoint} {config : PipelineConfig}

/-- Only the phase, the decisions, the records and whether the workflow is done matter. -/
theorem congr (h : ConsistentCheckpoint c) (phase : next.phase = c.phase)
    (decisions : next.decisions = c.decisions) (reviews : next.contractReviews = c.contractReviews)
    (done : next.workflowState.done = c.workflowState.done) : ConsistentCheckpoint next := by
  refine ⟨?_, ?_, ?_⟩
  · rw [decisions, reviews]
    exact h.recorded
  · rw [phase, reviews, done]
    exact h.reviewing
  · intro closed
    rw [phase] at closed
    obtain ⟨⟨approved, resolved, settled⟩, vetted⟩ := h.closed closed
    refine ⟨⟨?_, ?_, done.trans settled⟩, ?_⟩
    · rw [reviews]
      exact approved
    · rw [decisions]
      exact resolved
    · rw [Vetted, decisions]
      intro decision member accepted
      rw [Approved, reviews]
      exact vetted decision member accepted

/-- Nothing is decided once more, and no approved contract is reviewed, after closeout. -/
theorem edge (h : ConsistentCheckpoint c) (written : Edge config True c next) :
    ConsistentCheckpoint next := by
  cases written with
  | pauses ready => exact h.congr rfl rfl rfl rfl
  | prepares ready research unprepared => exact h.congr rfl rfl rfl rfl
  | dispatches ready research prepared undispatched => exact h.congr rfl rfl rfl rfl
  | fails ready failed =>
      obtain ⟨state, pause, rfl, -⟩ := failedStep_changes failed
      exact .running ready.phase h.recorded
  | pends ready stepped => exact .running ready.phase (h.recorded.reviewedContracts _)
  | effects phase => exact h.congr rfl rfl rfl rfl
  | decides phase fresh =>
      refine ⟨h.recorded.append fresh, h.reviewing, ?_⟩
      simp [phase]
  | processes phase =>
      have going := h.reviewing (Or.inl phase)
      by_cases none : c.decisions = []
      · have unreviewed : c.contractReviews = [] := by
          refine List.eq_nil_iff_forall_not_mem.mpr fun record member => ?_
          obtain ⟨decision, hdecision, -⟩ := h.recorded.contracts record member
          simp [none] at hdecision
        have done : c.workflowState.done = true := by
          by_contra running
          obtain ⟨record, member, -⟩ := going (by simpa using running)
          simp [unreviewed] at member
        refine ⟨h.recorded, by simp [none], fun _ => ⟨⟨?_, ?_, done⟩, ?_⟩⟩
        · simp [unreviewed]
        · simp [none]
        · simp [Vetted, none]
      · have more : c.decisions.isEmpty = false := by simpa using none
        exact ⟨h.recorded, fun _ => going, by simp [more]⟩
  | closes phase resolved vetted =>
      have closed : ClosedOut c ∧ Vetted c := by
        rcases phase with decisions | closeout
        · have vetted := vetted trivial
          refine ⟨⟨fun record member => h.recorded.approved vetted member, ?_, ?_⟩, vetted⟩
          · simpa [isPending] using resolved
          · by_contra running
            obtain ⟨record, member, unapproved⟩ :=
              h.reviewing (Or.inr decisions) (by simpa using running)
            exact unapproved (h.recorded.approved vetted member)
        · exact h.closed (Or.inl closeout)
      exact ⟨h.recorded, by simp, fun _ => ⟨⟨closed.1.approved, closed.1.resolved, closed.1.done⟩,
        closed.2⟩⟩
  | completes phase resolved done approved =>
      obtain ⟨closed, vetted⟩ := h.closed phase
      exact ⟨h.recorded, by simp, fun _ => ⟨⟨closed.approved, closed.resolved, closed.done⟩, vetted⟩⟩
  | @commits pending chosen edge stepped offered =>
      cases settled : (applyTransition pending.state edge).done with
      | false => exact .running (by simp [committedCheckpoint, settled]) h.recorded
      | true => exact ⟨h.recorded, by simp [committedCheckpoint, settled],
          by simp [committedCheckpoint, settled]⟩
  | @resolves current next found pending id kind resolved =>
      rw [← id] at found
      have contract : ¬ current.IsAcceptedContract := by
        rintro ⟨accepted, -⟩
        simp [pending] at accepted
      refine ⟨h.recorded.replace found fun accepted => absurd accepted contract, h.reviewing, ?_⟩
      intro phase
      have settled := (h.closed phase).1.resolved current (List.mem_of_find?_eq_some found)
      exact absurd pending settled
  | @reviews decision text found accepted fresh =>
      have member := List.mem_of_find?_eq_some found
      refine ⟨h.recorded.review member accepted text, ?_, ?_⟩
      · intro phase _
        have unapproved : ¬ Approved c decision.id := by
          refine fresh trivial fun workflow => ?_
          rw [reviewCheckpoint, workflow] at phase
          simp at phase
        dsimp only [reviewCheckpoint]
        split_ifs with recorded
        · obtain ⟨record, hrecord, named⟩ := List.any_eq_true.mp recorded
          refine ⟨record, hrecord, fun approved => unapproved ?_⟩
          exact ⟨record, hrecord, by simpa using named, approved⟩
        · exact ⟨⟨decision.id, .pending, none⟩, by simp, by simp⟩
      · intro phase
        have vetted := (h.closed phase).2
        refine absurd (vetted decision member accepted) (fresh trivial fun workflow => ?_)
        rw [reviewCheckpoint, workflow] at phase
        simp at phase
  | approves reviewing =>
      exact ⟨h.recorded.reviewedRecords .., by simp [reviewedCheckpoint],
        by simp [reviewedCheckpoint]⟩
  | @blocks id runId status state followUps reviewing unapproved phase =>
      refine ⟨h.recorded.reviewedRecords .., ?_, ?_⟩
      · intro _ _
        obtain ⟨record, member, named⟩ := reviewing.recorded
        refine ⟨⟨id, .verdict status, some runId⟩, ?_, by simpa using unapproved⟩
        exact List.mem_map.mpr ⟨record, member, by simp [named]⟩
      · intro closed
        have running := reviewing.running
        rw [(h.closed closed).1.done] at running
        cases running
  | reworks reviewing unapproved code =>
      exact .running rfl (h.recorded.reviewedRecords ..)

/-- Accepted contracts stay such when their texts change. -/
theorem rewords (h : ConsistentCheckpoint c) (changed : Rewords c next) :
    ConsistentCheckpoint next := by
  obtain ⟨current, reworded, found, contract, accepted, id, rfl⟩ := changed
  rw [← id] at found
  refine ⟨h.recorded.replace found fun _ => accepted, h.reviewing, ?_⟩
  intro phase
  obtain ⟨closed, vetted⟩ := h.closed phase
  refine ⟨⟨closed.approved, ?_, closed.done⟩, ?_⟩
  · intro decision member
    rcases mem_replaceDecision member with rfl | old
    · simp [accepted.1]
    · exact closed.resolved decision old
  · intro decision member stays
    rcases mem_replaceDecision member with rfl | old
    · rw [Approved, id]
      exact vetted current (List.mem_of_find?_eq_some found) contract
    · exact vetted decision old stays

theorem initial (runId : String) (host : CoordinatorHost) (options : OpenOptions) :
    ConsistentCheckpoint (initialCheckpoint runId host options) :=
  .running rfl ⟨List.nodup_nil, by simp [initialCheckpoint], List.nodup_nil⟩

theorem invariant : CoordinatorInvariant True ConsistentCheckpoint where
  initial := initial
  bound h := h.congr rfl rfl rfl rfl
  unique h := h.recorded.unique
  edge h written := h.edge written
  rewords h changed := h.rewords changed
  reopens h reopened := by
    obtain ⟨-, rfl⟩ := reopened
    exact h.congr rfl rfl rfl rfl
  unpauses h unpaused := by
    obtain ⟨-, rfl⟩ := unpaused
    exact h.congr rfl rfl rfl rfl
  raisesCap h raised := by
    obtain ⟨-, raised, rfl⟩ := raised
    exact .running rfl h.recorded

/-- From a consistent checkpoint `run` does not find a review unresolved. -/
theorem run_resolved (h : ConsistentCheckpoint c) {host : CoordinatorHost} {world : CoordinatorWorld}
    (documents : world.Documents) {m : Memory RunCheckpoint} (held : m.held.value = c)
    (detail : String) :
    ((run host world).runOn m).1 ≠ .error (.operations ⟨.unresolvedReview, detail⟩) := by
  intro thrown
  have follows : Follows host.config True (· = c) (run host world) (Ends c) (Unresolved world) :=
    follows_run h.recorded.unique
  obtain ⟨moved, -, throws⟩ := follows m held
  have last : ConsistentCheckpoint ((run host world).runOn m).2.held.value :=
    moved.held (fun _ _ h => h.edge) (fun _ _ h => h.rewords) (held ▸ h)
  obtain ⟨closed, record, member, unapproved⟩ := throws _ thrown documents detail rfl
  exact unapproved ((last.closed closed).1.approved record member)

end ConsistentCheckpoint

/-! ## Every reachable checkpoint -/

/-- Calls are made in turn, no approved contract is resolved again outside the workflow, and an
approval does not end the loop of `run` over another accepted contract. -/
def Orderly (system : CoordinatorSystem) (made : AdmittedEvent) : Prop :=
  system.Sequential made ∧ system.Promises made

/-- In runs whose calls are orderly a checkpoint that is closed out has nothing left to decide, to
review or to run, and `run` never finds a review unresolved. -/
theorem closeout_consistent {runId : String} {events : List AdmittedEvent}
    {system : CoordinatorSystem} {checkpoint : RunCheckpoint}
    (run : Run (Guarded CoordinatorSystem.Steps Orderly) (.start runId) events system)
    (reads : system.Reads checkpoint) :
    (checkpoint.phase = .closeout ∨ checkpoint.phase = .complete → ClosedOut checkpoint) ∧
      ∀ host (world : CoordinatorWorld) (m : Memory RunCheckpoint) detail,
        world.Documents → m.held.value = checkpoint →
        ((ProjectOperations.run host world).runOn m).1 ≠
          .error (.operations ⟨.unresolvedReview, detail⟩) := by
  have attended : Attended ConsistentCheckpoint system := by
    refine run.invariant ?_ (Attended.start runId)
    rintro before made _ h ⟨⟨sequential, promises⟩, rfl⟩
    exact h.step ConsistentCheckpoint.invariant sequential fun _ => promises
  have consistent := attended.of_reads reads
  exact ⟨fun phase => (consistent.closed phase).1,
    fun host world m detail documents held => consistent.run_resolved documents held detail⟩

/-! ## Scripted runs -/

/-- Follow-ups are told apart by their texts. -/
def contractsHost : CoordinatorHost := { gatedHost with
  config := coderReviewer
  followUpSemanticId := fun followUp => match followUp with
    | .contract title .. => title
    | _ => "" }

/-- A review of one finding. -/
def findingTurn (status resolution fresh : String) : StepOutcome :=
  .review [⟨quietTurn fresh, [(findingRound status resolution
    ⟨.approved, [], "", none, none⟩).submission]⟩] none

/-- A review that the session could not run. -/
def failedTurn : SessionReturn := ⟨.error (.thrown (.untyped none none)), []⟩

/-- A run that settles with contracts proposed. -/
def proposedScript (contracts : List FollowUp) : List AdmittedEvent :=
  admitAll (.opens 0 contractsHost ⟨none, false⟩) ::
    stepAndCommit (codeTurn "a") contracts (advanceTo coderReviewer .review 1) ++
    stepAndCommit (approvalTurn "b") [] (settle 1)

/-- A contract is accepted, and its review returns. -/
def resolveScript (title : String) (returned : SessionReturn) : List AdmittedEvent :=
  [.call 0 (.resolveDecision (halfDigest ("decision:" ++ title)) ⟨.operator, .accept, some "rule"⟩)
    quietWorld, .returns 0 0 returned quietWorld].map admitAll

/-- One contract, accepted and approved, and the run is closed out. -/
def approvedScript : List AdmittedEvent :=
  proposedScript [.contract "t" [] [] none] ++ resolveScript "t" ⟨.ok (approvalTurn "c"), []⟩ ++
    [admitAll (.call 0 .run quietWorld)]

/-- Two contracts are accepted and their reviews fail. Then `run` reviews both: the first one is
sent back and the second one is approved. -/
def sentBackScript : List AdmittedEvent :=
  proposedScript [.contract "t" [] [] none, .contract "u" [] [] none] ++
    resolveScript "t" failedTurn ++ resolveScript "u" failedTurn ++
    [.call 0 .run quietWorld, .returns 0 0 ⟨.ok (findingTurn "changes_requested" "new" "c"), []⟩
      quietWorld, .returns 0 0 ⟨.ok (findingTurn "approved" "closed" "d"), []⟩ quietWorld].map
      admitAll

/-- Calls are made in turn, and neither resolves an approved contract nor returns to the loop. -/
def resolvesOnce (system : CoordinatorSystem) (made : AdmittedEvent) : Bool :=
  match made.event with
  | .call id call _ => (system.coordinators id).all fun coordinator =>
      coordinator.flights.isEmpty && match call with
      | .resolveDecision decision _ => !decide (Approved coordinator.held.value decision)
      | _ => true
  | .returns id index _ _ => (system.coordinators id).all fun coordinator =>
      match coordinator.flights[index]? with
      | some (.review _ _ (some _)) => false
      | _ => true
  | _ => true

theorem orderly_of_resolvesOnce {system : CoordinatorSystem} {made : AdmittedEvent}
    (h : resolvesOnce system made = true) : Orderly system made := by
  obtain ⟨event, admitted⟩ := made
  cases event with
  | call id call world =>
      have checked (coordinator : Coordinator) (lives : system.coordinators id = some coordinator) :
          coordinator.flights = [] ∧ call.Promised coordinator.held.value := by
        simp only [resolvesOnce, lives, Option.all_some, Bool.and_eq_true] at h
        refine ⟨by simpa using h.1, ?_⟩
        cases call with
        | resolveDecision decision resolution => exact fun _ => by simpa using h.2
        | _ => trivial
      exact ⟨fun coordinator lives => (checked coordinator lives).1,
        fun coordinator lives => (checked coordinator lives).2⟩
  | returns id index returned world =>
      refine ⟨trivial, fun coordinator flight lives found => ?_⟩
      simp only [resolvesOnce, lives, Option.all_some, found] at h
      cases flight with
      | step checkpoint => trivial
      | review decision state rest =>
          cases rest with
          | none => trivial
          | some rest => cases h
  | _ => exact ⟨trivial, trivial⟩

/-- What is stored after a script. -/
def storedAfter (script : List AdmittedEvent) : Option RunCheckpoint :=
  (script.foldl CoordinatorSystem.step (.start "r")).file.map (·.value)

theorem reads_storedAfter {script : List AdmittedEvent} {checkpoint : RunCheckpoint}
    (h : storedAfter script = some checkpoint) :
    (script.foldl CoordinatorSystem.step (.start "r")).Reads checkpoint := by
  obtain ⟨stored, hstored, rfl⟩ := Option.map_eq_some_iff.mp h
  exact Or.inl ⟨stored, hstored, rfl⟩

theorem storedAfter_of_any {script : List AdmittedEvent} {check : RunCheckpoint → Bool}
    (h : (storedAfter script).any check = true) :
    ∃ checkpoint, storedAfter script = some checkpoint ∧ check checkpoint = true :=
  (Option.any_eq_true _ _).mp h

theorem closeout_consistent_approvedScript :
    ∃ (system : CoordinatorSystem) (checkpoint : RunCheckpoint), system.Reads checkpoint ∧
      checkpoint.phase = .complete ∧ ClosedOut checkpoint := by
  have run := Run.guarded_foldl (fun _ _ => orderly_of_resolvesOnce)
    (by decide +kernel :
      Run.checked CoordinatorSystem.step resolvesOnce (.start "r") approvedScript = true)
  obtain ⟨checkpoint, stored, complete⟩ := storedAfter_of_any
    (by decide +kernel :
      (storedAfter approvedScript).any (fun c => decide (c.phase = .complete)) = true)
  replace complete : checkpoint.phase = .complete := by simpa using complete
  exact ⟨_, checkpoint, reads_storedAfter stored, complete,
    (closeout_consistent run (reads_storedAfter stored)).1 (Or.inr complete)⟩

/-- `run` of a run that was closed out over an unapproved record. -/
theorem run_unresolved {host : CoordinatorHost} {world : CoordinatorWorld} {m : Memory RunCheckpoint}
    (phase : m.held.value.phase = .closeout) (closed : m.held.value.closeout = none)
    (resolved : m.held.value.decisions.any isPending = false)
    (done : m.held.value.workflowState.done = true)
    (unapproved : m.held.value.contractReviews.any (·.status ≠ .verdict .approved) = true) :
    ((run host world).runOn m).1 =
      .error (.operations ⟨.unresolvedReview, m.held.value.runId⟩) := by
  have reading (f : RunCheckpoint → CoordinatorSection Progress) :
      (Section.read >>= f).runOn m = (f m.held.value).runOn m := by
    rw [runOn_bind]
    rfl
  rw [run, reading]
  simp only [phase, reduceCtorEq, if_false, reading]
  rw [closeout, reading]
  simp only [closed, resolved, done, unapproved, Bool.true_eq_false, Bool.false_eq_true, if_false,
    if_true]
  rfl

/-- The second review of the loop closes the run out over the first one. -/
theorem closeout_consistent_refuted :
    (¬ ∀ (runId : String) (events : List AdmittedEvent) (system : CoordinatorSystem)
      (checkpoint : RunCheckpoint), Run CoordinatorSystem.Steps (.start runId) events system →
      system.Reads checkpoint → checkpoint.phase = .closeout ∨ checkpoint.phase = .complete →
        ClosedOut checkpoint) ∧
    ¬ ∀ (runId : String) (events : List AdmittedEvent) (system : CoordinatorSystem)
      (checkpoint : RunCheckpoint), Run CoordinatorSystem.Steps (.start runId) events system →
      system.Reads checkpoint → checkpoint.decisions.any isPending = false →
        ∃ host world m, m.held.value = checkpoint ∧ ∀ detail,
          ((run host world).runOn m).1 ≠ .error (.operations ⟨.unresolvedReview, detail⟩) := by
  obtain ⟨checkpoint, stored, facts⟩ := storedAfter_of_any
    (by decide +kernel : (storedAfter sentBackScript).any (fun c =>
      decide (c.phase = .closeout) && c.closeout.isNone && !c.decisions.any isPending &&
        c.workflowState.done && c.contractReviews.any (·.status ≠ .verdict .approved)) = true)
  simp only [Bool.and_eq_true, decide_eq_true_eq, Option.isNone_iff_eq_none, Bool.not_eq_true']
    at facts
  obtain ⟨⟨⟨⟨phase, closed⟩, resolved⟩, done⟩, unapproved⟩ := facts
  have reads := reads_storedAfter stored
  constructor
  · intro claim
    obtain ⟨record, member, status⟩ := List.any_eq_true.mp unapproved
    have consistent := claim "r" sentBackScript _ checkpoint (Run.foldl _ _ _) reads (Or.inl phase)
    simp [consistent.approved record member] at status
  · intro claim
    obtain ⟨host, world, m, rfl, resolves⟩ :=
      claim "r" sentBackScript _ checkpoint (Run.foldl _ _ _) reads resolved
    exact resolves _ (run_unresolved phase closed resolved done unapproved)

end AdCoder.ProjectOperations
