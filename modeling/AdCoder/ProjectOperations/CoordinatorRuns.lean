import AdCoder.Orchestration.SessionRuns
import AdCoder.ProjectOperations.Coordinator

/-!
# Runs of coordinators on one checkpoint

Any number of coordinators of one run share its checkpoint file. A coordinator
is opened, called, answered by its session and lost at any time, and a write is
refused whenever the storage or another writer decides so.
-/

namespace AdCoder.ProjectOperations

open Foundation Orchestration

/-- What a coordinator is opened with. -/
structure OpenOptions where
  taskDigest : Option String
  resumeExisting : Bool

structure Coordinator where
  host : CoordinatorHost
  held : VersionedState RunCheckpoint
  flights : List Flight

/-- The checkpoint file of one run and the coordinators that live. -/
structure CoordinatorSystem where
  runId : String
  file : Option (VersionedState RunCheckpoint)
  coordinators : Nat → Option Coordinator

inductive CoordinatorCall where
  | prepareStep
  | commitTransition (chosen : AvailableTransition)
  | run
  | resolveDecision (id : String) (resolution : DecisionResolution)
  | resumeResearch (source : ResolutionSource)
  | resumeStage
  | resumeRoundCap (limit : Nat) (reason : String)

inductive CoordinatorEvent where
  | opens (id : Nat) (host : CoordinatorHost) (options : OpenOptions)
  | crash (id : Nat)
  | call (id : Nat) (call : CoordinatorCall) (world : CoordinatorWorld)
  | returns (id index : Nat) (returned : SessionReturn) (world : CoordinatorWorld)

/-- An event, with how many of its writes the storage admits. -/
structure AdmittedEvent where
  event : CoordinatorEvent
  admitted : Nat

/-! ## Steps -/

def initialCheckpoint (runId : String) (host : CoordinatorHost) (options : OpenOptions) :
    RunCheckpoint where
  runId := runId
  taskDigest := options.taskDigest
  phase := .workflow
  workflowState := initialState host.config
  followUps := []
  completedEffects := []
  decisions := []
  contractReviews := []
  closeout := none
  pendingStep := none
  raisedRoundCap := none
  researchEffect := none
  pause := none

/-- The constructor: the held checkpoint, or none when it throws. A checkpoint
without a task is bound to the one it is resumed with. -/
def openCheckpoint (system : CoordinatorSystem) (host : CoordinatorHost) (options : OpenOptions)
    (admitted : Nat) : Option (VersionedState RunCheckpoint) :=
  match system.file with
  | none =>
      if options.resumeExisting ∨ admitted = 0 then none
      else some ⟨1, initialCheckpoint system.runId host options⟩
  | some stored =>
      if stored.value.runId ≠ system.runId then none
      else match options.taskDigest, stored.value.taskDigest with
        | some digest, some bound => if bound = digest then some stored else none
        | some digest, none =>
            if !options.resumeExisting then some stored
            else if admitted = 0 then none
            else some ⟨stored.version + 1, { stored.value with taskDigest := some digest }⟩
        | none, _ => some stored

def CoordinatorCall.section (host : CoordinatorHost) (world : CoordinatorWorld) :
    CoordinatorCall → CoordinatorSection Progress
  | .prepareStep => ProjectOperations.prepareStep host world
  | .commitTransition chosen => ProjectOperations.commitTransition host chosen world
  | .run => ProjectOperations.run host world
  | .resolveDecision id resolution =>
      ProjectOperations.resolveDecision host id resolution none world
  | .resumeResearch source => ProjectOperations.resumeResearch source
  | .resumeStage => ProjectOperations.resumeStage host
  | .resumeRoundCap limit reason => ProjectOperations.resumeRoundCap limit reason world

/-- The rest of a call whose session has returned. -/
def Flight.section (host : CoordinatorHost) (returned : SessionReturn)
    (world : CoordinatorWorld) : Flight → CoordinatorSection Progress
  | .step checkpoint => finishStep host checkpoint returned world
  | .review id state none => finishReview host id state returned
  | .review id state (some rest) => do
      let _ ← finishReview host id state returned
      resolveAccepted host world rest

/-- The flight that a section leaves, if it ends at an await. -/
def Progress.flight? : Except CoordinatorError Progress → List Flight
  | .ok (.awaits flight) => [flight]
  | _ => []

/-- Run a section of a coordinator, whose other flights are given. -/
def CoordinatorSystem.runSection (system : CoordinatorSystem) (id : Nat)
    (coordinator : Coordinator) (others : List Flight) (body : CoordinatorSection Progress)
    (admitted : Nat) : CoordinatorSystem :=
  let (result, memory) := body.runOn ⟨system.file, coordinator.held, admitted⟩
  { system with
    file := memory.file
    coordinators := Function.update system.coordinators id (some { coordinator with
      held := memory.held
      flights := others ++ Progress.flight? result }) }

def CoordinatorSystem.step (system : CoordinatorSystem) (made : AdmittedEvent) :
    CoordinatorSystem :=
  match made.event with
  | .opens id host options =>
      match openCheckpoint system host options made.admitted with
      | none => system
      | some held => { system with
          file := some held
          coordinators := Function.update system.coordinators id (some ⟨host, held, []⟩) }
  | .crash id => { system with
      coordinators := Function.update system.coordinators id none }
  | .call id call world =>
      match system.coordinators id with
      | none => system
      | some coordinator => system.runSection id coordinator coordinator.flights
          (call.section coordinator.host world) made.admitted
  | .returns id index returned world =>
      match system.coordinators id with
      | none => system
      | some coordinator =>
          match coordinator.flights[index]? with
          | none => system
          | some flight => system.runSection id coordinator (coordinator.flights.eraseIdx index)
              (flight.section coordinator.host returned world) made.admitted

/-- Nothing is stored and no coordinator lives. -/
def CoordinatorSystem.start (runId : String) : CoordinatorSystem := ⟨runId, none, fun _ => none⟩

abbrev CoordinatorSystem.Steps (system : CoordinatorSystem) (made : AdmittedEvent)
    (next : CoordinatorSystem) : Prop := next = system.step made

/-- The checkpoints that can be read: the stored one and those held. -/
def CoordinatorSystem.Reads (system : CoordinatorSystem) (checkpoint : RunCheckpoint) : Prop :=
  (∃ stored ∈ system.file, checkpoint = stored.value) ∨
    ∃ id coordinator, system.coordinators id = some coordinator ∧
      checkpoint = coordinator.held.value

/-! ## Sections keep what their writes keep -/

/-- The flight that a section awaits where it ends satisfies the property. -/
def Progress.Awaits (F : Flight → Prop) : Progress → Prop
  | .awaits flight => F flight
  | _ => True

/-- A property of the workflow, the pending step and the pause that survives when the pause is
cleared. -/
def Quiet (S : RunCheckpoint → Prop) : Prop :=
  ∀ c next : RunCheckpoint, S c → next.workflowState = c.workflowState →
    next.pendingStep = c.pendingStep → (next.pause = c.pause ∨ next.pause = none) → S next

section Keeping

open Section

variable {host : CoordinatorHost} {world : CoordinatorWorld} {S : RunCheckpoint → Prop}
  {F : Flight → Prop}

theorem keeps_refuse {α : Type} {code : ProjectOperationsErrorCode} {detail : String}
    {Q : α → Prop} : Keeps S (refuse code detail) Q :=
  .throws

theorem keeps_liftOperations {α : Type} (x : Except ProjectOperationsError α) :
    Keeps S (liftOperations x) fun _ => True := by
  cases x with
  | ok a => exact .returns trivial
  | error error => exact .throws

theorem keeps_save {checkpoint : RunCheckpoint} (h : S checkpoint) :
    Keeps S (saveCheckpoint checkpoint) fun _ => True :=
  .saves h

/-- Save a checkpoint and end. -/
theorem keeps_save_return {checkpoint : RunCheckpoint} {progress : Progress}
    (h : S checkpoint) (ends : progress.Awaits F) :
    Keeps S (do saveCheckpoint checkpoint; return progress) (Progress.Awaits F) :=
  (keeps_save h).bind fun _ _ => .returns ends

theorem keeps_recordBacklog {followUp : FollowUp} {id : String} :
    Keeps S (recordBacklog host world followUp id) fun _ => True := by
  refine .branch (fun _ => keeps_refuse) fun _ => ?_
  split
  · exact .returns trivial
  · split
    · exact .returns trivial
    · exact .throws
  · exact .throws

section Quiet

variable (quiet : Quiet S)
include quiet

theorem keeps_resumeResearch {source : ResolutionSource} :
    Keeps S (resumeResearch source) (Progress.Awaits F) := by
  refine .bind .reads fun checkpoint kept => ?_
  refine .branch (fun _ => keeps_refuse) fun _ => ?_
  exact keeps_save_return (quiet _ _ kept rfl rfl (Or.inr rfl)) trivial

theorem keeps_resumeStage : Keeps S (resumeStage host) (Progress.Awaits F) := by
  refine .bind .reads fun checkpoint kept => ?_
  have cleared : S { checkpoint with pause := none } := quiet _ _ kept rfl rfl (Or.inr rfl)
  cases checkpoint.pause with
  | none => exact keeps_refuse
  | some pause =>
      refine .branch (fun _ => keeps_refuse) fun _ => ?_
      refine .branch (fun _ => keeps_save_return cleared trivial) fun _ => ?_
      dsimp only
      split
      · refine .branch (fun _ => keeps_refuse) fun _ => ?_
        exact keeps_save_return cleared trivial
      · exact keeps_refuse

theorem keeps_recordEffect {key : String} : Keeps S (recordEffect key) fun _ => True := by
  refine .bind .reads fun checkpoint kept => ?_
  exact .branch (fun _ => .returns trivial) fun _ =>
    keeps_save (quiet _ _ kept rfl rfl (Or.inl rfl))

theorem keeps_ensureDecision {followUp : FollowUp} {kind : DecisionKind} :
    Keeps S (ensureDecision host followUp kind) fun _ => True := by
  refine .bind .reads fun checkpoint kept => ?_
  refine .branch (fun _ => .returns trivial) fun _ => ?_
  refine .branch (fun _ => keeps_refuse) fun _ => ?_
  exact keeps_save (quiet _ _ kept rfl rfl (Or.inl rfl))

theorem keeps_processFollowUp {followUp : FollowUp} :
    Keeps S (processFollowUp host world followUp) fun _ => True := by
  refine .bind .reads fun checkpoint _ => ?_
  refine .branch (fun _ => .returns trivial) fun _ => ?_
  split
  · exact .bind (keeps_ensureDecision quiet) fun _ _ => keeps_recordEffect quiet
  · exact .bind keeps_recordBacklog fun _ _ => keeps_recordEffect quiet
  · split
    · exact keeps_recordEffect quiet
    · refine .branch (fun _ => ?_) fun _ => .throws
      exact .bind (keeps_ensureDecision quiet) fun _ _ => keeps_recordEffect quiet

theorem keeps_processFollowUps : Keeps S (processFollowUps host world) fun _ => True := by
  refine .bind .reads fun checkpoint _ => ?_
  refine .branch (fun _ => .returns trivial) fun _ => ?_
  refine .bind (.forM fun followUp _ => keeps_processFollowUp quiet) fun _ _ => ?_
  refine .bind .reads fun processed kept => ?_
  exact keeps_save (quiet _ _ kept rfl rfl (Or.inl rfl))

theorem keeps_closeout : Keeps S (closeout host) (Progress.Awaits F) := by
  refine .bind .reads fun checkpoint kept => ?_
  cases checkpoint.closeout with
  | some closed => exact .returns trivial
  | none =>
      refine .branch (fun _ => .returns trivial) fun _ => ?_
      refine .branch (fun _ => .returns trivial) fun _ => ?_
      refine .branch (fun _ => keeps_refuse) fun _ => ?_
      refine .bind (keeps_save (quiet _ _ kept rfl rfl (Or.inl rfl))) fun _ _ => ?_
      exact .bind .reads fun _ _ => .returns trivial

end Quiet

/-- What is left to show of a property of checkpoints and of one of flights, so that every call
keeps them: how a step is prepared and committed, how a review starts and how a cap is raised. -/
structure Upheld (S : RunCheckpoint → Prop) (F : Flight → Prop) : Prop where
  quiet : Quiet S
  prepares : ∀ {host : CoordinatorHost} {world : CoordinatorWorld},
    Keeps S (prepareStep host world) (Progress.Awaits F)
  commits : ∀ (c : RunCheckpoint) (pending : StepResult) (edge : AvailableTransition)
    (phase : CoordinatorPhase), S c → c.pendingStep = some pending → S { c with
      workflowState := applyTransition pending.state edge
      phase := phase
      pendingStep := none }
  reviews : ∀ {host : CoordinatorHost} {world : CoordinatorWorld} {id : String}
    {decision : OperatorDecision} {rest : Option (List OperatorDecision)},
    Keeps S (startContractReview host id decision rest world) (Progress.Awaits F)
  raises : ∀ {world : CoordinatorWorld} {limit : Nat} {reason : String},
    Keeps S (resumeRoundCap limit reason world) (Progress.Awaits F)

namespace Upheld

variable (upheld : Upheld S F)
include upheld

theorem commitTransition {chosen : AvailableTransition} :
    Keeps S (commitTransition host chosen world) (Progress.Awaits F) := by
  refine .bind .reads fun checkpoint kept => ?_
  split
  · exact keeps_refuse
  · next pending edge found =>
      obtain ⟨result, hresult, hedge⟩ := Option.bind_eq_some_iff.mp found
      obtain ⟨offered, _, same⟩ := Option.map_eq_some_iff.mp hedge
      obtain ⟨rfl, rfl⟩ := Prod.mk.inj same
      refine .bind (keeps_save (upheld.commits _ _ _ _ kept hresult)) fun _ _ => ?_
      refine .branch (fun _ => ?_) fun _ => .returns trivial
      refine .bind (keeps_processFollowUps upheld.quiet) fun _ _ => ?_
      refine .bind .reads fun processed _ => ?_
      refine .branch (fun _ => ?_) fun _ => .returns trivial
      exact .bind (keeps_closeout (F := F) upheld.quiet) fun _ _ => .returns trivial

theorem resolveDecision {id : String} {resolution : DecisionResolution}
    {rest : Option (List OperatorDecision)} :
    Keeps S (resolveDecision host id resolution rest world) (Progress.Awaits F) := by
  refine .branch (fun _ => keeps_refuse) fun _ => ?_
  refine .bind .reads fun checkpoint kept => ?_
  split
  · exact keeps_refuse
  · refine .branch (fun _ => .returns trivial) fun _ => ?_
    refine .bind (keeps_liftOperations _) fun next _ => ?_
    have resolved : S { checkpoint with
        decisions := replaceDecision checkpoint.decisions next } :=
      upheld.quiet _ _ kept rfl rfl (Or.inl rfl)
    have settles : Keeps S (if next.status ≠ .accepted ∨ next.kind ≠ .contract then
        return Progress.resolved
        else startContractReview host id next rest world) (Progress.Awaits F) :=
      .branch (fun _ => .returns trivial) fun _ => upheld.reviews
    refine .branch (fun _ => ?_) fun _ => ?_
    · exact .bind (keeps_save resolved) fun _ _ => settles
    · exact .bind (.assigns resolved) fun _ _ => settles

theorem settleDecisions : Keeps S (settleDecisions host world) (Progress.Awaits F) := by
  refine .bind .reads fun resumed _ => ?_
  refine .branch (fun _ => upheld.prepares) fun _ => ?_
  refine .branch (fun _ => .bind (keeps_processFollowUps upheld.quiet) fun _ _ => ?_) fun _ => ?_
  all_goals
    refine .bind .reads fun settled kept => ?_
    refine .branch (fun _ => .returns trivial) fun _ => ?_
    exact .bind (keeps_save (upheld.quiet _ _ kept rfl rfl (Or.inl rfl))) fun _ _ =>
      keeps_closeout upheld.quiet

theorem resolveAccepted {decisions : List OperatorDecision} :
    Keeps S (resolveAccepted host world decisions) (Progress.Awaits F) := by
  induction decisions with
  | nil => exact upheld.settleDecisions
  | cons decision rest ih =>
      refine .bind .reads fun checkpoint _ => ?_
      refine .branch (fun _ => ?_) fun _ => ih
      refine upheld.resolveDecision.bind fun progress awaited => ?_
      split
      · exact .returns awaited
      · exact ih

theorem run : Keeps S (run host world) (Progress.Awaits F) := by
  refine .bind .reads fun checkpoint _ => ?_
  refine .branch (fun _ => ?_) fun _ => ?_
  · refine upheld.prepares.bind fun progress awaited => ?_
    refine .bind .reads fun now _ => ?_
    split
    · exact .branch (fun _ => .returns trivial) fun _ => .returns trivial
    · exact .returns awaited
  · refine .branch (fun _ => .bind (keeps_processFollowUps upheld.quiet) fun _ _ => ?_) fun _ => ?_
    all_goals
      refine .bind .reads fun processed _ => ?_
      exact .branch (fun _ => upheld.resolveAccepted) fun _ => keeps_closeout upheld.quiet

theorem call (call : CoordinatorCall) (host : CoordinatorHost) (world : CoordinatorWorld) :
    Keeps S (call.section host world) (Progress.Awaits F) := by
  cases call with
  | prepareStep => exact upheld.prepares
  | commitTransition chosen => exact upheld.commitTransition
  | run => exact upheld.run
  | resolveDecision id resolution => exact upheld.resolveDecision
  | resumeResearch source => exact keeps_resumeResearch upheld.quiet
  | resumeStage => exact keeps_resumeStage upheld.quiet
  | resumeRoundCap limit reason => exact upheld.raises

end Upheld

end Keeping

/-! ## What every reachable checkpoint keeps -/

structure KeptCoordinator (S : RunCheckpoint → Prop) (F : Flight → Prop)
    (coordinator : Coordinator) : Prop where
  held : S coordinator.held.value
  flights : ∀ flight ∈ coordinator.flights, F flight

structure KeptSystem (S : RunCheckpoint → Prop) (F : Flight → Prop)
    (system : CoordinatorSystem) : Prop where
  stored : ∀ stored ∈ system.file, S stored.value
  lives : ∀ {id coordinator}, system.coordinators id = some coordinator →
    KeptCoordinator S F coordinator

/-- A flight that a section leaves is the one that it awaits. -/
theorem mem_flights {result : Except CoordinatorError Progress} {flight : Flight}
    (h : flight ∈ Progress.flight? result) :
    ∃ progress, result = .ok progress ∧ progress = .awaits flight := by
  rw [Progress.flight?.eq_def] at h
  split at h
  · exact ⟨_, rfl, by rw [List.mem_singleton.mp h]⟩
  · cases h

namespace KeptSystem

variable {S : RunCheckpoint → Prop} {F : Flight → Prop} {system : CoordinatorSystem}

theorem start (runId : String) : KeptSystem S F (.start runId) := by
  refine ⟨?_, ?_⟩ <;> simp [CoordinatorSystem.start]

/-- One coordinator and the file change. -/
theorem update (h : KeptSystem S F system) (id : Nat)
    {file : Option (VersionedState RunCheckpoint)} {changed : Option Coordinator}
    (stored : ∀ stored ∈ file, S stored.value)
    (kept : ∀ coordinator ∈ changed, KeptCoordinator S F coordinator) :
    KeptSystem S F { system with
      file := file
      coordinators := Function.update system.coordinators id changed } := by
  refine ⟨stored, ?_⟩
  intro other coordinator found
  dsimp only at found
  by_cases same : other = id
  · subst same
    rw [Function.update_self] at found
    exact kept coordinator found
  · rw [Function.update_of_ne same] at found
    exact h.lives found

theorem runSection (h : KeptSystem S F system) {id : Nat} {coordinator : Coordinator}
    (lives : system.coordinators id = some coordinator) {others : List Flight}
    (flights : ∀ flight ∈ others, F flight) {body : CoordinatorSection Progress}
    (keeps : Section.Keeps S body (Progress.Awaits F)) (admitted : Nat) :
    KeptSystem S F (system.runSection id coordinator others body admitted) := by
  obtain ⟨within, returned⟩ := keeps ⟨system.file, coordinator.held, admitted⟩
    ⟨h.stored, (h.lives lives).held⟩
  refine h.update id within.file ?_
  intro changed hchanged
  obtain rfl := Option.some.inj hchanged
  refine ⟨within.held, ?_⟩
  intro flight hflight
  rcases List.mem_append.mp hflight with hflight | hflight
  · exact flights flight hflight
  · obtain ⟨progress, result, awaited⟩ := mem_flights hflight
    rw [awaited] at result
    exact returned _ result

theorem openCheckpoint (h : KeptSystem S F system) (quiet : Quiet S)
    (initial : ∀ runId host options, S (initialCheckpoint runId host options))
    {host : CoordinatorHost} {options : OpenOptions} {admitted : Nat}
    {held : VersionedState RunCheckpoint}
    (opened : openCheckpoint system host options admitted = some held) : S held.value := by
  rw [ProjectOperations.openCheckpoint] at opened
  cases hfile : system.file with
  | none =>
      simp only [hfile] at opened
      split_ifs at opened
      obtain rfl := Option.some.inj opened
      exact initial _ _ _
  | some stored =>
      have kept := h.stored stored hfile
      simp only [hfile] at opened
      by_cases named : stored.value.runId ≠ system.runId
      · simp [named] at opened
      rw [if_neg named] at opened
      split at opened
      · split_ifs at opened
        obtain rfl := Option.some.inj opened
        exact kept
      · split_ifs at opened
        · obtain rfl := Option.some.inj opened
          exact kept
        · obtain rfl := Option.some.inj opened
          exact quiet _ _ kept rfl rfl (Or.inl rfl)
      · obtain rfl := Option.some.inj opened
        exact kept

theorem opens (h : KeptSystem S F system) (id : Nat) {host : CoordinatorHost}
    {held : VersionedState RunCheckpoint} (kept : S held.value) :
    KeptSystem S F { system with
      file := some held
      coordinators := Function.update system.coordinators id (some ⟨host, held, []⟩) } := by
  refine h.update id ?_ ?_
  · intro stored hstored
    obtain rfl := Option.some.inj hstored
    exact kept
  · intro coordinator hcoordinator
    obtain rfl := Option.some.inj hcoordinator
    exact ⟨kept, by simp⟩

theorem crash (h : KeptSystem S F system) (id : Nat) :
    KeptSystem S F { system with
      coordinators := Function.update system.coordinators id none } :=
  h.update id h.stored (by simp)

/-- A step keeps what its calls keep, if the flight that it lets land keeps it. -/
theorem step (h : KeptSystem S F system) (upheld : Upheld S F)
    (initial : ∀ runId host options, S (initialCheckpoint runId host options))
    {made : AdmittedEvent}
    (lands : ∀ id index returned world coordinator flight,
      made.event = .returns id index returned world → system.coordinators id = some coordinator →
        coordinator.flights[index]? = some flight → F flight →
          Section.Keeps S (flight.section coordinator.host returned world) (Progress.Awaits F)) :
    KeptSystem S F (system.step made) := by
  obtain ⟨event, admitted⟩ := made
  rw [CoordinatorSystem.step]
  cases event with
  | opens id host options =>
      dsimp only
      split
      · exact h
      · next held opened => exact h.opens id (h.openCheckpoint upheld.quiet initial opened)
  | crash id => exact h.crash id
  | call id call world =>
      dsimp only
      split
      · exact h
      · next coordinator lives =>
          exact h.runSection lives (h.lives lives).flights (upheld.call call _ world) admitted
  | returns id index returned world =>
      dsimp only
      split
      · exact h
      · next coordinator lives =>
          split
          · exact h
          · next flight hflight =>
              have others : ∀ other ∈ coordinator.flights.eraseIdx index, F other :=
                fun other hother => (h.lives lives).flights other (List.mem_of_mem_eraseIdx hother)
              have awaited := (h.lives lives).flights flight (List.mem_of_getElem? hflight)
              exact h.runSection lives others
                (lands _ _ _ _ _ _ rfl lives hflight awaited) admitted

/-- What can be read is kept. -/
theorem of_reads (h : KeptSystem S F system) {checkpoint : RunCheckpoint}
    (reads : system.Reads checkpoint) : S checkpoint := by
  rcases reads with ⟨stored, hstored, rfl⟩ | ⟨id, coordinator, lives, rfl⟩
  · exact h.stored stored hstored
  · exact (h.lives lives).held

end KeptSystem

/-! ## Honest checkpoints -/

/-- An approved state is settled and its gates are not red. -/
def HonestState (state : WorkflowState) : Prop :=
  state.approved = true → state.done = true ∧ state.gatesRed = false

/-- A checkpoint that blesses no red gate, now or with its pending step. -/
structure HonestCheckpoint (checkpoint : RunCheckpoint) : Prop where
  state : HonestState checkpoint.workflowState
  pending : ∀ result ∈ checkpoint.pendingStep, result.state.approved = false

/-- A flight captured a running checkpoint, or an unapproved state in review. -/
def HonestFlight : Flight → Prop
  | .step checkpoint => HonestCheckpoint checkpoint ∧ checkpoint.workflowState.done = false
  | .review _ state _ => state.phase = .review ∧ state.approved = false

abbrev HonestProgress : Progress → Prop := Progress.Awaits HonestFlight

theorem HonestState.of_unapproved {state : WorkflowState} (h : state.approved = false) :
    HonestState state := by
  simp [HonestState, h]

/-- A state that runs is not approved. -/
theorem HonestState.running {state : WorkflowState} (h : HonestState state)
    (running : state.done = false) : state.approved = false := by
  rw [Bool.eq_false_iff]
  intro approved
  have settled := (h approved).1
  simp [running] at settled

/-- Only the course of the run matters. -/
theorem HonestState.of_control {state other : WorkflowState} (h : HonestState state)
    (same : other.control = state.control) : HonestState other := by
  simp only [WorkflowState.control, Control.mk.injEq] at same
  obtain ⟨_, _, _, report, done, approved⟩ := same
  rw [HonestState, WorkflowState.gatesRed, approved, done, report]
  exact h

theorem honestState_applyTransition {state : WorkflowState} {edge : AvailableTransition}
    (running : state.approved = false) : HonestState (applyTransition state edge) := by
  intro approved
  obtain ⟨settles, _, green⟩ := (applyTransition_approved running).mp approved
  constructor
  · simp [applyTransition, settles]
  · rwa [applyTransition_gatesRed]

theorem step_approved {config : PipelineConfig} {state : WorkflowState} {outcome : StepOutcome}
    {result : StepResult} (h : Orchestration.step config state outcome = .ok result) :
    result.state.approved = state.approved ∧
      result.state.lastGateReport = reportAfter state outcome := by
  have control := (step_spec h).control
  simp only [WorkflowState.control, Control.mk.injEq] at control
  exact ⟨control.2.2.2.2.2, control.2.2.2.1⟩

/-- A review in the review phase is a step, and leaves the gate report alone. -/
theorem reviewCurrent_unapproved {config : PipelineConfig} {state : WorkflowState}
    {outcome : StepOutcome} {result : StepResult} (phase : state.phase = .review)
    (h : reviewCurrent config state outcome = .ok result) :
    result.state.approved = state.approved ∧ result.state.gatesRed = state.gatesRed := by
  cases outcome with
  | review turns inventory =>
      have stepped : Orchestration.step config state (.review turns inventory) = .ok result := by
        simp only [Orchestration.step, phase]
        exact h
      obtain ⟨approved, report⟩ := step_approved stepped
      refine ⟨approved, ?_⟩
      simp only [WorkflowState.gatesRed, report, reportAfter]
  | _ => cases h

theorem settle_eq_ok {returned : SessionReturn} {method : StepOutcome → Except StepError StepResult}
    {result : StepResult} (h : returned.settle method = .ok result) :
    ∃ outcome, method outcome = .ok result := by
  rw [SessionReturn.settle] at h
  split at h
  · cases h
  · next outcome _ =>
      refine ⟨outcome, ?_⟩
      cases made : method outcome with
      | error error => simp [made, Except.mapError] at h
      | ok value => simpa [made, Except.mapError] using h

/-! ## What a failed step leaves -/

@[simp] theorem failedState_control (state : WorkflowState) (turn : FailedTurn) :
    (failedState state turn).control = state.control := rfl

@[simp] theorem limitedState_control (state : WorkflowState) (error : StageLimitError)
    (turn : Option FailedTurn) : (limitedState state error turn).control = state.control := by
  cases turn with
  | none => rfl
  | some turn =>
      rw [limitedState]
      split_ifs <;> rfl

@[simp] theorem recordCause_control (state : WorkflowState) (phase : WorkflowPhase)
    (cause : Option PipelinePauseCause) :
    (recordCause state phase cause).control = state.control := by
  cases cause <;> rfl

/-- A failed step keeps the course of the captured state and a pending step. -/
theorem failedStep_spec {now checkpoint next : RunCheckpoint} {failure : SessionFailure}
    (h : failedStep now checkpoint failure = some next) :
    next.workflowState.control = checkpoint.workflowState.control ∧
      (next.pendingStep = now.pendingStep ∨ next.pendingStep = checkpoint.pendingStep) := by
  cases failure with
  | stageLimit error turn =>
      obtain rfl := Option.some.inj h
      exact ⟨limitedState_control .., Or.inl rfl⟩
  | stageFailure turn source =>
      simp only [failedStep] at h
      split_ifs at h
      · obtain rfl := Option.some.inj h
        exact ⟨failedState_control .., Or.inl rfl⟩
      · obtain rfl := Option.some.inj h
        exact ⟨recordCause_control .., Or.inl rfl⟩
  | orchestration error =>
      simp only [failedStep] at h
      split_ifs at h
      · obtain rfl := Option.some.inj h
        exact ⟨recordCause_control .., Or.inr rfl⟩
      · obtain rfl := Option.some.inj h
        exact ⟨recordCause_control .., Or.inr rfl⟩
      · obtain rfl := Option.some.inj h
        exact ⟨rfl, Or.inl rfl⟩
  | thrown source =>
      simp only [failedStep] at h
      split_ifs at h
      obtain rfl := Option.some.inj h
      exact ⟨rfl, Or.inl rfl⟩

theorem HonestCheckpoint.failedStep {now checkpoint next : RunCheckpoint}
    {failure : SessionFailure} (held : HonestCheckpoint now) (captured : HonestCheckpoint checkpoint)
    (h : failedStep now checkpoint failure = some next) : HonestCheckpoint next := by
  obtain ⟨control, pending⟩ := failedStep_spec h
  refine ⟨captured.state.of_control control, ?_⟩
  rcases pending with pending | pending
  · rw [pending]
    exact held.pending
  · rw [pending]
    exact captured.pending

/-! ## Sections keep checkpoints honest -/

section Honest

open Section

variable {host : CoordinatorHost} {world : CoordinatorWorld}

/-- A section that starts with honest checkpoints writes only such. -/
abbrev KeepsHonest {α : Type} (x : CoordinatorSection α) (Q : α → Prop) : Prop :=
  Section.Keeps HonestCheckpoint x Q

theorem keepsHonest_resumeRoundCap {limit : Nat} {reason : String} :
    KeepsHonest (resumeRoundCap limit reason world) HonestProgress := by
  refine .bind .reads fun checkpoint _ => ?_
  refine .branch (fun _ => keeps_refuse) fun _ => ?_
  refine .branch (fun _ => keeps_refuse) fun _ => ?_
  exact keeps_save_return ⟨.of_unapproved rfl, by simp⟩ trivial

theorem keepsHonest_pauseStep {checkpoint : RunCheckpoint} {pause : Pause}
    (h : HonestCheckpoint checkpoint) : KeepsHonest (pauseStep checkpoint pause) HonestProgress :=
  keeps_save_return ⟨h.state, h.pending⟩ trivial

theorem keepsHonest_dispatchResearch {checkpoint : RunCheckpoint}
    {intent : ResearchDispatchIntent} (honest : HonestCheckpoint checkpoint)
    (running : checkpoint.workflowState.done = false) :
    KeepsHonest (dispatchResearch checkpoint intent) HonestProgress := by
  have dispatched : HonestCheckpoint { checkpoint with
      researchEffect := some ⟨intent, .dispatched⟩ } := ⟨honest.state, honest.pending⟩
  exact keeps_save_return dispatched ⟨dispatched, running⟩

theorem keepsHonest_prepareStep : KeepsHonest (prepareStep host world) HonestProgress := by
  refine .bind .reads fun checkpoint honest => ?_
  refine .branch (fun _ => .returns trivial) fun active => ?_
  refine .branch (fun _ => .returns trivial) fun _ => ?_
  have running : checkpoint.workflowState.done = false := by
    simpa using (not_or.mp active).2
  cases checkpoint.pendingStep with
  | some pending => exact .returns trivial
  | none =>
      refine .branch (fun _ => keepsHonest_pauseStep honest) fun _ => ?_
      refine .branch (fun _ => .returns ⟨honest, running⟩) fun _ => ?_
      cases checkpoint.researchEffect with
      | some effect =>
          exact .branch (fun _ => keepsHonest_pauseStep honest) fun _ =>
            keepsHonest_dispatchResearch honest running
      | none =>
          dsimp only
          split
          · exact keepsHonest_pauseStep honest
          · exact keepsHonest_pauseStep honest
          · next intent _ =>
              have prepared : HonestCheckpoint (preparedCheckpoint checkpoint intent) :=
                ⟨honest.state.of_control rfl, honest.pending⟩
              exact (keeps_save prepared).bind fun _ _ =>
                keepsHonest_dispatchResearch prepared running

theorem keepsHonest_finishStep {checkpoint : RunCheckpoint} {returned : SessionReturn}
    (captured : HonestCheckpoint checkpoint)
    (running : checkpoint.workflowState.done = false) :
    KeepsHonest (finishStep host checkpoint returned world) HonestProgress := by
  rw [finishStep]
  split
  · next failure _ =>
      refine .bind .reads fun now held => ?_
      split_ifs
      · exact keepsHonest_pauseStep held
      · split
        · exact .throws
        · next next hnext =>
            exact keeps_save_return (held.failedStep captured hnext) trivial
  · next result hresult =>
      obtain ⟨outcome, stepped⟩ := settle_eq_ok hresult
      have unapproved : result.state.approved = false :=
        (step_approved stepped).1.trans (captured.state.running running)
      refine .bind (keeps_liftOperations _) fun followUps _ => ?_
      refine keeps_save_return ⟨captured.state, ?_⟩ trivial
      intro pending hpending
      obtain rfl := Option.some.inj hpending
      exact unapproved

theorem keepsHonest_startContractReview {id : String} {decision : OperatorDecision}
    {rest : Option (List OperatorDecision)} :
    KeepsHonest (startContractReview host id decision rest world) HonestProgress := by
  refine .bind .reads fun checkpoint honest => ?_
  split
  · exact keeps_refuse
  · refine .branch (fun _ => keeps_refuse) fun _ => ?_
    refine .bind (keeps_liftOperations _) fun _ _ => ?_
    exact keeps_save_return ⟨.of_unapproved rfl, honest.pending⟩ ⟨rfl, rfl⟩

theorem quiet_honest : Quiet HonestCheckpoint := by
  intro c next honest state pending _
  exact ⟨state ▸ honest.state, pending ▸ honest.pending⟩

theorem upheld_honest : Upheld HonestCheckpoint HonestFlight where
  quiet := quiet_honest
  prepares := keepsHonest_prepareStep
  commits c pending edge _ honest stepped :=
    ⟨honestState_applyTransition (honest.pending pending stepped), by simp⟩
  reviews := keepsHonest_startContractReview
  raises := keepsHonest_resumeRoundCap

/-- A review that does not approve over red gates leaves the checkpoint honest. -/
theorem keepsHonest_finishReview {id : String} {state : WorkflowState}
    {returned : SessionReturn} (phase : state.phase = .review) (unapproved : state.approved = false)
    (green : ∀ review, returned.settle (reviewCurrent host.config state) = .ok review →
      review.verdict.map (·.status) = some .approved → state.gatesRed = false) :
    KeepsHonest (finishReview host id state returned) HonestProgress := by
  rw [finishReview]
  split
  · exact .throws
  · next review hreview =>
      obtain ⟨outcome, stepped⟩ := settle_eq_ok hreview
      obtain ⟨same, report⟩ := reviewCurrent_unapproved phase stepped
      have running : review.state.approved = false := same.trans unapproved
      split
      · exact keeps_refuse
      · next verdict hverdict =>
          refine .bind .reads fun now held => ?_
          refine .bind (keeps_liftOperations _) fun followUps _ => ?_
          refine .branch (fun approves => ?_) fun _ => ?_
          · have gates : review.state.gatesRed = false := by
              rw [report]
              exact green review hreview (by simp [hverdict, approves])
            exact keeps_save_return ⟨fun _ => ⟨rfl, gates⟩, held.pending⟩ trivial
          · split
            · refine .bind (keeps_save ⟨.of_unapproved running, held.pending⟩) fun _ _ => ?_
              exact keeps_refuse
            · exact keeps_save_return
                ⟨honestState_applyTransition running, held.pending⟩ trivial

end Honest

/-! ## Every reachable checkpoint -/

/-- A review of a contract decision approves a state whose gates are red. -/
def BlessesRed (system : CoordinatorSystem) (made : AdmittedEvent) : Prop :=
  match made.event with
  | .returns id index returned _ =>
      ∃ coordinator decision state rest review, system.coordinators id = some coordinator ∧
        coordinator.flights[index]? = some (.review decision state rest) ∧
        state.gatesRed = true ∧
        returned.settle (reviewCurrent coordinator.host.config state) = .ok review ∧
        review.verdict.map (·.status) = some .approved
  | _ => False

abbrev HonestSystem : CoordinatorSystem → Prop := KeptSystem HonestCheckpoint HonestFlight

/-- Only a review that approves over red gates can leave a dishonest checkpoint. -/
theorem HonestSystem.step {system : CoordinatorSystem} (h : HonestSystem system)
    {made : AdmittedEvent} (allowed : ¬ BlessesRed system made) :
    HonestSystem (system.step made) := by
  refine KeptSystem.step h upheld_honest (fun _ _ _ => ⟨.of_unapproved rfl, by
    simp [initialCheckpoint]⟩) ?_
  intro id index returned world coordinator flight event lives hflight honest
  cases flight with
  | step checkpoint => exact keepsHonest_finishStep honest.1 honest.2
  | review decision state rest =>
      have finished : KeepsHonest (finishReview coordinator.host decision state returned)
          HonestProgress := by
        refine keepsHonest_finishReview honest.1 honest.2 fun review hreview approves => ?_
        rw [Bool.eq_false_iff]
        intro red
        refine allowed ?_
        rw [BlessesRed, event]
        exact ⟨coordinator, decision, state, rest, review, lives, hflight, red, hreview, approves⟩
      cases rest with
      | none => exact finished
      | some rest => exact finished.bind fun _ _ => upheld_honest.resolveAccepted

/-- Where no contract review approves over red gates, no coordinator ever reads an
approved checkpoint with a red gate report. -/
theorem approved_green {runId : String} {events : List AdmittedEvent}
    {system : CoordinatorSystem} {checkpoint : RunCheckpoint}
    (run : Run (Guarded CoordinatorSystem.Steps fun s made => ¬ BlessesRed s made)
      (.start runId) events system)
    (reads : system.Reads checkpoint) (approved : checkpoint.workflowState.approved = true) :
    ∀ report ∈ checkpoint.workflowState.lastGateReport, report.passed = true := by
  have honest : HonestSystem system := by
    refine run.invariant ?_ (KeptSystem.start runId)
    rintro a made b h ⟨allowed, rfl⟩
    exact HonestSystem.step h allowed
  have green : checkpoint.workflowState.gatesRed = false := by
    exact ((honest.of_reads reads).state approved).2
  intro report hreport
  rw [WorkflowState.gatesRed, Option.mem_def.mp hreport] at green
  simpa using green

/-! ## Scripted runs -/

/-- A coder, gates and a reviewer, with one round. -/
def gatedConfig : PipelineConfig := { coderReviewer with
  qualityGates := true
  maxRounds := 1
  maxRounds_pos := Nat.one_pos }

def gatedHost : CoordinatorHost where
  config := gatedConfig
  stageLimits := fun _ => none
  roleStageLimits := fun _ _ => none
  researchDestination := ""
  decisionLimit := 0
  hasBacklog := true
  showNumber := fun _ => ""
  sha256 := id
  followUpSemanticId := fun _ => "f"
  consolidateFollowUps := .ok

def quietWorld : CoordinatorWorld where
  interrupted := false
  createBacklog := fun _ => .ok ()
  getBacklog := fun _ => .ok ()
  document := fun _ => .ok ()
  documentContract := fun _ _ => .ok ()
  now := ""

def contractFollowUp : FollowUp := .contract "t" [] [] none

/-- Every write of a scripted event is admitted. -/
def admitAll (event : CoordinatorEvent) : AdmittedEvent := ⟨event, 100⟩

/-- One step with its outcome and its follow-ups, and the edge that is committed. -/
def stepAndCommit (outcome : StepOutcome) (followUps : List FollowUp)
    (chosen : AvailableTransition) : List AdmittedEvent :=
  [.call 0 .prepareStep quietWorld, .returns 0 0 ⟨.ok outcome, followUps⟩ quietWorld,
    .call 0 (.commitTransition chosen) quietWorld].map admitAll

def openEvent : AdmittedEvent := admitAll (.opens 0 gatedHost ⟨none, false⟩)

/-- Green gates and an approving review. -/
def greenScript : List AdmittedEvent :=
  openEvent :: stepAndCommit (codeTurn "a") [] (advanceTo gatedConfig .gates 1) ++
    stepAndCommit (.gates "b" ⟨[⟨"test", true, ""⟩]⟩) [] (advanceTo gatedConfig .review 1) ++
    stepAndCommit (approvalTurn "c") [] (settle 1)

/-- Red gates settle the last round; then a contract that the coder proposed is
accepted and its review approves. -/
def redScript : List AdmittedEvent :=
  openEvent :: stepAndCommit (codeTurn "a") [contractFollowUp] (advanceTo gatedConfig .gates 1) ++
    stepAndCommit (.gates "b" ⟨[⟨"test", false, ""⟩]⟩) [] (settle 1) ++
    [.call 0 (.resolveDecision (halfDigest "decision:f") ⟨.operator, .accept, some "rule"⟩)
      quietWorld, .returns 0 0 ⟨.ok (approvalTurn "c"), []⟩ quietWorld].map admitAll

/-- No session call that is answered is a contract review. -/
def answersNoReview (system : CoordinatorSystem) (made : AdmittedEvent) : Bool :=
  match made.event with
  | .returns id index _ _ =>
      match (system.coordinators id).bind (·.flights[index]?) with
      | some (.review _ _ _) => false
      | _ => true
  | _ => true

theorem not_blessesRed {system : CoordinatorSystem} {made : AdmittedEvent}
    (h : answersNoReview system made = true) : ¬ BlessesRed system made := by
  obtain ⟨event, admitted⟩ := made
  cases event with
  | returns id index returned world =>
      rintro ⟨coordinator, decision, state, rest, review, lives, flight, _⟩
      simp [answersNoReview, lives, flight] at h
  | _ => exact id

/-- The stored checkpoint is approved and its gate report is as given. -/
def storesApproved (system : CoordinatorSystem) (passed : Bool) : Bool :=
  system.file.any fun stored => stored.value.workflowState.approved &&
    stored.value.workflowState.lastGateReport.any (·.passed == passed)

theorem stored_of_storesApproved {system : CoordinatorSystem} {passed : Bool}
    (h : storesApproved system passed = true) :
    ∃ checkpoint report, system.Reads checkpoint ∧ checkpoint.workflowState.approved = true ∧
      checkpoint.workflowState.lastGateReport = some report ∧ report.passed = passed := by
  obtain ⟨stored, hstored, facts⟩ := (Option.any_eq_true _ _).mp h
  obtain ⟨approved, gates⟩ := Bool.and_eq_true_iff.mp facts
  obtain ⟨report, hreport, same⟩ := (Option.any_eq_true _ _).mp gates
  exact ⟨stored.value, report, Or.inl ⟨stored, hstored, rfl⟩, approved, hreport,
    beq_iff_eq.mp same⟩

theorem approved_green_greenScript :
    ∃ (system : CoordinatorSystem) (checkpoint : RunCheckpoint) (report : GateReport),
      system.Reads checkpoint ∧
      checkpoint.workflowState.approved = true ∧
      checkpoint.workflowState.lastGateReport = some report ∧ report.passed = true := by
  have run := Run.guarded_foldl (fun _ _ => not_blessesRed)
    (by decide +kernel :
      Run.checked CoordinatorSystem.step answersNoReview (.start "r") greenScript = true)
  obtain ⟨checkpoint, report, reads, approved, hreport, _⟩ := stored_of_storesApproved
    (by decide +kernel :
      storesApproved (greenScript.foldl CoordinatorSystem.step (.start "r")) true = true)
  exact ⟨_, checkpoint, report, reads, approved, hreport,
    approved_green run reads approved report hreport⟩

/-- The review of an accepted contract approves a run whose gates are red. -/
theorem approved_green_refuted :
    ¬ ∀ (runId : String) (events : List AdmittedEvent) (system : CoordinatorSystem)
      (checkpoint : RunCheckpoint),
      Run CoordinatorSystem.Steps (.start runId) events system → system.Reads checkpoint →
        checkpoint.workflowState.approved = true →
          ∀ report ∈ checkpoint.workflowState.lastGateReport, report.passed = true := by
  intro claim
  obtain ⟨checkpoint, report, reads, approved, hreport, red⟩ := stored_of_storesApproved
    (by decide +kernel :
      storesApproved (redScript.foldl CoordinatorSystem.step (.start "r")) false = true)
  have green := claim "r" redScript _ checkpoint (Run.foldl _ _ _) reads approved report hreport
  simp [red] at green

end AdCoder.ProjectOperations
