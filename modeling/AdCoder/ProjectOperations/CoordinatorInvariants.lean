import AdCoder.ProjectOperations.CoordinatorMoves

/-!
# Invariants of coordinators that are called in turn

Whoever holds a coordinator awaits each of its calls before the next one, so
that at most one flight is open and the checkpoint that it captured is still
held. What every edge keeps then holds of all checkpoints that can be read.
-/

namespace AdCoder.ProjectOperations

open Foundation Foundation.Section Orchestration

/-! ## Steps -/

namespace CoordinatorSystem

/-- No call is made on a coordinator that awaits its session. -/
def Sequential (system : CoordinatorSystem) (made : AdmittedEvent) : Prop :=
  match made.event with
  | .call id _ _ => ∀ coordinator, system.coordinators id = some coordinator →
      coordinator.flights = []
  | _ => True

/-- What the callers promise where they call a coordinator, and where a call returns. -/
def Promises (system : CoordinatorSystem) (made : AdmittedEvent) : Prop :=
  match made.event with
  | .call id call _ => ∀ coordinator, system.coordinators id = some coordinator →
      call.Promised coordinator.held.value
  | .returns id index returned _ => ∀ coordinator flight,
      system.coordinators id = some coordinator → coordinator.flights[index]? = some flight →
        flight.Promised coordinator.host.config returned coordinator.held.value
  | _ => True

/-- The section that an event runs, with the coordinator that runs it. -/
def body (system : CoordinatorSystem) (made : AdmittedEvent) :
    Option (Coordinator × CoordinatorSection Progress) :=
  match made.event with
  | .call id call world => (system.coordinators id).map fun coordinator =>
      (coordinator, call.section coordinator.host world)
  | .returns id index returned world => (system.coordinators id).bind fun coordinator =>
      coordinator.flights[index]?.map fun flight =>
        (coordinator, flight.section coordinator.host returned world)
  | _ => none

end CoordinatorSystem

/-- A coordinator that awaits its session at most once, from the checkpoint that it holds. -/
structure Attends (S : RunCheckpoint → Prop) (coordinator : Coordinator) : Prop where
  held : S coordinator.held.value
  flights : coordinator.flights = [] ∨ ∃ flight, coordinator.flights = [flight] ∧
    FlightAt coordinator.held.value flight

structure Attended (S : RunCheckpoint → Prop) (system : CoordinatorSystem) : Prop where
  stored : ∀ stored ∈ system.file, S stored.value
  lives : ∀ {id coordinator}, system.coordinators id = some coordinator → Attends S coordinator

/-- What one event does where calls are made in turn. -/
inductive Stepped (system : CoordinatorSystem) : AdmittedEvent → CoordinatorSystem → Prop
  | idle {made : AdmittedEvent} (none : system.body made = none) : Stepped system made system
  | opens {id admitted : Nat} {host : CoordinatorHost} {options : OpenOptions}
      {held : VersionedState RunCheckpoint}
      (opened : openCheckpoint system host options admitted = some held) :
      Stepped system ⟨.opens id host options, admitted⟩ { system with
        file := some held
        coordinators := Function.update system.coordinators id (some ⟨host, held, []⟩) }
  | crash {id admitted : Nat} : Stepped system ⟨.crash id, admitted⟩ { system with
      coordinators := Function.update system.coordinators id none }
  | call {id admitted : Nat} {call : CoordinatorCall} {world : CoordinatorWorld}
      {coordinator : Coordinator} (lives : system.coordinators id = some coordinator)
      (rests : coordinator.flights = []) : Stepped system ⟨.call id call world, admitted⟩
        (system.runSection id coordinator [] (call.section coordinator.host world) admitted)
  | returns {id index admitted : Nat} {returned : SessionReturn} {world : CoordinatorWorld}
      {coordinator : Coordinator} {flight : Flight}
      (lives : system.coordinators id = some coordinator)
      (found : coordinator.flights[index]? = some flight)
      (waits : FlightAt coordinator.held.value flight) :
      Stepped system ⟨.returns id index returned world, admitted⟩
        (system.runSection id coordinator [] (flight.section coordinator.host returned world)
          admitted)

theorem Attended.stepped {S : RunCheckpoint → Prop} {system : CoordinatorSystem}
    (h : Attended S system) {made : AdmittedEvent} (sequential : system.Sequential made) :
    Stepped system made (system.step made) := by
  obtain ⟨event, admitted⟩ := made
  rw [CoordinatorSystem.step]
  cases event with
  | opens id host options =>
      dsimp only
      split
      · exact .idle rfl
      · next held opened => exact .opens opened
  | crash id => exact .crash
  | call id call world =>
      dsimp only
      split
      · next dead => exact .idle (by simp [CoordinatorSystem.body, dead])
      · next coordinator lives =>
          have rests : coordinator.flights = [] := sequential coordinator lives
          rw [rests]
          exact .call lives rests
  | returns id index returned world =>
      dsimp only
      split
      · next dead => exact .idle (by simp [CoordinatorSystem.body, dead])
      · next coordinator lives =>
          split
          · next none => exact .idle (by simp [CoordinatorSystem.body, lives, none])
          · next flight found =>
              rcases (h.lives lives).flights with rests | ⟨only, flights, waits⟩
              · simp [rests] at found
              · obtain ⟨rfl, rfl⟩ : index = 0 ∧ only = flight := by
                  rw [flights] at found
                  cases index with
                  | zero => exact ⟨rfl, Option.some.inj found⟩
                  | succ index => simp at found
                rw [flights]
                exact .returns lives (by simp [flights]) waits

/-! ## Invariants -/

/-- A failed step changes the accounting of its state and pauses the run. -/
theorem failedStep_changes {c next : RunCheckpoint} {failure : SessionFailure}
    (h : failedStep c c failure = some next) :
    ∃ state pause, next = { c with workflowState := state, pause := some pause } ∧
      state.control = c.workflowState.control := by
  cases failure with
  | stageLimit error turn =>
      obtain rfl := Option.some.inj h
      exact ⟨_, _, rfl, limitedState_control ..⟩
  | stageFailure turn source =>
      simp only [failedStep] at h
      split_ifs at h
      · obtain rfl := Option.some.inj h
        exact ⟨_, _, rfl, failedState_control ..⟩
      · obtain rfl := Option.some.inj h
        exact ⟨_, _, rfl, recordCause_control ..⟩
  | orchestration error =>
      simp only [failedStep] at h
      split_ifs at h
      · obtain rfl := Option.some.inj h
        exact ⟨_, _, rfl, recordCause_control ..⟩
      · obtain rfl := Option.some.inj h
        exact ⟨_, _, rfl, recordCause_control ..⟩
      · obtain rfl := Option.some.inj h
        exact ⟨_, _, rfl, rfl⟩
  | thrown source =>
      simp only [failedStep] at h
      split_ifs at h
      obtain rfl := Option.some.inj h
      exact ⟨_, _, rfl, rfl⟩

/-- What every write and every change in memory keeps. -/
structure CoordinatorInvariant (strict : Prop) (S : RunCheckpoint → Prop) : Prop where
  initial : ∀ runId host options, S (initialCheckpoint runId host options)
  bound : ∀ {c digest}, S c → S { c with taskDigest := some digest }
  unique : ∀ {c}, S c → Unique c.decisions
  edge : ∀ {config c next}, S c → Edge config strict c next → S next
  rewords : ∀ {c next}, S c → Rewords c next → S next
  reopens : ∀ {c next}, S c → Reopens c next → S next
  unpauses : ∀ {c next}, S c → Unpauses c next → S next
  raisesCap : ∀ {c next}, S c → RaisesCap c next → S next

namespace CoordinatorInvariant

variable {strict : Prop} {S : RunCheckpoint → Prop} {system : CoordinatorSystem}

theorem writes (invariant : CoordinatorInvariant strict S) {config : PipelineConfig}
    {call : CoordinatorCall} {c next : RunCheckpoint} (h : S c)
    (written : call.Writes config strict c next) : S next := by
  cases call with
  | resumeResearch source => exact invariant.reopens h written
  | resumeStage => exact invariant.unpauses h written
  | resumeRoundCap limit reason => exact invariant.raisesCap h written
  | prepareStep => exact invariant.edge h written
  | commitTransition chosen => exact invariant.edge h written
  | run => exact invariant.edge h written
  | resolveDecision id resolution => exact invariant.edge h written

/-- The checkpoint that a coordinator is opened with. -/
theorem opened (invariant : CoordinatorInvariant strict S)
    (stored : ∀ stored ∈ system.file, S stored.value) {host : CoordinatorHost}
    {options : OpenOptions} {admitted : Nat} {held : VersionedState RunCheckpoint}
    (opened : openCheckpoint system host options admitted = some held) : S held.value := by
  rw [openCheckpoint] at opened
  cases file : system.file with
  | none =>
      simp only [file] at opened
      split_ifs at opened
      obtain rfl := Option.some.inj opened
      exact invariant.initial ..
  | some current =>
      have holds := stored current file
      simp only [file] at opened
      by_cases named : current.value.runId ≠ system.runId
      · simp [named] at opened
      rw [if_neg named] at opened
      split at opened
      · split_ifs at opened
        obtain rfl := Option.some.inj opened
        exact holds
      · split_ifs at opened
        · obtain rfl := Option.some.inj opened
          exact holds
        · obtain rfl := Option.some.inj opened
          exact invariant.bound holds
      · obtain rfl := Option.some.inj opened
        exact holds

end CoordinatorInvariant

namespace Attended

variable {strict : Prop} {S : RunCheckpoint → Prop} {system : CoordinatorSystem}

theorem start (runId : String) : Attended S (.start runId) := by
  refine ⟨?_, ?_⟩ <;> simp [CoordinatorSystem.start]

/-- One coordinator and the file change. -/
theorem update (h : Attended S system) (id : Nat) {file : Option (VersionedState RunCheckpoint)}
    {changed : Option Coordinator} (stored : ∀ stored ∈ file, S stored.value)
    (attends : ∀ coordinator ∈ changed, Attends S coordinator) :
    Attended S { system with
      file := file
      coordinators := Function.update system.coordinators id changed } := by
  refine ⟨stored, ?_⟩
  intro other coordinator found
  dsimp only at found
  by_cases same : other = id
  · subst same
    rw [Function.update_self] at found
    exact attends coordinator found
  · rw [Function.update_of_ne same] at found
    exact h.lives found

/-- A section that moves along relations which keep the invariant. -/
theorem runSection (h : Attended S system) {id admitted : Nat} {coordinator : Coordinator}
    (lives : system.coordinators id = some coordinator)
    {W : RunCheckpoint → RunCheckpoint → Prop} {body : CoordinatorSection Progress}
    (moves : Meets W Rewords (· = coordinator.held.value) body (Ends coordinator.held.value)
      fun _ _ => True)
    (writes : ∀ c next, S c → W c next → S next)
    (rewords : ∀ c next, S c → Rewords c next → S next) :
    Attended S (system.runSection id coordinator [] body admitted) := by
  obtain ⟨moved, returned, -⟩ := moves ⟨system.file, coordinator.held, admitted⟩ rfl
  have within := moved.within writes rewords ⟨h.stored, (h.lives lives).held⟩
  have flights (result : Except CoordinatorError Progress) (c : RunCheckpoint)
      (ends : ∀ progress, result = .ok progress → Ends coordinator.held.value progress c) :
      Progress.flight? result = [] ∨
        ∃ flight, Progress.flight? result = [flight] ∧ FlightAt c flight := by
    rw [Progress.flight?.eq_def]
    split
    · exact Or.inr ⟨_, rfl, (ends _ rfl).1⟩
    · exact Or.inl rfl
  refine h.update id within.file ?_
  intro changed hchanged
  obtain rfl := Option.some.inj hchanged
  exact ⟨within.held, flights _ _ returned⟩

theorem step (h : Attended S system) (invariant : CoordinatorInvariant strict S)
    {made : AdmittedEvent} (sequential : system.Sequential made)
    (promised : strict → system.Promises made) : Attended S (system.step made) := by
  have stepped := h.stepped sequential
  generalize system.step made = next at stepped
  cases stepped with
  | idle _ => exact h
  | opens opened =>
      have holds := invariant.opened h.stored opened
      refine h.update _ ?_ ?_
      · rintro _ ⟨⟩
        exact holds
      · rintro _ ⟨⟩
        exact ⟨holds, Or.inl rfl⟩
  | crash => exact h.update _ h.stored (by simp)
  | call lives rests =>
      exact h.runSection lives (meets_call (invariant.unique (h.lives lives).held)
        fun holds => promised holds _ lives) (fun _ _ => invariant.writes)
        fun _ _ => invariant.rewords
  | returns lives found waits =>
      exact h.runSection lives (follows_flight waits (invariant.unique (h.lives lives).held)
        fun holds => promised holds _ _ lives found) (fun _ _ => invariant.edge)
        fun _ _ => invariant.rewords

/-- What every checkpoint that can be read satisfies. -/
theorem of_reads (h : Attended S system) {checkpoint : RunCheckpoint}
    (reads : system.Reads checkpoint) : S checkpoint := by
  rcases reads with ⟨stored, hstored, rfl⟩ | ⟨id, coordinator, lives, rfl⟩
  · exact h.stored stored hstored
  · exact (h.lives lives).held

end Attended

end AdCoder.ProjectOperations
