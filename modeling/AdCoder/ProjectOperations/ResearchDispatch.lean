import AdCoder.ProjectOperations.CoordinatorInvariants

/-!
# Research is dispatched once

The witness of a research dispatch is written before the session is asked. A
checkpoint whose witness was not dispatched yet has one dispatch to spend, and
only reopening a paused research gives it another.
-/

namespace AdCoder.ProjectOperations

open Foundation Foundation.Section Orchestration

/-! ## The witness along a run -/

/-- The witness follows the workflow: it is not there while a plan is made, and it is completed
only together with the result that leaves research. -/
structure WitnessedCheckpoint (c : RunCheckpoint) : Prop where
  unique : Unique c.decisions
  planning : c.workflowState.phase = .plan → c.researchEffect = none
  offered : ∀ pending ∈ c.pendingStep, ∀ t ∈ pending.transitions,
    t.toPhase ≠ .plan ∧ (t.toPhase = .research → c.researchEffect = none)
  completed : c.workflowState.phase = .research → c.pendingStep = none →
    ∀ effect ∈ c.researchEffect, effect.status ≠ .completed

/-- The dispatches that a witness leaves to spend. -/
def unspent : Option ResearchEffect → Nat
  | none => 1
  | some effect => if effect.status = .prepared then 1 else 0

theorem unspent_le (effect : Option ResearchEffect) : unspent effect ≤ 1 := by
  cases effect with
  | none => exact Nat.le_refl 1
  | some effect =>
      rw [unspent]
      split_ifs <;> omega

theorem unspent_dispatched {c : RunCheckpoint} (h : Dispatched c) : unspent c.researchEffect = 0 := by
  obtain ⟨effect, held, status⟩ := h
  simp [unspent, held, status]

namespace WitnessedCheckpoint

variable {c next : RunCheckpoint} {config : PipelineConfig} {strict : Prop}

/-- Where research may start, there is a dispatch to spend. -/
theorem unspent_ready (h : WitnessedCheckpoint c) (ready : Ready c)
    (research : c.workflowState.phase = .research) (undispatched : ¬ Dispatched c) :
    unspent c.researchEffect = 1 := by
  cases witness : c.researchEffect with
  | none => rfl
  | some effect =>
      have status : effect.status = .prepared := by
        cases status : effect.status with
        | prepared => rfl
        | dispatched => exact absurd ⟨effect, witness, status⟩ undispatched
        | completed => exact absurd status (h.completed research ready.stepless effect witness)
      simp [unspent, status]

/-- A checkpoint of the same phase with the same witness and pending step. -/
theorem congr (h : WitnessedCheckpoint c) (unique : Unique next.decisions)
    (phase : next.workflowState.phase = c.workflowState.phase)
    (pending : next.pendingStep = c.pendingStep) (effect : next.researchEffect = c.researchEffect) :
    WitnessedCheckpoint next := by
  refine ⟨unique, ?_, ?_, ?_⟩
  · rw [phase, effect]
    exact h.planning
  · rw [pending, effect]
    exact h.offered
  · rw [phase, pending, effect]
    exact h.completed

/-- Past research only what the pending step offers matters. -/
theorem past (unique : Unique next.decisions) (phase : next.workflowState.phase ≠ .plan ∧
      next.workflowState.phase ≠ .research)
    (offered : ∀ pending ∈ next.pendingStep, ∀ t ∈ pending.transitions,
      t.toPhase ≠ .plan ∧ (t.toPhase = .research → next.researchEffect = none)) :
    WitnessedCheckpoint next :=
  ⟨unique, fun plan => absurd plan phase.1, offered, fun research => absurd research phase.2⟩

/-- A step offers the way back to no plan, and research only from one. -/
theorem offers {outcome : StepOutcome} {result : StepResult}
    (stepped : Orchestration.step config c.workflowState outcome = .ok result)
    {t : AvailableTransition} (offered : t ∈ result.transitions) :
    t.toPhase ≠ .plan ∧ (t.toPhase = .research → c.workflowState.phase = .plan) := by
  have successor := (step_spec stepped).offers t offered
  cases phase : c.workflowState.phase <;> rw [phase] at successor <;>
    simp only [successors, List.mem_cons, List.not_mem_nil, or_false] at successor
  all_goals
    first
    | exact successor.elim
    | refine ⟨?_, ?_⟩ <;> intro same <;> simp_all

theorem edge (h : WitnessedCheckpoint c) (written : Edge config strict c next) :
    WitnessedCheckpoint next := by
  cases written with
  | pauses ready => exact h.congr h.unique rfl rfl rfl
  | prepares ready research unprepared =>
      refine ⟨h.unique, ?_, ?_, ?_⟩
      · intro plan
        simp [preparedCheckpoint, research] at plan
      · simp [preparedCheckpoint, ready.stepless]
      · simp [preparedCheckpoint]
  | dispatches ready research prepared undispatched =>
      refine ⟨h.unique, ?_, ?_, ?_⟩
      · simp [research]
      · simp [ready.stepless]
      · simp
  | fails ready failed =>
      obtain ⟨state, pause, rfl, control⟩ := failedStep_changes failed
      simp only [WorkflowState.control, Control.mk.injEq] at control
      exact h.congr h.unique control.1 rfl rfl
  | @pends outcome result followUps ready stepped =>
      have witness (plan : c.workflowState.phase = .plan) :
          (pendingCheckpoint c result followUps).researchEffect = none := by
        simp [pendingCheckpoint, plan, h.planning plan]
      refine ⟨h.unique, witness, ?_, ?_⟩
      · rintro _ ⟨⟩ t offered
        exact (offers stepped offered).imp_right fun from' research => witness (from' research)
      · simp [pendingCheckpoint]
  | effects phase => exact h.congr h.unique rfl rfl rfl
  | decides phase fresh => exact h.congr (h.unique.append fresh) rfl rfl rfl
  | processes phase => exact h.congr h.unique rfl rfl rfl
  | closes phase resolved vetted => exact h.congr h.unique rfl rfl rfl
  | completes phase resolved done approved => exact h.congr h.unique rfl rfl rfl
  | @commits pending chosen edge stepped offered =>
      have member : edge ∈ pending.transitions := List.mem_of_find?_eq_some offered
      obtain ⟨other, unwitnessed⟩ := h.offered pending stepped edge member
      have target : (committedCheckpoint c (applyTransition pending.state edge)).workflowState.phase =
          edge.toPhase := applyTransition_phase
      refine ⟨h.unique, ?_, by simp [committedCheckpoint], ?_⟩
      · intro plan
        exact absurd (target.symm.trans plan) other
      · intro research _ effect witness
        have none : c.researchEffect = none := unwitnessed (target.symm.trans research)
        exact absurd (none.symm.trans witness) (by simp)
  | @resolves current next found pending id kind resolved =>
      refine h.congr ?_ rfl rfl rfl
      rw [Unique, replaceDecision_map_id]
      exact h.unique
  | reviews found accepted fresh => exact past h.unique (by simp [reviewCheckpoint]) h.offered
  | approves reviewing => exact past h.unique (by simp [reviewedCheckpoint]) h.offered
  | blocks reviewing unapproved phase =>
      exact past h.unique (by simp [reviewedCheckpoint, phase]) h.offered
  | reworks reviewing unapproved code =>
      exact past h.unique (by simp [reviewedCheckpoint, applyTransition, code]) h.offered

theorem rewords (h : WitnessedCheckpoint c) (changed : Rewords c next) :
    WitnessedCheckpoint next := by
  obtain ⟨current, reworded, found, -, -, -, rfl⟩ := changed
  refine h.congr ?_ rfl rfl rfl
  rw [Unique, replaceDecision_map_id]
  exact h.unique

theorem reopens (h : WitnessedCheckpoint c) (reopened : Reopens c next) :
    WitnessedCheckpoint next := by
  obtain ⟨-, rfl⟩ := reopened
  refine ⟨h.unique, ?_, ?_, ?_⟩
  · intro plan
    rw [h.planning plan]
    rfl
  · intro pending stepped t offered
    refine (h.offered pending stepped t offered).imp_right fun unwitnessed research => ?_
    rw [unwitnessed research]
    rfl
  · intro research stepless effect witness
    obtain ⟨old, hold, rfl⟩ := Option.map_eq_some_iff.mp (Option.mem_def.mp witness)
    rw [ResearchEffect.reopened]
    split_ifs
    · simp
    · exact h.completed research stepless old hold

theorem invariant : CoordinatorInvariant strict WitnessedCheckpoint where
  initial runId host options := by
    refine ⟨List.nodup_nil, fun _ => rfl, ?_, ?_⟩ <;> simp [initialCheckpoint]
  bound h := h.congr h.unique rfl rfl rfl
  unique h := h.unique
  edge h written := h.edge written
  rewords h changed := h.rewords changed
  reopens h reopened := h.reopens reopened
  unpauses h unpaused := by
    obtain ⟨-, rfl⟩ := unpaused
    exact h.congr h.unique rfl rfl rfl
  raisesCap h raised := by
    obtain ⟨-, raised, rfl⟩ := raised
    exact past h.unique (by simp) (by simp)

/-- No write but a reopening gives a dispatch back. -/
theorem unspent_edge (written : Edge config strict c next) :
    unspent next.researchEffect ≤ unspent c.researchEffect := by
  cases written with
  | prepares ready research unprepared =>
      rw [unprepared]
      exact unspent_le _
  | dispatches ready research prepared undispatched => simp [unspent]
  | fails ready failed =>
      obtain ⟨state, pause, rfl, -⟩ := failedStep_changes failed
      exact Nat.le_refl _
  | @pends outcome result followUps ready stepped =>
      rw [pendingCheckpoint]
      dsimp only
      split_ifs
      · cases witness : c.researchEffect with
        | none => exact Nat.le_refl _
        | some effect => simp [unspent]
      · simp
  | _ => exact Nat.le_refl _

theorem unspent_writes {call : CoordinatorCall} (other : ∀ source, call ≠ .resumeResearch source)
    (written : call.Writes config strict c next) :
    unspent next.researchEffect ≤ unspent c.researchEffect := by
  cases call with
  | resumeResearch source => exact absurd rfl (other source)
  | resumeStage =>
      obtain ⟨-, rfl⟩ := written
      exact Nat.le_refl _
  | resumeRoundCap limit reason =>
      obtain ⟨-, raised, rfl⟩ := written
      exact Nat.le_refl _
  | prepareStep => exact unspent_edge written
  | commitTransition chosen => exact unspent_edge written
  | run => exact unspent_edge written
  | resolveDecision id resolution => exact unspent_edge written

end WitnessedCheckpoint

/-! ## Counting dispatches -/

/-- The section ends by asking the session for a step in the research phase. -/
def asksResearch : Except CoordinatorError Progress → Bool
  | .ok (.awaits (.step checkpoint)) => checkpoint.workflowState.phase = .research
  | _ => false

/-- The event asks the session for a step in the research phase. -/
def CoordinatorSystem.stepsResearch (system : CoordinatorSystem) (made : AdmittedEvent) : Bool :=
  (system.body made).any fun (coordinator, body) =>
    asksResearch (body.runOn ⟨system.file, coordinator.held, made.admitted⟩).1

/-- How often the session is asked for a step in the research phase. -/
def researchSteps : CoordinatorSystem → List AdmittedEvent → Nat
  | _, [] => 0
  | system, made :: rest =>
      (system.stepsResearch made).toNat + researchSteps (system.step made) rest

def AdmittedEvent.resumesResearch (made : AdmittedEvent) : Bool :=
  match made.event with
  | .call _ (.resumeResearch _) _ => true
  | _ => false

theorem researchSteps_append (system : CoordinatorSystem) (events : List AdmittedEvent)
    (made : AdmittedEvent) :
    researchSteps system (events ++ [made]) = researchSteps system events +
      ((events.foldl CoordinatorSystem.step system).stepsResearch made).toNat := by
  induction events generalizing system with
  | nil => simp [researchSteps]
  | cons first rest ih =>
      rw [List.cons_append, researchSteps, researchSteps, ih, List.foldl_cons]
      omega

/-- What a coordinator holds is the stored witness, or older. -/
def Follower (file : Option (VersionedState RunCheckpoint))
    (held : VersionedState RunCheckpoint) : Prop :=
  ∃ stored, file = some stored ∧ held.version ≤ stored.version ∧
    (held.version = stored.version → stored.value.researchEffect = held.value.researchEffect)

/-- The dispatches that the stored witness leaves to spend. -/
def CoordinatorSystem.unspent (system : CoordinatorSystem) : Nat :=
  ProjectOperations.unspent (system.file.bind (·.value.researchEffect))

structure Witnessed (system : CoordinatorSystem) : Prop where
  attended : Attended WitnessedCheckpoint system
  followers : ∀ {id coordinator}, system.coordinators id = some coordinator →
    Follower system.file coordinator.held

section Steps

variable {system : CoordinatorSystem} {file : Option (VersionedState RunCheckpoint)}
  {held stored : VersionedState RunCheckpoint}

theorem Follower.advance (h : Follower file held) {next : VersionedState RunCheckpoint}
    (later : ∀ stored, file = some stored → next = stored ∨ stored.version < next.version) :
    Follower (some next) held := by
  obtain ⟨stored, hstored, le, same⟩ := h
  rcases later stored hstored with rfl | lt
  · exact ⟨next, rfl, le, same⟩
  · exact ⟨next, rfl, Nat.le_of_lt (Nat.lt_of_le_of_lt le lt), fun eq => by omega⟩

/-- What a coordinator is opened with is stored then, in place of an older checkpoint or none. -/
theorem openCheckpoint_later {host : CoordinatorHost} {options : OpenOptions} {admitted : Nat}
    (opened : openCheckpoint system host options admitted = some held) :
    (system.file = none ∧ held.value.researchEffect = none) ∨ ∃ stored, system.file = some stored ∧
      held.value.researchEffect = stored.value.researchEffect ∧
        (held = stored ∨ stored.version < held.version) := by
  rw [openCheckpoint] at opened
  cases file : system.file with
  | none =>
      simp only [file] at opened
      split_ifs at opened
      obtain rfl := Option.some.inj opened
      exact Or.inl ⟨rfl, rfl⟩
  | some stored =>
      refine Or.inr ⟨stored, rfl, ?_⟩
      simp only [file] at opened
      by_cases named : stored.value.runId ≠ system.runId
      · simp [named] at opened
      rw [if_neg named] at opened
      split at opened
      · split_ifs at opened
        obtain rfl := Option.some.inj opened
        exact ⟨rfl, Or.inl rfl⟩
      · split_ifs at opened
        · obtain rfl := Option.some.inj opened
          exact ⟨rfl, Or.inl rfl⟩
        · obtain rfl := Option.some.inj opened
          exact ⟨rfl, Or.inr (Nat.lt_succ_self _)⟩
      · obtain rfl := Option.some.inj opened
        exact ⟨rfl, Or.inl rfl⟩

theorem rewords_witness (s t : RunCheckpoint) (h : Rewords s t) :
    t.researchEffect = s.researchEffect := by
  obtain ⟨_, _, _, _, _, _, rfl⟩ := h
  rfl

/-- A section asks for research only by spending a dispatch. -/
theorem asks_spends {W : RunCheckpoint → RunCheckpoint → Prop} {m : Memory RunCheckpoint}
    {body : CoordinatorSection Progress} (witnessed : WitnessedCheckpoint m.held.value)
    (follows : Follower m.file m.held)
    (moves : Meets W Rewords (· = m.held.value) body (Ends m.held.value) fun _ _ => True)
    (asks : asksResearch (body.runOn m).1 = true) :
    unspent (m.file.bind (·.value.researchEffect)) = 1 ∧
      unspent ((body.runOn m).2.file.bind (·.value.researchEffect)) = 0 := by
  obtain ⟨moved, returned, -⟩ := moves m rfl
  obtain ⟨checkpoint, result, research⟩ : ∃ checkpoint,
      (body.runOn m).1 = .ok (.awaits (.step checkpoint)) ∧
        checkpoint.workflowState.phase = .research := by
    rw [asksResearch.eq_def] at asks
    split at asks
    · next checkpoint result => exact ⟨checkpoint, result, by simpa using asks⟩
    · cases asks
  obtain ⟨waits, starts⟩ := returned _ result
  obtain ⟨ready, researching, undispatched⟩ := starts checkpoint rfl research
  have dispatched : Dispatched (body.runOn m).2.held.value := by
    generalize (body.runOn m).2.held.value = now at waits
    cases waits with
    | step _ dispatched => exact dispatched research
  rcases moved.stored rewords_witness with ⟨-, -, kept⟩ | ⟨current, -, stored, hfile, -, viewed⟩
  · obtain ⟨effect, witness, status⟩ := dispatched
    exact absurd ⟨effect, kept.symm.trans witness, status⟩ undispatched
  · constructor
    · obtain ⟨old, hold, -, still⟩ := follows
      have version : m.held.version = old.version := by
        simpa [hold] using current.symm
      rw [hold, Option.bind_some, still version]
      exact witnessed.unspent_ready ready researching undispatched
    · rw [hfile, Option.bind_some, viewed]
      exact unspent_dispatched dispatched

/-- A section whose writes give no dispatch back. -/
theorem moves_unspent {W : RunCheckpoint → RunCheckpoint → Prop} {m n : Memory RunCheckpoint}
    (follows : Follower m.file m.held) (moved : Moves W Rewords m n)
    (spends : ∀ c next, W c next → unspent next.researchEffect ≤ unspent c.researchEffect) :
    unspent (n.file.bind (·.value.researchEffect)) ≤
      unspent (m.file.bind (·.value.researchEffect)) := by
  rcases moved.stored rewords_witness with ⟨file, -, -⟩ | ⟨current, -, stored, hfile, -, viewed⟩
  · rw [file]
  · obtain ⟨old, hold, -, still⟩ := follows
    have version : m.held.version = old.version := by
      simpa [hold] using current.symm
    have spent := moved.held
      (S := fun c => unspent c.researchEffect ≤ unspent m.held.value.researchEffect)
      (fun _ _ le written => Nat.le_trans (spends _ _ written) le)
      (fun _ _ le changed => rewords_witness _ _ changed ▸ le) (Nat.le_refl _)
    rw [hfile, hold, Option.bind_some, Option.bind_some, viewed, still version]
    exact spent

/-- The coordinators follow what one of them has stored. -/
theorem Witnessed.followers_runSection (h : Witnessed system) {id admitted : Nat}
    {coordinator : Coordinator} (lives : system.coordinators id = some coordinator)
    {W : RunCheckpoint → RunCheckpoint → Prop} {body : CoordinatorSection Progress}
    (moved : Moves W Rewords ⟨system.file, coordinator.held, admitted⟩
      (body.runOn ⟨system.file, coordinator.held, admitted⟩).2) {other : Nat} {now : Coordinator}
    (found : (system.runSection id coordinator [] body admitted).coordinators other = some now) :
    Follower (system.runSection id coordinator [] body admitted).file now.held := by
  have follows := h.followers lives
  change Function.update _ _ _ _ = _ at found
  change Follower (body.runOn _).2.file _
  by_cases own : other = id
  · subst own
    rw [Function.update_self] at found
    obtain rfl := Option.some.inj found
    change Follower (body.runOn _).2.file (body.runOn _).2.held
    rcases moved.stored rewords_witness with ⟨file, version, kept⟩ | ⟨-, -, stored, hfile, version, viewed⟩
    · obtain ⟨stored, hstored, le, still⟩ := follows
      rw [file]
      refine ⟨stored, hstored, version ▸ le, fun eq => ?_⟩
      rw [kept]
      exact still (version ▸ eq)
    · exact ⟨stored, hfile, Nat.le_of_eq version.symm, fun _ => viewed⟩
  · rw [Function.update_of_ne own] at found
    rcases moved.stored rewords_witness with ⟨file, -, -⟩ | ⟨current, later, stored, hfile, version, -⟩
    · rw [file]
      exact h.followers found
    · rw [hfile]
      refine (h.followers found).advance fun old hold => Or.inr ?_
      have before : old.version = coordinator.held.version := by
        simpa [hold] using current
      rw [before, version]
      exact later

/-- A section that asks for research spends a dispatch; another one gives at most `given` back. -/
theorem Witnessed.unspent_runSection (h : Witnessed system) {id admitted given : Nat}
    {coordinator : Coordinator} (lives : system.coordinators id = some coordinator)
    {W : RunCheckpoint → RunCheckpoint → Prop} {body : CoordinatorSection Progress}
    (moves : Meets W Rewords (· = coordinator.held.value) body (Ends coordinator.held.value)
      fun _ _ => True)
    (gives : (system.runSection id coordinator [] body admitted).unspent ≤ system.unspent + given) :
    (system.runSection id coordinator [] body admitted).unspent +
      (asksResearch (body.runOn ⟨system.file, coordinator.held, admitted⟩).1).toNat ≤
        system.unspent + given := by
  cases asks : asksResearch (body.runOn ⟨system.file, coordinator.held, admitted⟩).1 with
  | false => simpa using gives
  | true =>
      obtain ⟨before, after⟩ :=
        asks_spends (h.attended.lives lives).held (h.followers lives) moves asks
      change unspent ((body.runOn ⟨system.file, coordinator.held, admitted⟩).2.file.bind _) + 1 ≤ _
      rw [after]
      change unspent (system.file.bind _) = 1 at before
      rw [CoordinatorSystem.unspent, before]
      omega

/-- One event asks for research by spending a dispatch that was there or that it gives back. -/
theorem Witnessed.step (h : Witnessed system) {made : AdmittedEvent}
    (sequential : system.Sequential made) :
    Witnessed (system.step made) ∧ (system.step made).unspent + (system.stepsResearch made).toNat ≤
      system.unspent + made.resumesResearch.toNat := by
  have invariant : CoordinatorInvariant False WitnessedCheckpoint := WitnessedCheckpoint.invariant
  have attended := h.attended.step invariant sequential False.elim
  have stepped := h.attended.stepped sequential
  generalize system.step made = next at stepped attended
  cases stepped with
  | idle none => exact ⟨h, by simp [CoordinatorSystem.stepsResearch, none]⟩
  | @opens id admitted host options held opened =>
      refine ⟨⟨attended, ?_⟩, ?_⟩
      · intro other coordinator found
        dsimp only at found ⊢
        by_cases own : other = id
        · subst own
          rw [Function.update_self] at found
          obtain rfl := Option.some.inj found
          exact ⟨held, rfl, Nat.le_refl _, fun _ => rfl⟩
        · rw [Function.update_of_ne own] at found
          refine (h.followers found).advance fun stored hstored => ?_
          rcases openCheckpoint_later opened with ⟨none, -⟩ | ⟨old, hold, -, later⟩
          · simp [none] at hstored
          · obtain rfl := Option.some.inj (hold.symm.trans hstored)
            exact later
      · simp only [CoordinatorSystem.stepsResearch, CoordinatorSystem.body, Option.any_none,
          Bool.toNat_false, CoordinatorSystem.unspent, Option.bind_some]
        rcases openCheckpoint_later opened with ⟨none, fresh⟩ | ⟨old, hold, same, -⟩
        · simp [none, fresh]
        · simp [hold, same]
  | @crash id admitted =>
      refine ⟨⟨attended, ?_⟩, ?_⟩
      · intro other coordinator found
        dsimp only at found ⊢
        by_cases own : other = id
        · simp [own] at found
        · rw [Function.update_of_ne own] at found
          exact h.followers found
      · simp [CoordinatorSystem.stepsResearch, CoordinatorSystem.body, CoordinatorSystem.unspent]
  | @call id admitted call world coordinator lives rests =>
      have moves : Meets (call.Writes coordinator.host.config False) Rewords
          (· = coordinator.held.value) (call.section coordinator.host world)
          (Ends coordinator.held.value) fun _ _ => True :=
        meets_call (h.attended.lives lives).held.unique False.elim
      have moved := (moves ⟨system.file, coordinator.held, admitted⟩ rfl).1
      refine ⟨⟨attended, fun found => h.followers_runSection lives moved found⟩, ?_⟩
      simp only [CoordinatorSystem.stepsResearch, CoordinatorSystem.body, lives, Option.map_some,
        Option.any_some]
      refine h.unspent_runSection lives moves ?_
      have spends (other : AdmittedEvent.resumesResearch ⟨.call id call world, admitted⟩ = false) :=
        moves_unspent (h.followers lives) moved fun _ _ =>
          WitnessedCheckpoint.unspent_writes fun source same => by
            simp [same, AdmittedEvent.resumesResearch] at other
      cases resumes : AdmittedEvent.resumesResearch ⟨.call id call world, admitted⟩ with
      | false => exact spends resumes
      | true => exact Nat.le_add_left_of_le (unspent_le _)
  | @returns id index admitted returned world coordinator flight lives found waits =>
      have moves : Follows coordinator.host.config False (· = coordinator.held.value)
          (flight.section coordinator.host returned world) (Ends coordinator.held.value)
          fun _ _ => True :=
        follows_flight waits (h.attended.lives lives).held.unique False.elim
      have moved := (moves ⟨system.file, coordinator.held, admitted⟩ rfl).1
      refine ⟨⟨attended, fun found => h.followers_runSection lives moved found⟩, ?_⟩
      simp only [CoordinatorSystem.stepsResearch, CoordinatorSystem.body, lives, found,
        Option.bind_some, Option.map_some, Option.any_some]
      refine h.unspent_runSection lives moves ?_
      exact moves_unspent (h.followers lives) moved fun _ _ => WitnessedCheckpoint.unspent_edge

end Steps

/-- The pause of a dispatch whose result is unknown. -/
def ambiguousPause : Pause := pauseOf .research "ambiguous_dispatch"
  "reconcile the provider effect by its effectId, then resume explicitly" none

/-- What a step does where the result of a dispatch is unknown. -/
def ambiguous (c : RunCheckpoint) (world : CoordinatorWorld) : RunCheckpoint := { c with
  pause := some (if world.interrupted then interruptedPause .research else ambiguousPause) }

section Ambiguous

variable {host : CoordinatorHost} {world : CoordinatorWorld} {m : Memory RunCheckpoint}

/-- A pause is written as the next version, or nothing is. -/
theorem pauseStep_cases (c : RunCheckpoint) (pause : Pause) :
    (∃ error, (pauseStep c pause).runOn m = (.error error, m)) ∨
      ∃ after, (pauseStep c pause).runOn m = (.ok (.stepped none), after) ∧
        after.file = some ⟨m.held.version + 1, { c with pause := some pause }⟩ ∧
        after.held.value = { c with pause := some pause } := by
  rw [pauseStep, runOn_bind, saveCheckpoint]
  unfold Section.save
  rw [runOn]
  split_ifs
  · exact Or.inl ⟨_, rfl⟩
  · exact Or.inr ⟨_, rfl, rfl, rfl⟩
  · exact Or.inl ⟨_, rfl⟩

theorem prepareStep_ambiguous (ready : Ready m.held.value) (dispatched : Dispatched m.held.value)
    (research : m.held.value.workflowState.phase = .research) :
    (prepareStep host world).runOn m = (pauseStep m.held.value (if world.interrupted then
      interruptedPause .research else ambiguousPause)).runOn m := by
  obtain ⟨effect, witness, status⟩ := dispatched
  rw [prepareStep, runOn_read]
  simp only [ready.phase, ready.running, ready.unpaused, ready.stepless, research, witness, status,
    ne_eq, not_true_eq_false, Bool.false_eq_true, or_self, if_false, if_true, Option.isSome_none]
  split_ifs <;> rfl

theorem run_ambiguous (ready : Ready m.held.value) (dispatched : Dispatched m.held.value)
    (research : m.held.value.workflowState.phase = .research) :
    (∃ error, (run host world).runOn m = (.error error, m)) ∨
      ∃ after status c result, (run host world).runOn m = (.ok (.ran status c result), after) ∧
        after.file = some ⟨m.held.version + 1, ambiguous m.held.value world⟩ := by
  rw [run, runOn_read]
  simp only [ready.phase, if_true]
  rw [runOn_bind, prepareStep_ambiguous ready dispatched research]
  rcases pauseStep_cases m.held.value (if world.interrupted then interruptedPause .research else
    ambiguousPause) with ⟨error, refused⟩ | ⟨after, paused, file, held⟩
  · rw [refused]
    exact Or.inl ⟨error, rfl⟩
  · rw [paused]
    refine Or.inr ⟨after, .paused, after.held.value, none, ?_, file⟩
    dsimp only
    rw [runOn_read]
    simp only [held, Option.isSome_some, if_true]
    rfl

end Ambiguous

/-- A planner that leaves a surface to research. -/
def researchPlan : Plan where
  complexity := .medium
  securitySurface := .low
  summary := "s"
  contractRequirements := []
  affectedFiles := []
  surfaceAnalysis := ⟨"cli", [], [⟨"S1", .researchRequired, [], [], "open"⟩], by simp⟩

def researchHost : CoordinatorHost := { gatedHost with
  config := { coderReviewer with
    planner := true
    researcher := true } }

/-- The coordinator is lost after it dispatched research. Another one pauses, research is
reopened, and it is dispatched once more. -/
def reopenedScript : List AdmittedEvent :=
  [.opens 0 researchHost ⟨none, false⟩, .call 0 .prepareStep quietWorld,
    .returns 0 0 ⟨.ok (.plan [⟨quietTurn "a", some (.ok researchPlan)⟩] ""), []⟩ quietWorld,
    .call 0 (.commitTransition (advanceTo coderReviewer .research 1)) quietWorld,
    .call 0 .prepareStep quietWorld, .crash 0, .opens 1 researchHost ⟨none, true⟩,
    .call 1 .run quietWorld, .call 1 (.resumeResearch .operator) quietWorld,
    .call 1 .prepareStep quietWorld].map admitAll

/-- No call is made on a coordinator that awaits its session. -/
def inTurn (system : CoordinatorSystem) (made : AdmittedEvent) : Bool :=
  match made.event with
  | .call id _ _ => (system.coordinators id).all (·.flights.isEmpty)
  | _ => true

theorem sequential_of_inTurn {system : CoordinatorSystem} {made : AdmittedEvent}
    (h : inTurn system made = true) : system.Sequential made := by
  obtain ⟨event, admitted⟩ := made
  cases event with
  | call id call world =>
      intro coordinator lives
      simpa [inTurn, lives] using h
  | _ => trivial

end AdCoder.ProjectOperations
