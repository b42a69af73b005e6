import AdCoder.ProjectOperations.CoordinatorEdges
import AdCoder.ProjectOperations.CoordinatorRuns

/-!
# Sections of a coordinator move along its edges

One lemma for each section: every write it makes is an edge, and where it ends
at an await the flight it leaves fits the held checkpoint.
-/

namespace AdCoder.ProjectOperations

open Foundation Foundation.Section Orchestration

/-- A section whose writes are edges. -/
abbrev Follows {α : Type} (config : PipelineConfig) (strict : Prop) (pre : RunCheckpoint → Prop)
    (x : CoordinatorSection α) (post : α → RunCheckpoint → Prop)
    (fails : CoordinatorError → RunCheckpoint → Prop) : Prop :=
  Meets (Edge config strict) Rewords pre x post fails

/-- No two decisions have one id. -/
def Unique (decisions : List OperatorDecision) : Prop :=
  (decisions.map (·.id)).Nodup

namespace Unique

variable {decisions : List OperatorDecision} {decision : OperatorDecision}

theorem find? (h : Unique decisions) (member : decision ∈ decisions) :
    decisions.find? (·.id == decision.id) = some decision := by
  have found : (decisions.find? (·.id == decision.id)).isSome = true :=
    List.find?_isSome.mpr ⟨decision, member, by simp⟩
  obtain ⟨other, hother⟩ := Option.isSome_iff_exists.mp found
  have same : other.id = decision.id := by simpa using List.find?_some hother
  rw [hother, List.inj_on_of_nodup_map h (List.mem_of_find?_eq_some hother) member same]

theorem append (h : Unique decisions) (fresh : ∀ other ∈ decisions, other.id ≠ decision.id) :
    Unique (decisions ++ [decision]) := by
  rw [Unique, List.map_append, List.map_singleton, List.nodup_append']
  refine ⟨h, List.nodup_singleton _, ?_⟩
  simpa using fresh

end Unique

/-- A decision waits for the operator, or every accepted contract has been approved. -/
def Settled (c : RunCheckpoint) : Prop :=
  c.decisions.any isPending = true ∨ Vetted c

/-- An accepted contract in the list is left to review, or everything is settled. -/
def Remaining (decisions : List OperatorDecision) (c : RunCheckpoint) : Prop :=
  Settled c ∨ ∃ decision ∈ decisions, decision.IsAcceptedContract ∧ ¬ Approved c decision.id

/-- The loop of `run` has these decisions left. -/
structure Resolving (strict : Prop) (decisions : List OperatorDecision) (c : RunCheckpoint) :
    Prop where
  phase : c.phase = .decisions ∨ c.phase = .followUps ∨
    c.phase = .workflow ∧ c.workflowState.phase ≠ .research
  unique : Unique c.decisions
  known : Known decisions c
  remaining : strict → c.phase ≠ .workflow → Remaining decisions c

/-- Writing documentation never fails for the want of a review. -/
def CoordinatorWorld.Documents (world : CoordinatorWorld) : Prop :=
  (∀ followUp error, world.document followUp = .error error → error.code ≠ .unresolvedReview) ∧
    ∀ followUp text error, world.documentContract followUp text = .error error →
      error.code ≠ .unresolvedReview

/-- A section throws that a review is unresolved only over an unapproved record, once
the run was closed out. -/
def Unresolved (world : CoordinatorWorld) (error : CoordinatorError) (c : RunCheckpoint) : Prop :=
  world.Documents → ∀ detail, error = .operations ⟨.unresolvedReview, detail⟩ →
    (c.phase = .closeout ∨ c.phase = .complete) ∧
      ∃ record ∈ c.contractReviews, record.status ≠ .verdict .approved

section Follows

variable {host : CoordinatorHost} {config : PipelineConfig} {world : CoordinatorWorld}
  {strict : Prop} {pre : RunCheckpoint → Prop} {s : RunCheckpoint}

theorem follows_loosely {α : Type} {x : CoordinatorSection α} {post : α → RunCheckpoint → Prop}
    (world : CoordinatorWorld) (h : Follows config strict pre x post (Unresolved world)) :
    Follows config strict pre x post fun _ _ => True :=
  h.weaken (fun _ holds => holds) (fun _ _ holds => holds) fun _ _ _ => trivial

theorem follows_saveCheckpoint {value : RunCheckpoint}
    (edge : ∀ c, pre c → Edge config strict c value) :
    Follows config strict pre (saveCheckpoint value) (fun _ c => c = value) fun _ _ => True :=
  .saves edge (fun _ _ => trivial) fun _ _ => trivial

/-- A write that the storage refuses or another writer forestalls throws something else. -/
theorem follows_save {value : RunCheckpoint} (edge : ∀ c, pre c → Edge config strict c value) :
    Follows config strict pre (saveCheckpoint value) (fun _ c => c = value) (Unresolved world) := by
  refine .saves edge ?_ ?_
  · intro c _ _ detail h
    cases h
  · intro c _ _ detail h
    cases h

/-- Save a checkpoint and end without awaiting. -/
theorem follows_save_return {value : RunCheckpoint} {progress : Progress}
    (edge : ∀ c, pre c → Edge config strict c value) (ends : Ends s progress value) :
    Follows config strict pre (do saveCheckpoint value; return progress) (Ends s)
      (Unresolved world) := by
  refine (follows_save edge).bind fun _ => .returns ?_
  rintro _ rfl
  exact ends

theorem follows_refuse {α : Type} {code : ProjectOperationsErrorCode} {detail : String}
    {post : α → RunCheckpoint → Prop} (other : code ≠ .unresolvedReview) :
    Follows config strict pre (refuse code detail) post (Unresolved world) := by
  refine .throws fun c _ _ detail' h => ?_
  cases h
  exact absurd rfl other

theorem follows_liftOperations {α : Type} (x : Except ProjectOperationsError α)
    {fails : CoordinatorError → RunCheckpoint → Prop}
    (thrown : ∀ error c, x = .error error → pre c → fails (.operations error) c) :
    Follows config strict pre (liftOperations x) (fun _ => pre) fails := by
  cases x with
  | ok a => exact .returns fun _ h => h
  | error error => exact .throws fun c h => thrown error c rfl h

/-! ### Stepping -/

/-- Save a checkpoint before the session is awaited. -/
theorem prepares_save {value : RunCheckpoint} (written : ∀ c, pre c → Prepares c value) :
    Meets Prepares Rewords pre (saveCheckpoint value) (fun _ c => c = value)
      (Unresolved world) := by
  refine .saves written ?_ ?_
  · intro c _ _ detail h
    cases h
  · intro c _ _ detail h
    cases h

theorem prepares_pauseStep {c : RunCheckpoint} {pause : Pause} (ready : Ready c) :
    Meets Prepares Rewords (· = c) (pauseStep c pause) (Ends s) (Unresolved world) := by
  refine (prepares_save ?_).bind fun _ => .returns fun _ _ => trivial
  rintro _ rfl
  exact .pauses ready

/-- The dispatch of an intent that is prepared, now or by this section. -/
theorem prepares_dispatchResearch {c : RunCheckpoint} {effect : ResearchEffect} (ready : Ready c)
    (research : c.workflowState.phase = .research) (prepared : c.researchEffect = some effect)
    (undispatched : effect.status ≠ .dispatched)
    (before : Ready s ∧ s.workflowState.phase = .research ∧ ¬ Dispatched s) :
    Meets Prepares Rewords (· = c) (dispatchResearch c effect.intent) (Ends s)
      (Unresolved world) := by
  refine (prepares_save ?_).bind fun _ => .returns ?_
  · rintro _ rfl
    exact .dispatches ready research prepared undispatched
  · rintro _ rfl
    refine ⟨.step ⟨ready.phase, ready.running, ready.unpaused, ready.stepless⟩ fun _ => ?_,
      fun _ _ _ => before⟩
    exact ⟨_, rfl, rfl⟩

theorem prepares_prepareStep :
    Meets Prepares Rewords (· = s) (prepareStep host world) (Ends s) (Unresolved world) := by
  refine .reading ?_
  rintro c rfl
  refine .branch (fun _ => .returns fun _ _ => trivial) fun active => ?_
  refine .branch (fun _ => .returns fun _ _ => trivial) fun unpaused => ?_
  obtain ⟨phase, running⟩ := not_or.mp active
  cases stepless : c.pendingStep with
  | some pending => exact .returns fun _ _ => trivial
  | none =>
      have ready : Ready c :=
        ⟨not_not.mp phase, by simpa using running, by simpa using unpaused, stepless⟩
      refine .branch (fun _ => prepares_pauseStep ready) fun _ => ?_
      refine .branch (fun other => .returns ?_) fun research => ?_
      · rintro _ rfl
        refine ⟨.step ready fun research => absurd research other, ?_⟩
        intro now hnow research
        obtain rfl := Flight.step.inj hnow
        exact absurd research other
      · replace research := not_not.mp research
        cases effect : c.researchEffect with
        | some effect' =>
            refine .branch (fun _ => prepares_pauseStep ready) fun undispatched => ?_
            refine prepares_dispatchResearch ready research effect undispatched
              ⟨ready, research, ?_⟩
            rintro ⟨held, hheld, dispatched⟩
            obtain rfl : effect' = held := Option.some.inj (effect.symm.trans hheld)
            exact undispatched dispatched
        | none =>
            dsimp only
            split
            · exact prepares_pauseStep ready
            · exact prepares_pauseStep ready
            · next intent _ =>
                have prepared : Ready (preparedCheckpoint c intent) :=
                  ⟨ready.phase, ready.running, ready.unpaused, ready.stepless⟩
                refine (prepares_save ?_).bind fun _ => ?_
                · rintro _ rfl
                  exact .prepares ready research effect
                · refine prepares_dispatchResearch prepared research rfl (by simp)
                    ⟨ready, research, ?_⟩
                  rintro ⟨held, hheld, _⟩
                  simp [effect] at hheld

theorem follows_pauseStep {c : RunCheckpoint} {pause : Pause} (ready : Ready c) :
    Follows config strict (· = c) (pauseStep c pause) (Ends s) (Unresolved world) :=
  (prepares_pauseStep ready).mono (fun _ _ => Prepares.edge) fun _ _ h => h

theorem follows_prepareStep :
    Follows config strict (· = s) (prepareStep host world) (Ends s) (Unresolved world) :=
  prepares_prepareStep.mono (fun _ _ => Prepares.edge) fun _ _ h => h

theorem follows_finishStep {c : RunCheckpoint} {returned : SessionReturn} (ready : Ready c) :
    Follows host.config strict (· = c) (finishStep host c returned world) (Ends s)
      fun _ _ => True := by
  rw [finishStep]
  split
  · next failure _ =>
      refine .reading ?_
      rintro now rfl
      refine .branch (fun _ => ?_) fun _ => ?_
      · exact follows_loosely world (follows_pauseStep ready)
      · split
        · exact .throws fun _ _ => trivial
        · next next failed =>
            refine follows_loosely world (follows_save_return ?_ trivial)
            rintro _ rfl
            exact .fails ready failed
  · next result hresult =>
      obtain ⟨outcome, stepped⟩ := settle_eq_ok hresult
      refine (Meets.bind (follows_liftOperations _ fun _ _ _ _ => trivial) fun followUps => ?_)
      refine follows_loosely world (follows_save_return ?_ trivial)
      rintro _ rfl
      exact .pends ready stepped

/-! ### Follow-ups and closeout -/

section FollowUps

variable {kept : Prop}

/-- The follow-ups are processed. -/
structure Processing (kept : Prop) (c : RunCheckpoint) : Prop where
  phase : c.phase = .followUps
  unique : Unique c.decisions
  settled : kept → Settled c

theorem follows_recordEffect {key : String} :
    Follows config strict (Processing kept) (recordEffect key) (fun _ => Processing kept)
      (Unresolved world) := by
  refine .reading fun c processing => .branch (fun _ => .returns ?_) fun _ => ?_
  · rintro _ rfl
    exact processing
  · refine (follows_save ?_).weaken (fun _ h => h) ?_ fun _ _ h => h
    · rintro _ rfl
      exact .effects processing.phase
    · rintro _ _ rfl
      exact ⟨processing.phase, processing.unique, processing.settled⟩

theorem follows_ensureDecision {followUp : FollowUp} {kind : DecisionKind} :
    Follows config strict (Processing kept) (ensureDecision host followUp kind)
      (fun _ => Processing kept) (Unresolved world) := by
  refine .reading fun c processing => .branch (fun _ => .returns ?_) fun fresh => ?_
  · rintro _ rfl
    exact processing
  · refine .branch (fun _ => follows_refuse (by decide)) fun _ => ?_
    replace fresh : ∀ other ∈ c.decisions, other.id ≠
        halfDigest (host.sha256 ("decision:" ++ host.followUpSemanticId followUp)) := by
      simpa using fresh
    refine (follows_save ?_).weaken (fun _ h => h) ?_ fun _ _ h => h
    · rintro _ rfl
      exact .decides processing.phase fresh
    · rintro _ _ rfl
      refine ⟨processing.phase, ?_, fun _ => Or.inl (by simp [isPending])⟩
      exact processing.unique.append fresh

theorem follows_recordBacklog {followUp : FollowUp} {id : String} :
    Follows config strict pre (recordBacklog host world followUp id) (fun _ => pre)
      (Unresolved world) := by
  have thrown (failure : BacklogFailure) : Follows config strict pre
      (throw (.backlog failure) : CoordinatorSection Unit) (fun _ => pre) (Unresolved world) := by
    refine .throws fun c _ _ detail h => ?_
    cases h
  refine .branch (fun _ => follows_refuse (by decide)) fun _ => ?_
  split
  · exact .returns fun _ h => h
  · split
    · exact .returns fun _ h => h
    · exact thrown _
  · exact thrown _

theorem follows_processFollowUp {followUp : FollowUp} :
    Follows config strict (Processing kept) (processFollowUp host world followUp)
      (fun _ => Processing kept) (Unresolved world) := by
  have decides (kind : DecisionKind) (key : String) : Follows config strict (Processing kept)
      (do ensureDecision host followUp kind; recordEffect key) (fun _ => Processing kept)
      (Unresolved world) :=
    follows_ensureDecision.bind fun _ => follows_recordEffect
  refine .reading fun c processing => .branch (fun _ => .returns ?_) fun _ => ?_
  · rintro _ rfl
    exact processing
  · refine Meets.weaken (P := Processing kept) (Q := fun _ => Processing kept)
      (F := Unresolved world) ?_ ?_ (fun _ _ h => h) fun _ _ h => h
    · split
      · exact decides .contract _
      · exact follows_recordBacklog.bind fun _ => follows_recordEffect
      · split
        · exact follows_recordEffect
        · next error document =>
            refine .branch (fun _ => decides .product _) fun _ => ?_
            refine .throws fun _ _ documents detail h => ?_
            cases h
            exact absurd rfl (documents.1 _ _ document)
    · rintro _ rfl
      exact processing

theorem follows_processFollowUps :
    Follows config strict (Processing kept) (processFollowUps host world)
      (fun _ c => (c.phase = .decisions ∨ c.phase = .closeout) ∧ Unique c.decisions ∧ (kept → Settled c))
      (Unresolved world) := by
  refine .reading fun c processing => .branch (fun other => ?_) fun _ => ?_
  · exact absurd processing.phase other
  · refine Meets.bind (Q := fun _ => Processing kept) (Meets.weaken
      (.forM fun followUp _ => follows_processFollowUp) ?_ (fun _ _ h => h) fun _ _ h => h)
      fun _ => .reading fun processed still => ?_
    · rintro _ rfl
      exact processing
    · refine (follows_save ?_).weaken (fun _ h => h) ?_ fun _ _ h => h
      · rintro _ rfl
        exact .processes still.phase
      · rintro _ _ rfl
        refine ⟨?_, still.unique, still.settled⟩
        dsimp only
        split_ifs
        · exact Or.inr rfl
        · exact Or.inl rfl

end FollowUps

theorem follows_closeout (late : ∀ c, pre c → c.phase = .closeout ∨ c.phase = .complete) :
    Follows config strict pre (closeout host) (Ends s) (Unresolved world) := by
  refine .reading fun c holds => ?_
  cases c.closeout with
  | some closed => exact .returns fun _ _ => trivial
  | none =>
      refine .branch (fun _ => .returns fun _ _ => trivial) fun resolved => ?_
      refine .branch (fun _ => .returns fun _ _ => trivial) fun done => ?_
      refine .branch (fun unapproved => .throws ?_) fun approved => ?_
      · rintro _ rfl _ detail _
        exact ⟨late _ holds, by simpa using unapproved⟩
      · refine (follows_save ?_).bind fun _ => .reading fun _ _ => .returns fun _ _ => trivial
        rintro _ rfl
        exact .completes (late _ holds) (by simpa using resolved) (by simpa using done) (by simpa using approved)

theorem follows_commitTransition {chosen : AvailableTransition} :
    Follows config strict (fun c => Unique c.decisions) (commitTransition host chosen world) (Ends s)
      fun _ _ => True := by
  refine .reading fun c unique => ?_
  split
  · exact .throws fun _ _ => trivial
  · next pending edge found =>
      obtain ⟨result, stepped, hedge⟩ := Option.bind_eq_some_iff.mp found
      obtain ⟨offered, hoffered, same⟩ := Option.map_eq_some_iff.mp hedge
      obtain ⟨rfl, rfl⟩ := Prod.mk.inj same
      refine follows_loosely world (Meets.bind (follows_save ?_) fun _ => ?_)
      · rintro _ rfl
        exact .commits stepped hoffered
      · refine .branch (fun done => ?_) fun _ => .returns fun _ _ => trivial
        have processes : Follows config strict (Processing False) (processFollowUps host world)
            _ (Unresolved world) := follows_processFollowUps
        refine (processes.weaken ?_ (fun _ _ h => h) fun _ _ h => h).bind fun _ =>
          .reading fun processed _ => ?_
        · rintro _ rfl
          exact ⟨by simp [done], unique, False.elim⟩
        · refine .branch (fun closed => ?_) fun _ => .returns fun _ _ => trivial
          have closes : Follows config strict (· = processed) (closeout host) (Ends processed)
              (Unresolved world) := by
            refine follows_closeout ?_
            rintro _ rfl
            exact Or.inl closed
          exact closes.bind fun _ => .returns fun _ _ => trivial

/-! ### Resolving decisions -/

section Decisions

/-- The first decision with an id is the one that replaced it. -/
theorem find?_replaceDecision {decisions : List OperatorDecision} {current next : OperatorDecision}
    (found : decisions.find? (·.id == next.id) = some current) :
    (replaceDecision decisions next).find? (·.id == next.id) = some next := by
  induction decisions with
  | nil => cases found
  | cons decision rest ih =>
      rw [replaceDecision]
      split_ifs with same
      · simp
      · have other : (decision.id == next.id) = false := by simpa using same
        rw [List.find?_cons, other] at found ⊢
        exact ih found

theorem find?_replaceDecision_of_ne {decisions : List OperatorDecision} {next : OperatorDecision}
    {id : String} (other : id ≠ next.id) :
    (replaceDecision decisions next).find? (·.id == id) = decisions.find? (·.id == id) := by
  induction decisions with
  | nil => rfl
  | cons decision rest ih =>
      rw [replaceDecision]
      split_ifs with same
      · have first : (next.id == id) = false := by simpa using other.symm
        have old : (decision.id == id) = false := by simpa [same] using other.symm
        rw [List.find?_cons, List.find?_cons, first, old]
      · rw [List.find?_cons, List.find?_cons, ih]

theorem replaceDecision_map_id (decisions : List OperatorDecision) (next : OperatorDecision) :
    (replaceDecision decisions next).map (·.id) = decisions.map (·.id) := by
  induction decisions with
  | nil => rfl
  | cons decision rest ih =>
      rw [replaceDecision]
      split_ifs with same
      · simp [same]
      · simp [ih]

/-- A resolution settles a pending decision, and leaves another one as it was. -/
structure Resolution.Spec (current next : OperatorDecision) : Prop where
  id : next.id = current.id
  kind : next.kind = current.kind
  settles : current.status = .pending → next.status ≠ .pending
  keeps : current.status ≠ .pending → next.status = current.status

theorem resolvedDecision_spec {current next : OperatorDecision} {resolution : DecisionResolution}
    (h : resolvedDecision current resolution = .ok next) : Resolution.Spec current next := by
  have status : resolution.action.status ≠ .pending := by
    cases resolution.action <;> simp [ResolutionAction.status]
  rw [resolvedDecision] at h
  split_ifs at h with accepts pending pending
  · obtain ⟨text, _, rfl⟩ := map_eq_ok.mp h
    exact ⟨rfl, rfl, fun _ => status, fun other => absurd pending other⟩
  · obtain ⟨text, _, rfl⟩ := map_eq_ok.mp h
    exact ⟨rfl, rfl, fun same => absurd same pending, fun _ => rfl⟩
  · obtain rfl := Except.ok.inj h
    exact ⟨rfl, rfl, fun _ => status, fun other => absurd pending other⟩
  · obtain rfl := Except.ok.inj h
    exact ⟨rfl, rfl, fun same => absurd same pending, fun _ => rfl⟩

theorem resolvedDecision_error {current : OperatorDecision} {resolution : DecisionResolution}
    {error : ProjectOperationsError} (h : resolvedDecision current resolution = .error error) :
    error.code = .invalidFollowUp := by
  rw [resolvedDecision] at h
  split_ifs at h
  all_goals
    rw [validateContractText.eq_def] at h
    split at h
    · obtain rfl := Except.error.inj h
      rfl
    · split_ifs at h
      · obtain rfl := Except.error.inj h
        rfl
      · cases h

/-- Decisions that a resolution replaces leave the accepted contracts known. -/
theorem Known.replace {decisions : List OperatorDecision} {c : RunCheckpoint}
    (h : Known decisions c) {current next : OperatorDecision}
    (found : c.decisions.find? (·.id == next.id) = some current)
    (stays : current.IsAcceptedContract → next.IsAcceptedContract) :
    Known decisions { c with decisions := replaceDecision c.decisions next } := by
  intro decision member accepted
  obtain ⟨held, hheld, contract⟩ := h decision member accepted
  by_cases same : decision.id = next.id
  · rw [same] at hheld ⊢
    obtain rfl : current = held := Option.some.inj (found.symm.trans hheld)
    exact ⟨next, find?_replaceDecision found, stays contract⟩
  · exact ⟨held, (find?_replaceDecision_of_ne same).trans hheld, contract⟩

end Decisions

section Reviews

variable {id : String} {rest : Option (List OperatorDecision)}

theorem follows_startContractReview {c : RunCheckpoint} {decision : OperatorDecision}
    (named : decision.id = id) (found : c.decisions.find? (·.id == decision.id) = some decision)
    (accepted : decision.IsAcceptedContract)
    (fresh : strict → c.phase ≠ .workflow → ¬ Approved c decision.id)
    (known : ∀ decisions ∈ rest, Known decisions c) :
    Follows config strict (· = c) (startContractReview host id decision rest world)
      (fun progress now => Ends s progress now ∧ ∃ flight, progress = .awaits flight)
      (Unresolved world) := by
  subst named
  refine .reading ?_
  rintro _ rfl
  split
  · exact follows_refuse (by decide)
  · refine .branch (fun _ => follows_refuse (by decide)) fun _ => ?_
    refine .bind (follows_liftOperations _ ?_) fun _ => ?_
    · rintro error _ document rfl documents detail h
      cases h
      exact absurd rfl (documents.2 _ _ _ document)
    · refine (follows_save ?_).bind fun _ => .returns ?_
      · rintro _ rfl
        exact .reviews found accepted fresh
      · rintro _ rfl
        refine ⟨⟨.review ⟨rfl, ?_⟩ rfl known, by simp⟩, _, rfl⟩
        dsimp only
        split_ifs with recorded
        · simpa using recorded
        · exact ⟨⟨decision.id, .pending, none⟩, by simp, rfl⟩

/-- A decision is resolved: an accepted contract is always put into review. -/
theorem follows_resolveDecision {c : RunCheckpoint} {resolution : DecisionResolution}
    (fresh : strict → c.phase ≠ .workflow → ¬ Approved c id)
    (known : ∀ decisions ∈ rest, Known decisions c) :
    Follows config strict (· = c) (resolveDecision host id resolution rest world)
      (fun progress now => Ends s progress now ∧
        ((∃ current, c.decisions.find? (·.id == id) = some current ∧ current.IsAcceptedContract) →
          ∃ flight, progress = .awaits flight)) (Unresolved world) := by
  refine .branch (fun _ => follows_refuse (by decide)) fun _ => .reading ?_
  rintro c rfl
  cases found : c.decisions.find? (·.id == id) with
  | none => exact follows_refuse (by decide)
  | some current =>
      obtain rfl : current.id = id := by simpa using List.find?_some found
      refine .branch (fun settled => .returns ?_) fun open' => ?_
      · rintro _ rfl
        refine ⟨trivial, ?_⟩
        rintro ⟨held, hheld, accepted⟩
        obtain rfl := Option.some.inj hheld
        exact absurd accepted settled.2
      · cases resolution_eq : resolvedDecision current resolution with
        | error error =>
            refine Meets.bind (Q := fun _ _ => False) (.throws fun _ _ _ detail h => ?_)
              fun _ _ impossible => impossible.elim
            have code := resolvedDecision_error resolution_eq
            cases h
            cases code
        | ok next =>
            have spec := resolvedDecision_spec resolution_eq
            have replaced : c.decisions.find? (·.id == next.id) = some current := by
              rw [spec.id]
              exact found
            have stays : current.IsAcceptedContract → next.IsAcceptedContract := by
              rintro ⟨status, kind⟩
              exact ⟨(spec.keeps (by simp [status])).trans status, spec.kind.trans kind⟩
            have settles : Follows config strict
                (· = { c with decisions := replaceDecision c.decisions next })
                (if next.status ≠ .accepted ∨ next.kind ≠ .contract then return Progress.resolved
                  else startContractReview host current.id next rest world)
                (fun progress now => Ends s progress now ∧
                  ((∃ held, some current = some held ∧ held.IsAcceptedContract) →
                    ∃ flight, progress = .awaits flight)) (Unresolved world) := by
              refine .branch (fun refused => .returns ?_) fun accepted => ?_
              · rintro _ rfl
                refine ⟨trivial, ?_⟩
                rintro ⟨held, hheld, contract⟩
                obtain rfl := Option.some.inj hheld
                have next_contract := stays contract
                exact absurd refused (by simp [next_contract.1, next_contract.2])
              · replace accepted : next.IsAcceptedContract := by
                  simpa [OperatorDecision.IsAcceptedContract] using accepted
                refine (follows_startContractReview spec.id (find?_replaceDecision replaced) accepted
                  ?_ ?_).weaken (fun _ h => h) (fun _ _ h => ⟨h.1, fun _ => h.2⟩) fun _ _ h => h
                · intro promised phase
                  rw [spec.id]
                  exact fresh promised phase
                · intro decisions member
                  exact (known decisions member).replace replaced stays
            refine .branch (fun pending => .bind (follows_save ?_) fun _ => settles) fun other =>
              .bind (.assigns ?_) fun _ => settles
            · rintro _ rfl
              exact .resolves found pending spec.id spec.kind (spec.settles pending)
            · rintro _ rfl
              have contract : current.IsAcceptedContract := by
                simpa [OperatorDecision.IsAcceptedContract, other] using open'
              exact ⟨current, next, found, contract, stays contract, spec.id, rfl⟩

end Reviews

/-! ### The run loop -/

section Loop

/-- Where the workflow goes on, no research is awaited. -/
theorem follows_prepareStep_resumed {c : RunCheckpoint} (other : c.workflowState.phase ≠ .research) :
    Follows config strict (· = c) (prepareStep host world) (Ends s) (Unresolved world) := by
  have prepares : Follows config strict (· = c) (prepareStep host world) (Ends c)
      (Unresolved world) := follows_prepareStep
  refine prepares.weaken (fun _ h => h) ?_ fun _ _ h => h
  intro progress now ends
  cases progress with
  | awaits flight =>
      refine ⟨ends.1, ?_⟩
      intro captured hcaptured research
      exact absurd (ends.2 captured hcaptured research).2.1 other
  | _ => trivial

theorem follows_settleDecisions :
    Follows config strict (Resolving strict []) (settleDecisions host world) (Ends s)
      (Unresolved world) := by
  have closes : Follows config strict
      (fun c => (c.phase = .decisions ∨ c.phase = .closeout) ∧ Unique c.decisions ∧ (strict → Settled c))
      (do
        let settled ← Section.read
        if settled.decisions.any isPending then return .ran .awaitingDecision settled none
        else do
          saveCheckpoint { settled with phase := .closeout }
          closeout host) (Ends s) (Unresolved world) := by
    refine .reading fun c settled => .branch (fun _ => .returns fun _ _ => trivial) fun resolved => ?_
    refine .bind (follows_save ?_) fun _ => follows_closeout ?_
    · rintro _ rfl
      refine .closes settled.1 (by simpa using resolved) fun promised => ?_
      exact (settled.2.2 promised).resolve_left resolved
    · rintro _ rfl
      exact Or.inl rfl
  refine .reading fun c resolving => .branch (fun workflow => ?_) fun settled => ?_
  · refine follows_prepareStep_resumed ?_
    rcases resolving.phase with phase | phase | ⟨_, other⟩
    · simp [workflow] at phase
    · simp [workflow] at phase
    · exact other
  · have remaining : strict → Settled c := by
      intro promised
      rcases resolving.remaining promised settled with settled | ⟨_, member, _⟩
      · exact settled
      · cases member
    refine .branch (fun followUps => ?_) fun others => ?_
    · refine .bind (follows_processFollowUps.weaken ?_ (fun _ _ h => h) fun _ _ h => h) fun _ => closes
      rintro _ rfl
      exact ⟨followUps, resolving.unique, remaining⟩
    · refine closes.weaken ?_ (fun _ _ h => h) fun _ _ h => h
      rintro _ rfl
      refine ⟨?_, resolving.unique, remaining⟩
      rcases resolving.phase with phase | phase | ⟨phase, _⟩
      · exact Or.inl phase
      · exact absurd phase others
      · exact absurd phase settled

theorem follows_resolveAccepted {decisions : List OperatorDecision} :
    Follows config strict (Resolving strict decisions) (resolveAccepted host world decisions)
      (Ends s) (Unresolved world) := by
  induction decisions with
  | nil => exact follows_settleDecisions
  | cons decision rest ih =>
      refine .reading fun c resolving => .branch (fun open' => ?_) fun settled => ?_
      · obtain ⟨status, kind, unapproved⟩ := open'
        have accepted : decision.IsAcceptedContract := ⟨status, kind⟩
        replace unapproved : ¬ Approved c decision.id := by
          simpa [Approved] using unapproved
        have left : ∀ decisions ∈ some rest, Known decisions c := by
          rintro _ ⟨⟩ later member
          exact resolving.known later (List.mem_cons_of_mem _ member)
        refine (follows_resolveDecision (s := s) (fun _ _ => unapproved) left).bind
          fun progress => ?_
        have found := resolving.known decision List.mem_cons_self accepted
        split
        · exact .returns fun _ h => h.1
        · next other =>
            refine ih.weaken (fun now h => ?_) (fun _ _ h => h) fun _ _ h => h
            obtain ⟨flight, awaits⟩ := h.2 found
            exact absurd awaits (other flight)
      · refine ih.weaken ?_ (fun _ _ h => h) fun _ _ h => h
        rintro _ rfl
        refine ⟨resolving.phase, resolving.unique,
          fun later member => resolving.known later (List.mem_cons_of_mem _ member), ?_⟩
        intro promised phase
        rcases resolving.remaining promised phase with done | ⟨later, member, contract, unapproved⟩
        · exact Or.inl done
        · rcases List.mem_cons.mp member with rfl | member
          · refine absurd ?_ settled
            refine ⟨contract.1, contract.2, ?_⟩
            simpa [Approved] using unapproved
          · exact Or.inr ⟨later, member, contract, unapproved⟩

/-- The loop of `run` starts with all decisions. -/
theorem Resolving.all {c : RunCheckpoint} (phase : c.phase = .decisions) (unique : Unique c.decisions) :
    Resolving strict c.decisions c := by
  refine ⟨Or.inl phase, unique, ?_, ?_⟩
  · intro decision member accepted
    exact ⟨decision, unique.find? member, accepted⟩
  · intro _ _
    by_cases vetted : Vetted c
    · exact Or.inl (Or.inr vetted)
    · simp only [Vetted, not_forall] at vetted
      obtain ⟨decision, member, accepted, unapproved⟩ := vetted
      exact Or.inr ⟨decision, member, accepted, unapproved⟩

theorem follows_run (unique : Unique s.decisions) :
    Follows config strict (· = s) (run host world) (Ends s) (Unresolved world) := by
  refine .reading ?_
  rintro c rfl
  refine .branch (fun workflow => ?_) fun settled => ?_
  · refine follows_prepareStep.bind fun progress => .reading fun now ends => ?_
    split
    · exact .branch (fun _ => .returns fun _ _ => trivial) fun _ => .returns fun _ _ => trivial
    · refine .returns ?_
      rintro _ rfl
      exact ends
  · have resolves : Follows config strict (fun now => (now.phase = .decisions ∨
        now.phase = .closeout ∨ now.phase = .complete) ∧ Unique now.decisions)
        (do
          let processed ← Section.read
          if processed.phase = .decisions then resolveAccepted host world processed.decisions
          else closeout host) (Ends c) (Unresolved world) := by
      refine .reading fun now holds => .branch (fun phase => ?_) fun closed => ?_
      · refine follows_resolveAccepted.weaken ?_ (fun _ _ h => h) fun _ _ h => h
        rintro _ rfl
        exact .all phase holds.2
      · refine follows_closeout ?_
        rintro _ rfl
        exact holds.1.resolve_left closed
    refine .branch (fun followUps => ?_) fun others => ?_
    · have processes : Follows config strict (Processing False) (processFollowUps host world)
          _ (Unresolved world) := follows_processFollowUps
      refine .bind (processes.weaken ?_ ?_ fun _ _ h => h) fun _ => resolves
      · rintro _ rfl
        exact ⟨followUps, unique, False.elim⟩
      · intro _ now h
        exact ⟨h.1.imp_right Or.inl, h.2.1⟩
    · refine resolves.weaken ?_ (fun _ _ h => h) fun _ _ h => h
      rintro c rfl
      refine ⟨?_, unique⟩
      cases phase : c.phase <;> simp_all

/-- Besides the reviewed decision an accepted contract is left to review, or all are settled. -/
def RemainingBeside (id : String) (decisions : List OperatorDecision) (c : RunCheckpoint) : Prop :=
  c.decisions.any isPending = true ∨
    (∀ decision ∈ c.decisions, decision.IsAcceptedContract → decision.id ≠ id →
      Approved c decision.id) ∨
    ∃ decision ∈ decisions, decision.IsAcceptedContract ∧ decision.id ≠ id ∧
      ¬ Approved c decision.id

/-- The session came back with an approving review. -/
def SessionReturn.Approves (returned : SessionReturn) (config : PipelineConfig)
    (state : WorkflowState) : Prop :=
  ∃ review, returned.settle (reviewCurrent config state) = .ok review ∧
    review.verdict.map (·.status) = some .approved

/-- A review that has returned leaves the decisions, and settles its own where it approves. -/
structure Reviewed (id : String) (approves : Prop) (before c : RunCheckpoint) : Prop where
  phase : c.phase = .followUps ∨ c.phase = .workflow ∧ c.workflowState.phase ≠ .research
  decisions : c.decisions = before.decisions
  approved : c.phase = .followUps →
    approves ∧ ∀ other, Approved c other ↔ other = id ∨ Approved before other

theorem approved_reviewedRecords {c : RunCheckpoint} {id runId other : String}
    (recorded : ∃ record ∈ c.contractReviews, record.decisionId = id) :
    (∃ record ∈ reviewedRecords c id .approved runId, record.decisionId = other ∧
      record.status = .verdict .approved) ↔ other = id ∨ Approved c other := by
  simp only [reviewedRecords, List.mem_map, exists_exists_and_eq_and]
  constructor
  · rintro ⟨record, member, named, status⟩
    split_ifs at named status with same
    · exact Or.inl named.symm
    · exact Or.inr ⟨record, member, named, status⟩
  · rintro (rfl | ⟨record, member, named, status⟩)
    · obtain ⟨record, member, named⟩ := recorded
      exact ⟨record, member, by simp [named], by simp [named]⟩
    · refine ⟨record, member, ?_, ?_⟩
      · split_ifs with same
        · exact same.symm.trans named
        · exact named
      · split_ifs
        · rfl
        · exact status

/-- A review in the review phase is a step. -/
theorem step_of_reviewCurrent {state : WorkflowState} {outcome : StepOutcome} {result : StepResult}
    (phase : state.phase = .review) (h : reviewCurrent config state outcome = .ok result) :
    Orchestration.step config state outcome = .ok result := by
  cases outcome with
  | review turns inventory =>
      simp only [Orchestration.step, phase]
      exact h
  | _ => cases h

theorem step_phase {state : WorkflowState} {outcome : StepOutcome} {result : StepResult}
    (h : Orchestration.step config state outcome = .ok result) :
    result.state.phase = state.phase := by
  have control := (step_spec h).control
  simp only [WorkflowState.control, Control.mk.injEq] at control
  exact control.1

theorem follows_finishReview {c : RunCheckpoint} {id : String} {returned : SessionReturn}
    (reviewing : Reviewing c id) (phase : c.workflowState.phase = .review) :
    Follows config strict (· = c) (finishReview host id c.workflowState returned)
      (fun progress now => Ends s progress now ∧
        Reviewed id (returned.Approves host.config c.workflowState) c now) fun _ _ => True := by
  rw [finishReview]
  split
  · exact .throws fun _ _ => trivial
  · next review hreview =>
      obtain ⟨outcome, stepped⟩ := settle_eq_ok hreview
      have still : review.state.phase = .review :=
        (step_phase (step_of_reviewCurrent phase stepped)).trans phase
      split
      · exact .throws fun _ _ => trivial
      · next verdict hverdict =>
          refine .reading ?_
          rintro now rfl
          refine Meets.bind (follows_liftOperations _ fun _ _ _ _ => trivial) fun followUps => ?_
          refine .branch (fun approves => ?_) fun unapproved => ?_
          · refine (follows_saveCheckpoint ?_).bind fun _ => .returns ?_
            · rintro _ rfl
              rw [approves]
              exact .approves reviewing
            · rintro _ rfl
              refine ⟨trivial, Or.inl rfl, rfl, fun _ => ⟨⟨review, hreview, ?_⟩, fun other => ?_⟩⟩
              · simp [hverdict, approves]
              rw [approves]
              exact approved_reviewedRecords reviewing.recorded
          · split
            · refine (follows_saveCheckpoint ?_).bind fun _ => .throws fun _ _ => trivial
              rintro _ rfl
              exact .blocks reviewing unapproved still
            · next advance found =>
                have code : advance.toPhase = .code := by simpa using List.find?_some found
                refine (follows_saveCheckpoint ?_).bind fun _ => .returns ?_
                · rintro _ rfl
                  exact .reworks reviewing unapproved code
                · rintro _ rfl
                  refine ⟨trivial, Or.inr ⟨rfl, ?_⟩, rfl, by simp⟩
                  simp [applyTransition, code]

/-- What the callers of a coordinator promise where a call returns. -/
def Flight.Promised (config : PipelineConfig) (returned : SessionReturn) (c : RunCheckpoint) :
    Flight → Prop
  | .review id state (some rest) => returned.Approves config state → RemainingBeside id rest c
  | _ => True

theorem Reviewed.resolving {c now : RunCheckpoint} {id : String} {approves : Prop}
    {rest : List OperatorDecision} (h : Reviewed id approves c now) (unique : Unique c.decisions)
    (known : Known rest c) (promised : strict → approves → RemainingBeside id rest c) :
    Resolving strict rest now := by
  refine ⟨Or.inr h.phase, ?_, ?_, ?_⟩
  · rw [Unique, h.decisions]
    exact unique
  · rw [Known, h.decisions]
    exact known
  · intro holds phase
    obtain ⟨approving, approved⟩ := h.approved (h.phase.resolve_right fun other => phase other.1)
    rcases promised holds approving with pending | others | ⟨decision, member, accepted, other, left⟩
    · refine Or.inl (Or.inl ?_)
      rw [h.decisions]
      exact pending
    · refine Or.inl (Or.inr ?_)
      intro decision member accepted
      rw [h.decisions] at member
      rw [approved]
      by_cases same : decision.id = id
      · exact Or.inl same
      · exact Or.inr (others decision member accepted same)
    · refine Or.inr ⟨decision, member, accepted, ?_⟩
      rw [approved]
      rintro (same | before)
      · exact other same
      · exact left before

theorem follows_flight {c : RunCheckpoint} {flight : Flight} {returned : SessionReturn}
    (waits : FlightAt c flight) (unique : Unique c.decisions)
    (promised : strict → flight.Promised host.config returned c) :
    Follows host.config strict (· = c) (flight.section host returned world) (Ends c)
      fun _ _ => True := by
  cases waits with
  | step ready _ => exact follows_finishStep ready
  | @review id rest reviewing phase known =>
      have finished : Follows host.config strict (· = c)
          (finishReview host id c.workflowState returned) _ fun _ _ => True :=
        follows_finishReview (s := c) reviewing phase
      cases rest with
      | none => exact finished.weaken (fun _ h => h) (fun _ _ h => h.1) fun _ _ h => h
      | some rest =>
          refine finished.bind fun _ => ?_
          refine (follows_loosely world follows_resolveAccepted).weaken ?_ (fun _ _ h => h)
            fun _ _ h => h
          intro now reviewed
          exact reviewed.2.resolving unique (known rest rfl) promised

end Loop

/-! ### Calls -/

section Calls

/-- The writes that a call may make. -/
def CoordinatorCall.Writes (config : PipelineConfig) (strict : Prop) :
    CoordinatorCall → RunCheckpoint → RunCheckpoint → Prop
  | .resumeResearch _ => Reopens
  | .resumeStage => Unpauses
  | .resumeRoundCap _ _ => RaisesCap
  | _ => Edge config strict

/-- What the callers of a coordinator promise where they call it. -/
def CoordinatorCall.Promised (c : RunCheckpoint) : CoordinatorCall → Prop
  | .resolveDecision id _ => c.phase ≠ .workflow → ¬ Approved c id
  | _ => True

/-- A call that resumes saves once and ends. -/
theorem meets_save_resolved {W : RunCheckpoint → RunCheckpoint → Prop} {value : RunCheckpoint}
    (allowed : ∀ c, pre c → W c value) :
    Meets W Rewords pre (do saveCheckpoint value; return Progress.resolved) (Ends s)
      fun _ _ => True :=
  (Meets.saves allowed (fun _ _ => trivial) fun _ _ => trivial).bind fun _ =>
    .returns fun _ _ => trivial

theorem meets_resumeResearch {source : ResolutionSource} :
    Meets Reopens Rewords pre (resumeResearch source) (Ends s) fun _ _ => True := by
  refine .reading fun c _ => .branch (fun _ => .throws fun _ _ => trivial) fun allowed => ?_
  refine meets_save_resolved ?_
  rintro _ rfl
  exact ⟨by simpa using (not_or.mp allowed).2, rfl⟩

theorem meets_resumeStage :
    Meets Unpauses Rewords pre (resumeStage host) (Ends s) fun _ _ => True := by
  refine .reading fun c _ => ?_
  cases paused : c.pause with
  | none => exact .throws fun _ _ => trivial
  | some pause =>
      have resumes : Meets Unpauses Rewords (· = c)
          (do saveCheckpoint { c with pause := none }; return Progress.resolved) (Ends s)
          fun _ _ => True := by
        refine meets_save_resolved ?_
        rintro _ rfl
        exact ⟨by simp [paused], rfl⟩
      refine .branch (fun _ => .throws fun _ _ => trivial) fun _ => ?_
      refine .branch (fun _ => resumes) fun _ => ?_
      dsimp only
      split
      · exact .branch (fun _ => .throws fun _ _ => trivial) fun _ => resumes
      · exact .throws fun _ _ => trivial

theorem meets_resumeRoundCap {limit : Nat} {reason : String} :
    Meets RaisesCap Rewords pre (resumeRoundCap limit reason world) (Ends s)
      fun _ _ => True := by
  refine .reading fun c _ => .branch (fun _ => .throws fun _ _ => trivial) fun settled => ?_
  refine .branch (fun _ => .throws fun _ _ => trivial) fun _ => meets_save_resolved ?_
  rintro _ rfl
  exact ⟨by simpa using (not_or.mp settled).1, _, rfl⟩

theorem meets_call {c : RunCheckpoint} {call : CoordinatorCall} (unique : Unique c.decisions)
    (promised : strict → call.Promised c) :
    Meets (call.Writes host.config strict) Rewords (· = c) (call.section host world) (Ends c)
      fun _ _ => True := by
  cases call with
  | prepareStep => exact follows_loosely world follows_prepareStep
  | commitTransition chosen =>
      refine (follows_commitTransition).weaken ?_ (fun _ _ h => h) fun _ _ h => h
      rintro _ rfl
      exact unique
  | run => exact follows_loosely world (follows_run unique)
  | resolveDecision id resolution =>
      have resolves : Follows host.config strict (· = c)
          (resolveDecision host id resolution none world) _ (Unresolved world) :=
        follows_resolveDecision (s := c) promised (by simp)
      exact (follows_loosely world resolves).weaken (fun _ h => h) (fun _ _ h => h.1) fun _ _ h => h
  | resumeResearch source => exact meets_resumeResearch
  | resumeStage => exact meets_resumeStage
  | resumeRoundCap limit reason => exact meets_resumeRoundCap

end Calls

end Follows

end AdCoder.ProjectOperations
