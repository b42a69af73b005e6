import AdCoder.ProjectOperations.ImportedState

/-!
# Where imported work resumes

The phase, the round and the verdict of imported work, against the native session after
the same recorded stages.
-/

namespace AdCoder.ProjectOperations

open Foundation Orchestration

/-! ## The recorded stages -/

section Recorded

variable (host : LdoHost)

/-- The value as one of the texts it was accepted for. -/
def reading {α : Type} (ofText? : String → Option α) (value : Option Json) : Option α :=
  (readAs host ofText? value).toOption

/-- The status of the final review, if there is one. -/
def finalStatus (artifact : Fields) : Option VerdictStatus :=
  let completed := members "completed" artifact
  reading host VerdictStatus.ofText? (reviewStatus (finalReview completed) completed)

/-- A security report, or the stage among the completed ones. -/
def hasSecurity (artifact : Fields) : Bool :=
  !(Json.lookup "security" artifact).isNone && !isNull (Json.lookup "security" artifact) ||
    (Json.lookup "security" (members "completed" artifact)).isSome

/-- The last stage that the artifact records. -/
def lastStage (artifact : Fields) : Option LdoStage :=
  let completed := members "completed" artifact
  let has (key : String) : Bool := (Json.lookup key completed).isSome
  if has "reviewer2" then (finalStatus host artifact).map (.review 2)
  else if has "coderFix1" then some (.code 2)
  else if has "reviewer1" then (finalStatus host artifact).map (.review 1)
  else if has "coder" then some (.code 1)
  else if hasSecurity artifact then some .security
  else (reading host SecuritySurface.ofText?
    (Json.lookup "security_surface" (members "plan" artifact))).map .plan

end Recorded

/-- Imported work is where a native session would be, at the edge it takes next. -/
structure Consistent (host : LdoHost) (artifact : Fields) (kind : LdoArtifactKind)
    (state : WorkflowState) (edge : AvailableTransition) : Prop where
  approved : state.approved = true ↔ finalStatus host artifact = some .approved
  done : state.done = true ↔ edge.toPhase = .done
  round : state.round = edge.toRound
  phase : state.phase = edge.toPhase
  incomplete : incomplete artifact kind = none ↔ state.done = true ∧ state.approved = true

/-- After a plan no security phase is due, after a coder no gates are; a first review
that approves says so by its plain text, and one that asks for changes leaves a round;
there is no second review. -/
def ResumesNatively (config : PipelineConfig) (artifact : Fields) : LdoStage → Prop
  | .plan surface => runSecurity config (some surface) = false
  | .security => True
  | .code _ => config.qualityGates = false
  | .review 1 .approved =>
      isText "approved" (reviewStatus "reviewer1" (members "completed" artifact)) = true
  | .review 1 _ => 1 < config.maxRounds
  | .review _ _ => False

/-! ## What is accepted -/

section Accepted

variable {host : LdoHost} {detail : String}

@[simp] theorem check_eq_ok {holds : Bool} {u : Unit} :
    check detail holds = .ok u ↔ holds = true :=
  require_eq_ok

theorem object_eq_ok {value : Option Json} {fields : Fields} :
    object detail value = .ok fields ↔ value = some (.obj fields) := by
  unfold object
  split <;> simp_all

theorem array_eq_ok {value : Option Json} {items : List Json} :
    array detail value = .ok items ↔ value = some (.arr items) := by
  unfold array
  split <;> simp_all

theorem record_eq_ok {allowed : List String} {value : Option Json} {fields : Fields} :
    record detail allowed value = .ok fields ↔
      value = some (.obj fields) ∧ ∀ field ∈ fields, field.1 ∈ allowed := by
  simp only [record, bind_eq_ok, object_eq_ok, onlyKeys, require_eq_ok, pure_eq_ok,
    List.all_eq_true, List.contains_iff_mem]
  constructor
  · rintro ⟨_, rfl, _, known, rfl⟩
    exact ⟨rfl, known⟩
  · rintro ⟨rfl, known⟩
    exact ⟨fields, rfl, (), known, rfl⟩

/-- A key that is not allowed is not there. -/
theorem lookup_of_record {allowed : List String} {value : Option Json} {fields : Fields}
    {name : String} (h : record detail allowed value = .ok fields) (strange : name ∉ allowed) :
    Json.lookup name fields = none := by
  refine Json.lookup_eq_none fun mem => ?_
  obtain ⟨field, held, rfl⟩ := List.mem_map.mp mem
  exact strange ((record_eq_ok.mp h).2 field held)

theorem includesText_eq_ok {names : List String} {value : Option Json} :
    includesText host detail names value = .ok () ↔
      ∃ text, displayed host value = .ok text ∧ text ∈ names := by
  simp only [includesText, bind_eq_ok, check_eq_ok, List.contains_iff_mem]

/-- A value that reads as one of the accepted texts has a reading. -/
theorem readAs_of_includesText {α : Type} {ofText? : String → Option α} {names : List String}
    {value : Option Json} (known : ∀ name ∈ names, (ofText? name).isSome = true)
    (h : includesText host detail names value = .ok ()) :
    ∃ result, readAs host ofText? value = .ok result := by
  obtain ⟨text, shown, mem⟩ := includesText_eq_ok.mp h
  obtain ⟨result, read⟩ := Option.isSome_iff_exists.mp (known text mem)
  exact ⟨result, by simp [readAs, bind_eq_ok, shown, read]⟩

theorem displayed_of_isString {value : Option Json} (h : isString value = true) :
    ∃ text, displayed host value = .ok text := by
  unfold isString at h
  split at h
  · exact ⟨_, rfl⟩
  · cases h

theorem displayed_summary {summary : Option Json} (h : isString summary = true) :
    ∃ text, displayed host (nullish summary (some (.str "Imported LDO review"))) = .ok text := by
  unfold isString at h
  split at h
  · exact ⟨_, rfl⟩
  · cases h

theorem importedIssue_ok {item : Json} (h : validateIssue host detail item = .ok ()) :
    ∃ issue, importedIssue host item = .ok issue := by
  simp only [validateIssue, bind_eq_ok, record_eq_ok, check_eq_ok, List.all_eq_true] at h
  obtain ⟨issue, ⟨whole, -⟩, _, texts, -⟩ := h
  obtain rfl := Option.some.inj whole
  obtain ⟨file, shownFile⟩ := @displayed_of_isString host _ (texts "file" (by simp))
  obtain ⟨what, shownWhat⟩ := @displayed_of_isString host _ (texts "what" (by simp))
  obtain ⟨suggestion, shownSuggestion⟩ :=
    @displayed_of_isString host _ (texts "suggestion" (by simp))
  refine ⟨⟨severity (Json.lookup "severity" issue),
    file ++ ": " ++ what ++ " (" ++ suggestion ++ ")", none, none, none, none, none⟩, ?_⟩
  simp only [importedIssue, shownFile, shownWhat, shownSuggestion]
  rfl

/-- A recorded review becomes a verdict that approves or asks for changes. -/
def ReadsAsVerdict (host : LdoHost) (value : Option Json) : Prop :=
  value = none ∨ ∃ review verdict, value = some (.obj review) ∧
    importedVerdict host review = .ok verdict ∧ verdict.status ≠ .decompositionRequired

theorem reviewed_of_validateStage {completed : Fields} {key : String}
    (h : validateStage (validateReview host detail) completed key = .ok ()) :
    ReadsAsVerdict host (Json.lookup key completed) := by
  unfold validateStage at h
  cases held : Json.lookup key completed with
  | none => exact .inl rfl
  | some value =>
      simp only [held, Option.isSome_some, if_true, validateReview, bind_eq_ok, check_eq_ok,
        array_eq_ok] at h
      obtain ⟨review, reviewed, _, _, _, status, _, summary, items, issues, _, each, -⟩ := h
      obtain ⟨whole, -⟩ := record_eq_ok.mp reviewed
      obtain ⟨text, shown, mem⟩ := includesText_eq_ok.mp status
      obtain ⟨read, reads, plain⟩ : ∃ read, VerdictStatus.ofText? text = some read ∧
          read ≠ .decompositionRequired := by
        simp only [List.mem_cons, List.not_mem_nil, or_false] at mem
        rcases mem with rfl | rfl <;> exact ⟨_, rfl, by simp⟩
      obtain ⟨list, mapped⟩ := mapM_ok fun item held =>
        importedIssue_ok (forM_eq_ok.mp each item held)
      obtain ⟨words, printed⟩ := @displayed_summary host _ summary
      have decided : readAs host VerdictStatus.ofText? (Json.lookup "status" review) =
          .ok read := by
        simp [readAs, bind_eq_ok, shown, reads]
      refine .inr ⟨review, ⟨read, list, words, none, none⟩, whole, ?_, plain⟩
      simp only [importedVerdict, decided, issues, importedIssues, mapped, printed]
      rfl

/-- What the state of an accepted artifact is made of. -/
structure Accepted (host : LdoHost) (artifact : Fields) (kind : LdoArtifactKind) : Prop where
  complexity : ∃ read, readAs host Complexity.ofText?
    (Json.lookup "complexity" (members "plan" artifact)) = .ok read
  surface : ∃ read, readAs host SecuritySurface.ofText?
    (Json.lookup "security_surface" (members "plan" artifact)) = .ok read
  plain : Json.lookup "contract_requirements" (members "plan" artifact) = none
  unstarted : kind = .plan → members "completed" artifact = []
  first : ReadsAsVerdict host (Json.lookup "reviewer1" (members "completed" artifact))
  second : ReadsAsVerdict host (Json.lookup "reviewer2" (members "completed" artifact))
  fresh : kind = .run → isStale host artifact (members "completed" artifact) = false

theorem members_eq {name : String} {fields inner : Fields}
    (h : Json.lookup name fields = some (.obj inner)) : members name fields = inner := by
  rw [members, h]

theorem accepted_run {artifact : Fields} (h : validateRun host detail artifact = .ok ()) :
    ReadsAsVerdict host (Json.lookup "reviewer1" (members "completed" artifact)) ∧
      ReadsAsVerdict host (Json.lookup "reviewer2" (members "completed" artifact)) ∧
      isStale host artifact (members "completed" artifact) = false := by
  simp only [validateRun, bind_eq_ok, object_eq_ok, require_eq_ok] at h
  obtain ⟨_, _, completed, held, _, _, _, _, _, _, _, first, _, second, _, _, _, fresh, -⟩ := h
  rw [members_eq held]
  exact ⟨reviewed_of_validateStage first, reviewed_of_validateStage second,
    by simpa using fresh⟩

theorem accepted_plan {artifact : Fields}
    (h : validatePlan host detail (Json.lookup "plan" artifact) = .ok ()) :
    (∃ read, readAs host Complexity.ofText?
      (Json.lookup "complexity" (members "plan" artifact)) = .ok read) ∧
    (∃ read, readAs host SecuritySurface.ofText?
      (Json.lookup "security_surface" (members "plan" artifact)) = .ok read) ∧
    Json.lookup "contract_requirements" (members "plan" artifact) = none := by
  simp only [validatePlan, bind_eq_ok] at h
  obtain ⟨plan, planned, _, _, _, _, _, _, _, complexity, _, surface, -⟩ := h
  rw [members_eq (record_eq_ok.mp planned).1]
  exact ⟨readAs_of_includesText (by decide) complexity,
    readAs_of_includesText (by decide) surface, lookup_of_record planned (by decide)⟩

theorem accepted_of_validateArtifact {value : Json} {kind : LdoArtifactKind} {id : String}
    {artifact : Fields} (h : validateArtifact host value kind id = .ok artifact) :
    Accepted host artifact kind := by
  simp only [validateArtifact, bind_eq_ok] at h
  obtain ⟨fields, recorded, _, _, _, planned, _, _, _, _, rest⟩ := h
  cases kind with
  | plan =>
      obtain rfl := pure_eq_ok.mp rest
      have none : Json.lookup "completed" fields = none :=
        lookup_of_record recorded (by decide)
      have unstarted : members "completed" fields = [] := by rw [members, none]
      obtain ⟨complexity, surface, plain⟩ := accepted_plan planned
      exact ⟨complexity, surface, plain, fun _ => unstarted,
        .inl (by rw [unstarted]; rfl), .inl (by rw [unstarted]; rfl), nofun⟩
  | run =>
      obtain ⟨⟨⟩, run, last⟩ := bind_eq_ok.mp rest
      obtain rfl := pure_eq_ok.mp last
      obtain ⟨complexity, surface, plain⟩ := accepted_plan planned
      obtain ⟨first, second, fresh⟩ := accepted_run run
      exact ⟨complexity, surface, plain, nofun, first, second, fun _ => fresh⟩

end Accepted

/-! ## The order of the stages -/

/-- The stages of an accepted artifact follow each other. -/
structure Ordered (artifact : Fields) (kind : LdoArtifactKind) : Prop where
  coder : (Json.lookup "reviewer1" (members "completed" artifact)).isSome = true →
    (Json.lookup "coder" (members "completed" artifact)).isSome = true
  asked : (Json.lookup "coderFix1" (members "completed" artifact)).isSome = true →
    isText "changes_requested"
      (reviewStatus "reviewer1" (members "completed" artifact)) = true
  fixed : (Json.lookup "reviewer2" (members "completed" artifact)).isSome = true →
    (Json.lookup "coderFix1" (members "completed" artifact)).isSome = true
  terminal : isTerminal artifact kind = true →
    isText "approved" (reviewStatus (finalReview (members "completed" artifact))
      (members "completed" artifact)) = true

section Order

variable {host : LdoHost} {artifact : Fields} {kind : LdoArtifactKind}

theorem Accepted.ordered (accepted : Accepted host artifact kind) : Ordered artifact kind := by
  cases kind with
  | plan =>
      have empty := accepted.unstarted rfl
      constructor <;> simp [empty, isTerminal]
  | run =>
      have fresh := accepted.fresh rfl
      simp only [isStale, Bool.or_eq_false_iff, Bool.and_eq_false_iff] at fresh
      obtain ⟨⟨⟨⟨⟨⟨first, fix⟩, second⟩, -⟩, -⟩, completed⟩, -⟩ := fresh
      refine ⟨fun has => ?_, fun has => ?_, fun has => ?_, fun terminal => ?_⟩
      · simpa [has] using first
      · simpa [has] using fix
      · simpa [has] using second
      · have done : isText "completed" (Json.lookup "status" artifact) = true := by
          simpa [isTerminal] using terminal
        simpa [done] using completed.resolve_left (by simp [done]) |>.1.1.1.2

theorem exists_of_isText {text : String} {name : String} {completed : Fields}
    (h : isText text (reviewStatus name completed) = true) :
    (Json.lookup name completed).isSome = true := by
  unfold reviewStatus at h
  split at h
  · next held => rw [held]; rfl
  · simp [isText] at h

/-- One status does not read as two texts. -/
theorem isText_unique {a b : String} {value : Option Json} (differ : a ≠ b)
    (h : isText a value = true) : isText b value = false := by
  unfold isText at h ⊢
  split at h
  · next held =>
      simp only [beq_iff_eq] at h
      subst h
      simpa using differ
  · cases h

theorem reading_of_isText {α : Type} {ofText? : String → Option α} {text : String}
    {value : Option Json} (h : isText text value = true) :
    reading host ofText? value = ofText? text := by
  unfold isText at h
  split at h
  · obtain rfl := beq_iff_eq.mp h
    simp only [reading, readAs, displayed, display, bind, Except.bind]
    cases ofText? _ <;> rfl
  · cases h

theorem ReadsAsVerdict.reading {name : String} {completed : Fields}
    (reviewed : ReadsAsVerdict host (Json.lookup name completed))
    (has : (Json.lookup name completed).isSome = true) :
    reading host VerdictStatus.ofText? (reviewStatus name completed) = some .approved ∨
      reading host VerdictStatus.ofText? (reviewStatus name completed) =
        some .changesRequested := by
  rcases reviewed with none | ⟨review, verdict, held, read, known⟩
  · simp [none] at has
  · obtain ⟨status, decided, later⟩ := bind_eq_ok.mp read
    obtain ⟨_, _, later⟩ := bind_eq_ok.mp later
    obtain ⟨_, _, made⟩ := bind_eq_ok.mp later
    obtain rfl := pure_eq_ok.mp made
    simp only [reviewStatus, held, ProjectOperations.reading, decided, Except.toOption]
    cases status <;> simp_all

end Order

/-! ## The state of each stage -/

section States

variable {host : LdoHost} {artifact : Fields} {kind : LdoArtifactKind}

theorem ReadsAsVerdict.object {value : Option Json} (reads : ReadsAsVerdict host value) :
    value = none ∨ ∃ review, value = some (.obj review) := by
  rcases reads with none | ⟨review, _, held, _⟩
  · exact .inl none
  · exact .inr ⟨review, held⟩

theorem latest_verdicts (accepted : Accepted host artifact kind) :
    ∃ verdicts, ((latestReview (members "completed" artifact)).toList).mapM
      (importedVerdict host) = .ok verdicts := by
  refine mapM_ok fun review mem => ?_
  have latest := Option.mem_toList.mp mem
  unfold latestReview at latest
  rcases accepted.second with second | ⟨other, verdict, second, read, -⟩
  · rcases accepted.first with first | ⟨other, verdict, first, read, -⟩
    · simp [second, first, nullish] at latest
    · simp only [second, first, nullish, Option.some.injEq] at latest
      exact ⟨verdict, latest ▸ read⟩
  · simp only [second, nullish, Option.some.injEq] at latest
    exact ⟨verdict, latest ▸ read⟩

/-- The text of the latest review is that of the final one. -/
theorem latest_status (accepted : Accepted host artifact kind) :
    (latestReview (members "completed" artifact)).bind (Json.lookup "status") =
      reviewStatus (finalReview (members "completed" artifact))
        (members "completed" artifact) := by
  unfold latestReview finalReview reviewStatus
  rcases accepted.second.object with second | ⟨review, second⟩
  · rcases accepted.first.object with first | ⟨review, first⟩
    · simp [second, first, nullish]
    · simp [second, first, nullish]
  · simp [second, nullish]

theorem importedState_done (accepted : Accepted host artifact kind)
    (nothing : incomplete artifact kind = none) :
    ∃ state, importedState host artifact kind = .ok state ∧ state.phase = .done ∧
      state.round = 1 ∧ state.done = true ∧
      state.approved = (isTrue (Json.lookup "approved" artifact) ||
        isText "approved" (reviewStatus (finalReview (members "completed" artifact))
          (members "completed" artifact))) := by
  obtain ⟨complexity, read⟩ := accepted.complexity
  simp only [importedState, nothing, read, latest_status accepted]
  exact ⟨_, rfl, rfl, rfl, rfl, rfl⟩

theorem importedState_open (accepted : Accepted host artifact kind) {phase : WorkflowPhase}
    (pending : incomplete artifact kind = some phase) :
    ∃ state, importedState host artifact kind = .ok state ∧ state.phase = phase ∧
      state.round = (if (Json.lookup "reviewer1" (members "completed" artifact)).isNone then 1
        else 2) ∧ state.done = false ∧ state.approved = false := by
  obtain ⟨complexity, read⟩ := accepted.complexity
  obtain ⟨verdicts, decided⟩ := latest_verdicts accepted
  simp only [importedState, pending, decided, importedRequirements, accepted.plain, read]
  exact ⟨_, rfl, rfl, rfl, rfl, rfl⟩

end States

/-! ## Agreement -/

section Agreement

variable {host : LdoHost} {config : PipelineConfig} {artifact : Fields} {kind : LdoArtifactKind}
  {stage : LdoStage}

/-- The imported state of the artifact is consistent just under the condition. -/
def Agrees (host : LdoHost) (config : PipelineConfig) (artifact : Fields)
    (kind : LdoArtifactKind) (stage : LdoStage) : Prop :=
  ∃ state, importedState host artifact kind = .ok state ∧
    (Consistent host artifact kind state (stage.next config) ↔
      ResumesNatively config artifact stage)

/-- Unfinished work agrees when the session goes on in the phase and the round. -/
theorem agrees_open (accepted : Accepted host artifact kind) {phase : WorkflowPhase}
    (pending : incomplete artifact kind = some phase) (works : phase ≠ .done)
    (condition : ResumesNatively config artifact stage ↔
      finalStatus host artifact ≠ some .approved ∧ (stage.next config).toPhase = phase ∧
        (stage.next config).toRound =
          if (Json.lookup "reviewer1" (members "completed" artifact)).isNone then 1 else 2) :
    Agrees host config artifact kind stage := by
  obtain ⟨state, imported, onPhase, onRound, notDone, notApproved⟩ :=
    importedState_open accepted pending
  refine ⟨state, imported, ?_⟩
  rw [condition]
  constructor
  · intro consistent
    refine ⟨fun final => ?_, ?_, ?_⟩
    · simpa [notApproved] using consistent.approved.mpr final
    · rw [← consistent.phase, onPhase]
    · rw [← consistent.round, onRound]
  · rintro ⟨final, samePhase, sameRound⟩
    refine ⟨?_, ?_, ?_, ?_, ?_⟩
    · simp [notApproved, final]
    · simp [notDone, samePhase, works]
    · rw [onRound, sameRound]
    · rw [onPhase, samePhase]
    · simp [pending, notDone]

theorem not_terminal (ordered : Ordered artifact kind)
    (open_ : isText "approved" (reviewStatus (finalReview (members "completed" artifact))
      (members "completed" artifact)) = false) : isTerminal artifact kind = false := by
  by_contra terminal
  simpa [open_] using ordered.terminal (by simpa using terminal)

theorem started (accepted : Accepted host artifact kind) {name : String}
    (has : (Json.lookup name (members "completed" artifact)).isSome = true) : kind ≠ .plan := by
  rintro rfl
  simp [accepted.unstarted rfl] at has

/-- After a second review a session settles in the second round. -/
theorem next_second (config : PipelineConfig) (status : VerdictStatus) :
    ((LdoStage.review 2 status).next config).toRound = 2 := by
  cases status <;> simp [LdoStage.next, LdoStage.transitions, LdoStage.blocking,
    LdoStage.round, reviewTransitions, settle, reworkCode]

theorem agrees_second (accepted : Accepted host artifact kind)
    (has : (Json.lookup "reviewer2" (members "completed" artifact)).isSome = true)
    (status : VerdictStatus) : Agrees host config artifact kind (.review 2 status) := by
  have ordered := accepted.ordered
  have fix := ordered.fixed has
  have asked := ordered.asked fix
  have first := exists_of_isText asked
  have nothing : incomplete artifact kind = none := by
    simp [incomplete, started accepted has, Option.isNone_eq_false_iff.mpr has,
      Option.isNone_eq_false_iff.mpr fix, Option.isNone_eq_false_iff.mpr first,
      Option.isNone_eq_false_iff.mpr (ordered.coder first)]
  obtain ⟨state, imported, -, onRound, -, -⟩ := importedState_done accepted nothing
  refine ⟨state, imported, ⟨fun consistent => ?_, fun none => (none : False).elim⟩⟩
  have round := consistent.round
  rw [onRound, next_second] at round
  simp at round

theorem agrees_fix (accepted : Accepted host artifact kind)
    (has : (Json.lookup "coderFix1" (members "completed" artifact)).isSome = true)
    (last : Json.lookup "reviewer2" (members "completed" artifact) = none) :
    Agrees host config artifact kind (.code 2) := by
  have ordered := accepted.ordered
  have asked := ordered.asked has
  have first := exists_of_isText asked
  have final : finalReview (members "completed" artifact) = "reviewer1" := by
    simp [finalReview, last]
  have unapproved := isText_unique (by decide : "changes_requested" ≠ "approved") asked
  have pending : incomplete artifact kind = some .review := by
    simp [incomplete, not_terminal ordered (by rw [final]; exact unapproved),
      started accepted has, unapproved, last, Option.isNone_eq_false_iff.mpr has,
      Option.isNone_eq_false_iff.mpr first,
      Option.isNone_eq_false_iff.mpr (ordered.coder first)]
  have status : finalStatus host artifact = some .changesRequested := by
    simp only [finalStatus, final]
    exact reading_of_isText asked
  refine agrees_open accepted pending (by simp) ?_
  cases gates : config.qualityGates <;>
    simp [ResumesNatively, gates, status, LdoStage.next, LdoStage.transitions, advanceTo,
      Option.isNone_eq_false_iff.mpr first]

theorem agrees_coded (accepted : Accepted host artifact kind)
    (has : (Json.lookup "coder" (members "completed" artifact)).isSome = true)
    (first : Json.lookup "reviewer1" (members "completed" artifact) = none)
    (last : Json.lookup "reviewer2" (members "completed" artifact) = none) :
    Agrees host config artifact kind (.code 1) := by
  have final : finalReview (members "completed" artifact) = "reviewer1" := by
    simp [finalReview, last]
  have unreviewed : reviewStatus "reviewer1" (members "completed" artifact) = none := by
    simp [reviewStatus, first]
  have pending : incomplete artifact kind = some .review := by
    simp [incomplete, not_terminal accepted.ordered (by rw [final, unreviewed]; rfl),
      started accepted has, first, Option.isNone_eq_false_iff.mpr has]
  have status : finalStatus host artifact = none := by
    simp only [finalStatus, final, unreviewed]
    rfl
  refine agrees_open accepted pending (by simp) ?_
  cases gates : config.qualityGates <;>
    simp [ResumesNatively, gates, status, LdoStage.next, LdoStage.transitions, advanceTo, first]

/-- A first review that approves by its plain text finishes the work. -/
theorem agrees_approved (accepted : Accepted host artifact kind)
    (has : (Json.lookup "reviewer1" (members "completed" artifact)).isSome = true)
    (last : Json.lookup "reviewer2" (members "completed" artifact) = none)
    (approved : isText "approved"
      (reviewStatus "reviewer1" (members "completed" artifact)) = true) :
    Agrees host config artifact kind (.review 1 .approved) := by
  have coder := accepted.ordered.coder has
  have final : finalReview (members "completed" artifact) = "reviewer1" := by
    simp [finalReview, last]
  have nothing : incomplete artifact kind = none := by
    simp [incomplete, started accepted has, approved, Option.isNone_eq_false_iff.mpr has,
      Option.isNone_eq_false_iff.mpr coder]
  have status : finalStatus host artifact = some .approved := by
    simp only [finalStatus, final]
    exact reading_of_isText approved
  obtain ⟨state, imported, onPhase, onRound, done, isApproved⟩ :=
    importedState_done accepted nothing
  rw [final, approved, Bool.or_true] at isApproved
  refine ⟨state, imported, ⟨fun _ => approved, fun _ => ⟨?_, ?_, ?_, ?_, ?_⟩⟩⟩
  · simp [isApproved, status]
  · simp [done, LdoStage.next, LdoStage.transitions, reviewTransitions, LdoStage.round, settle,
      reworkCode]
  · simp [onRound, LdoStage.next, LdoStage.transitions, reviewTransitions, LdoStage.round,
      settle, reworkCode]
  · simp [onPhase, LdoStage.next, LdoStage.transitions, reviewTransitions, LdoStage.round,
      settle, reworkCode]
  · simp [nothing, done, isApproved]

/-- Any other first review leaves the work with the coder. -/
theorem agrees_first (accepted : Accepted host artifact kind)
    (has : (Json.lookup "reviewer1" (members "completed" artifact)).isSome = true)
    (fix : Json.lookup "coderFix1" (members "completed" artifact) = none)
    (last : Json.lookup "reviewer2" (members "completed" artifact) = none)
    (unapproved : isText "approved"
      (reviewStatus "reviewer1" (members "completed" artifact)) = false)
    {status : VerdictStatus} (read : finalStatus host artifact = some status)
    (known : status ≠ .decompositionRequired) :
    Agrees host config artifact kind (.review 1 status) := by
  have coder := accepted.ordered.coder has
  have final : finalReview (members "completed" artifact) = "reviewer1" := by
    simp [finalReview, last]
  have pending : incomplete artifact kind = some .code := by
    simp [incomplete, not_terminal accepted.ordered (by rw [final]; exact unapproved),
      started accepted has, unapproved, fix, Option.isNone_eq_false_iff.mpr has,
      Option.isNone_eq_false_iff.mpr coder]
  refine agrees_open accepted pending (by simp) ?_
  cases status with
  | decompositionRequired => exact absurd rfl known
  | approved => simp [ResumesNatively, unapproved, read]
  | changesRequested =>
      by_cases more : 1 < config.maxRounds
      · simp [ResumesNatively, read, more, LdoStage.next, LdoStage.transitions,
          LdoStage.blocking, reviewTransitions, Option.isNone_eq_false_iff.mpr has]
      · simp [ResumesNatively, read, more, LdoStage.next, LdoStage.transitions,
          LdoStage.blocking, LdoStage.round, reviewTransitions, settle]

theorem agrees_planned (accepted : Accepted host artifact kind)
    (coder : Json.lookup "coder" (members "completed" artifact) = none)
    (first : Json.lookup "reviewer1" (members "completed" artifact) = none)
    (last : Json.lookup "reviewer2" (members "completed" artifact) = none)
    (stage : LdoStage) (planned : stage = .security ∨ ∃ surface, stage = .plan surface) :
    Agrees host config artifact kind stage := by
  have final : finalReview (members "completed" artifact) = "reviewer1" := by
    simp [finalReview, last]
  have unreviewed : reviewStatus "reviewer1" (members "completed" artifact) = none := by
    simp [reviewStatus, first]
  have pending : incomplete artifact kind = some .code := by
    simp [incomplete, not_terminal accepted.ordered (by rw [final, unreviewed]; rfl), coder]
  have status : finalStatus host artifact = none := by
    simp only [finalStatus, final, unreviewed]
    rfl
  refine agrees_open accepted pending (by simp) ?_
  rcases planned with rfl | ⟨surface, rfl⟩
  · simp [ResumesNatively, status, first, LdoStage.next, LdoStage.transitions, advanceTo]
  · cases due : runSecurity config (some surface) <;>
      simp [ResumesNatively, due, status, first, LdoStage.next, LdoStage.transitions, advanceTo]

/-- Every accepted artifact is imported, and its state is consistent with the session
just where the session would go on as the importer does. -/
theorem imported_state_consistent_iff (host : LdoHost) (config : PipelineConfig) {value : Json}
    {kind : LdoArtifactKind} {id : String} {artifact : Fields}
    (valid : validateArtifact host value kind id = .ok artifact) :
    ∃ stage, lastStage host artifact = some stage ∧
      ∃ state, importedState host artifact kind = .ok state ∧
        (Consistent host artifact kind state (stage.next config) ↔
          ResumesNatively config artifact stage) := by
  have accepted := accepted_of_validateArtifact valid
  have ordered := accepted.ordered
  cases last : Json.lookup "reviewer2" (members "completed" artifact) with
  | some review =>
      have has : (Json.lookup "reviewer2" (members "completed" artifact)).isSome = true := by
        simp [last]
      have final : finalReview (members "completed" artifact) = "reviewer2" := by
        simp [finalReview, has]
      obtain ⟨status, read⟩ : ∃ status, finalStatus host artifact = some status := by
        simp only [finalStatus, final]
        exact (accepted.second.reading has).elim (⟨_, ·⟩) (⟨_, ·⟩)
      exact ⟨.review 2 status, by simp [lastStage, last, read],
        agrees_second accepted has status⟩
  | none =>
  cases fix : Json.lookup "coderFix1" (members "completed" artifact) with
  | some coder =>
      exact ⟨.code 2, by simp [lastStage, last, fix],
        agrees_fix accepted (by simp [fix]) last⟩
  | none =>
  cases first : Json.lookup "reviewer1" (members "completed" artifact) with
  | some review =>
      have has : (Json.lookup "reviewer1" (members "completed" artifact)).isSome = true := by
        simp [first]
      have final : finalReview (members "completed" artifact) = "reviewer1" := by
        simp [finalReview, last]
      obtain ⟨status, read, known⟩ : ∃ status, finalStatus host artifact = some status ∧
          status ≠ .decompositionRequired := by
        simp only [finalStatus, final]
        rcases accepted.first.reading has with read | read <;> exact ⟨_, read, by simp⟩
      refine ⟨.review 1 status, by simp [lastStage, last, fix, first, read], ?_⟩
      cases plain : isText "approved"
          (reviewStatus "reviewer1" (members "completed" artifact)) with
      | false => exact agrees_first accepted has fix last plain read known
      | true =>
          have approved : finalStatus host artifact = some .approved := by
            simp only [finalStatus, final]
            exact reading_of_isText plain
          obtain rfl : VerdictStatus.approved = status := by simpa [approved] using read
          exact agrees_approved accepted has last plain
  | none =>
  cases coder : Json.lookup "coder" (members "completed" artifact) with
  | some result =>
      exact ⟨.code 1, by simp [lastStage, last, fix, first, coder],
        agrees_coded accepted (by simp [coder]) first last⟩
  | none =>
      obtain ⟨surface, read⟩ := accepted.surface
      cases secured : hasSecurity artifact with
      | true =>
          exact ⟨.security, by simp [lastStage, last, fix, first, coder, secured],
            agrees_planned accepted coder first last _ (.inl rfl)⟩
      | false =>
          exact ⟨.plan surface, by
              simp [lastStage, last, fix, first, coder, secured, reading, read,
                Except.toOption],
            agrees_planned accepted coder first last _ (.inr ⟨surface, rfl⟩)⟩

/-! ## A plan with an elevated surface -/

def plainHost : LdoHost := ⟨fun _ => "0", fun text => text == "2026-09-12T00:00:00.000Z"⟩

theorem securedConfig_handoff : 2 = 1 ∨ 2 = 2 := .inr rfl

def securedConfig : PipelineConfig where
  planner := true
  security := true
  researcher := false
  qualityGates := false
  onChangesRequested := .advance
  autoAdvance := true
  maxRounds := 3
  preComplexity := .medium
  plannerHandoffAttempts := 2
  maxRounds_pos := by decide
  handoff := securedConfig_handoff

def elevatedContext : Fields := [("stack", .str "ts"), ("conventions", .str ""),
  ("relevant_files", .arr []), ("test_command", .str "bun test"), ("test_command_scoped", .null),
  ("run_command", .str "bun start")]

def elevatedPlan : Fields := [("complexity", .str "medium"),
  ("security_surface", .str "elevated"), ("summary", .str "add a login"), ("steps", .arr []),
  ("risks", .arr []), ("codebase_context", .obj elevatedContext)]

def elevatedArtifact : Fields := [("version", .num 1), ("id", .str "plan-one"),
  ("root", .str "/repo"), ("baseHead", .str "abc"),
  ("createdAt", .str "2026-09-12T00:00:00.000Z"), ("task", .str "add a login"),
  ("plan", .obj elevatedPlan), ("security", .null), ("usage", .arr [])]

theorem elevatedArtifact_valid :
    validateArtifact plainHost (.obj elevatedArtifact) .plan "plan-one" = .ok elevatedArtifact := by
  rfl

theorem imported_state_consistent_elevated :
    (LdoStage.plan .elevated).next securedConfig = ⟨.advance, true, .security, 1⟩ ∧
    ∃ stage, lastStage plainHost elevatedArtifact = some stage ∧
      ∃ state, importedState plainHost elevatedArtifact .plan = .ok state ∧
        (Consistent plainHost elevatedArtifact .plan state (stage.next securedConfig) ↔
          ResumesNatively securedConfig elevatedArtifact stage) :=
  ⟨rfl, imported_state_consistent_iff plainHost securedConfig elevatedArtifact_valid⟩

/-- The elevated plan is to be secured first, and is imported to be coded. -/
theorem imported_state_consistent_refuted :
    validateArtifact plainHost (.obj elevatedArtifact) .plan "plan-one" =
      .ok elevatedArtifact ∧
    lastStage plainHost elevatedArtifact = some (.plan .elevated) ∧
    ∃ state, importedState plainHost elevatedArtifact .plan = .ok state ∧ state.phase = .code ∧
      ¬ Consistent plainHost elevatedArtifact .plan state
        ((LdoStage.plan .elevated).next securedConfig) := by
  refine ⟨elevatedArtifact_valid, rfl, _, rfl, rfl, fun consistent => ?_⟩
  have phase := consistent.phase
  simp [LdoStage.next, LdoStage.transitions, advanceTo, runSecurity, securedConfig] at phase

end Agreement

end AdCoder.ProjectOperations
