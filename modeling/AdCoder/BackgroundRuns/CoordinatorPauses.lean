import AdCoder.BackgroundRuns.Reader
import AdCoder.ProjectOperations.CoordinatorRuns

/-!
# Pauses of a coordinator as the reader of background runs takes them

The writer composes an action from parts of any length and clips what may be
clipped; the reader of another module has bounds of its own. Every composition
fits them.
-/

namespace AdCoder.BackgroundRuns

open Foundation Foundation.Regex Orchestration ProjectOperations

/-! ## Lengths -/

theorem sum_firstUnits_le (n : Nat) (text : List Char) :
    ((firstUnits n text).map unitsOf).sum ≤ n := by
  induction text generalizing n with
  | nil => simp [firstUnits]
  | cons x rest ih =>
      rw [firstUnits]
      split_ifs with whole none
      · have later := ih (n - unitsOf x)
        rw [List.map_cons, List.sum_cons]
        omega
      · simp
      · have half : unitsOf (Char.ofNat 0xfffd) = 1 := by decide
        simp only [List.map_cons, half, List.map_nil, List.sum_cons, List.sum_nil]
        omega

theorem length_firstChars_le (n : Nat) (text : String) : length (firstChars n text) ≤ n := by
  rw [firstChars, length_ofList]
  exact sum_firstUnits_le n text.toList

theorem firstChars_ne_empty {n : Nat} {text : String} (room : 0 < n) (ne : text ≠ "") :
    firstChars n text ≠ "" := by
  intro empty
  cases characters : text.toList with
  | nil => exact ne (String.toList_eq_nil_iff.mp characters)
  | cons x rest =>
      rw [firstChars, characters, firstUnits] at empty
      have nil := congrArg String.toList empty
      rw [String.toList_ofList] at nil
      split_ifs at nil with whole none
      · cases nil
      · omega
      · cases nil

/-- A safe integer, and the next one, have sixteen digits at most. -/
theorem length_toString_le {n : Nat} (safe : n ≤ JsNumber.maxSafe + 1) :
    length (toString n) ≤ 16 := by
  have digits : toString n = String.ofList (Nat.toDigits 10 n) := by
    rw [Nat.toString_eq_repr, ← Nat.toList_repr, String.ofList_toList]
  have single : ∀ x ∈ Nat.toDigits 10 n, unitsOf x = 1 := by
    intro x member
    have digit := Char.isDigit_iff_toNat.mp
      (Nat.isDigit_of_mem_toDigits (by decide) (by decide) member)
    exact if_pos (Nat.lt_of_le_of_lt digit.2 (by decide))
  have units : ((Nat.toDigits 10 n).map unitsOf).sum = (Nat.toDigits 10 n).length := by
    rw [List.map_congr_left single, List.map_const', List.sum_replicate_nat, Nat.mul_one]
  rw [digits, length_ofList, units, Nat.length_toDigits_le_iff (by decide) (by decide)]
  exact Nat.lt_of_le_of_lt safe (by decide)

/-! ## Causes -/

/-- The reasons of a stage closeout. -/
def closeoutReasons : List StageLimitReason := [.duration, .modelTurns, .toolTurns, .input]

/-- What the classes of errors promise of their members: no code is empty, the
reason of a closeout is one of its kind, a status is a safe integer. -/
def SourceDeclared : SourceError → Prop
  | .providerRejection status => status ≤ JsNumber.maxSafe
  | .stageCloseout reason _ _ => ∃ known ∈ closeoutReasons, reason = known.text
  | .contextCompactionLost _ => True
  | .typed _ code _ => code ≠ ""
  | .untyped _ _ => True

variable {source : SourceError} {cause : PipelinePauseCause} {phase : WorkflowPhase}
  {prior : Option StageFailureRecord}

/-- The code of a cause is a token, and its message is bounded. -/
structure CauseBounded (cause : PipelinePauseCause) : Prop where
  code : 0 < length cause.code ∧ length cause.code ≤ maxPauseCauseCodeChars
  message : ∀ message, cause.message = some message → length message ≤ maxPauseCauseMessageChars

theorem typed_code_ne_empty (declared : SourceDeclared source) {code message : String}
    (typed : source.typed? = some (code, message)) : code ≠ "" := by
  cases source with
  | providerRejection status => cases typed
  | stageCloseout reason detail message =>
      cases typed
      decide
  | contextCompactionLost message =>
      cases typed
      decide
  | typed name code message =>
      cases typed
      exact declared
  | untyped name message => cases typed

theorem pauseCauseFrom_bounded (declared : SourceDeclared source) {recurrence : Nat}
    (found : pauseCauseFrom source recurrence = some cause) : CauseBounded cause := by
  obtain ⟨⟨code, message⟩, typed, rfl⟩ := Option.map_eq_some_iff.mp found
  have named := typed_code_ne_empty declared typed
  refine ⟨⟨codeUnits_pos (firstChars_ne_empty (by decide) named), length_firstChars_le ..⟩, ?_⟩
  intro text h
  dsimp only at h
  split_ifs at h
  obtain rfl := Option.some.inj h
  exact length_firstChars_le ..

/-- A message is clipped so that the marker still fits. -/
theorem clipped_le (stripped : String) :
    length (if textLength stripped > maxPauseCauseMessageChars then
      firstChars (maxPauseCauseMessageChars - textLength pauseCauseClipMarker) stripped ++
        pauseCauseClipMarker
      else stripped) ≤ maxPauseCauseMessageChars := by
  have marker : length pauseCauseClipMarker = 12 := by decide
  split_ifs with long
  · have head := length_firstChars_le (maxPauseCauseMessageChars - 12) stripped
    rw [length_append, marker, show textLength pauseCauseClipMarker = 12 from marker]
    exact Nat.add_le_of_le_sub (by decide) head
  · exact Nat.not_lt.mp long

theorem untypedPauseCause_bounded (source : SourceError) :
    CauseBounded (untypedPauseCause source) := by
  rw [untypedPauseCause]
  generalize source.unclassified = named
  obtain ⟨name, text⟩ := named
  dsimp only
  generalize String.ofList (ProjectOperations.trimEnd (redactCredentialLike _).toList) = stripped
  have clipped := clipped_le stripped
  generalize (if textLength stripped > maxPauseCauseMessageChars then _ else stripped) = message
    at clipped ⊢
  have code : 0 < length "untyped_error" ∧ length "untyped_error" ≤ maxPauseCauseCodeChars := by
    decide
  refine ⟨code, ?_⟩
  intro text h
  dsimp only at h
  split_ifs at h
  obtain rfl := Option.some.inj h
  exact clipped

/-! ## Actions -/

theorem textLength_eq (text : String) : textLength text = length text := rfl

/-- Where its head, the marker and all that follows leave room, a detail keeps its own head. -/
theorem boundedAction_spec {head tail recurrenceSuffix : String} (detail : String)
    (room : length head + length tail + length recurrenceSuffix + 12 < maxPersistedStringChars) :
    ∃ kept, boundedAction head detail tail recurrenceSuffix =
        head ++ kept ++ tail ++ recurrenceSuffix ∧
      length (head ++ kept ++ tail ++ recurrenceSuffix) ≤ maxPersistedStringChars ∧
      (kept = detail ∨ ∃ n, 0 < n ∧ kept = firstChars n detail ++ pauseCauseClipMarker) := by
  have marker : length pauseCauseClipMarker = 12 := by decide
  rw [boundedAction]
  simp only [textLength_eq, marker]
  split_ifs with fits
  · exact ⟨detail, rfl, fits, .inl rfl⟩
  · generalize left : maxPersistedStringChars -
      (length head + length tail + length recurrenceSuffix + 12) = n
    refine ⟨firstChars n detail ++ pauseCauseClipMarker, by simp only [String.append_assoc], ?_,
      .inr ⟨n, by omega, rfl⟩⟩
    have kept := length_firstChars_le n detail
    simp only [length_append, marker]
    omega

/-- The tail of an action whose cause recurs. -/
def recurrenceTail (cause : PipelinePauseCause) : String :=
  if cause.recurrence > 0 then
    "; the same cause has now been recorded " ++ toString (cause.recurrence + 1) ++
      " consecutive times"
  else ""

theorem length_recurrenceTail (safe : cause.recurrence ≤ JsNumber.maxSafe) :
    length (recurrenceTail cause) ≤ 73 := by
  have times := length_toString_le (Nat.add_le_add_right safe 1)
  have before : length "; the same cause has now been recorded " = 39 := length_literal rfl
  have after : length " consecutive times" = 18 := length_literal rfl
  rw [recurrenceTail]
  split_ifs
  · simp only [length_append, before, after]
    omega
  · decide

/-- A detail that may be clipped stands whole in the action, or its head does. -/
def KeepsHead (detail kept : String) : Prop :=
  kept = detail ∨ ∃ n, 0 < n ∧ kept = firstChars n detail ++ pauseCauseClipMarker

theorem closeoutAction_spec {reason : StageLimitReason} (detail message : String)
    (safe : cause.recurrence ≤ JsNumber.maxSafe) :
    ∃ kept, harnessFailureAction (.stageCloseout reason.text detail message) cause =
        reason.text ++ " closeout reserve (" ++ kept ++ ("); raise or disable the " ++
          reason.text ++ " stage ceiling for this role, then resume explicitly") ++
            recurrenceTail cause ∧
      FitsString (harnessFailureAction (.stageCloseout reason.text detail message) cause) ∧
      KeepsHead detail kept := by
  have recurs := length_recurrenceTail safe
  have named : length reason.text ≤ 14 := by cases reason <;> decide
  have opening : length " closeout reserve (" = 19 := length_literal rfl
  have remedy : length "); raise or disable the " = 24 := length_literal rfl
  have resume : length " stage ceiling for this role, then resume explicitly" = 52 :=
    length_literal rfl
  have room : length (reason.text ++ " closeout reserve (") +
      length ("); raise or disable the " ++ reason.text ++
        " stage ceiling for this role, then resume explicitly") +
      length (recurrenceTail cause) + 12 < maxPersistedStringChars := by
    have ceiling : maxPersistedStringChars = 256 := rfl
    simp only [length_append, opening, remedy, resume]
    omega
  obtain ⟨kept, action, short, head⟩ := boundedAction_spec detail room
  have composed : harnessFailureAction (.stageCloseout reason.text detail message) cause = _ :=
    action
  refine ⟨kept, composed, composed ▸ ⟨?_, short⟩, head⟩
  simp only [length_append, opening]
  omega

theorem compactionAction_spec (message : String) (safe : cause.recurrence ≤ JsNumber.maxSafe) :
    ∃ kept, harnessFailureAction (.contextCompactionLost message) cause =
        ("the stage's context can no longer be compacted; " ++
          "reopen the session from its durable state (") ++ kept ++
            ") -- retrying the same prompt cannot succeed" ++ recurrenceTail cause ∧
      FitsString (harnessFailureAction (.contextCompactionLost message) cause) ∧
      KeepsHead "choosing a different summarizer model when the summarizer itself failed" kept := by
  have recurs := length_recurrenceTail safe
  have lost : length "the stage's context can no longer be compacted; " = 48 := length_literal rfl
  have reopen : length "reopen the session from its durable state (" = 43 := length_literal rfl
  have retry : length ") -- retrying the same prompt cannot succeed" = 44 := length_literal rfl
  have room : length ("the stage's context can no longer be compacted; " ++
        "reopen the session from its durable state (") +
      length ") -- retrying the same prompt cannot succeed" +
      length (recurrenceTail cause) + 12 < maxPersistedStringChars := by
    have ceiling : maxPersistedStringChars = 256 := rfl
    rw [length_append, lost, reopen, retry]
    omega
  obtain ⟨kept, action, short, head⟩ := boundedAction_spec
    "choosing a different summarizer model when the summarizer itself failed" room
  have composed : harnessFailureAction (.contextCompactionLost message) cause = _ := action
  refine ⟨kept, composed, composed ▸ ⟨?_, short⟩, head⟩
  simp only [length_append, lost]
  omega

theorem typedAction_fits (bounded : CauseBounded cause)
    (safe : cause.recurrence ≤ JsNumber.maxSafe) {name code message : String} :
    FitsString (harnessFailureAction (.typed name code message) cause) := by
  have times := length_toString_le (Nat.add_le_add_right safe 1)
  have named : length cause.code ≤ 64 := bounded.code.2
  have opening : length "the stage failed inside the harness (" = 37 := length_literal rfl
  have recurs : length "); the same cause has now been recorded " = 40 := length_literal rfl
  have again : length " consecutive times -- resolve it, then retry the stage explicitly" = 65 :=
    length_literal rfl
  have once : length "); resolve the recorded cause, then retry the stage explicitly" = 62 :=
    length_literal rfl
  have ceiling : maxPersistedStringChars = 256 := rfl
  simp only [harnessFailureAction, FitsString]
  split_ifs
  · simp only [length_append, opening, recurs, again]
    omega
  · simp only [length_append, opening, once]
    omega

theorem untypedAction_fits {what again retry : String} (untyped : cause.code = "untyped_error")
    (safe : cause.recurrence ≤ JsNumber.maxSafe)
    (room : length what + length again + length retry ≤ 69) :
    FitsString (untypedFailureAction what again retry cause) := by
  have times := length_toString_le (Nat.add_le_add_right safe 1)
  have named : length cause.code = 13 := untyped ▸ length_literal rfl
  have opening : length " with an untyped error (" = 24 := length_literal rfl
  have closing : length "); " = 3 := length_literal rfl
  have recurs : length "the same cause has been recorded " = 33 := length_literal rfl
  have more : length " consecutive times -- " = 22 := length_literal rfl
  have once : length "see the recorded durable cause" = 30 := length_literal rfl
  have aside :
      length " (this may be a harness bug rather than a provider outage), then " = 65 :=
    length_literal rfl
  have last : length " explicitly" = 11 := length_literal rfl
  have ceiling : maxPersistedStringChars = 256 := rfl
  simp only [untypedFailureAction, FitsString]
  split_ifs
  · simp only [length_append, opening, closing, recurs, more, aside, last]
    omega
  · simp only [length_append, opening, closing, once, aside, last]
    omega

/-! ## Pauses -/

/-- The recurrence of a cause can still be counted. -/
def Countable (cause : Option PipelinePauseCause) : Prop :=
  ∀ c, cause = some c → c.recurrence ≤ JsNumber.maxSafe

/-- The codes of the pauses that a coordinator leaves. -/
def pauseCodes : List String := [
  "interrupted", "ambiguous_dispatch", "unsafe_request", "researcher_unavailable", "stage_limit",
  "review_not_run", "provider_rejected", "stage_failed", "plan_not_json", "plan_not_submitted",
  "research_rejected"]

theorem pauseCodes_fit {code : String} (known : code ∈ pauseCodes) : FitsString code := by
  have all : pauseCodes.all (fun code => decide (FitsString code)) = true := by decide +kernel
  exact of_decide_eq_true (List.all_eq_true.mp all code known)

/-- The code is known, and the reader takes the pause, unless its cause has recurred too often to
be counted. -/
structure Readable (pause : Pause) : Prop where
  known : pause.code ∈ pauseCodes
  fits : Countable pause.cause → PauseFits pause

theorem readable_pauseOf {code action : String} {cause : Option PipelinePauseCause}
    (known : code ∈ pauseCodes) (composed : Countable cause → FitsString action)
    (bounded : ∀ c, cause = some c → CauseBounded c) :
    Readable (pauseOf phase code action cause) := by
  refine ⟨known, fun safe => ⟨pauseCodes_fit known, composed safe, by rintro limit ⟨⟩, ?_⟩⟩
  intro c found
  have fits := bounded c found
  exact ⟨fits.code, fits.message, safe c found⟩

theorem harnessFailureAction_fits (declared : SourceDeclared source) {recurrence : Nat}
    (found : pauseCauseFrom source recurrence = some cause)
    (safe : cause.recurrence ≤ JsNumber.maxSafe) :
    FitsString (harnessFailureAction source cause) := by
  have bounded := pauseCauseFrom_bounded declared found
  cases source with
  | stageCloseout reason detail message =>
      obtain ⟨known, -, rfl⟩ := declared
      obtain ⟨kept, -, fits, -⟩ := @closeoutAction_spec cause known detail message safe
      exact fits
  | contextCompactionLost message =>
      obtain ⟨kept, -, fits, -⟩ := compactionAction_spec message safe
      exact fits
  | typed name code message => exact typedAction_fits bounded safe
  | providerRejection status => cases found
  | untyped name message => cases found

theorem untypedPauseCause_code (source : SourceError) :
    (untypedPauseCause source).code = "untyped_error" := by
  rw [untypedPauseCause]

theorem reviewNotRunAction_fits :
    FitsString ("the review stage did not run to a verdict; inspect the reviewer's " ++
      "registration and configuration, then resume the review explicitly") := by
  have inspect : length "the review stage did not run to a verdict; inspect the reviewer's " = 66 :=
    length_literal rfl
  have resume : length "registration and configuration, then resume the review explicitly" = 65 :=
    length_literal rfl
  have ceiling : maxPersistedStringChars = 256 := rfl
  simp only [FitsString, length_append, inspect, resume]
  omega

theorem providerAction_fits {status : Nat} (safe : status ≤ JsNumber.maxSafe) :
    FitsString ("the provider rejected the request with HTTP " ++ toString status ++
      "; inspect the request this stage sends (model id, tool schemas, parameters), " ++
      "then retry the stage explicitly") := by
  have digits := length_toString_le (Nat.le_succ_of_le safe)
  have opening : length "the provider rejected the request with HTTP " = 44 := length_literal rfl
  have sent : length
      "; inspect the request this stage sends (model id, tool schemas, parameters), " = 77 :=
    length_literal rfl
  have retry : length "then retry the stage explicitly" = 31 := length_literal rfl
  have ceiling : maxPersistedStringChars = 256 := rfl
  simp only [FitsString, length_append, opening, sent, retry]
  omega

/-- A failed stage leaves a pause that is readable, whatever it failed with. -/
theorem stageFailurePause_readable (declared : SourceDeclared source) :
    Readable (stageFailurePause phase source prior) := by
  have bounded := untypedPauseCause_bounded source
  have code := untypedPauseCause_code source
  unfold stageFailurePause
  generalize untypedPauseCause source = untyped at bounded code ⊢
  have again (n : Nat) : CauseBounded { untyped with recurrence := n } :=
    ⟨bounded.code, bounded.message⟩
  have action {what again retry : List Char} {a b c : Nat} (n : Nat)
      (first : (what.map unitsOf).sum = a) (second : (again.map unitsOf).sum = b)
      (third : (retry.map unitsOf).sum = c) (room : a + b + c ≤ 69)
      (safe : Countable (some { untyped with recurrence := n })) :
      FitsString (untypedFailureAction (String.ofList what) (String.ofList again)
        (String.ofList retry) { untyped with recurrence := n }) := by
    refine untypedAction_fits code (safe _ rfl) ?_
    rwa [length_literal first, length_literal second, length_literal third]
  cases found : pauseCauseFrom source (recurrenceOf prior phase source) with
  | none =>
      split_ifs
      · cases source with
        | providerRejection status =>
            exact readable_pauseOf (by decide) (fun _ => reviewNotRunAction_fits) (by rintro c ⟨⟩)
        | _ =>
            refine readable_pauseOf (by decide) (action _ rfl rfl rfl (by decide)) ?_
            rintro c ⟨⟩
            exact again _
      · cases source with
        | providerRejection status =>
            exact readable_pauseOf (by decide) (fun _ => providerAction_fits declared)
              (by rintro c ⟨⟩)
        | _ =>
            refine readable_pauseOf (by decide) (action _ rfl rfl rfl (by decide)) ?_
            rintro c ⟨⟩
            exact again _
  | some cause =>
      have cause_bounded := pauseCauseFrom_bounded declared found
      split_ifs
      · cases source with
        | providerRejection status => cases found
        | untyped name message => cases found
        | _ =>
            refine readable_pauseOf (by decide) (fun _ => reviewNotRunAction_fits) ?_
            rintro c ⟨⟩
            exact cause_bounded
      · cases source with
        | providerRejection status => cases found
        | untyped name message => cases found
        | _ =>
            refine readable_pauseOf (by decide) (fun safe => ?_) ?_
            · exact harnessFailureAction_fits declared found (safe _ rfl)
            · rintro c ⟨⟩
              exact cause_bounded

/-! ## Pauses of the coordinator -/

theorem orchestration_declared (error : OrchestrationError) :
    SourceDeclared (.ofOrchestration error) := by
  show error.code.text ≠ ""
  cases error.code <;> decide

theorem researchCause_bounded (declared : SourceDeclared source) :
    CauseBounded (researchCause source) := by
  rw [researchCause]
  cases found : pauseCauseFrom source 0 with
  | none => exact untypedPauseCause_bounded source
  | some cause => exact pauseCauseFrom_bounded declared found

/-- An action that names the code of its cause. -/
theorem namingAction_fits {opening closing : String} {before after : Nat}
    (bounded : CauseBounded cause) (opens : length opening = before)
    (closes : length closing = after) (written : 0 < before) (room : before + after ≤ 192) :
    FitsString (opening ++ cause.code ++ closing) := by
  have named : length cause.code ≤ 64 := bounded.code.2
  have ceiling : maxPersistedStringChars = 256 := rfl
  simp only [FitsString, length_append]
  omega

theorem text_le (code : OrchestrationErrorCode) : length code.text ≤ 23 := by
  cases code <;> exact (length_literal rfl).le.trans (by decide)

theorem notRunAction_fits (code : OrchestrationErrorCode) : FitsString (notRunAction code) := by
  have named := text_le code
  have opening : length "the review stage did not run (" = 30 := length_literal rfl
  have inspect : length "); inspect the reviewer's registration " = 39 := length_literal rfl
  have resume : length "and configuration, then resume the review explicitly" = 52 :=
    length_literal rfl
  have ceiling : maxPersistedStringChars = 256 := rfl
  unfold notRunAction
  simp only [FitsString, length_append, opening, inspect, resume]
  omega

theorem planAction_fits (code : OrchestrationErrorCode) : FitsString (planAction code) := by
  have prose : FitsString (planAction .planNotJson) := by
    have size : length (planAction .planNotJson) = 69 + 83 :=
      length_append_literal (length_literal rfl) rfl
    rw [FitsString, size]
    decide
  have missing {text : String} (named : length text ≤ 23) :
      FitsString ("the planner did not submit a plan (" ++ text ++
        "); inspect the planner's " ++
          "registration and configuration, then resume the plan explicitly") := by
    have opening : length "the planner did not submit a plan (" = 35 := length_literal rfl
    have inspect : length "); inspect the planner's " = 25 := length_literal rfl
    have resume : length "registration and configuration, then resume the plan explicitly" = 63 :=
      length_literal rfl
    have ceiling : maxPersistedStringChars = 256 := rfl
    simp only [FitsString, length_append, opening, inspect, resume]
    omega
  have named := text_le code
  cases code with
  | planNotJson => exact prose
  | _ => exact missing named

theorem planPauseCode_known (code : OrchestrationErrorCode) : planPauseCode code ∈ pauseCodes := by
  cases code <;> decide

theorem unsafeRequestPause_readable (declared : SourceDeclared source) :
    Readable (unsafeRequestPause source) := by
  have bounded := researchCause_bounded declared
  unfold unsafeRequestPause
  generalize researchCause source = cause at bounded ⊢
  refine readable_pauseOf (by decide) (fun _ => ?_) ?_
  · exact namingAction_fits bounded (length_append_literal (length_literal rfl) rfl)
      (length_literal rfl) (by decide) (by decide)
  · rintro c ⟨⟩
    exact bounded

theorem interruptedPause_readable : Readable (interruptedPause phase) :=
  readable_pauseOf (by decide) (fun _ => fitsString_literal rfl) (by rintro c ⟨⟩)

/-- What the session may throw: errors as their classes declare them, and limits that are not
negative. -/
def FailureDeclared : SessionFailure → Prop
  | .stageLimit error _ => 0 ≤ error.limit
  | .stageFailure _ source => SourceDeclared source
  | .orchestration _ => True
  | .thrown source => SourceDeclared source

/-- The pause of a checkpoint is readable. -/
def ReadablePause (c : RunCheckpoint) : Prop := ∀ pause, c.pause = some pause → Readable pause

theorem limitPause_readable {error : StageLimitError} (valid : 0 ≤ error.limit) :
    Readable ⟨phase, "stage_limit", "increase or disable the " ++ error.reason.text ++
      " stage limit, then resume explicitly", some error.reason, some error.limit, none⟩ := by
  have known : "stage_limit" ∈ pauseCodes := by decide
  have action (reason : StageLimitReason) : FitsString ("increase or disable the " ++
      reason.text ++ " stage limit, then resume explicitly") := by
    have named : length reason.text ≤ 14 := by
      cases reason <;> exact (length_literal rfl).le.trans (by decide)
    have opening : length "increase or disable the " = 24 := length_literal rfl
    have resume : length " stage limit, then resume explicitly" = 36 := length_literal rfl
    have ceiling : maxPersistedStringChars = 256 := rfl
    simp only [FitsString, length_append, opening, resume]
    omega
  refine ⟨known, fun _ => ⟨pauseCodes_fit known, action error.reason, ?_, by rintro c ⟨⟩⟩⟩
  rintro limit ⟨⟩
  exact valid

theorem failedStep_readable {now checkpoint next : RunCheckpoint} {failure : SessionFailure}
    (declared : FailureDeclared failure) (h : failedStep now checkpoint failure = some next) :
    ReadablePause next := by
  have research {source : SourceError} (declared : SourceDeclared source) : Readable
      (pauseOf .research "research_rejected"
        ("the research stage failed (research_rejected); see the recorded durable cause (" ++
          (researchCause source).code ++ "), inspect and retry the research response explicitly")
        (some (researchCause source))) := by
    have bounded := researchCause_bounded declared
    generalize researchCause source = cause at bounded ⊢
    refine readable_pauseOf (by decide) (fun _ => ?_) ?_
    · exact namingAction_fits bounded (length_literal rfl) (length_literal rfl) (by decide)
        (by decide)
    · rintro c ⟨⟩
      exact bounded
  cases failure with
  | stageLimit error turn =>
      obtain rfl := Option.some.inj h
      rintro pause ⟨⟩
      exact limitPause_readable declared
  | stageFailure turn source =>
      simp only [failedStep] at h
      split_ifs at h
      · obtain rfl := Option.some.inj h
        rintro pause ⟨⟩
        exact research declared
      · obtain rfl := Option.some.inj h
        rintro pause ⟨⟩
        exact stageFailurePause_readable declared
  | orchestration error =>
      have bounded {recurrence : Nat} : ∀ c, pauseCauseFrom (.ofOrchestration error) recurrence =
          some c → CauseBounded c :=
        fun c found => pauseCauseFrom_bounded (orchestration_declared error) found
      simp only [failedStep] at h
      split_ifs at h
      · obtain rfl := Option.some.inj h
        rintro pause ⟨⟩
        exact readable_pauseOf (by decide) (fun _ => notRunAction_fits error.code) bounded
      · obtain rfl := Option.some.inj h
        rintro pause ⟨⟩
        exact readable_pauseOf (planPauseCode_known error.code)
          (fun _ => planAction_fits error.code) bounded
      · obtain rfl := Option.some.inj h
        rintro pause ⟨⟩
        exact research (orchestration_declared error)
  | thrown source =>
      simp only [failedStep] at h
      split_ifs at h
      obtain rfl := Option.some.inj h
      rintro pause ⟨⟩
      exact research declared

/-! ## Sections -/

section Sections

open Section

variable {host : CoordinatorHost} {world : CoordinatorWorld}

/-- A step captured a checkpoint whose pause is readable. -/
def ReadableFlight : Flight → Prop
  | .step checkpoint => ReadablePause checkpoint
  | .review _ _ _ => True

abbrev KeepsReadable (x : CoordinatorSection ProjectOperations.Progress) : Prop :=
  Keeps ReadablePause x (ProjectOperations.Progress.Awaits ReadableFlight)

theorem quiet_readable : Quiet ReadablePause := by
  rintro c next readable - - (same | cleared) pause paused
  · exact readable pause (same ▸ paused)
  · rw [cleared] at paused
    cases paused

theorem keepsReadable_pauseStep {checkpoint : RunCheckpoint} {pause : Pause}
    (readable : Readable pause) : KeepsReadable (pauseStep checkpoint pause) := by
  refine keeps_save_return ?_ trivial
  rintro _ ⟨⟩
  exact readable

theorem keepsReadable_dispatchResearch {checkpoint : RunCheckpoint}
    {intent : ResearchDispatchIntent} (readable : ReadablePause checkpoint) :
    KeepsReadable (dispatchResearch checkpoint intent) :=
  have dispatched : ReadablePause { checkpoint with
      researchEffect := some ⟨intent, .dispatched⟩ } := readable
  keeps_save_return dispatched dispatched

theorem keepsReadable_prepareStep : KeepsReadable (prepareStep host world) := by
  refine .bind .reads fun checkpoint readable => ?_
  refine .branch (fun _ => .returns trivial) fun _ => ?_
  refine .branch (fun _ => .returns trivial) fun _ => ?_
  cases checkpoint.pendingStep with
  | some pending => exact .returns trivial
  | none =>
      refine .branch (fun _ => keepsReadable_pauseStep interruptedPause_readable) fun _ => ?_
      refine .branch (fun _ => .returns readable) fun _ => ?_
      cases checkpoint.researchEffect with
      | some effect =>
          refine .branch (fun _ => keepsReadable_pauseStep ?_) fun _ =>
            keepsReadable_dispatchResearch readable
          exact readable_pauseOf (by decide) (fun _ => fitsString_literal rfl) (by rintro c ⟨⟩)
      | none =>
          dsimp only
          split
          · exact keepsReadable_pauseStep
              (unsafeRequestPause_readable (orchestration_declared _))
          · exact keepsReadable_pauseStep
              (readable_pauseOf (by decide) (fun _ => fitsString_literal rfl) (by rintro c ⟨⟩))
          · next intent _ =>
              have prepared : ReadablePause (preparedCheckpoint checkpoint intent) := readable
              exact (keeps_save prepared).bind fun _ _ => keepsReadable_dispatchResearch prepared

/-- What a method of the session refuses is declared as well. -/
theorem settle_declared {returned : SessionReturn} {failure : SessionFailure}
    {method : StepOutcome → Except StepError StepResult}
    (declared : ∀ failure, returned.outcome = .error failure → FailureDeclared failure)
    (failed : returned.settle method = .error failure) : FailureDeclared failure := by
  rw [SessionReturn.settle] at failed
  split at failed
  · next thrown outcome =>
      cases failed
      exact declared _ outcome
  · next outcome _ =>
      cases refused : method outcome with
      | ok result => simp [refused, Except.mapError] at failed
      | error error =>
          simp only [refused, Except.mapError, Except.error.injEq] at failed
          subst failed
          cases error <;> trivial

theorem keepsReadable_finishStep {checkpoint : RunCheckpoint} {returned : SessionReturn}
    (captured : ReadablePause checkpoint)
    (declared : ∀ failure, returned.outcome = .error failure → FailureDeclared failure) :
    KeepsReadable (finishStep host checkpoint returned world) := by
  rw [finishStep]
  split
  · next failure failed =>
      refine .bind .reads fun now _ => ?_
      split_ifs
      · exact keepsReadable_pauseStep interruptedPause_readable
      · split
        · exact .throws
        · next next left =>
            exact keeps_save_return
              (failedStep_readable (settle_declared declared failed) left) trivial
  · refine .bind (keeps_liftOperations _) fun followUps _ => ?_
    have pending : ReadablePause checkpoint := captured
    exact keeps_save_return pending trivial

theorem keepsReadable_startContractReview {id : String} {decision : OperatorDecision}
    {rest : Option (List OperatorDecision)} :
    KeepsReadable (startContractReview host id decision rest world) := by
  refine .bind .reads fun checkpoint readable => ?_
  split
  · exact keeps_refuse
  · refine .branch (fun _ => keeps_refuse) fun _ => ?_
    refine .bind (keeps_liftOperations _) fun _ _ => ?_
    have reviewed : ReadablePause checkpoint := readable
    exact keeps_save_return reviewed trivial

theorem keepsReadable_resumeRoundCap {limit : Nat} {reason : String} :
    KeepsReadable (resumeRoundCap limit reason world) := by
  refine .bind .reads fun checkpoint readable => ?_
  refine .branch (fun _ => keeps_refuse) fun _ => ?_
  refine .branch (fun _ => keeps_refuse) fun _ => ?_
  have reopened : ReadablePause checkpoint := readable
  exact keeps_save_return reopened trivial

theorem keepsReadable_finishReview {id : String} {state : WorkflowState}
    {returned : SessionReturn} : KeepsReadable (finishReview host id state returned) := by
  rw [finishReview]
  split
  · exact .throws
  · split
    · exact keeps_refuse
    · refine .bind .reads fun now held => ?_
      have kept : ReadablePause now := held
      refine .bind (keeps_liftOperations _) fun followUps _ => ?_
      refine .branch (fun _ => keeps_save_return kept trivial) fun _ => ?_
      split
      · exact .bind (keeps_save kept) fun _ _ => keeps_refuse
      · exact keeps_save_return kept trivial

theorem upheld_readable : Upheld ReadablePause ReadableFlight where
  quiet := quiet_readable
  prepares := keepsReadable_prepareStep
  commits _ _ _ _ readable _ := readable
  reviews := keepsReadable_startContractReview
  raises := keepsReadable_resumeRoundCap

end Sections

/-! ## Every pause that is read -/

/-- A session that answers throws errors as their classes declare them. -/
def Declares (made : AdmittedEvent) : Prop :=
  match made.event with
  | .returns _ _ returned _ => ∀ failure, returned.outcome = .error failure →
      FailureDeclared failure
  | _ => True

theorem readable_step {system : CoordinatorSystem} {made : AdmittedEvent}
    (h : KeptSystem ReadablePause ReadableFlight system) (declares : Declares made) :
    KeptSystem ReadablePause ReadableFlight (system.step made) := by
  refine h.step upheld_readable ?_ ?_
  · rintro runId host options pause ⟨⟩
  · intro id index returned world coordinator flight event _ _ captured
    rw [Declares, event] at declares
    cases flight with
    | step checkpoint => exact keepsReadable_finishStep captured declares
    | review decision state rest =>
        cases rest with
        | none => exact keepsReadable_finishReview
        | some rest =>
            exact keepsReadable_finishReview.bind fun _ _ => upheld_readable.resolveAccepted

/-- In every run of coordinators the pause of a checkpoint is one that the reader of background
runs takes back as it was, as long as the recurrence of its cause is a safe integer. The action of
a closeout keeps the head of its detail and ends with how often the cause has recurred. -/
theorem pauses_read_back :
    (∀ (runId : String) (events : List AdmittedEvent) (system : CoordinatorSystem)
      (checkpoint : RunCheckpoint) (pause : Pause),
      Run (Guarded CoordinatorSystem.Steps fun _ made => Declares made) (.start runId) events
        system →
      system.Reads checkpoint → checkpoint.pause = some pause → Countable pause.cause →
        pause.code ∈ pauseCodes ∧ parsePause (pauseJson pause) = .ok pause) ∧
    ∀ (reason : StageLimitReason) (detail message : String) (cause : PipelinePauseCause),
      cause.recurrence ≤ JsNumber.maxSafe → ∃ kept,
        harnessFailureAction (.stageCloseout reason.text detail message) cause =
          reason.text ++ " closeout reserve (" ++ kept ++ ("); raise or disable the " ++
            reason.text ++ " stage ceiling for this role, then resume explicitly") ++
              recurrenceTail cause ∧
        KeepsHead detail kept := by
  constructor
  · intro runId events system checkpoint pause run reads paused countable
    have kept : KeptSystem ReadablePause ReadableFlight system := by
      refine run.invariant ?_ (KeptSystem.start runId)
      rintro a made b h ⟨declares, rfl⟩
      exact readable_step h declares
    have readable := kept.of_reads reads pause paused
    exact ⟨readable.known, (yields_parsePause pause pause).mpr ⟨readable.fits countable, rfl⟩⟩
  · intro reason detail message cause safe
    obtain ⟨kept, action, -, head⟩ := closeoutAction_spec detail message safe
    exact ⟨kept, action, head⟩

/-- A coder that reaches the reserve of its stage. -/
def closeoutFailure : SessionFailure :=
  .stageFailure ⟨"a", ⟨"coder", none, none, 0, 0, 0, 0, none, none, none⟩⟩
    (.stageCloseout "tool_turns" "2 of 2 tool turns" "closeout")

def closeoutScript : List AdmittedEvent :=
  [openEvent, admitAll (.call 0 .prepareStep quietWorld),
    admitAll (.returns 0 0 ⟨.error closeoutFailure, []⟩ quietWorld)]

theorem closeoutScript_declares : ∀ made ∈ closeoutScript, Declares made := by
  have declared : FailureDeclared closeoutFailure := ⟨.toolTurns, by decide, rfl⟩
  simp only [closeoutScript, List.forall_mem_cons]
  refine ⟨trivial, trivial, ?_, fun made member => nomatch member⟩
  rintro failure ⟨⟩
  exact declared

def closeoutPause : Pause := stageFailurePause .code
  (.stageCloseout "tool_turns" "2 of 2 tool turns" "closeout") none

theorem pauses_read_back_closeout :
    closeoutPause.code ∈ pauseCodes ∧ parsePause (pauseJson closeoutPause) = .ok closeoutPause := by
  have stored : (closeoutScript.foldl CoordinatorSystem.step (.start "r")).file.map
      (·.value.pause) = some (some closeoutPause) := by decide +kernel
  obtain ⟨held, file, paused⟩ := Option.map_eq_some_iff.mp stored
  refine pauses_read_back.1 "r" closeoutScript _ held.value closeoutPause
    (Run.guarded_foldl_of_forall (fun made member _ => closeoutScript_declares made member) _)
    (.inl ⟨held, file, rfl⟩) paused ?_
  rintro cause h
  have zero : closeoutPause.cause.map (·.recurrence) = some 0 := by decide +kernel
  rw [h] at zero
  exact (Option.some.inj zero).le.trans (Nat.zero_le _)

end AdCoder.BackgroundRuns
