import AdCoder.Orchestration.Session

/-!
# Pauses of a run

The pause that a failed stage leaves on the checkpoint: its code, the bounded
action an operator reads and the cause that the next attempt is told.
-/

namespace AdCoder.ProjectOperations

open Foundation Foundation.Regex Orchestration

/-- `MAX_PAUSE_CAUSE_CODE_CHARS`. -/
def maxPauseCauseCodeChars : Nat := 64

/-- `MAX_PERSISTED_STRING_CHARS`. -/
def maxPersistedStringChars : Nat := 256

/-- `PAUSE_CAUSE_CLIP_MARKER`. -/
def pauseCauseClipMarker : String := "...[clipped]"

inductive StageLimitReason where
  | duration
  | modelTurns
  | toolTurns
  | input
  | cost
  | costInFlight
  | costUnknown
  deriving DecidableEq

def StageLimitReason.text : StageLimitReason → String
  | duration => "duration"
  | modelTurns => "model_turns"
  | toolTurns => "tool_turns"
  | input => "input"
  | cost => "cost"
  | costInFlight => "cost_in_flight"
  | costUnknown => "cost_unknown"

structure PipelinePauseCause where
  code : String
  message : Option String
  recurrence : Nat
  deriving DecidableEq

structure Pause where
  phase : WorkflowPhase
  code : String
  action : String
  limitReason : Option StageLimitReason
  limit : Option Rat
  cause : Option PipelinePauseCause
  deriving DecidableEq

/-- A pause without limit evidence. -/
def pauseOf (phase : WorkflowPhase) (code action : String)
    (cause : Option PipelinePauseCause) : Pause :=
  ⟨phase, code, action, none, none, cause⟩

/-- An error that a stage failed with. Of an untyped one only what can be read
without throwing is known: its prototype's constructor name and its message. -/
inductive SourceError where
  | providerRejection (status : Nat)
  | stageCloseout (reason detail message : String)
  | contextCompactionLost (message : String)
  | typed (constructorName code message : String)
  | untyped (constructorName : Option String) (message : Option String)

/-- The code units that a character takes in UTF-16. -/
def unitsOf (x : Char) : Nat := if x.toNat < 0x10000 then 1 else 2

/-- The first code units. The half of a pair that is cut through stands as a
replacement character. -/
def firstUnits : Nat → List Char → List Char
  | _, [] => []
  | n, x :: rest =>
      if unitsOf x ≤ n then x :: firstUnits (n - unitsOf x) rest
      else if n = 0 then []
      else [Char.ofNat 0xfffd]

/-- `text.slice(0, n)`. -/
def firstChars (n : Nat) (text : String) : String := String.ofList (firstUnits n text.toList)

/-- `text.length`. -/
def textLength (text : String) : Nat := (codeUnits text).length

/-! ## Causes -/

/-- The code and message of an error that the harness classifies. -/
def SourceError.typed? : SourceError → Option (String × String)
  | providerRejection _ => none
  | stageCloseout _ _ message => some ("stage_closeout", message)
  | contextCompactionLost message => some ("context_compaction_lost", message)
  | typed _ code message => some (code, message)
  | untyped _ _ => none

/-- The cause of a typed harness-side error. -/
def pauseCauseFrom (source : SourceError) (recurrence : Nat) : Option PipelinePauseCause :=
  source.typed?.map fun (code, message) => {
    code := firstChars maxPauseCauseCodeChars code
    message := if message = "" then none
      else some (firstChars maxPauseCauseMessageChars message)
    recurrence := recurrence }

/-- The credential shapes that durable records replace, under the `i` flag. -/
def credentialLike : Regex :=
  let tokenChar (x : Char) : Bool := isAlnum x || x == '_' || x == '-'
  choice [
    sequence [wordBoundary, choice [literalI "sk", literalI "ghp", literalI "github_pat",
        sequence [literalI "xox", .one fun x => "baprs".toList.contains (lower x)]],
      .rep true 8 none (.one tokenChar), wordBoundary],
    sequence [wordBoundary, choice [literalI "token", literalI "secret", literalI "password",
        sequence [literalI "api", optional (oneOf "_-"), literalI "key"]],
      spaces, oneOf ":=", spaces, plus (.one fun x => !isSpace x)],
    sequence [wordBoundary, literalI "AKIA", .rep true 16 none (.one isAlnum), wordBoundary],
    sequence [wordBoundary, literalI "AIza", .rep true 35 (some 35) (.one tokenChar),
      wordBoundary],
    sequence [wordBoundary, literalI "eyJ",
      .rep true 20 none (.one fun x => tokenChar x || x == '.'), wordBoundary],
    sequence [wordBoundary, literalI "bearer", plus space,
      .rep true 8 none (.one fun x => !isSpace x), wordBoundary]]

def redactCredentialLike (value : String) : String :=
  credentialLike.replaceAll "[redacted]" value

/-- `PAUSE_CONSTRUCTOR_TOKEN`. -/
def pauseConstructorToken : Regex := sequence [atStart, .one isLetter,
  .rep true 0 (some 63) (.one fun x => isAlnum x || x == '_' || x == '-'), atEnd]

def boundedConstructorName : Option String → String
  | some name => if pauseConstructorToken.test name then name else "Unknown"
  | none => "Unknown"

def boundedFirstMessageLine (message : Option String) : String :=
  String.ofList ((message.getD "").toList.takeWhile (· ≠ '\n'))

/-- `trimEnd`. -/
def trimEnd (text : List Char) : List Char := (text.reverse.dropWhile isSpace).reverse

/-- The constructor name and the message of an error, as far as they can be read. -/
def SourceError.unclassified : SourceError → Option String × Option String
  | providerRejection status => (some "ProviderRejectionError", some (
      "the provider rejected the request with HTTP " ++ toString status ++
        " before running the model; inspect the request this role sends " ++
        "-- model id, tool schemas, parameters -- and retry"))
  | stageCloseout _ _ message => (some "StageCloseoutError", some message)
  | contextCompactionLost message => (some "ContextCompactionLostError", some message)
  | typed name _ message => (some name, some message)
  | untyped name message => (name, message)

/-- The bounded cause of an untyped error: composed, stripped of everything but
printable ASCII, redacted and only then clipped. -/
def untypedPauseCause (source : SourceError) : PipelinePauseCause :=
  let (name, text) := source.unclassified
  let composed := boundedConstructorName name ++ ": " ++ boundedFirstMessageLine text
  let printable := composed.toList.filter fun x => 0x20 ≤ x.toNat && x.toNat ≤ 0x7e
  let stripped := String.ofList (trimEnd (redactCredentialLike (String.ofList printable)).toList)
  let message :=
    if textLength stripped > maxPauseCauseMessageChars then
      firstChars (maxPauseCauseMessageChars - textLength pauseCauseClipMarker) stripped ++
        pauseCauseClipMarker
    else stripped
  { code := "untyped_error"
    message := if message = "" then none else some message
    recurrence := 0 }

/-! ## Recurrence -/

/-- How often in a row the stage was recorded with this code before. -/
def recurrenceOf (prior : Option StageFailureRecord) (phase : WorkflowPhase)
    (source : SourceError) : Nat :=
  match pauseCauseFrom source 0, prior with
  | some cause, some prior =>
      if prior.phase = phase ∧ prior.code = cause.code then prior.recurrence + 1 else 0
  | _, _ => 0

/-- Untyped causes share one code, so their messages must be equal too. -/
def untypedRecurrenceOf (prior : Option StageFailureRecord) (phase : WorkflowPhase)
    (cause : PipelinePauseCause) : Nat :=
  match prior with
  | some prior =>
      if prior.phase = phase ∧ prior.code = cause.code ∧ prior.message = cause.message then
        prior.recurrence + 1
      else 0
  | none => 0

/-- The failure that the next attempt of the stage is told. -/
def recordStageFailure (state : WorkflowState) (phase : WorkflowPhase)
    (cause : PipelinePauseCause) : WorkflowState :=
  { state with lastStageFailure := some ⟨phase, cause.code, cause.message, cause.recurrence⟩ }

/-! ## Actions -/

/-- An action within the persisted ceiling: only its detail may be shortened,
and visibly. -/
def boundedAction (head detail tail recurrenceSuffix : String) : String :=
  let composed := head ++ detail ++ tail ++ recurrenceSuffix
  if textLength composed ≤ maxPersistedStringChars then composed
  else
    let room := maxPersistedStringChars - (textLength head + textLength tail +
      textLength recurrenceSuffix + textLength pauseCauseClipMarker)
    head ++ firstChars room detail ++ pauseCauseClipMarker ++ tail ++ recurrenceSuffix

def harnessFailureAction (source : SourceError) (cause : PipelinePauseCause) : String :=
  let times := toString (cause.recurrence + 1)
  let recurrenceSuffix :=
    if cause.recurrence > 0 then
      "; the same cause has now been recorded " ++ times ++ " consecutive times"
    else ""
  match source with
  | .stageCloseout reason detail _ =>
      boundedAction (reason ++ " closeout reserve (") detail
        ("); raise or disable the " ++ reason ++
          " stage ceiling for this role, then resume explicitly") recurrenceSuffix
  | .contextCompactionLost _ =>
      boundedAction ("the stage's context can no longer be compacted; " ++
          "reopen the session from its durable state (")
        "choosing a different summarizer model when the summarizer itself failed"
        ") -- retrying the same prompt cannot succeed" recurrenceSuffix
  | _ =>
      if cause.recurrence > 0 then
        "the stage failed inside the harness (" ++ cause.code ++
          "); the same cause has now been recorded " ++ times ++
          " consecutive times -- resolve it, then retry the stage explicitly"
      else "the stage failed inside the harness (" ++ cause.code ++
        "); resolve the recorded cause, then retry the stage explicitly"

/-- The action of an untyped failure; what failed, where the cause stands after a
recurrence and what to do are the stage's own. -/
def untypedFailureAction (what again retry : String) (cause : PipelinePauseCause) : String :=
  let see :=
    if cause.recurrence > 0 then
      "the same cause has been recorded " ++ toString (cause.recurrence + 1) ++
        " consecutive times -- " ++ again
    else "see the recorded durable cause"
  what ++ " with an untyped error (" ++ cause.code ++ "); " ++ see ++
    " (this may be a harness bug rather than a provider outage), then " ++ retry ++ " explicitly"

/-- The pause of a stage failure that is not a limit. A review that did not run
has a code of its own. -/
def stageFailurePause (phase : WorkflowPhase) (source : SourceError)
    (prior : Option StageFailureRecord) : Pause :=
  let typedCause := pauseCauseFrom source (recurrenceOf prior phase source)
  let untypedCause :=
    let cause := untypedPauseCause source
    { cause with recurrence := untypedRecurrenceOf prior phase cause }
  let reviewAction := "the review stage did not run to a verdict; inspect the reviewer's " ++
    "registration and configuration, then resume the review explicitly"
  if phase = .review then
    match source, typedCause with
    | .providerRejection _, none => pauseOf phase "review_not_run" reviewAction none
    | _, none => pauseOf phase "review_not_run" (untypedFailureAction
        "the review stage did not run to a verdict" "see cause" "resume the review" untypedCause)
        (some untypedCause)
    | _, some cause => pauseOf phase "review_not_run" reviewAction (some cause)
  else
    match source, typedCause with
    | .providerRejection status, _ => pauseOf phase "provider_rejected"
        ("the provider rejected the request with HTTP " ++ toString status ++
          "; inspect the request this stage sends (model id, tool schemas, parameters), " ++
          "then retry the stage explicitly") none
    | _, none => pauseOf phase "stage_failed" (untypedFailureAction "the stage failed"
        "see the recorded cause" "retry the stage" untypedCause) (some untypedCause)
    | _, some cause => pauseOf phase "stage_failed" (harnessFailureAction source cause)
        (some cause)

end AdCoder.ProjectOperations
