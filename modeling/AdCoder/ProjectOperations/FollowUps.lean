import AdCoder.Foundation.Json
import AdCoder.Foundation.Runs

/-!
# Follow-ups

The validator of submitted follow-ups and the projection under which a backlog
candidate is persisted.
-/

namespace AdCoder.ProjectOperations

open Foundation Foundation.Regex

inductive ProjectOperationsErrorCode where
  | invalidFollowUp
  | invalidIntake
  | invalidBudgetDecision
  | resourceLimit
  | unsafeDestination
  | invalidTransition
  | claimConflict
  | notClaimHolder
  | notFound
  | githubUnavailable
  | invalidConfig
  | checkpointConflict
  | pendingDecision
  | unauthorizedResolution
  | unresolvedReview
  | malformedImport
  | unsupportedImport
  | unsafeImport
  | staleImport
  | untrustedImport
  | notRepository
  | protectedBase
  | baseMoved
  | dirtyIndex
  | unauthorizedPath
  | gateFailed
  | approvalRequired
  | publishFailed
  | staleBinding
  deriving DecidableEq

structure ProjectOperationsError where
  code : ProjectOperationsErrorCode
  detail : String
  deriving DecidableEq

structure FollowUpProvenance where
  producer : String
  runId : String
  branch : Option String
  deriving DecidableEq

structure FollowUpEvidence where
  summary : String
  path : Option String
  line : Option Nat
  sha256 : Option String
  deriving DecidableEq

inductive BacklogPriority where
  | low
  | medium
  | high
  deriving DecidableEq

namespace BacklogPriority

def text : BacklogPriority → String
  | low => "low"
  | medium => "medium"
  | high => "high"

def ofText? (s : String) : Option BacklogPriority :=
  if s = "low" then some low
  else if s = "medium" then some medium
  else if s = "high" then some high
  else none

@[simp] theorem ofText?_text (priority : BacklogPriority) :
    ofText? priority.text = some priority := by
  cases priority <;> decide

end BacklogPriority

structure BacklogFollowUp where
  title : String
  evidence : List FollowUpEvidence
  provenance : List FollowUpProvenance
  priority : Option BacklogPriority
  deriving DecidableEq

inductive FollowUp where
  | contract (title : String) (evidence : List FollowUpEvidence)
      (provenance : List FollowUpProvenance) (contract : Option String)
  | note (title : String) (evidence : List FollowUpEvidence)
      (provenance : List FollowUpProvenance)
  | designDocDrift (title : String) (evidence : List FollowUpEvidence)
      (provenance : List FollowUpProvenance) (document : String)
  | backlog (candidate : BacklogFollowUp)
  deriving DecidableEq

/-! ## Validation -/

/-- The characters of an identifier after its first. -/
def isIdentifierChar (x : Char) : Bool :=
  isAlnum x || x == '.' || x == '_' || x == '/' || x == '-'

/-- `IDENTIFIER`, also the pattern of a claim's parts. -/
def identifier : Regex :=
  sequence [atStart, .one isAlnum, .rep true 0 (some 255) (.one isIdentifierChar), atEnd]

/-- `SHA256`. -/
def sha256Pattern : Regex :=
  sequence [atStart, .rep true 64 (some 64) (.one fun x => isDigit x || ('a' ≤ x && x ≤ 'f')),
    atEnd]

/-- The contents of `FORBIDDEN` that look like a credential or a marker. -/
def forbiddenContent : Regex := choice [
  sequence [literalI "-----BEGIN ", star (.one fun x => isLetter x || x == ' '),
    literalI "PRIVATE KEY-----"],
  sequence [literalI "gh", .one (fun x => "opusr".toList.contains (lower x)), literal "_",
    .rep true 20 none (.one isWord)],
  sequence [choice [sequence [literalI "api", optional (oneOf "_-"), literalI "key"],
      literalI "token", literalI "password", literalI "secret"],
    spaces, oneOf ":=", spaces, plus (.one fun x => !isSpace x)],
  sequence [literal "<!--", spaces, choice [literalI "BEGIN", literalI "END"]]]

/-- The lines of `FORBIDDEN` that look like a contract heading. -/
def forbiddenHeading : Regex := sequence [atLineStart, spaces, literal "#", spaces,
  choice [literalI "CONTRACT", literalI "LDO"], wordBoundary]

/-- `FORBIDDEN`. -/
def forbidden : Regex := .alt forbiddenContent forbiddenHeading

def invalidFollowUp (detail : String) : ProjectOperationsError := ⟨.invalidFollowUp, detail⟩

def hasLineBreakOrNul (text : String) : Bool :=
  text.toList.any fun x => x.toNat == 0 || x == '\r' || x == '\n'

def safeText (name : String) : Option Json → Except ProjectOperationsError String
  | some (.str value) =>
      if trim value = "" then .error (invalidFollowUp (name ++ " must be non-empty"))
      else if hasLineBreakOrNul value || forbidden.test value then
        .error (invalidFollowUp (name ++ " contains forbidden content"))
      else .ok (trim value)
  | _ => .error (invalidFollowUp (name ++ " must be non-empty"))

/-- `text.includes("..")`. -/
def hasDots : List Char → Bool
  | '.' :: '.' :: _ => true
  | _ :: rest => hasDots rest
  | [] => false

/-- An identifier that names no parent and no absolute path. -/
def isSafeIdentifier (text : String) : Bool :=
  identifier.test text && !hasDots text.toList && !text.startsWith "/"

def safeIdentifier (name : String) (value : Option Json) :
    Except ProjectOperationsError String := do
  let text ← safeText name value
  require (isSafeIdentifier text) (invalidFollowUp (name ++ " is unsafe"))
  return text

/-- A field that may be absent but must be an identifier when it is present. -/
def optionalIdentifier (name : String) :
    Option Json → Except ProjectOperationsError (Option String)
  | none => .ok none
  | some value => (safeIdentifier name (some value)).map some

/-- Every key of the object is allowed. -/
def exactKeys (allowed : List String) (fields : List (String × Json)) : Bool :=
  fields.all fun field => allowed.contains field.1

def validateProvenance : Json → Except ProjectOperationsError FollowUpProvenance
  | .obj value => do
      require (exactKeys ["producer", "runId", "branch"] value)
        (invalidFollowUp "provenance has an unknown field")
      let producer ← safeIdentifier "producer" (Json.lookup "producer" value)
      let runId ← safeIdentifier "runId" (Json.lookup "runId" value)
      let branch ← optionalIdentifier "branch" (Json.lookup "branch" value)
      return ⟨producer, runId, branch⟩
  | _ => .error (invalidFollowUp "provenance must be an object")

def evidenceLine : Option Json → Except ProjectOperationsError (Option Nat)
  | none => .ok none
  | some (.num (.finite q)) =>
      if (JsNumber.finite q).isSafeInteger ∧ 0 < q then .ok (some q.num.toNat)
      else .error (invalidFollowUp "evidence.line is invalid")
  | some _ => .error (invalidFollowUp "evidence.line is invalid")

def evidenceSha256 : Option Json → Except ProjectOperationsError (Option String)
  | none => .ok none
  | some (.str value) =>
      if sha256Pattern.test value then .ok (some value)
      else .error (invalidFollowUp "evidence.sha256 is invalid")
  | some _ => .error (invalidFollowUp "evidence.sha256 is invalid")

def validateEvidence : Json → Except ProjectOperationsError FollowUpEvidence
  | .obj value => do
      require (exactKeys ["summary", "path", "line", "sha256"] value)
        (invalidFollowUp "evidence has an unknown field")
      let summary ← safeText "evidence.summary" (Json.lookup "summary" value)
      let path ← optionalIdentifier "evidence.path" (Json.lookup "path" value)
      let line ← evidenceLine (Json.lookup "line" value)
      let sha256 ← evidenceSha256 (Json.lookup "sha256" value)
      return ⟨summary, path, line, sha256⟩
  | _ => .error (invalidFollowUp "evidence must be an object")

/-- A non-empty array whose items all validate. -/
def validateItems {α : Type} (name : String) (validate : Json → Except ProjectOperationsError α) :
    Option Json → Except ProjectOperationsError (List α)
  | some (.arr (item :: items)) => (item :: items).mapM validate
  | _ => .error (invalidFollowUp (name ++ " must be non-empty"))

/-- A member that is written only when it has a value. -/
def member (name : String) : Option Json → List (String × Json)
  | none => []
  | some value => [(name, value)]

def FollowUpEvidence.toJson (evidence : FollowUpEvidence) : Json := .obj (
  ("summary", .str evidence.summary) :: member "path" (evidence.path.map .str) ++
    member "line" (evidence.line.map fun (n : Nat) => .num (.finite n)) ++
    member "sha256" (evidence.sha256.map .str))

def FollowUpProvenance.toJson (provenance : FollowUpProvenance) : Json := .obj (
  [("producer", .str provenance.producer), ("runId", .str provenance.runId)] ++
    member "branch" (provenance.branch.map .str))

def BacklogFollowUp.toJson (candidate : BacklogFollowUp) : Json := .obj (
  [("kind", .str "backlog"), ("title", .str candidate.title),
    ("evidence", .arr (candidate.evidence.map (·.toJson))),
    ("provenance", .arr (candidate.provenance.map (·.toJson)))] ++
    member "priority" (candidate.priority.map fun p => .str p.text))

/-- The kinds of follow-up, with the one field that each has of its own. -/
def kindField : String → Option (Option String)
  | "contract" => some (some "contract")
  | "note" => some none
  | "design-doc-drift" => some (some "document")
  | "backlog" => some (some "priority")
  | _ => none

def followUpPriority : Option Json → Except ProjectOperationsError (Option BacklogPriority)
  | none => .ok none
  | some value =>
      match (Json.asString? (some value)).bind BacklogPriority.ofText? with
      | some priority => .ok (some priority)
      | none => .error (invalidFollowUp "priority is invalid")

/-- Validate a submitted follow-up; an evidence limit of zero is no limit. -/
def validateFollowUp (showNumber : JsNumber → String) (evidenceLimit : Nat) :
    Json → Except ProjectOperationsError FollowUp
  | .obj value =>
      match (Json.asString? (Json.lookup "kind" value)).bind fun kind =>
          (kindField kind).map fun field => (kind, field) with
      | none => .error (invalidFollowUp
          "kind must be one of contract, note, design-doc-drift, backlog")
      | some (kind, field) => do
          require (exactKeys (["kind", "title", "evidence", "provenance"] ++ field.toList) value)
            (invalidFollowUp "follow-up has an unknown field")
          let title ← safeText "title" (Json.lookup "title" value)
          require (nonEmptyArray (Json.lookup "evidence" value))
            (invalidFollowUp "evidence must be non-empty")
          require (nonEmptyArray (Json.lookup "provenance" value))
            (invalidFollowUp "provenance must be non-empty")
          let evidence ← validateItems "evidence" validateEvidence (Json.lookup "evidence" value)
          require (evidenceLimit == 0 || byteLength (Json.stringify showNumber
              (.arr (evidence.map (·.toJson)))) ≤ evidenceLimit)
            ⟨.resourceLimit, "evidenceLimit"⟩
          let provenance ← validateItems "provenance" validateProvenance
            (Json.lookup "provenance" value)
          if kind = "contract" then
            return .contract title evidence provenance
              (← optionalIdentifier "contract" (Json.lookup "contract" value))
          else if kind = "note" then return .note title evidence provenance
          else if kind = "design-doc-drift" then
            return .designDocDrift title evidence provenance
              (← safeIdentifier "document" (Json.lookup "document" value))
          else
            return .backlog ⟨title, evidence, provenance,
              ← followUpPriority (Json.lookup "priority" value)⟩
  | _ => .error (invalidFollowUp "follow-up must be an object")
where
  nonEmptyArray : Option Json → Bool
    | some (.arr (_ :: _)) => true
    | _ => false

/-- Persistence keeps only structural evidence metadata. -/
def projectBacklogFollowUp (candidate : BacklogFollowUp) : BacklogFollowUp :=
  { candidate with
    title := "Redacted backlog candidate"
    evidence := candidate.evidence.map fun evidence =>
      { evidence with summary := "Evidence metadata" } }

@[simp] theorem projectBacklogFollowUp_idem (candidate : BacklogFollowUp) :
    projectBacklogFollowUp (projectBacklogFollowUp candidate) =
      projectBacklogFollowUp candidate := by
  simp [projectBacklogFollowUp, Function.comp_def]

end AdCoder.ProjectOperations
