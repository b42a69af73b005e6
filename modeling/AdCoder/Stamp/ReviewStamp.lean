import AdCoder.Foundation.RegexLaws
import AdCoder.Foundation.Runs
import AdCoder.Stamp.Coverage

/-!
# The line of a review stamp

A stamp is one line of tokens with a name, a colon and a value. Nothing is
escaped: the writer refuses blanks and line ends, and the reader trims the line
before it cuts it.
-/

namespace AdCoder.Stamp

open Foundation

/-! ## The stamp -/

inductive StampVerdict where
  | approved
  | changesRequested
  deriving DecidableEq

def StampVerdict.text : StampVerdict → String
  | approved => "approved"
  | changesRequested => "changes_requested"

structure ReviewStamp where
  treeDigest : String
  base : String
  verdict : StampVerdict
  reviewer : String
  reviewedAt : String
  runIds : List String
  findingsRef : String
  coverage : Option (List String)
  deriving DecidableEq

/-- `REVIEW_STAMP_VERSION`. -/
def reviewStampVersion : String := "review-stamp-v1"

/-- A fixed number of digits. -/
def digitsOf (count : Nat) : Regex := .rep true count (some count) (.one Regex.isDigit)

/-- `ISO_8601`. -/
def iso8601 : Regex := .sequence [.atStart, digitsOf 4, .literal "-", digitsOf 2, .literal "-",
  digitsOf 2, .literal "T", digitsOf 2, .literal ":", digitsOf 2, .literal ":", digitsOf 2,
  .optional (.seq (.literal ".") .digits),
  .alt (.sequence [.oneOf "+-", digitsOf 2, .literal ":", digitsOf 2]) (.literal "Z"), .atEnd]

def digestPattern : Regex := .sequence [.atStart, .rep true 64 (some 64) (.one fun x =>
  Regex.isDigit x || ('a' ≤ x && x ≤ 'f')), .atEnd]

def runIdPattern : Regex := .sequence [.atStart, .rep true 1 (some 64) (.one fun x =>
  Regex.isAlnum x || x == '_' || x == '-'), .atEnd]

/-! ## Writing -/

/-- `singleLine`. -/
def singleLine (key value : String) : Except String String :=
  if value.toList.any fun x => x == '\r' || x == '\n' || x == ' ' then
    .error ("review stamp field " ++ key ++ " carries a newline or a space")
  else if key = "reviewedAt" ∧ iso8601.test value = false then
    .error ("review stamp reviewedAt must be ISO-8601, not " ++ Json.quote value)
  else .ok value

def runIdKey (index : Nat) : String := "runId" ++ toString index

/-- The run ids under their names, from an index on. -/
def runIdFields : Nat → List String → List (String × String)
  | _, [] => []
  | index, runId :: rest => (runIdKey index, runId) :: runIdFields (index + 1) rest

/-- The fields of a stamp in the order of the line. -/
def stampFields (stamp : ReviewStamp) : List (String × String) :=
  [("digest", stamp.treeDigest), ("base", stamp.base), ("verdict", stamp.verdict.text),
    ("reviewer", stamp.reviewer), ("reviewedAt", stamp.reviewedAt),
    ("findings", stamp.findingsRef)] ++ runIdFields 1 stamp.runIds ++
    (stamp.coverage.map fun coverage => ("coverage", ",".intercalate coverage)).toList

/-- The characters of a token. -/
def tokenText (field : String × String) : List Char := field.1.toList ++ ':' :: field.2.toList

/-- The version and the tokens of some fields. -/
def lineText (fields : List (String × String)) : List Char :=
  reviewStampVersion.toList ++ ' ' :: [' '].intercalate (fields.map tokenText)

def renderReviewStamp (stamp : ReviewStamp) : Except String String := do
  let fields ← (stampFields stamp).mapM fun field =>
    (singleLine field.1 field.2).map fun value => (field.1, value)
  return String.ofList (lineText fields ++ ['\n'])

/-! ## Reading -/

/-- What every plain object inherits: a read of these names is never `undefined`. -/
def inheritedNames : List String :=
  ["constructor", "__defineGetter__", "__defineSetter__", "hasOwnProperty", "__lookupGetter__",
    "__lookupSetter__", "isPrototypeOf", "propertyIsEnumerable", "toString", "valueOf",
    "__proto__", "toLocaleString"]

/-- One token beside those that were read before it. -/
def readToken (stamps : List (String × String)) (token : List Char) :
    Except String (List (String × String)) :=
  let spelled := if token.contains ':' then token.takeWhile (· ≠ ':') else token.dropLast
  let value := token.drop (spelled.length + 1)
  let key := String.ofList spelled
  if spelled = [] ∨ value = [] ∨ key ∈ stamps.map (·.1) ∨ key ∈ inheritedNames then
    .error ("malformed stamp token " ++ Json.quote (String.ofList token))
  else .ok (stamps ++ [(key, String.ofList value)])

/-- The tokens of a line without the blanks around it. -/
def readTokens (text : List Char) : Except String (List (String × String)) :=
  if text = [] then .error "empty stamp line"
  else if ¬ reviewStampVersion.toList <+: text then
    .error ("stamp line must start with " ++ reviewStampVersion)
  else
    match text.drop reviewStampVersion.toList.length with
    | ' ' :: tokens => (tokens.splitOn ' ').foldlM readToken []
    | _ => .error "no separator after version"

def neededFields : List String :=
  ["digest", "base", "verdict", "reviewer", "reviewedAt", "findings"]

/-- A field that is needed, after it was found. -/
def neededField (stamps : List (String × String)) (name : String) : Except String String :=
  match stamps.lookup name with
  | some value => .ok value
  | none => .error ("stamp is missing the " ++ name ++ " field")

def readVerdict (text : String) : Except String StampVerdict :=
  if text = "approved" then .ok .approved
  else if text = "changes_requested" then .ok .changesRequested
  else .error ("stamp verdict must be approved|changes_requested, not " ++ Json.quote text)

def readCoverage (text : String) : Except String (List String) :=
  let patterns := text.toList.splitOn ','
  if patterns.any fun pattern => pattern.isEmpty || pattern.any Regex.isSpace then
    .error ("stamp coverage patterns must be non-empty and whitespace-free: " ++ Json.quote text)
  else .ok (patterns.map String.ofList)

/-- The run ids from an index on. There are no more of them than tokens. -/
def readRunIds (stamps : List (String × String)) : Nat → Nat → Except String (List String)
  | 0, _ => .ok []
  | left + 1, index =>
      match stamps.lookup (runIdKey index) with
      | none => .ok []
      | some value =>
          if runIdPattern.test value then
            (readRunIds stamps left (index + 1)).map (value :: ·)
          else .error ("stamp runId" ++ toString index ++ " is malformed")

/-- The stamp of the tokens that were read. -/
def stampOf (stamps : List (String × String)) : Except String ReviewStamp := do
  let _ ← neededFields.mapM (neededField stamps)
  let digest ← neededField stamps "digest"
  let base ← neededField stamps "base"
  let reviewer ← neededField stamps "reviewer"
  let reviewedAt ← neededField stamps "reviewedAt"
  let findingsRef ← neededField stamps "findings"
  let verdict ← readVerdict (← neededField stamps "verdict")
  require (digestPattern.test digest)
    ("stamp digest must be a 64-hex sha256, not " ++ Json.quote digest)
  let coverage ← match stamps.lookup "coverage" with
    | none => .ok none
    | some text => (readCoverage text).map some
  require (iso8601.test reviewedAt)
    ("stamp reviewedAt must be ISO-8601, not " ++ Json.quote reviewedAt)
  let runIds ← readRunIds stamps stamps.length 1
  return ⟨digest, base, verdict, reviewer, reviewedAt, runIds, findingsRef, coverage⟩

def parseReviewStamp (line : String) : Except String ReviewStamp := do
  stampOf (← readTokens (trimList line.toList))

/-! ## The log -/

/-- The log after a stamp was appended to it; there may be none yet. -/
def appendReviewStamp (log : Option String) (stamp : ReviewStamp) : Except String (Option String) :=
  (renderReviewStamp stamp).map fun line => some (log.getD "" ++ line)

structure StampEntry where
  line : String
  parsed : Except String ReviewStamp
  index : Nat

def readReviewStamps (log : Option String) : List StampEntry :=
  match log with
  | none => []
  | some text =>
      ((text.toList.splitOn '\n').filter fun line => !(trimList line).isEmpty).mapIdx
        fun index line => ⟨String.ofList line, parseReviewStamp (String.ofList line), index⟩

end AdCoder.Stamp
