import AdCoder.Foundation.Json

/-!
# The producer of compaction summaries

The configured route is tried until a summary is within the cap, then the
fallback route under the same cap. The lists of files are added to the summary
that was taken, after the cap was checked.
-/

namespace AdCoder.Context

open Foundation

/-! ## Events and errors -/

inductive CompactionReason where
  | threshold
  | overflow
  | manual
  deriving DecidableEq

/-- The sets of files in the order in which they were added. -/
structure FileOperations where
  read : List String
  written : List String
  edited : List String
  distinct : read.Nodup ∧ written.Nodup ∧ edited.Nodup

structure CompactionPreparation (M : Type) where
  messagesToSummarize : List M
  turnPrefixMessages : List M
  previousSummary : Option String
  tokensBefore : Nat
  retainedTail : List M
  fileOps : FileOperations

structure CompactionEvent (M : Type) where
  reason : CompactionReason
  preparation : CompactionPreparation M

/-- The classes of errors that say that the provider is unavailable, and all others. -/
inductive ErrorClass where
  | queueSaturated
  | admissionCancelled
  | providerLimit
  | providerQuota
  | other
  deriving DecidableEq

/-- A thrown value: its class, and the fields that are read of it where they have their type. -/
structure Thrown where
  errorClass : ErrorClass
  name : Option String
  stopReason : Option String
  status : Option JsNumber
  providerCode : Option String

/-- `isProviderUnavailable`; nothing is thrown where there was no attempt. -/
def isProviderUnavailable (error : Option Thrown) : Bool :=
  error.any fun thrown => thrown.errorClass ≠ .other

structure RouteScope where
  provider : String
  model : String

structure CompactionFailure where
  attempt : Nat
  errorName : String
  stopReason : Option String
  status : Option JsNumber
  providerCode : Option String
  scope : Option RouteScope
  measuredTokens : Nat
  thresholdTokens : Int

/-- `MACHINE_TOKEN`. -/
def machineToken : Regex := .sequence [.atStart, .rep true 1 (some 64) (.one fun x =>
  Regex.isAlnum x || x == '_' || x == '.' || x == ':' || x == '-'), .atEnd]

/-- `attributeFailure`, with the numbers of the compaction. -/
def attributeFailure (error : Option Thrown) (attempt : Nat) (scope : Option RouteScope)
    (measuredTokens : Nat) (thresholdTokens : Int) : CompactionFailure :=
  let token (value : Thrown → Option String) : Option String :=
    (error.bind value).filter machineToken.test
  { attempt
    errorName := (token Thrown.name).getD "Error"
    stopReason := token Thrown.stopReason
    status := (error.bind Thrown.status).filter JsNumber.isFinite
    providerCode := token Thrown.providerCode
    scope, measuredTokens, thresholdTokens }

/-! ## Files -/

/-- `fileDetails`: the files that were only read, and the modified ones. -/
def fileDetails (fileOps : FileOperations) : List String × List String :=
  let modified := (fileOps.edited ++ fileOps.written).eraseDups
  (sortText (fileOps.read.filter (!modified.contains ·)), sortText modified)

/-- A list of files between tags, if it has any. -/
def fileSection (tag : String) (files : List String) : List String :=
  if files.isEmpty then []
  else ["<" ++ tag ++ ">\n" ++ "\n".intercalate files ++ "\n</" ++ tag ++ ">"]

def formatFileOperations (readFiles modifiedFiles : List String) : String :=
  let sections := fileSection "read-files" readFiles ++ fileSection "modified-files" modifiedFiles
  if sections.isEmpty then "" else "\n\n" ++ "\n\n".intercalate sections

/-! ## Attempts -/

/-- A summarizer, asked with the messages and the previous summary for the given time. -/
abbrev Summarizer (M : Type) := List M → Option String → Nat → Except Thrown String

/-- What came of the attempts on one route. -/
structure Attempted where
  result : Except (Option Thrown) String
  calls : Nat
  failures : List CompactionFailure

/-- The loop of `attempt`, with the attempts left and those made. -/
def attempt (ask : Nat → Except Thrown String) (record : Nat → Thrown → CompactionFailure) :
    Nat → Nat → Option Thrown → Attempted
  | 0, _, last => ⟨.error last, 0, []⟩
  | left + 1, count, _ =>
      match ask count with
      | .ok summary => ⟨.ok summary, 1, []⟩
      | .error error =>
          let rest := attempt ask record left (count + 1) (some error)
          ⟨rest.result, rest.calls + 1, record (count + 1) error :: rest.failures⟩

structure DurableCompactionDeps (M : Type) where
  summarizer : Summarizer M
  maxTokens : Int
  reserveTokens : Int
  summarizerScope : Option RouteScope
  fallbackSummarizer : Option (Summarizer M)
  fallbackScope : Option RouteScope
  summaryMaxTokens : Option Nat
  summarizerRetryLimit : Option Nat

structure FallbackEvidence where
  source : String
  route : String
  attempts : Nat

structure CompactResult (M : Type) where
  summary : String
  tokensBefore : Nat
  retainedTail : List M
  readFiles : List String
  modifiedFiles : List String
  fallbackEvidence : Option FallbackEvidence

inductive CompactionHookResult (M : Type) where
  | compaction (result : CompactResult M)
  | decline
  | undefined

/-- What a compaction writes to the error stream. -/
inductive CompactionNotice where
  | skipped (reason : CompactionReason) (measured : Nat) (threshold : Int) (tail : Nat)
  | attemptFailed (failure : CompactionFailure) (attempts : Nat)
  | fallbackUsed (evidence : FallbackEvidence)
  | unavailable (failure : CompactionFailure)
  | failed (failure : CompactionFailure)
  | compacted (messages measured : Nat) (threshold : Int)

/-- The answer of the hook, the calls on both routes and the notices. -/
structure Produced (M : Type) where
  result : CompactionHookResult M
  calls : Nat
  fallbackCalls : Nat
  notices : List CompactionNotice

section Producer

variable {M : Type} (estimateTokens : String → Nat) (deps : DurableCompactionDeps M)
  (event : CompactionEvent M)

def retryLimit : Nat := deps.summarizerRetryLimit.getD 3

def messages : List M :=
  event.preparation.messagesToSummarize ++ event.preparation.turnPrefixMessages

def threshold : Int := deps.maxTokens - deps.reserveTokens

def oversized : Thrown :=
  ⟨.other, some "SummarizerUnavailableError", some "oversized", none, none⟩

/-- `withinCap`. -/
def withinCap (summary : String) : Except Thrown String :=
  match deps.summaryMaxTokens with
  | none => .ok summary
  | some cap => if estimateTokens summary > cap then .error oversized else .ok summary

/-- The attempts on a route. -/
def attempts (summarizer : Summarizer M) (scope : Option RouteScope) : Attempted :=
  attempt
    (fun count => (summarizer (messages event) event.preparation.previousSummary count).bind
      (withinCap estimateTokens deps))
    (fun made error => attributeFailure (some error) made scope event.preparation.tokensBefore
      (threshold deps))
    (retryLimit deps) 0 none

/-- The name of a route in the evidence. -/
def routeText (scope : Option RouteScope) : String :=
  (scope.elim "unknown" (·.provider)) ++ "/" ++ (scope.elim "unknown" (·.model))

def failureNotices (attempted : Attempted) : List CompactionNotice :=
  attempted.failures.map (.attemptFailed · (retryLimit deps))

/-- The summary that is committed. -/
def commit (summary : String) (fallbackEvidence : Option FallbackEvidence) : CompactResult M :=
  let files := fileDetails event.preparation.fileOps
  { summary := summary ++ formatFileOperations files.1 files.2
    tokensBefore := event.preparation.tokensBefore
    retainedTail := event.preparation.retainedTail
    readFiles := files.1
    modifiedFiles := files.2
    fallbackEvidence }

def fallbackEvidence : FallbackEvidence :=
  ⟨routeText deps.summarizerScope, routeText deps.fallbackScope, retryLimit deps⟩

/-- The answer when no route gave a summary; `first` was thrown on the configured one. -/
def withoutSummary (first terminal : Option Thrown) : CompactionHookResult M × CompactionNotice :=
  let failure := attributeFailure first (retryLimit deps) deps.summarizerScope
    event.preparation.tokensBefore (threshold deps)
  if isProviderUnavailable terminal then (.decline, .unavailable failure)
  else (if deps.fallbackSummarizer.isNone then .decline else .undefined, .failed failure)

def compacted : CompactionNotice :=
  .compacted (messages event).length event.preparation.tokensBefore (threshold deps)

def produceSummary : Produced M :=
  if (messages event).isEmpty then
    { result := if event.reason = .threshold then .decline else .undefined
      calls := 0
      fallbackCalls := 0
      notices := [.skipped event.reason event.preparation.tokensBefore (threshold deps)
        event.preparation.retainedTail.length] }
  else
    let configured := attempts estimateTokens deps event deps.summarizer deps.summarizerScope
    match configured.result with
    | .ok summary =>
        ⟨.compaction (commit event summary none), configured.calls, 0,
          failureNotices deps configured ++ [compacted deps event]⟩
    | .error first =>
        match deps.fallbackSummarizer with
        | none =>
            let (result, notice) := withoutSummary deps event first first
            ⟨result, configured.calls, 0, failureNotices deps configured ++ [notice]⟩
        | some fallbackSummarizer =>
            let fallback := attempts estimateTokens deps event fallbackSummarizer
              deps.fallbackScope
            let notices := failureNotices deps configured ++ failureNotices deps fallback
            match fallback.result with
            | .ok summary =>
                ⟨.compaction (commit event summary (some (fallbackEvidence deps))),
                  configured.calls, fallback.calls,
                  notices ++ [.fallbackUsed (fallbackEvidence deps), compacted deps event]⟩
            | .error terminal =>
                let (result, notice) := withoutSummary deps event first terminal
                ⟨result, configured.calls, fallback.calls, notices ++ [notice]⟩

/-! ## What the routes answer -/

/-- The first of the answers that a route may give within its attempts that is a summary within the
cap. -/
def firstWithinCap (summarizer : Summarizer M) : Option String :=
  (List.range (retryLimit deps)).findSome? fun count =>
    ((summarizer (messages event) event.preparation.previousSummary count).bind
      (withinCap estimateTokens deps)).toOption

/-- The summary of the configured route, or else that of the fallback. -/
def offeredSummary : Option String :=
  (firstWithinCap estimateTokens deps event deps.summarizer).or
    (deps.fallbackSummarizer.bind (firstWithinCap estimateTokens deps event))

/-- The tags that are written after a summary. -/
def fileTags : String :=
  formatFileOperations (fileDetails event.preparation.fileOps).1
    (fileDetails event.preparation.fileOps).2

end Producer

/-! ## Attempts are bounded and take the first summary -/

section Attempts

variable {ask : Nat → Except Thrown String} {record : Nat → Thrown → CompactionFailure}

theorem attempt_calls_le (left count : Nat) (last : Option Thrown) :
    (attempt ask record left count last).calls ≤ left := by
  induction left generalizing count last with
  | zero => exact Nat.le_refl 0
  | succ left ih =>
      rw [attempt]
      cases ask count with
      | ok summary => exact Nat.le_add_left 1 left
      | error error => exact Nat.succ_le_succ (ih (count + 1) (some error))

theorem attempt_result (left count : Nat) (last : Option Thrown) :
    (attempt ask record left count last).result.toOption =
      (List.range' count left).findSome? fun k => (ask k).toOption := by
  induction left generalizing count last with
  | zero => rfl
  | succ left ih =>
      rw [attempt, List.range'_succ, List.findSome?_cons]
      cases ask count with
      | ok summary => rfl
      | error error => exact ih (count + 1) (some error)

end Attempts

section Discipline

variable {M : Type} (estimateTokens : String → Nat) (deps : DurableCompactionDeps M)
  (event : CompactionEvent M)

theorem attempts_calls_le (summarizer : Summarizer M) (scope : Option RouteScope) :
    (attempts estimateTokens deps event summarizer scope).calls ≤ retryLimit deps :=
  attempt_calls_le _ _ _

theorem attempts_result (summarizer : Summarizer M) (scope : Option RouteScope) :
    (attempts estimateTokens deps event summarizer scope).result.toOption =
      firstWithinCap estimateTokens deps event summarizer := by
  rw [attempts, attempt_result, firstWithinCap, List.range_eq_range']

variable {estimateTokens deps event}

theorem isEmpty_messages (asked : messages event ≠ []) : (messages event).isEmpty = false := by
  rw [Bool.eq_false_iff, ne_eq, List.isEmpty_iff]
  exact asked

theorem produceSummary_configured (asked : messages event ≠ []) {summary : String}
    (answered : (attempts estimateTokens deps event deps.summarizer deps.summarizerScope).result =
      .ok summary) :
    (produceSummary estimateTokens deps event).result = .compaction (commit event summary none) ∧
      (produceSummary estimateTokens deps event).calls =
        (attempts estimateTokens deps event deps.summarizer deps.summarizerScope).calls ∧
      (produceSummary estimateTokens deps event).fallbackCalls = 0 := by
  simp [produceSummary, isEmpty_messages asked, answered]

theorem produceSummary_alone (asked : messages event ≠ []) {first : Option Thrown}
    (failed : (attempts estimateTokens deps event deps.summarizer deps.summarizerScope).result =
      .error first) (alone : deps.fallbackSummarizer = none) :
    (produceSummary estimateTokens deps event).result =
        (withoutSummary deps event first first).1 ∧
      (produceSummary estimateTokens deps event).calls =
        (attempts estimateTokens deps event deps.summarizer deps.summarizerScope).calls ∧
      (produceSummary estimateTokens deps event).fallbackCalls = 0 := by
  simp [produceSummary, isEmpty_messages asked, failed, alone]

theorem produceSummary_fallback (asked : messages event ≠ []) {first : Option Thrown}
    (failed : (attempts estimateTokens deps event deps.summarizer deps.summarizerScope).result =
      .error first) {fallbackSummarizer : Summarizer M}
    (enabled : deps.fallbackSummarizer = some fallbackSummarizer) :
    ((produceSummary estimateTokens deps event).result =
        match (attempts estimateTokens deps event fallbackSummarizer deps.fallbackScope).result with
        | .ok summary => .compaction (commit event summary (some (fallbackEvidence deps)))
        | .error terminal => (withoutSummary deps event first terminal).1) ∧
      (produceSummary estimateTokens deps event).calls =
        (attempts estimateTokens deps event deps.summarizer deps.summarizerScope).calls ∧
      (produceSummary estimateTokens deps event).fallbackCalls =
        (attempts estimateTokens deps event fallbackSummarizer deps.fallbackScope).calls := by
  simp only [produceSummary, isEmpty_messages asked, failed, enabled, Bool.false_eq_true, if_false]
  split <;> exact ⟨rfl, rfl, rfl⟩

/-- No summary is committed when no route gave one. -/
theorem withoutSummary_ne {first terminal : Option Thrown} {result : CompactResult M} :
    (withoutSummary deps event first terminal).1 ≠ .compaction result := by
  unfold withoutSummary
  split_ifs <;> simp

variable (estimateTokens deps event)

/-- Each route is called as often as the retry limit allows at most. -/
theorem produceSummary_calls_le :
    (produceSummary estimateTokens deps event).calls ≤ retryLimit deps ∧
      (produceSummary estimateTokens deps event).fallbackCalls ≤ retryLimit deps := by
  have bound := attempts_calls_le estimateTokens deps event
  by_cases asked : messages event = []
  · simp [produceSummary, asked]
  · cases failed : (attempts estimateTokens deps event deps.summarizer
        deps.summarizerScope).result with
    | ok summary =>
        obtain ⟨-, calls, fallbackCalls⟩ := produceSummary_configured asked failed
        rw [calls, fallbackCalls]
        exact ⟨bound _ _, Nat.zero_le _⟩
    | error first =>
        cases enabled : deps.fallbackSummarizer with
        | none =>
            obtain ⟨-, calls, fallbackCalls⟩ := produceSummary_alone asked failed enabled
            rw [calls, fallbackCalls]
            exact ⟨bound _ _, Nat.zero_le _⟩
        | some fallbackSummarizer =>
            obtain ⟨-, calls, fallbackCalls⟩ := produceSummary_fallback asked failed enabled
            rw [calls, fallbackCalls]
            exact ⟨bound _ _, bound _ _⟩

/-- What is committed is the offered summary with the tags of the files. -/
theorem produceSummary_commits (asked : messages event ≠ []) (text : String) :
    (∃ result, (produceSummary estimateTokens deps event).result = .compaction result ∧
        result.summary = text) ↔
      ∃ summary, offeredSummary estimateTokens deps event = some summary ∧
        summary ++ fileTags event = text := by
  have first := attempts_result estimateTokens deps event deps.summarizer deps.summarizerScope
  rw [offeredSummary, ← first]
  cases failed : (attempts estimateTokens deps event deps.summarizer deps.summarizerScope).result with
  | ok summary =>
      rw [(produceSummary_configured asked failed).1]
      simp [Except.toOption, commit, fileTags]
  | error error =>
      cases enabled : deps.fallbackSummarizer with
      | none =>
          rw [(produceSummary_alone asked failed enabled).1]
          simp [Except.toOption, withoutSummary_ne]
      | some fallbackSummarizer =>
          have second := attempts_result estimateTokens deps event fallbackSummarizer
            deps.fallbackScope
          rw [(produceSummary_fallback asked failed enabled).1, Except.toOption, Option.none_or,
            Option.bind_some, ← second]
          cases (attempts estimateTokens deps event fallbackSummarizer deps.fallbackScope).result with
          | ok summary => simp [Except.toOption, commit, fileTags]
          | error terminal => simp [Except.toOption, withoutSummary_ne]

/-- Without a fallback the harness is never asked to summarize something. -/
theorem produceSummary_decides (alone : deps.fallbackSummarizer = none)
    (asked : messages event ≠ []) :
    (produceSummary estimateTokens deps event).result ≠ .undefined := by
  cases failed : (attempts estimateTokens deps event deps.summarizer deps.summarizerScope).result with
  | ok summary =>
      rw [(produceSummary_configured asked failed).1]
      simp
  | error first =>
      rw [(produceSummary_alone asked failed alone).1, withoutSummary, alone]
      split_ifs with unavailable absent
      · simp
      · simp
      · exact absurd rfl absent

/-- The routes are called within their limit, what is committed is within the cap, and without a
fallback the harness is not asked to summarize. -/
structure Disciplined : Prop where
  calls : (produceSummary estimateTokens deps event).calls ≤ retryLimit deps
  fallbackCalls : (produceSummary estimateTokens deps event).fallbackCalls ≤ retryLimit deps
  capped : ∀ result, (produceSummary estimateTokens deps event).result = .compaction result →
    ∀ cap, deps.summaryMaxTokens = some cap → estimateTokens result.summary ≤ cap
  decides : deps.fallbackSummarizer = none → messages event ≠ [] →
    (produceSummary estimateTokens deps event).result ≠ .undefined

/-- The discipline holds just in case the offered summary is within the cap together with the tags of
the files, which are added after the cap was checked. -/
theorem summary_disciplined_iff :
    Disciplined estimateTokens deps event ↔
      messages event = [] ∨ ∀ summary, offeredSummary estimateTokens deps event = some summary →
        ∀ cap, deps.summaryMaxTokens = some cap →
          estimateTokens (summary ++ fileTags event) ≤ cap := by
  constructor
  · intro disciplined
    by_cases asked : messages event = []
    · exact .inl asked
    · refine .inr fun summary offered cap capped => ?_
      obtain ⟨result, committed, text⟩ :=
        (produceSummary_commits estimateTokens deps event asked _).mpr ⟨summary, offered, rfl⟩
      rw [← text]
      exact disciplined.capped result committed cap capped
  · intro holds
    obtain ⟨calls, fallbackCalls⟩ := produceSummary_calls_le estimateTokens deps event
    refine ⟨calls, fallbackCalls, fun result committed cap capped => ?_,
      produceSummary_decides estimateTokens deps event⟩
    rcases holds with none | small
    · simp only [produceSummary, none, List.isEmpty_nil, if_true] at committed
      split_ifs at committed
    · by_cases asked : messages event = []
      · simp only [produceSummary, asked, List.isEmpty_nil, if_true] at committed
        split_ifs at committed
      · obtain ⟨summary, offered, text⟩ :=
          (produceSummary_commits estimateTokens deps event asked _).mp ⟨result, committed, rfl⟩
        rw [← text]
        exact small summary offered cap capped

end Discipline

/-- Four characters are a token, as the estimate of a user message has it. -/
def quarterTokens (text : String) : Nat := (text.toList.length + 3) / 4

/-- A cap of one token. -/
def narrowDeps : DurableCompactionDeps Unit :=
  { summarizer := fun _ _ _ => .ok "abcd"
    maxTokens := 100
    reserveTokens := 10
    summarizerScope := none
    fallbackSummarizer := none
    fallbackScope := none
    summaryMaxTokens := some 1
    summarizerRetryLimit := some 1 }

/-- One message is summarized, and one file was read. -/
def readingEvent : CompactionEvent Unit :=
  ⟨.threshold, [()], [], none, 100, [], ⟨["f"], [], [], by decide⟩⟩

/-- The summary is within the cap, but not with the name of the file. -/
theorem summary_disciplined_refuted : ¬ Disciplined quarterTokens narrowDeps readingEvent := by
  intro disciplined
  have text : (commit readingEvent "abcd" none).summary =
      "abcd\n\n<read-files>\nf\n</read-files>" := by decide
  have within := disciplined.capped (commit readingEvent "abcd" none) (by rfl) 1 rfl
  rw [text] at within
  exact absurd within (by decide)

end AdCoder.Context
