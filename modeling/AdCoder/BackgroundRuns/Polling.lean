import AdCoder.BackgroundRuns.Paging
import AdCoder.Foundation.JsonSizes
import Mathlib.Logic.Function.Iterate

/-!
# Polling with a cursor

A reader that follows `nextCursor` gets on as long as the next event fits a page.
The smallest page that the constructor accepts is measured on one event of plain
text, and other events that the record reader accepts are longer.
-/

namespace AdCoder.BackgroundRuns

open Foundation Orchestration ProjectOperations

variable {showNumber : JsNumber → String} (limits : BackgroundPageLimits showNumber) (e : Entry)

/-- The cursor after one poll. -/
def advance (limit cursor : Nat) : Nat := (eventsOf limits e cursor limit).nextCursor

/-- Polling from any cursor yields events until it stands at the newest one. -/
structure PollingAdvances : Prop where
  nonempty : ∀ cursor limit, 1 ≤ limit → (∃ event ∈ e.events, cursor < event.sequence) →
    (eventsOf limits e cursor limit).events ≠ []
  reaches : ∀ cursor limit, 1 ≤ limit → ∀ newest, e.events.getLast? = some newest →
    cursor < newest.sequence → ∃ pages, (advance limits e limit)^[pages] cursor = newest.sequence

/-- The text of the event and its frame fit in a page of their own. -/
def FitsPage (event : BackgroundRunEvent) : Prop :=
  eventBytes showNumber event + 3 ≤ limits.maxPageBytes

variable {limits e} {cursor limit : Nat}

/-- Before an event stand the events up to it. -/
theorem newer_before (increasing : Increasing e.events) {event : BackgroundRunEvent}
    (mem : event ∈ e.events) (pos : 1 ≤ event.sequence) :
    ∃ rest, newer (event.sequence - 1) e.events = event :: rest := by
  obtain ⟨front, rest, split⟩ := List.append_of_mem mem
  refine ⟨rest, ?_⟩
  rw [Increasing, split, List.pairwise_append, List.pairwise_cons] at increasing
  obtain ⟨-, ⟨after, -⟩, before⟩ := increasing
  rw [split]
  refine newer_append (fun other h => ?_) (fun other h => ?_)
  · have := before other h event List.mem_cons_self
    omega
  · rcases List.mem_cons.mp h with rfl | later
    · omega
    · have := after other later
      omega

/-- A page of events moves the cursor forward, up to the newest event. -/
theorem advance_of_ne_nil (increasing : Increasing e.events)
    (found : (eventsOf limits e cursor limit).events ≠ []) {newest : BackgroundRunEvent}
    (hnewest : e.events.getLast? = some newest) :
    advance limits e limit cursor ≤ newest.sequence ∧
      (newer (advance limits e limit cursor) e.events).length < (newer cursor e.events).length := by
  obtain ⟨front, last, heq⟩ := (List.eq_nil_or_concat' _).resolve_left found
  have whole : (eventsOf limits e cursor limit).events <+: newer cursor e.events :=
    eventsOf_front limits increasing
  have mem : last ∈ e.events := (mem_newer.mp (whole.subset (by simp [heq]))).1
  obtain ⟨start, split⟩ := List.getLast?_eq_some_iff.mp hnewest
  constructor
  · rw [advance, nextCursor_of_last limits heq]
    rw [Increasing, split, List.pairwise_append] at increasing
    rw [split] at mem
    rcases List.mem_append.mp mem with earlier | here
    · exact Nat.le_of_lt (increasing.2.2 last earlier newest (by simp))
    · obtain rfl := List.mem_singleton.mp here
      exact Nat.le_refl _
  · have length := whole.length_le
    rw [advance, (eventsOf_next limits increasing).2, List.length_drop]
    rw [heq, List.length_append, List.length_singleton] at length ⊢
    omega

theorem newer_eq_nil_iff :
    newer cursor e.events = [] ↔ ¬ ∃ event ∈ e.events, cursor < event.sequence := by
  rw [newer, List.filter_eq_nil_iff]
  simp

/-! ## The size of an event -/

section Sizes

variable (showNumber : JsNumber → String)

def numberBytes (n : Nat) : Nat := byteLength (showNumber (.finite n))

def quotedBytes (text : String) : Nat := byteLength (Json.quote text)

theorem metricsBytes_eq (metrics : RunMetrics) (finite : metrics.totalCost.isFinite = true) :
    byteLength (metrics.toJson.stringify showNumber) =
      23 + numberBytes showNumber metrics.steps + byteLength (showNumber metrics.totalCost) := by
  have steps : byteLength (Json.quote "steps") = 7 := rfl
  have cost : byteLength (Json.quote "totalCost") = 11 := rfl
  have number : (Json.ofNumber metrics.totalCost).stringify showNumber =
      showNumber metrics.totalCost := by
    simp [Json.ofNumber, finite, Json.stringify]
  rw [RunMetrics.toJson, Json.byteLength_object]
  simp only [List.map_cons, List.map_nil, List.sum_cons, List.sum_nil, Json.propertyBytes_some,
    Json.byteLength_ofNat, steps, cost, number, numberBytes]
  omega

theorem causeBytes_eq (cause : PipelinePauseCause) :
    byteLength ((causeJson cause).stringify showNumber) =
      23 + quotedBytes cause.code + cause.message.elim 0 (fun message => 11 + quotedBytes message) +
        numberBytes showNumber cause.recurrence := by
  have code : byteLength (Json.quote "code") = 6 := rfl
  have message : byteLength (Json.quote "message") = 9 := rfl
  have recurrence : byteLength (Json.quote "recurrence") = 12 := rfl
  rw [causeJson, Json.byteLength_object]
  simp only [List.map_cons, List.map_nil, List.sum_cons, List.sum_nil, Json.propertyBytes_some,
    Json.propertyBytes_map, Json.byteLength_ofNat, Json.byteLength_str, code, message, recurrence,
    numberBytes, quotedBytes]
  cases cause.message <;> simp only [Option.elim_none, Option.elim_some] <;> omega

theorem pauseBytes_eq (pause : Pause) :
    byteLength ((pauseJson pause).stringify showNumber) =
      28 + quotedBytes pause.phase.text + quotedBytes pause.code + quotedBytes pause.action +
        pause.limitReason.elim 0 (fun reason => 15 + quotedBytes reason.text) +
        pause.limit.elim 0 (fun limit => 9 + byteLength (showNumber (.finite limit))) +
        pause.cause.elim 0 fun cause =>
          9 + byteLength ((causeJson cause).stringify showNumber) := by
  have phase : byteLength (Json.quote "phase") = 7 := rfl
  have code : byteLength (Json.quote "code") = 6 := rfl
  have action : byteLength (Json.quote "action") = 8 := rfl
  have limitReason : byteLength (Json.quote "limitReason") = 13 := rfl
  have limit : byteLength (Json.quote "limit") = 7 := rfl
  have cause : byteLength (Json.quote "cause") = 7 := rfl
  have number (q : Rat) : byteLength ((Json.num (.finite q)).stringify showNumber) =
      byteLength (showNumber (.finite q)) := by simp [Json.stringify, JsNumber.isFinite]
  rw [pauseJson, Json.byteLength_object]
  simp only [List.map_cons, List.map_nil, List.sum_cons, List.sum_nil, Json.propertyBytes_some,
    Json.propertyBytes_map, Json.byteLength_str, phase, code, action, limitReason, limit, cause,
    number, quotedBytes]
  cases pause.limitReason <;> cases pause.limit <;> cases pause.cause <;>
    simp only [Option.elim_none, Option.elim_some] <;> omega

theorem eventBytes_eq (event : BackgroundRunEvent) :
    eventBytes showNumber event =
      48 + numberBytes showNumber event.sequence + quotedBytes event.runId +
        quotedBytes event.lifecycle.text + numberBytes showNumber event.timestamp +
        event.stage.elim 0 (fun stage => 9 + quotedBytes stage.text) +
        event.pause.elim 0 (fun pause => 9 + byteLength ((pauseJson pause).stringify showNumber)) +
        event.errorCode.elim 0 (fun code => 13 + quotedBytes code.text) +
        event.metrics.elim 0 fun metrics =>
          11 + byteLength (metrics.toJson.stringify showNumber) := by
  have sequence : byteLength (Json.quote "sequence") = 10 := rfl
  have runId : byteLength (Json.quote "runId") = 7 := rfl
  have lifecycle : byteLength (Json.quote "lifecycle") = 11 := rfl
  have timestamp : byteLength (Json.quote "timestamp") = 11 := rfl
  have stage : byteLength (Json.quote "stage") = 7 := rfl
  have pause : byteLength (Json.quote "pause") = 7 := rfl
  have errorCode : byteLength (Json.quote "errorCode") = 11 := rfl
  have metrics : byteLength (Json.quote "metrics") = 9 := rfl
  rw [eventBytes, BackgroundRunEvent.toJson, Json.byteLength_object]
  simp only [List.map_cons, List.map_nil, List.sum_cons, List.sum_nil, Json.propertyBytes_some,
    Json.propertyBytes_map, Json.byteLength_ofNat, Json.byteLength_str, sequence, runId, lifecycle,
    timestamp, stage, pause, errorCode, metrics, numberBytes, quotedBytes]
  cases event.stage <;> cases event.pause <;> cases event.errorCode <;> cases event.metrics <;>
    simp only [Option.elim_none, Option.elim_some] <;> omega

/-- The message of a cause is part of its event. -/
theorem message_le_eventBytes (event : BackgroundRunEvent) {pause : Pause}
    {cause : PipelinePauseCause} {message : String} (hpause : event.pause = some pause)
    (hcause : pause.cause = some cause) (hmessage : cause.message = some message) :
    quotedBytes message ≤ eventBytes showNumber event := by
  simp only [eventBytes_eq, hpause, Option.elim_some, pauseBytes_eq, hcause, causeBytes_eq,
    hmessage]
  omega

theorem quotedBytes_repeated (x : Char) (count : Nat) :
    quotedBytes (repeated x count) = count * Json.escapedBytes x + 2 :=
  Json.byteLength_quote_replicate x count

/-- `MIN_BACKGROUND_EVENT_PAGE_BYTES` is 1504. -/
theorem minBytes_eq : minBackgroundEventPageBytes showNumber =
    1394 + 4 * numberBytes showNumber JsNumber.maxSafe + 2 * numberBytes showNumber maxValue := by
  have stageChanged : quotedBytes (BackgroundLifecycle.text .stageChanged) = 15 := rfl
  have security : quotedBytes (WorkflowPhase.text .security) = 10 := rfl
  have rejected : quotedBytes "provider_rejected" = 19 := rfl
  have unknown : quotedBytes (StageLimitReason.text .costUnknown) = 14 := rfl
  have exceeded : quotedBytes (RunErrorCode.text .deadlineExceeded) = 19 := rfl
  have letter : Json.escapedBytes 'a' = 1 ∧ Json.escapedBytes 'x' = 1 := ⟨rfl, rfl⟩
  have limit : byteLength (showNumber (.finite ((maxValue : Nat) : Rat))) =
    numberBytes showNumber maxValue := rfl
  have metrics := metricsBytes_eq showNumber ⟨JsNumber.maxSafe, .finite maxValue⟩ rfl
  rw [minBackgroundEventPageBytes, eventBytes_eq]
  -- The kernel is not to compute the texts when it checks a step.
  simp -implicitDefEqProofs only [maxBackgroundEventPageEvent, maxPause, Option.elim_some,
    pauseBytes_eq, causeBytes_eq, metrics, quotedBytes_repeated, stageChanged, security, rejected,
    unknown, exceeded, letter, limit, maxPersistedStringChars, maxPauseCauseCodeChars,
    maxPauseCauseMessageChars]
  generalize numberBytes showNumber maxValue = largest
  generalize numberBytes showNumber JsNumber.maxSafe = safe
  omega

end Sizes

/-! ## An event that fits no page -/

/-- `Number.prototype.toString`, for safe integers and the largest number. -/
def printNumber : JsNumber → String
  | .finite q => if q = maxValue then "1.7976931348623157e+308" else toString q.num
  | _ => "null"

theorem minBytes_printNumber : minBackgroundEventPageBytes printNumber = 1504 := by
  have largest : numberBytes printNumber maxValue = 23 := by
    simp only [numberBytes, printNumber, if_true]
    rfl
  have safe : numberBytes printNumber JsNumber.maxSafe = 16 := rfl
  rw [minBytes_eq, largest, safe]

/-- The smallest pages that the constructor accepts. -/
def smallestPages : BackgroundPageLimits printNumber where
  maxPageSize := 32
  maxPageBytes := 1504
  subscriberQueueCapacity := 16
  size_pos := by decide
  size_safe := by decide
  bytes_min := Nat.le_of_eq minBytes_printNumber
  bytes_safe := by decide
  capacity_pos := by decide
  capacity_max := by decide

/-- A pause whose cause has a message of 512 characters of three bytes. -/
def widePause : Pause where
  phase := .plan
  code := "stage_failed"
  action := "resume"
  limitReason := none
  limit := none
  cause := some ⟨"provider_error", some (repeated '漢' maxPauseCauseMessageChars), 1⟩

def pollingConfig : BackgroundRunConfig where
  ownerId := "owner"
  runId := "run"
  maxEventsPerRun := 0
  maxRunMs := 0
  leaseMs := 15000
  maxWakeEntriesPerRun := 12
  wakeKinds := none
  addCost := fun cost _ => cost

/-- A run that paused. -/
def pausedEntry : Entry :=
  (createdEntry true).append pollingConfig 1 .paused { pause := some widePause }

def pausedEvent : BackgroundRunEvent where
  sequence := 1
  runId := "run"
  lifecycle := .paused
  timestamp := 1
  stage := none
  pause := some widePause
  errorCode := none
  metrics := none

theorem pausedEntry_events : pausedEntry.events = [pausedEvent] := rfl

theorem fits_widePause : PauseFits widePause := by
  refine ⟨fitsString_literal rfl, fitsString_literal rfl, by simp [widePause], fun cause held => ?_⟩
  have message : length (repeated '漢' maxPauseCauseMessageChars) ≤ maxPauseCauseMessageChars := by
    have one : unitsOf '漢' = 1 := rfl
    simp [repeated, length_ofList, one]
  obtain rfl := Option.some.inj held
  exact ⟨by decide, fun text held => Option.some.inj held ▸ message, by decide⟩

theorem pausedEntry_accepted (event : BackgroundRunEvent) (mem : event ∈ pausedEntry.events) :
    parseEvent "run" event.toJson = .ok event := by
  rw [pausedEntry_events] at mem
  obtain rfl := List.mem_singleton.mp mem
  refine (BackgroundRunEvent.yields "run" pausedEvent pausedEvent).mpr
    ⟨⟨rfl, fun stage held => ?_, by decide, by decide, fun pause held => ?_,
      fun metrics held => ?_⟩, rfl⟩
  · cases held
  · obtain rfl : widePause = pause := Option.some.inj held
    exact fits_widePause
  · cases held

theorem not_fitsPage_pausedEvent : ¬ FitsPage smallestPages pausedEvent := by
  intro fits
  have wide : quotedBytes (repeated '漢' maxPauseCauseMessageChars) = 512 * 3 + 2 :=
    quotedBytes_repeated '漢' maxPauseCauseMessageChars
  have within := message_le_eventBytes printNumber pausedEvent rfl rfl rfl
  have room : eventBytes printNumber pausedEvent + 3 ≤ 1504 := fits
  rw [wide] at within
  omega

theorem pausedEntry_ordered : ordered pausedEntry.nextSequence pausedEntry.events = true := rfl

/-- Cursor polling advances just in case every event fits a page. -/
theorem polling_advances_iff (runId : String)
    (accepted : ∀ event ∈ e.events, parseEvent runId event.toJson = .ok event)
    (inOrder : ordered e.nextSequence e.events = true) :
    PollingAdvances limits e ↔ ∀ event ∈ e.events, FitsPage limits event := by
  have increasing := increasing_of_ordered inOrder
  constructor
  · intro advances event mem
    have pos : 1 ≤ event.sequence :=
      ((BackgroundRunEvent.yields runId event event).mp (accepted event mem)).1.2.2.1.1
    obtain ⟨rest, hnewer⟩ := newer_before increasing mem pos
    have found := advances.nonempty (event.sequence - 1) 1 (Nat.le_refl 1) ⟨event, mem, by omega⟩
    exact (eventsOf_ne_nil_iff limits increasing (Nat.le_refl 1) hnewer).mp found
  · intro fits
    have nonempty (cursor limit : Nat) (one : 1 ≤ limit)
        (later : ∃ event ∈ e.events, cursor < event.sequence) :
        (eventsOf limits e cursor limit).events ≠ [] := by
      rcases hnewer : newer cursor e.events with _ | ⟨first, rest⟩
      · exact absurd later (newer_eq_nil_iff.mp hnewer)
      · have mem : first ∈ newer cursor e.events := by simp [hnewer]
        exact (eventsOf_ne_nil_iff limits increasing one hnewer).mpr
          (fits first (mem_newer.mp mem).1)
    refine ⟨nonempty, fun cursor limit one newest hnewest behind => ?_⟩
    -- Every page leaves fewer newer events.
    induction hlen : (newer cursor e.events).length using Nat.strongRecOn
      generalizing cursor with
    | _ n ih =>
        obtain ⟨start, split⟩ := List.getLast?_eq_some_iff.mp hnewest
        have later : ∃ event ∈ e.events, cursor < event.sequence :=
          ⟨newest, by simp [split], behind⟩
        obtain ⟨within, fewer⟩ :=
          advance_of_ne_nil increasing (nonempty cursor limit one later) hnewest
        rcases Nat.lt_or_eq_of_le within with before | there
        · obtain ⟨pages, reached⟩ := ih _ (hlen ▸ fewer) _ before rfl
          exact ⟨pages + 1, reached⟩
        · exact ⟨1, there⟩

theorem polling_advances_iff_pausedEntry : PollingAdvances smallestPages pausedEntry ↔
    ∀ event ∈ pausedEntry.events, FitsPage smallestPages event :=
  polling_advances_iff "run" pausedEntry_accepted pausedEntry_ordered

theorem increasing_pausedEntry : Increasing pausedEntry.events := by
  rw [pausedEntry_events]
  exact List.pairwise_singleton _ _

theorem newer_pausedEntry : newer 0 pausedEntry.events = [pausedEvent] := by
  simp [pausedEntry_events, newer, pausedEvent]

/-- An event that the reader accepts stops every poll before it. -/
theorem polling_advances_refuted :
    (∀ event ∈ pausedEntry.events, parseEvent "run" event.toJson = .ok event) ∧
      ordered pausedEntry.nextSequence pausedEntry.events = true ∧
      ¬ PollingAdvances smallestPages pausedEntry := by
  refine ⟨pausedEntry_accepted, pausedEntry_ordered, fun advances => ?_⟩
  have found := advances.nonempty 0 1 (Nat.le_refl 1)
    ⟨pausedEvent, by rw [pausedEntry_events]; exact List.mem_singleton_self _, by decide⟩
  exact not_fitsPage_pausedEvent ((eventsOf_ne_nil_iff smallestPages increasing_pausedEntry
    (Nat.le_refl 1) newer_pausedEntry).mp found)

end AdCoder.BackgroundRuns
