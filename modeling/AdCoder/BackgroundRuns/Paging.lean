import AdCoder.BackgroundRuns.Manager

/-!
# Pages of background events

A reader polls a run with a cursor, and a page holds the first events after it
that its count and its bytes allow. Retention drops events from the front, so a
page also says whether it skips any.
-/

namespace AdCoder.BackgroundRuns

open Foundation Orchestration ProjectOperations

/-! ## Limits -/

/-- `Number.MAX_VALUE`. -/
def maxValue : Nat := (2 ^ 53 - 1) * (2 ^ 256 * 2 ^ 256 * 2 ^ 256 * 2 ^ 203)

def repeated (x : Char) (count : Nat) : String := String.ofList (List.replicate count x)

/-- The pause of `MAX_BACKGROUND_EVENT_PAGE_EVENT`. -/
def maxPause : Pause where
  phase := .security
  code := "provider_rejected"
  action := repeated 'a' maxPersistedStringChars
  limitReason := some .costUnknown
  limit := some maxValue
  cause := some {
    code := repeated 'x' maxPauseCauseCodeChars
    message := some (repeated 'a' maxPauseCauseMessageChars)
    recurrence := JsNumber.maxSafe }

/-- `MAX_BACKGROUND_EVENT_PAGE_EVENT`. -/
def maxBackgroundEventPageEvent : BackgroundRunEvent where
  sequence := JsNumber.maxSafe
  runId := repeated 'x' maxPersistedStringChars
  lifecycle := .stageChanged
  timestamp := JsNumber.maxSafe
  stage := some .security
  pause := some maxPause
  errorCode := some .deadlineExceeded
  metrics := some ⟨JsNumber.maxSafe, .finite maxValue⟩

section Sizes

variable (showNumber : JsNumber → String)

/-- The bytes of an event in a page, without the separator. -/
def eventBytes (event : BackgroundRunEvent) : Nat :=
  byteLength (event.toJson.stringify showNumber)

/-- `MIN_BACKGROUND_EVENT_PAGE_BYTES`. -/
def minBackgroundEventPageBytes : Nat := eventBytes showNumber maxBackgroundEventPageEvent + 3

/-- `MAX_BACKGROUND_SUBSCRIBER_QUEUE_CAPACITY`. -/
def maxSubscriberQueueCapacity : Nat := 1024

/-- Limits of pages and queues that the constructor accepts. -/
structure BackgroundPageLimits where
  maxPageSize : Nat
  maxPageBytes : Nat
  subscriberQueueCapacity : Nat
  size_pos : 0 < maxPageSize
  size_safe : maxPageSize ≤ JsNumber.maxSafe
  bytes_min : minBackgroundEventPageBytes showNumber ≤ maxPageBytes
  bytes_safe : maxPageBytes ≤ JsNumber.maxSafe
  capacity_pos : 0 < subscriberQueueCapacity
  capacity_max : subscriberQueueCapacity ≤ maxSubscriberQueueCapacity

end Sizes

/-! ## Pages -/

structure BackgroundEventPage where
  events : List BackgroundRunEvent
  nextCursor : Nat
  gap : Bool
  deriving DecidableEq

variable {showNumber : JsNumber → String} (limits : BackgroundPageLimits showNumber)

/-- The loop of `eventsOf`: the events of the page so far and their bytes. -/
def pageLoop (countCap effective : Nat) :
    List BackgroundRunEvent → Nat → List BackgroundRunEvent → List BackgroundRunEvent
  | events, _, [] => events
  | events, bytes, event :: rest =>
      if event.sequence ≤ effective ∨ events.length ≥ countCap then
        pageLoop countCap effective events bytes rest
      else
        let size := eventBytes showNumber event + 1
        if bytes + size > limits.maxPageBytes then events
        else pageLoop countCap effective (events ++ [event]) (bytes + size) rest

def oldestSequence (e : Entry) : Nat := (e.events.head?.map (·.sequence)).getD e.nextSequence

def eventsOf (e : Entry) (cursor limit : Nat) : BackgroundEventPage :=
  let countCap := min limit limits.maxPageSize
  let oldest := oldestSequence e
  let gap := cursor + 1 < oldest
  let effective := if gap then oldest - 1 else cursor
  let events := pageLoop limits countCap effective [] 2 e.events
  { events := events
    nextCursor := (events.getLast?.map (·.sequence)).getD effective
    gap := gap }

/-- `events`, for a cursor and a limit that are safe integers: no limit is the largest one. -/
def eventsPage (e : Entry) (cursor limit : Nat) : BackgroundEventPage :=
  eventsOf limits e cursor (if limit = 0 then limits.maxPageSize else limit)

/-! ## What a page holds -/

/-- The longest front that fits after the bytes so far. -/
def fitting (maxPageBytes : Nat) (size : BackgroundRunEvent → Nat) :
    Nat → List BackgroundRunEvent → List BackgroundRunEvent
  | _, [] => []
  | bytes, event :: rest =>
      if bytes + size event > maxPageBytes then []
      else event :: fitting maxPageBytes size (bytes + size event) rest

/-- The events after a cursor. -/
def newer (cursor : Nat) (events : List BackgroundRunEvent) : List BackgroundRunEvent :=
  events.filter fun event => cursor < event.sequence

theorem mem_newer {cursor : Nat} {events : List BackgroundRunEvent} {event : BackgroundRunEvent} :
    event ∈ newer cursor events ↔ event ∈ events ∧ cursor < event.sequence := by
  simp [newer]

theorem pageLoop_eq (countCap effective bytes : Nat) (events rest : List BackgroundRunEvent) :
    pageLoop limits countCap effective events bytes rest =
      events ++ fitting limits.maxPageBytes (fun event => eventBytes showNumber event + 1) bytes
        ((newer effective rest).take (countCap - events.length)) := by
  induction rest generalizing events bytes with
  | nil => simp [pageLoop, newer, fitting]
  | cons event rest ih =>
      rw [pageLoop]
      by_cases old : event.sequence ≤ effective
      · rw [if_pos (.inl old), ih]
        simp [newer, Nat.not_lt.mpr old]
      · have here : newer effective (event :: rest) = event :: newer effective rest := by
          simp [newer, Nat.lt_of_not_le old]
        by_cases full : events.length ≥ countCap
        · rw [if_pos (.inr full), ih, Nat.sub_eq_zero_of_le full]
          simp [fitting]
        · rw [if_neg (by simp [old, full]), here]
          obtain ⟨left, hleft⟩ : ∃ left, countCap - events.length = left + 1 :=
            ⟨countCap - events.length - 1, by omega⟩
          have next : countCap - (events ++ [event]).length = left := by
            rw [List.length_append, List.length_singleton]
            omega
          rw [hleft, List.take_succ_cons, fitting]
          by_cases large : bytes + (eventBytes showNumber event + 1) > limits.maxPageBytes
          · simp only [if_pos large, List.append_nil]
          · simp only [if_neg large, ih, next, List.append_assoc, List.singleton_append]

theorem fitting_front (maxPageBytes : Nat) (size : BackgroundRunEvent → Nat) (bytes : Nat)
    (events : List BackgroundRunEvent) : fitting maxPageBytes size bytes events <+: events := by
  induction events generalizing bytes with
  | nil => exact List.prefix_refl _
  | cons event rest ih =>
      rw [fitting]
      split
      · exact List.nil_prefix
      · exact (List.prefix_cons_inj event).mpr (ih _)

theorem fitting_cons_iff {maxPageBytes bytes : Nat} {size : BackgroundRunEvent → Nat}
    {event : BackgroundRunEvent} {rest : List BackgroundRunEvent} :
    fitting maxPageBytes size bytes (event :: rest) ≠ [] ↔ bytes + size event ≤ maxPageBytes := by
  rw [fitting]
  split
  · rename_i large
    simpa using large
  · rename_i small
    simpa using small

theorem le_of_mem_fitting {maxPageBytes bytes : Nat} {size : BackgroundRunEvent → Nat}
    {events : List BackgroundRunEvent} {event : BackgroundRunEvent}
    (mem : event ∈ fitting maxPageBytes size bytes events) : bytes + size event ≤ maxPageBytes := by
  induction events generalizing bytes with
  | nil => cases mem
  | cons first rest ih =>
      rw [fitting] at mem
      split at mem
      · cases mem
      · rename_i small
        rcases List.mem_cons.mp mem with rfl | later
        · omega
        · have := ih later
          omega

/-! ## Histories in order -/

/-- Every event comes after the ones before it. -/
def Increasing (events : List BackgroundRunEvent) : Prop :=
  events.Pairwise (·.sequence < ·.sequence)

/-- The check of the record reader. -/
theorem increasing_of_ordered {nextSequence : Nat} {events : List BackgroundRunEvent}
    (h : ordered nextSequence events = true) : Increasing events := by
  rw [Increasing, ← List.isChain_iff_pairwise]
  induction events with
  | nil => exact .nil
  | cons event rest ih =>
      cases rest with
      | nil => exact .singleton event
      | cons next rest =>
          simp only [ordered, Bool.and_eq_true, decide_eq_true_eq] at h
          exact .cons_cons h.1.2 (ih h.2)

section Increasing

variable {events front : List BackgroundRunEvent} {cursor : Nat}

theorem newer_append {low high : List BackgroundRunEvent}
    (hlow : ∀ event ∈ low, event.sequence ≤ cursor)
    (hhigh : ∀ event ∈ high, cursor < event.sequence) : newer cursor (low ++ high) = high := by
  rw [newer, List.filter_append]
  have none : low.filter (fun event => cursor < event.sequence) = [] := by
    refine List.filter_eq_nil_iff.mpr fun event mem => ?_
    simpa using hlow event mem
  have all : high.filter (fun event => cursor < event.sequence) = high := by
    refine List.filter_eq_self.mpr fun event mem => ?_
    simpa using hhigh event mem
  rw [none, all, List.nil_append]

/-- The newer events are the end of the history. -/
theorem exists_older (increasing : Increasing events) (cursor : Nat) :
    ∃ older, events = older ++ newer cursor events ∧ ∀ event ∈ older, event.sequence ≤ cursor := by
  induction events with
  | nil => exact ⟨[], rfl, by simp⟩
  | cons event rest ih =>
      obtain ⟨before, later⟩ := List.pairwise_cons.mp increasing
      by_cases old : event.sequence ≤ cursor
      · obtain ⟨older, split, hold⟩ := ih later
        have here : newer cursor (event :: rest) = newer cursor rest := by
          simp [newer, Nat.not_lt.mpr old]
        refine ⟨event :: older, by rw [here, List.cons_append, ← split], ?_⟩
        simpa [old] using hold
      · refine ⟨[], ?_, by simp⟩
        have all : newer cursor ([] ++ (event :: rest)) = event :: rest := by
          refine newer_append (by simp) fun next mem => ?_
          rcases List.mem_cons.mp mem with rfl | mem
          · exact Nat.lt_of_not_le old
          · exact Nat.lt_trans (Nat.lt_of_not_le old) (before next mem)
        simpa using all.symm

/-- After the last event of a front, the rest is newer. -/
theorem newer_last (increasing : Increasing events) {rest : List BackgroundRunEvent}
    {last : BackgroundRunEvent} (split : newer cursor events = front ++ last :: rest) :
    cursor < last.sequence ∧ newer last.sequence events = rest := by
  have mem : last ∈ newer cursor events := by simp [split]
  refine ⟨(mem_newer.mp mem).2, ?_⟩
  obtain ⟨older, whole, -⟩ := exists_older increasing cursor
  have heq : events = (older ++ front ++ [last]) ++ rest := by
    rw [whole, split]
    simp
  have sorted := increasing
  rw [Increasing, heq, List.pairwise_append, List.pairwise_append] at sorted
  obtain ⟨⟨-, -, before⟩, -, after⟩ := sorted
  rw [heq]
  refine newer_append (fun event mem => ?_) (fun event mem => after last (by simp) event mem)
  rcases List.mem_append.mp mem with earlier | here
  · exact Nat.le_of_lt (before event earlier last (by simp))
  · obtain rfl := List.mem_singleton.mp here
    exact Nat.le_refl _

end Increasing

/-! ## Polling -/

section Polling

variable {e : Entry} {cursor limit : Nat} (increasing : Increasing e.events)
include increasing

/-- The events after the cursor, whether retention has passed it or not. -/
theorem newer_effective :
    newer (if cursor + 1 < oldestSequence e then oldestSequence e - 1 else cursor) e.events =
      newer cursor e.events := by
  split
  · rename_i gap
    refine List.filter_congr fun event mem => ?_
    have oldest : oldestSequence e ≤ event.sequence := by
      rcases hevents : e.events with _ | ⟨first, rest⟩
      · simp [hevents] at mem
      · rw [hevents] at mem increasing
        simp only [oldestSequence, hevents, List.head?_cons, Option.map_some, Option.getD_some]
        rcases List.mem_cons.mp mem with rfl | later
        · exact Nat.le_refl _
        · exact Nat.le_of_lt ((List.pairwise_cons.mp increasing).1 event later)
    rw [decide_eq_decide]
    omega
  · rfl

theorem eventsOf_events : (eventsOf limits e cursor limit).events =
    fitting limits.maxPageBytes (fun event => eventBytes showNumber event + 1) 2
      ((newer cursor e.events).take (min limit limits.maxPageSize)) := by
  rw [eventsOf, pageLoop_eq, newer_effective increasing, List.nil_append, List.length_nil,
    Nat.sub_zero]

/-- A page is the front of the newer events. -/
theorem eventsOf_front : (eventsOf limits e cursor limit).events <+: newer cursor e.events := by
  rw [eventsOf_events limits increasing]
  exact (fitting_front _ _ _ _).trans (List.take_prefix _ _)

/-- A page is empty only before an event that fits no page. -/
theorem eventsOf_ne_nil_iff (one : 1 ≤ limit) {first : BackgroundRunEvent}
    {rest : List BackgroundRunEvent} (hnewer : newer cursor e.events = first :: rest) :
    (eventsOf limits e cursor limit).events ≠ [] ↔
      eventBytes showNumber first + 3 ≤ limits.maxPageBytes := by
  have cap : ∃ cap, min limit limits.maxPageSize = cap + 1 :=
    ⟨min limit limits.maxPageSize - 1, by have := limits.size_pos; omega⟩
  obtain ⟨cap, hcap⟩ := cap
  rw [eventsOf_events limits increasing, hnewer, hcap, List.take_succ_cons, fitting_cons_iff]
  omega

omit increasing in
/-- An empty page leaves the cursor where the gap ends, if there is one. -/
theorem nextCursor_of_nil (empty : (eventsOf limits e cursor limit).events = []) :
    (eventsOf limits e cursor limit).nextCursor =
      if cursor + 1 < oldestSequence e then oldestSequence e - 1 else cursor := by
  have := congrArg List.getLast? empty
  simp only [eventsOf] at this ⊢
  simp [this]

omit increasing in
/-- The next cursor is the last event of the page. -/
theorem nextCursor_of_last {front : List BackgroundRunEvent} {last : BackgroundRunEvent}
    (heq : (eventsOf limits e cursor limit).events = front ++ [last]) :
    (eventsOf limits e cursor limit).nextCursor = last.sequence := by
  have := congrArg List.getLast? heq
  simp only [eventsOf] at this ⊢
  simp [this]

/-- The next cursor stands at the end of the page, or where the gap ends. -/
theorem eventsOf_next : cursor ≤ (eventsOf limits e cursor limit).nextCursor ∧
    newer (eventsOf limits e cursor limit).nextCursor e.events =
      (newer cursor e.events).drop (eventsOf limits e cursor limit).events.length := by
  have whole : (eventsOf limits e cursor limit).events <+: newer cursor e.events :=
    eventsOf_front limits increasing
  obtain ⟨rest, split⟩ := whole
  rcases List.eq_nil_or_concat' (eventsOf limits e cursor limit).events with
    empty | ⟨front, last, heq⟩
  · rw [nextCursor_of_nil limits empty, newer_effective increasing, empty]
    refine ⟨?_, rfl⟩
    split <;> omega
  · have next := nextCursor_of_last limits heq
    have whole : newer cursor e.events = front ++ last :: rest := by
      rw [← split, heq]
      simp
    obtain ⟨beyond, later⟩ := newer_last increasing whole
    rw [next, later, heq, whole]
    exact ⟨Nat.le_of_lt beyond, by simp⟩

end Polling

end AdCoder.BackgroundRuns
