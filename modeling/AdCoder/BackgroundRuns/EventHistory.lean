import AdCoder.BackgroundRuns.Polling
import Mathlib.Data.List.Nodup

/-!
# Event histories and the pages of a reader

A run numbers its events in the order in which they are appended, and retention
keeps the newest. A reader that follows the cursor gets what is retained, and a
gap stands for events that it can no longer get.
-/

namespace AdCoder.BackgroundRuns

open Foundation Orchestration ProjectOperations

/-! ## Histories -/

/-- What `append` is called with. -/
structure Appended where
  now : Nat
  lifecycle : BackgroundLifecycle
  fields : EventFields

def Entry.appendAll (config : BackgroundRunConfig) (e : Entry) (appended : List Appended) : Entry :=
  appended.foldl (fun e a => e.append config a.now a.lifecycle a.fields) e

/-- The event that is appended under the next number. -/
def Entry.nextEvent (config : BackgroundRunConfig) (e : Entry) (a : Appended) :
    BackgroundRunEvent :=
  ⟨e.nextSequence, config.runId, a.lifecycle, a.now, a.fields.stage, a.fields.pause,
    a.fields.errorCode, a.fields.metrics⟩

/-- Every event that a run has appended so far. -/
def history (config : BackgroundRunConfig) (appended : List Appended) : List BackgroundRunEvent :=
  ((createdEntry true).appendAll { config with maxEventsPerRun := 0 } appended).events

/-- The run with the events that are retained. -/
def retainedRun (config : BackgroundRunConfig) (appended : List Appended) : Entry :=
  (createdEntry true).appendAll config appended

/-- The retained events are the last ones, under consecutive numbers. -/
structure Contiguous (e : Entry) : Prop where
  sequences : e.events.map (·.sequence) =
    List.range' (e.nextSequence - e.events.length) e.events.length
  room : e.events.length < e.nextSequence

section Histories

variable {config : BackgroundRunConfig} {e : Entry} {appended : List Appended}

theorem append_events (a : Appended) : (e.append config a.now a.lifecycle a.fields).events =
    retained config (e.events ++ [e.nextEvent config a]) := rfl

theorem append_nextSequence (a : Appended) :
    (e.append config a.now a.lifecycle a.fields).nextSequence = e.nextSequence + 1 := rfl

/-- Retention drops a front. -/
theorem retained_eq_drop (config : BackgroundRunConfig) (events : List BackgroundRunEvent) :
    ∃ dropped, retained config events = events.drop dropped := by
  unfold retained
  split
  · exact ⟨0, rfl⟩
  · exact ⟨_, rfl⟩

theorem Contiguous.append (contiguous : Contiguous e) (a : Appended) :
    Contiguous (e.append config a.now a.lifecycle a.fields) := by
  have all : (e.events ++ [e.nextEvent config a]).map (·.sequence) =
      List.range' (e.nextSequence - e.events.length) (e.events.length + 1) := by
    have room := contiguous.room
    have last : (e.nextEvent config a).sequence =
        e.nextSequence - e.events.length + e.events.length := by
      rw [Nat.sub_add_cancel (Nat.le_of_lt room)]
      rfl
    rw [List.map_append, contiguous.sequences, List.map_singleton, last, List.range'_1_concat]
  obtain ⟨dropped, keeps⟩ := retained_eq_drop config (e.events ++ [e.nextEvent config a])
  have length : (retained config (e.events ++ [e.nextEvent config a])).length =
      e.events.length + 1 - dropped := by
    rw [keeps, List.length_drop, List.length_append, List.length_singleton]
  have room := contiguous.room
  constructor
  · rw [append_events, append_nextSequence, length, keeps, List.map_drop, all]
    apply List.ext_getElem
    · simp
    · intro i within _
      rw [List.length_drop, List.length_range'] at within
      simp only [List.getElem_drop, List.getElem_range', Nat.one_mul]
      omega
  · rw [append_events, append_nextSequence, length]
    omega

theorem contiguous_created (active : Bool) : Contiguous (createdEntry active) :=
  ⟨rfl, Nat.zero_lt_one⟩

theorem oldest_eq (contiguous : Contiguous e) :
    oldestSequence e = e.nextSequence - e.events.length := by
  have sequences := contiguous.sequences
  rcases hevents : e.events with _ | ⟨first, rest⟩
  · simp [oldestSequence, hevents]
  · rw [hevents, List.map_cons, List.length_cons, List.range'_succ] at sequences
    simp only [oldestSequence, hevents, List.head?_cons, Option.map_some, Option.getD_some,
      List.length_cons]
    exact (List.cons.inj sequences).1

theorem Contiguous.mem_iff (contiguous : Contiguous e) {sequence : Nat} :
    sequence ∈ e.events.map (·.sequence) ↔
      oldestSequence e ≤ sequence ∧ sequence < e.nextSequence := by
  have room := contiguous.room
  rw [contiguous.sequences, oldest_eq contiguous, List.mem_range'_1]
  omega

theorem Contiguous.increasing (contiguous : Contiguous e) : Increasing e.events := by
  have sorted : (e.events.map (·.sequence)).Pairwise (· < ·) := by
    rw [contiguous.sequences]
    exact List.pairwise_lt_range'
  exact List.pairwise_map.mp sorted

theorem filter_range' (first count cursor : Nat) :
    (List.range' first count).filter (cursor < ·) =
      List.range' (max first (cursor + 1)) (first + count - max first (cursor + 1)) := by
  induction count with
  | zero => simp [Nat.sub_eq_zero_of_le (Nat.le_max_left first (cursor + 1))]
  | succ count ih =>
      rw [List.range'_1_concat, List.filter_append, ih]
      by_cases later : cursor < first + count
      · have more : first + (count + 1) - max first (cursor + 1) =
            first + count - max first (cursor + 1) + 1 := by omega
        have last : max first (cursor + 1) + (first + count - max first (cursor + 1)) =
            first + count := by omega
        rw [more, List.range'_1_concat, last]
        simp [later]
      · have none : first + count - max first (cursor + 1) = 0 := by omega
        have still : first + (count + 1) - max first (cursor + 1) = 0 := by omega
        simp [later, none, still]

/-- The newer events have the numbers from the cursor or the oldest event on. -/
theorem Contiguous.newer_sequences (contiguous : Contiguous e) (cursor : Nat) :
    (newer cursor e.events).map (·.sequence) =
      List.range' (max (oldestSequence e) (cursor + 1))
        (e.nextSequence - max (oldestSequence e) (cursor + 1)) := by
  have room := contiguous.room
  have whole : oldestSequence e + e.events.length = e.nextSequence := by
    rw [oldest_eq contiguous]
    omega
  have numbers : (newer cursor e.events).map (·.sequence) =
      (e.events.map (·.sequence)).filter (cursor < ·) := by
    rw [List.filter_map]
    rfl
  rw [numbers, contiguous.sequences, ← oldest_eq contiguous, filter_range', whole]

/-! ## What retention drops -/

/-- The same run, without retention: nothing has been dropped. -/
structure Retains (e whole : Entry) : Prop where
  contiguous : Contiguous e
  wholeContiguous : Contiguous whole
  next : whole.nextSequence = e.nextSequence
  complete : whole.events.length + 1 = whole.nextSequence
  suffix : e.events <:+ whole.events

theorem retains_created : Retains (createdEntry true) (createdEntry true) where
  contiguous := contiguous_created true
  wholeContiguous := contiguous_created true
  next := rfl
  complete := rfl
  suffix := List.suffix_refl _

theorem Retains.append {whole : Entry} (retains : Retains e whole) (a : Appended) :
    Retains (e.append config a.now a.lifecycle a.fields)
      (whole.append { config with maxEventsPerRun := 0 } a.now a.lifecycle a.fields) where
  contiguous := retains.contiguous.append a
  wholeContiguous := retains.wholeContiguous.append a
  next := congrArg (· + 1) retains.next
  complete := by
    rw [append_events, append_nextSequence, retained, if_pos rfl, List.length_append,
      List.length_singleton, ← retains.complete]
  suffix := by
    have same : whole.nextEvent { config with maxEventsPerRun := 0 } a = e.nextEvent config a := by
      simp only [Entry.nextEvent, retains.next]
    obtain ⟨dropped, keeps⟩ := retained_eq_drop config (e.events ++ [e.nextEvent config a])
    obtain ⟨older, split⟩ := retains.suffix
    rw [append_events, append_events, keeps, retained, if_pos rfl, same, ← split, List.append_assoc]
    exact (List.drop_suffix _ _).trans (List.suffix_append _ _)

theorem Retains.appendAll {whole : Entry} (retains : Retains e whole) (appended : List Appended) :
    Retains (e.appendAll config appended)
      (whole.appendAll { config with maxEventsPerRun := 0 } appended) := by
  induction appended generalizing e whole with
  | nil => exact retains
  | cons a rest ih => exact ih (retains.append a)

theorem retains_run (config : BackgroundRunConfig) (appended : List Appended) :
    Retains (retainedRun config appended)
      ((createdEntry true).appendAll { config with maxEventsPerRun := 0 } appended) :=
  retains_created.appendAll appended

/-- A gap stands for an event after the cursor that is gone. -/
theorem Retains.gap_iff {whole : Entry} (retains : Retains e whole) {cursor : Nat} :
    cursor + 1 < oldestSequence e ↔
      ∃ event ∈ whole.events, cursor < event.sequence ∧ event ∉ e.events := by
  have oldest := oldest_eq retains.contiguous
  have first : oldestSequence whole = 1 := by
    have complete := retains.complete
    rw [oldest_eq retains.wholeContiguous]
    omega
  constructor
  · intro gap
    have known : oldestSequence e - 1 ∈ whole.events.map (·.sequence) := by
      have next := retains.next
      rw [retains.wholeContiguous.mem_iff, first]
      omega
    obtain ⟨event, mem, sequence⟩ := List.mem_map.mp known
    refine ⟨event, mem, by omega, fun kept => ?_⟩
    have := (retains.contiguous.mem_iff.mp (List.mem_map_of_mem kept)).1
    omega
  · rintro ⟨event, mem, later, gone⟩
    obtain ⟨older, split⟩ := retains.suffix
    have known := retains.wholeContiguous.mem_iff.mp (List.mem_map_of_mem mem)
    by_contra noGap
    have kept : event.sequence ∈ e.events.map (·.sequence) := by
      rw [retains.contiguous.mem_iff, ← retains.next]
      omega
    obtain ⟨twin, htwin, same⟩ := List.mem_map.mp kept
    have twice : twin ∈ whole.events := retains.suffix.subset htwin
    have unique : event = twin := by
      refine List.inj_on_of_nodup_map ?_ mem twice same.symm
      rw [retains.wholeContiguous.sequences]
      exact List.nodup_range'
    exact gone (unique ▸ htwin)

end Histories

/-! ## Reading to the end -/

section Reading

variable {showNumber : JsNumber → String} (limits : BackgroundPageLimits showNumber) (e : Entry)
  (limit : Nat)

/-- What a reader gets that follows the cursor until a page has no event, in at most so many
polls. -/
def readAll : Nat → Nat → List BackgroundRunEvent
  | 0, _ => []
  | polls + 1, cursor =>
      let page := eventsPage limits e cursor limit
      if page.events.isEmpty then [] else page.events ++ readAll polls page.nextCursor

/-- A reader between two polls. -/
structure Reading where
  entry : Entry
  cursor : Nat
  got : List BackgroundRunEvent

/-- Either the run appends an event, or the reader takes a page. -/
inductive ReadingMove where
  | append (a : Appended)
  | poll

def Reading.next (config : BackgroundRunConfig) (r : Reading) : ReadingMove → Reading
  | .append a => { r with entry := r.entry.append config a.now a.lifecycle a.fields }
  | .poll =>
      let page := eventsPage limits r.entry r.cursor limit
      { r with cursor := page.nextCursor, got := r.got ++ page.events }

def Reading.run (config : BackgroundRunConfig) (r : Reading) (moves : List ReadingMove) : Reading :=
  moves.foldl (fun r move => r.next limits limit config move) r

/-- Paging yields what is retained after the cursor, each event once and in order, also while
events are appended and dropped, and says of every poll whether it is too late for an event. -/
structure PagingExact (config : BackgroundRunConfig) (whole : List BackgroundRunEvent)
    (cursor : Nat) : Prop where
  yields : ∀ polls, e.events.length < polls →
    readAll limits e limit polls cursor = newer cursor e.events
  increasing : Increasing (newer cursor e.events)
  gap : ∀ polled, (eventsPage limits e polled limit).gap = true ↔
    ∃ event ∈ whole, polled < event.sequence ∧ event ∉ e.events
  meanwhile : ∀ moves, ∀ r, Reading.run limits limit config ⟨e, cursor, []⟩ moves = r →
    Increasing r.got ∧
      (newer r.cursor r.entry.events = [] → newer cursor r.entry.events ⊆ r.got)

variable {limits e limit} {cursor : Nat}

/-- The limit that a page has. -/
theorem eventsPage_eq (limits : BackgroundPageLimits showNumber) (e : Entry) (limit : Nat) :
    ∃ count, 1 ≤ count ∧
      ∀ cursor, eventsPage limits e cursor limit = eventsOf limits e cursor count := by
  have pos := limits.size_pos
  by_cases none : limit = 0
  · exact ⟨limits.maxPageSize, pos, fun cursor => by rw [eventsPage, if_pos none]⟩
  · exact ⟨limit, by omega, fun cursor => by rw [eventsPage, if_neg none]⟩

theorem newer_length_le : (newer cursor e.events).length ≤ e.events.length :=
  List.length_filter_le _ _

theorem eventsPage_ne_nil_iff (increasing : Increasing e.events) {first : BackgroundRunEvent}
    {rest : List BackgroundRunEvent} (hnewer : newer cursor e.events = first :: rest) :
    (eventsPage limits e cursor limit).events ≠ [] ↔ FitsPage limits first := by
  obtain ⟨count, one, heq⟩ := eventsPage_eq limits e limit
  rw [heq]
  exact eventsOf_ne_nil_iff limits increasing one hnewer

theorem fitsPage_of_mem (increasing : Increasing e.events) {event : BackgroundRunEvent}
    (mem : event ∈ (eventsPage limits e cursor limit).events) : FitsPage limits event := by
  obtain ⟨count, -, heq⟩ := eventsPage_eq limits e limit
  rw [heq, eventsOf_events limits increasing] at mem
  have within := le_of_mem_fitting mem
  simp only [FitsPage]
  omega

/-- One poll: what the page holds, and what is left after it. -/
theorem eventsPage_split (limits : BackgroundPageLimits showNumber) (limit cursor : Nat)
    (increasing : Increasing e.events) :
    (eventsPage limits e cursor limit).events ++
      newer (eventsPage limits e cursor limit).nextCursor e.events = newer cursor e.events := by
  obtain ⟨count, -, heq⟩ := eventsPage_eq limits e limit
  obtain ⟨rest, split⟩ : (eventsOf limits e cursor count).events <+: newer cursor e.events :=
    eventsOf_front limits increasing
  rw [heq, (eventsOf_next limits increasing).2, ← split, List.drop_left]

/-- A reader gets a front of the newer events, all of them just in case each fits a page. -/
theorem readAll_iff (increasing : Increasing e.events) (polls : Nat)
    (enough : (newer cursor e.events).length < polls) :
    readAll limits e limit polls cursor = newer cursor e.events ↔
      ∀ event ∈ newer cursor e.events, FitsPage limits event := by
  induction polls generalizing cursor with
  | zero => exact absurd enough (Nat.not_lt_zero _)
  | succ polls ih =>
      have split := eventsPage_split limits limit cursor increasing
      rw [readAll]
      by_cases empty : (eventsPage limits e cursor limit).events = []
      · simp only [empty, List.isEmpty_nil, if_true]
        rcases hnewer : newer cursor e.events with _ | ⟨first, rest⟩
        · simp
        · refine iff_of_false (by simp) fun fits => ?_
          have here := fits first List.mem_cons_self
          exact (eventsPage_ne_nil_iff increasing hnewer).mpr here empty
      · have shorter : (newer (eventsPage limits e cursor limit).nextCursor e.events).length <
            polls := by
          have length := congrArg List.length split
          have pos := List.length_pos_iff.mpr empty
          rw [List.length_append] at length
          omega
        have nonempty : (eventsPage limits e cursor limit).events.isEmpty = false := by
          simpa using empty
        simp only [nonempty, Bool.false_eq_true, if_false]
        rw [← split, List.append_cancel_left_eq, ih shorter]
        constructor
        · intro later event mem
          rcases List.mem_append.mp mem with inPage | left
          · exact fitsPage_of_mem increasing inPage
          · exact later event left
        · exact fun all event mem => all event (List.mem_append_right _ mem)

/-- What a reader has got between its first cursor and the one it is at. -/
structure ReadFrom (start : Nat) (r : Reading) : Prop where
  contiguous : Contiguous r.entry
  forward : start ≤ r.cursor
  within : r.cursor ≤ start ∨ r.cursor < r.entry.nextSequence
  increasing : Increasing r.got
  passed : ∀ event ∈ r.got, event.sequence ≤ r.cursor
  all : ∀ event ∈ r.entry.events, start < event.sequence → event.sequence ≤ r.cursor →
    event ∈ r.got

theorem ReadFrom.append {config : BackgroundRunConfig} {start : Nat} {r : Reading}
    (reads : ReadFrom start r) (a : Appended) :
    ReadFrom start (r.next limits limit config (.append a)) where
  contiguous := reads.contiguous.append a
  forward := reads.forward
  within := reads.within.imp_right fun h => Nat.lt_succ_of_lt h
  increasing := reads.increasing
  passed := reads.passed
  all := by
    intro event mem later before
    obtain ⟨dropped, keeps⟩ :=
      retained_eq_drop config (r.entry.events ++ [r.entry.nextEvent config a])
    have known : event ∈ r.entry.events ++ [r.entry.nextEvent config a] :=
      List.mem_of_mem_drop (by rw [← keeps]; exact mem)
    rcases List.mem_append.mp known with old | new
    · exact reads.all event old later before
    · obtain rfl := List.mem_singleton.mp new
      have number : (r.entry.nextEvent config a).sequence = r.entry.nextSequence := rfl
      have position : (r.next limits limit config (.append a)).cursor = r.cursor := rfl
      have := reads.within
      omega

/-- A poll moves the cursor to the end of its page or of a gap, if it moves it. -/
theorem eventsPage_within (limits : BackgroundPageLimits showNumber) (limit cursor : Nat)
    (contiguous : Contiguous e) :
    cursor ≤ (eventsPage limits e cursor limit).nextCursor ∧
      ((eventsPage limits e cursor limit).nextCursor = cursor ∨
        (eventsPage limits e cursor limit).nextCursor < e.nextSequence) ∧
      ∀ event ∈ (eventsPage limits e cursor limit).events,
        cursor < event.sequence ∧
          event.sequence ≤ (eventsPage limits e cursor limit).nextCursor := by
  obtain ⟨count, -, heq⟩ := eventsPage_eq limits e limit
  rw [heq]
  have front : (eventsOf limits e cursor count).events <+: newer cursor e.events :=
    eventsOf_front limits contiguous.increasing
  refine ⟨(eventsOf_next limits contiguous.increasing).1, ?_⟩
  rcases List.eq_nil_or_concat' (eventsOf limits e cursor count).events with
    empty | ⟨start, last, ends⟩
  · have room := contiguous.room
    have oldest := oldest_eq contiguous
    rw [nextCursor_of_nil limits empty, empty]
    refine ⟨?_, by simp⟩
    split
    · right
      omega
    · exact .inl rfl
  · have sorted : Increasing (start ++ [last]) :=
      ends ▸ (contiguous.increasing.sublist List.filter_sublist).sublist front.sublist
    have known :=
      mem_newer.mp (front.subset (ends ▸ List.mem_append_right start List.mem_cons_self))
    rw [nextCursor_of_last limits ends]
    refine ⟨.inr (contiguous.mem_iff.mp (List.mem_map_of_mem known.1)).2, fun event mem => ?_⟩
    refine ⟨(mem_newer.mp (front.subset mem)).2, ?_⟩
    rw [ends] at mem
    rcases List.mem_append.mp mem with earlier | here
    · have apart := (List.pairwise_append.mp sorted).2.2
      exact Nat.le_of_lt (apart event earlier last List.mem_cons_self)
    · obtain rfl := List.mem_singleton.mp here
      exact Nat.le_refl _

theorem ReadFrom.poll {config : BackgroundRunConfig} {start : Nat} {r : Reading}
    (reads : ReadFrom start r) : ReadFrom start (r.next limits limit config .poll) := by
  obtain ⟨forward, within, inPage⟩ :=
    eventsPage_within limits limit r.cursor reads.contiguous
  have split := eventsPage_split limits limit r.cursor reads.contiguous.increasing
  refine ⟨reads.contiguous, Nat.le_trans reads.forward forward, ?_, ?_, ?_, ?_⟩
  · rcases within with same | before
    · simpa only [Reading.next, same] using reads.within
    · exact .inr before
  · have sorted : Increasing (newer r.cursor r.entry.events) :=
      reads.contiguous.increasing.sublist List.filter_sublist
    rw [← split] at sorted
    refine List.pairwise_append.mpr ⟨reads.increasing, (List.pairwise_append.mp sorted).1, ?_⟩
    exact fun old hold new hnew =>
      Nat.lt_of_le_of_lt (reads.passed old hold) (inPage new hnew).1
  · intro event mem
    rcases List.mem_append.mp mem with old | new
    · exact Nat.le_trans (reads.passed event old) forward
    · exact (inPage event new).2
  · intro event mem later before
    by_cases old : event.sequence ≤ r.cursor
    · exact List.mem_append_left _ (reads.all event mem later old)
    · have unread : event ∈ newer r.cursor r.entry.events :=
        mem_newer.mpr ⟨mem, Nat.lt_of_not_le old⟩
      rw [← split] at unread
      refine List.mem_append_right _ ((List.mem_append.mp unread).resolve_right fun left => ?_)
      exact Nat.not_le_of_lt (mem_newer.mp left).2 before

theorem ReadFrom.run (limits : BackgroundPageLimits showNumber) (limit : Nat)
    (config : BackgroundRunConfig) {start : Nat} {r : Reading}
    (reads : ReadFrom start r) (moves : List ReadingMove) :
    ReadFrom start (r.run limits limit config moves) := by
  induction moves generalizing r with
  | nil => exact reads
  | cons move rest ih =>
      cases move with
      | append a => exact ih (reads.append a)
      | poll => exact ih reads.poll

end Reading

/-- Paging is exact just in case every retained event after the cursor fits a page. -/
theorem paging_exact_iff {showNumber : JsNumber → String}
    (limits : BackgroundPageLimits showNumber) (config : BackgroundRunConfig)
    (appended : List Appended) (cursor limit : Nat) :
    PagingExact limits (retainedRun config appended) limit config (history config appended) cursor ↔
      ∀ event ∈ newer cursor (retainedRun config appended).events, FitsPage limits event := by
  have retains := retains_run config appended
  have increasing := retains.contiguous.increasing
  have enough (polls : Nat) (h : (retainedRun config appended).events.length < polls) :
      (newer cursor (retainedRun config appended).events).length < polls :=
    Nat.lt_of_le_of_lt newer_length_le h
  constructor
  · intro exact_
    have all := exact_.yields _ (Nat.lt_succ_self _)
    exact (readAll_iff increasing _ (enough _ (Nat.lt_succ_self _))).mp all
  · intro fits
    refine ⟨fun polls h => (readAll_iff increasing polls (enough polls h)).mpr fits,
      increasing.sublist List.filter_sublist, fun polled => ?_, ?_⟩
    · obtain ⟨count, -, heq⟩ := eventsPage_eq limits (retainedRun config appended) limit
      rw [heq]
      exact decide_eq_true_iff.trans retains.gap_iff
    · rintro moves r rfl
      have begun : ReadFrom cursor ⟨retainedRun config appended, cursor, []⟩ :=
        ⟨retains.contiguous, Nat.le_refl _, .inl (Nat.le_refl _), .nil, by simp,
          fun event _ later before => absurd later (Nat.not_lt.mpr before)⟩
      have reads := begun.run limits limit config moves
      refine ⟨reads.increasing, fun none event mem => ?_⟩
      obtain ⟨known, later⟩ := mem_newer.mp mem
      refine reads.all event known later (Nat.not_lt.mp fun beyond => ?_)
      have left := mem_newer.mpr ⟨known, beyond⟩
      rw [none] at left
      cases left

/-- A reader that meets the paused event never gets it. -/
theorem paging_exact_refuted :
    ¬ PagingExact smallestPages
      (retainedRun pollingConfig [⟨1, .paused, { pause := some widePause }⟩]) 0 pollingConfig
      (history pollingConfig [⟨1, .paused, { pause := some widePause }⟩]) 0 := by
  intro exactly
  refine not_fitsPage_pausedEvent ?_
  have all := (readAll_iff increasing_pausedEntry 2 (by simp [newer_pausedEntry])).mp
    (exactly.yields 2 (by decide))
  exact all pausedEvent (by simp [newer_pausedEntry])

end AdCoder.BackgroundRuns
