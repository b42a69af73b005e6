import AdCoder.Foundation.JsonReaders
import AdCoder.Foundation.Sequences
import AdCoder.Waits.Readable
import Mathlib.Data.List.Nodup

/-!
# Pages of wait events

A page has the events after a cursor and says whether retention has passed the
cursor. The cursor at which every reader begins is excepted from that test.
-/

namespace AdCoder.Waits

open Foundation

/-! ## Pages -/

structure WaitEventPage where
  events : List WaitEvent
  nextCursor : Nat
  gap : Bool

/-- `record.events[0]?.sequence ?? record.nextSequence`. -/
def firstSequence (record : WaitRecord) : Nat :=
  (record.events.head?.map (·.sequence)).getD record.nextSequence

def newerEvents (cursor : Nat) (record : WaitRecord) : List WaitEvent :=
  itemsAfter (·.sequence) cursor record.events

def eventPage (record : WaitRecord) (cursor limit : Nat) : WaitEventPage :=
  let events := (newerEvents cursor record).take limit
  { events
    nextCursor := (events.getLast?.map (·.sequence)).getD cursor
    gap := decide (0 < cursor) && decide (cursor < firstSequence record - 1) }

section Service

variable (host : WaitHost) (id : String)

def readRecord (current : Option (VersionedState WaitRecord)) : Except WaitServiceError WaitRecord := do
  require (waitId.test id) ⟨.invalidRequest, some id⟩
  currentRecord host current id

/-- `events`, whose limit is the retention limit by default. -/
def events (cursor : Nat) (limit : Option Nat) (current : Option (VersionedState WaitRecord)) :
    Except WaitServiceError WaitEventPage := do
  let limit := limit.getD host.limits.maxEventsPerWait
  require (safeTimestamp (.finite cursor) && positiveInteger (.finite limit))
    ⟨.invalidRequest, some id⟩
  let record ← readRecord host id current
  return eventPage record cursor limit

/-- What a reader gets that follows the cursor until a page has no event, in at most so many
polls. -/
def followPages (limit : Option Nat) (current : Option (VersionedState WaitRecord)) :
    Nat → Nat → Except WaitServiceError (List WaitEvent)
  | 0, _ => .ok []
  | polls + 1, cursor => do
      let page ← events host id cursor limit current
      if page.events.isEmpty then return []
      else return page.events ++ (← followPages limit current polls page.nextCursor)

end Service

/-! ## Events of a run -/

/-- The system after the acts. -/
def reached (acts : List AdmittedAct) : WaitSystem := acts.foldl WaitSystem.step .start

/-- The stored record of the wait has the event. -/
def Retained (s : WaitSystem) (id : String) (event : WaitEvent) : Prop :=
  ∃ held, s.files id = some held ∧ event ∈ held.value.events

/-- The record had the event at some time and has it no more. -/
def Dropped (acts : List AdmittedAct) (id : String) (event : WaitEvent) : Prop :=
  (∃ earlier, earlier <+: acts ∧ Retained (reached earlier) id event) ∧
    ¬ Retained (reached acts) id event

/-- Pages from a cursor on: the gap is told just in case an event after the cursor was dropped, and
following the cursor yields each retained event after it once and in order. -/
structure PagingExact (host : WaitHost) (acts : List AdmittedAct) (id : String) (cursor : Nat)
    (record : WaitRecord) : Prop where
  gap : ∀ limit page, events host id cursor limit ((reached acts).files id) = .ok page →
    (page.gap = true ↔ ∃ event, Dropped acts id event ∧ cursor < event.sequence)
  yields : ∀ limit polls, positiveInteger (.finite ((limit : Option Nat).getD
      host.limits.maxEventsPerWait)) = true → record.events.length < polls →
    followPages host id limit ((reached acts).files id) polls cursor =
      .ok (newerEvents cursor record)
  ordered : (newerEvents cursor record).Pairwise fun a b => a.sequence < b.sequence

section Pages

variable {host : WaitHost} {id : String} {record : WaitRecord} {cursor : Nat}
  {current : Option (VersionedState WaitRecord)}

theorem Contiguous.ascending (numbered : Contiguous record) :
    Ascending (·.sequence) record.events := by
  have sorted : (record.events.map (·.sequence)).Pairwise (· < ·) := by
    rw [numbered.numbers]
    exact List.pairwise_lt_range'
  exact List.pairwise_map.mp sorted

theorem Contiguous.firstSequence_eq (numbered : Contiguous record) :
    firstSequence record = record.nextSequence - record.events.length := by
  have numbers := numbered.numbers
  cases shape : record.events with
  | nil => simp [firstSequence, shape]
  | cons first rest =>
      rw [shape, List.map_cons, List.length_cons, List.range'_succ] at numbers
      simpa [firstSequence, shape] using (List.cons.inj numbers).1

/-- The retained numbers are those from the first one on. -/
theorem Contiguous.mem_iff (numbered : Contiguous record) {number : Nat} :
    number ∈ record.events.map (·.sequence) ↔
      firstSequence record ≤ number ∧ number < record.nextSequence := by
  have room := numbered.room
  rw [numbered.numbers, List.mem_range'_1, numbered.firstSequence_eq]
  omega

theorem Contiguous.one_le_first (numbered : Contiguous record) : 1 ≤ firstSequence record := by
  have room := numbered.room
  rw [numbered.firstSequence_eq]
  omega

/-- One page and the events that are newer than its cursor. -/
theorem eventPage_split (numbered : Contiguous record) (cursor limit : Nat) :
    (eventPage record cursor limit).events ++
        newerEvents (eventPage record cursor limit).nextCursor record =
      newerEvents cursor record :=
  page_append_itemsAfter numbered.ascending cursor limit

/-- A page is not empty before an event, since its limit is positive. -/
theorem eventPage_eq_nil_iff {limit : Nat} (positive : 0 < limit) :
    (eventPage record cursor limit).events = [] ↔ newerEvents cursor record = [] := by
  exact List.take_eq_nil_iff.trans (or_iff_right (Nat.ne_of_gt positive))

theorem readRecord_eq_ok (reads : readRecord host id current = .ok record) :
    ∃ version, current = some ⟨version, record⟩ := by
  simp only [readRecord, bind_eq_ok] at reads
  obtain ⟨_, -, held⟩ := reads
  exact currentRecord_eq_ok held

theorem events_eq_ok {limit : Option Nat} {page : WaitEventPage}
    (reads : readRecord host id current = .ok record)
    (h : events host id cursor limit current = .ok page) :
    page = eventPage record cursor (limit.getD host.limits.maxEventsPerWait) := by
  simp only [events, reads, bind_eq_ok] at h
  obtain ⟨_, -, held, read, made⟩ := h
  obtain rfl := Except.ok.inj read
  exact (pure_eq_ok.mp made).symm

theorem events_of_reads {limit : Option Nat} (reads : readRecord host id current = .ok record)
    (place : safeTimestamp (.finite cursor) = true)
    (positive : positiveInteger (.finite (limit.getD host.limits.maxEventsPerWait)) = true) :
    events host id cursor limit current =
      .ok (eventPage record cursor (limit.getD host.limits.maxEventsPerWait)) := by
  simp only [events, reads, place, positive, Bool.and_self, require_true]
  rfl

/-- A position that the service gave is a position that it takes. -/
theorem safeTimestamp_of_mem (reads : readRecord host id current = .ok record) {event : WaitEvent}
    (mem : event ∈ record.events) : safeTimestamp (.finite event.sequence) = true := by
  have checked : ∀ previous, validEvents record previous record.events = true →
      JsNumber.isSafeInteger (.finite event.sequence) = true := by
    generalize record.events = events at mem
    induction events with
    | nil => cases mem
    | cons first later ih =>
        intro previous valid
        simp only [validEvents, Bool.and_eq_true] at valid
        obtain ⟨⟨⟨⟨⟨⟨safe, -⟩, -⟩, -⟩, -⟩, -⟩, rest⟩ := valid
        rcases List.mem_cons.mp mem with rfl | behind
        · exact safe
        · exact ih behind _ rest
  cases current with
  | none =>
      simp only [readRecord, currentRecord, bind_eq_ok] at reads
      obtain ⟨_, -, none⟩ := reads
      cases none
  | some held =>
      simp only [readRecord, currentRecord, bind_eq_ok] at reads
      obtain ⟨_, -, version, -, _, valid, made⟩ := reads
      obtain rfl := pure_eq_ok.mp made
      have ordered := (validateRecord_eq_ok.mp valid).1.ordered
      simp only [safeTimestamp, checked _ ordered, JsNumber.atLeast, Bool.true_and,
        decide_eq_true_eq]
      exact_mod_cast Nat.zero_le event.sequence

/-- Following the cursor yields what is newer than the first one. -/
theorem followPages_eq (reads : readRecord host id current = .ok record)
    (numbered : Contiguous record) (limit : Option Nat)
    (positive : positiveInteger (.finite (limit.getD host.limits.maxEventsPerWait)) = true)
    (polls : Nat) (place : safeTimestamp (.finite cursor) = true)
    (enough : (newerEvents cursor record).length < polls) :
    followPages host id limit current polls cursor = .ok (newerEvents cursor record) := by
  have pos : 0 < limit.getD host.limits.maxEventsPerWait := by
    simp only [positiveInteger, JsNumber.atLeast, Bool.and_eq_true, decide_eq_true_eq] at positive
    exact_mod_cast positive.2
  induction polls generalizing cursor with
  | zero => exact absurd enough (Nat.not_lt_zero _)
  | succ polls ih =>
      have split := eventPage_split numbered cursor (limit.getD host.limits.maxEventsPerWait)
      rw [followPages, events_of_reads reads place positive]
      generalize hpage : eventPage record cursor (limit.getD host.limits.maxEventsPerWait) = page
        at split
      have empty_iff : (eventPage record cursor _).events = [] ↔ newerEvents cursor record = [] :=
        eventPage_eq_nil_iff pos
      rw [hpage] at empty_iff
      cases events : page.events with
      | nil =>
          rw [empty_iff.mp events]
          simp [bind, Except.bind, events, pure, Except.pure]
      | cons first rest =>
          have known : ∀ event ∈ page.events, event ∈ record.events := by
            intro event mem
            rw [← hpage] at mem
            exact (mem_itemsAfter.mp (List.mem_of_mem_take mem)).1
          have later : safeTimestamp (.finite page.nextCursor) = true := by
            have last : page.nextCursor = (page.events.getLast?.map (·.sequence)).getD cursor := by
              rw [← hpage]
              rfl
            rw [last, List.getLast?_eq_some_getLast (by simp [events])]
            exact safeTimestamp_of_mem reads (known _ (List.getLast_mem _))
          have shorter : (newerEvents page.nextCursor record).length < polls := by
            have length := congrArg List.length split
            rw [List.length_append, events, List.length_cons] at length
            omega
          have rest_eq := ih later shorter
          simp only [bind, Except.bind, events, List.isEmpty_cons, Bool.false_eq_true, if_false,
            rest_eq]
          rw [← events]
          exact congrArg Except.ok split

end Pages

/-! ## What retention dropped -/

section History

variable {s : WaitSystem} {acts : List AdmittedAct} {id : String}
  {held now : VersionedState WaitRecord}

theorem reached_concat (made : AdmittedAct) :
    reached (acts ++ [made]) = (reached acts).step made := by
  simp [reached]

theorem coherent_reached (acts : List AdmittedAct) : Coherent (reached acts) :=
  coherent_of_run (Run.foldl WaitSystem.step .start acts) .start

theorem create_whole {host : WaitHost} {input : CreateWaitInput} {fresh : String}
    {timestamp : JsNumber} {record : WaitRecord}
    (h : create host input fresh timestamp = .ok record) :
    record.events.length + 1 = record.nextSequence := by
  simp only [create, bind_eq_ok] at h
  obtain ⟨_, _, _, _, _, _, _, _, _, _, made⟩ := h
  obtain rfl := pure_eq_ok.mp made
  have positive := host.limits.positive.1
  simp only [append, List.nil_append, List.length_drop, List.length_singleton]
  omega

/-- Where a record stored after an act comes from. -/
theorem stored_step (made : AdmittedAct) (stored : (s.step made).files id = some now) :
    s.files id = some now ∨
      (∃ held, s.files id = some held ∧ Settles held.value now.value) ∨
      now.value.events.length + 1 = now.value.nextSequence := by
  have settles {other : String} {version : Nat} {value record : WaitRecord}
      (held : s.files other = some ⟨version, value⟩) (settled : Settles value record)
      (stored : (s.store other record).files id = some now) :
      s.files id = some now ∨ ∃ held, s.files id = some held ∧ Settles held.value now.value := by
    rcases Coherent.store_cases stored with ⟨rfl, rfl, -⟩ | ⟨-, before⟩
    · exact .inr ⟨_, held, settled⟩
    · exact .inl before
  obtain ⟨act, admitted⟩ := made
  cases act with
  | create host input fresh timestamp =>
      simp only [WaitSystem.step] at stored
      split at stored
      · exact .inl stored
      · next record created =>
          split at stored
          · split at stored
            · exact .inl stored
            · next files swapped =>
                obtain ⟨-, rfl⟩ := VersionedFiles.swap_eq_some swapped
                dsimp only at stored
                by_cases same : id = record.id
                · subst same
                  rw [Function.update_self] at stored
                  obtain rfl := Option.some.inj stored
                  exact .inr (.inr (create_whole created))
                · rw [Function.update_of_ne same] at stored
                  exact .inl stored
          · exact .inl stored
  | cancel host other timestamp =>
      simp only [WaitSystem.step] at stored
      cases written : s.written other admitted (cancel host other timestamp (s.files other)) with
      | none =>
          rw [written] at stored
          exact .inl stored
      | some after =>
          rw [written] at stored
          obtain ⟨version, value, record, held, settled, -, rfl⟩ := settles_transition written
          exact (settles held settled stored).imp_right .inl
  | reconcile call host other operationId timestamp =>
      simp only [WaitSystem.step] at stored
      split at stored
      · exact .inl stored
      · split at stored <;> exact .inl stored
  | expire call =>
      simp only [WaitSystem.step] at stored
      split at stored
      · next host other timestamp found =>
          cases written : s.written other admitted (transition host other .timedOut
              .deadlineExceeded timestamp (s.files other)) with
          | none =>
              rw [written] at stored
              exact .inl stored
          | some after =>
              rw [written] at stored
              obtain ⟨version, value, record, held, settled, -, rfl⟩ := settles_transition written
              exact (settles held settled stored).imp_right .inl
      · exact .inl stored
  | claim call =>
      simp only [WaitSystem.step] at stored
      split at stored
      · next host other timestamp operationId found =>
          split at stored
          · exact .inl stored
          · next record claimed =>
              split at stored
              · obtain ⟨version, value, held, pending, -, rfl⟩ := claim_cases claimed
                refine (settles held ?_ stored).imp_right .inl
                exact .touches pending pending rfl rfl
              · exact .inl stored
      · exact .inl stored
  | dispatch call =>
      simp only [WaitSystem.step] at stored
      split at stored
      · split at stored <;> exact .inl stored
      · exact .inl stored
  | reply call reply timestamp =>
      simp only [WaitSystem.step] at stored
      split at stored
      · split at stored
        · exact .inl stored
        · next after committed =>
            obtain ⟨version, value, record, held, -, settled, -, rfl⟩ :=
              settles_committed committed
            exact (settles held settled stored).imp_right .inl
      · exact .inl stored
  | crash call => exact .inl stored

/-- Every number that was given belonged to an event that was retained at some time. -/
theorem retained_number (stored : (reached acts).files id = some held) (number : Nat)
    (one : 1 ≤ number) (next : number < held.value.nextSequence) :
    ∃ earlier event, earlier <+: acts ∧ Retained (reached earlier) id event ∧
      event.sequence = number := by
  induction acts using List.reverseRecOn generalizing held with
  | nil => cases stored
  | append_singleton before made ih =>
      have numbered := (coherent_reached (before ++ [made])).numbered id held stored
      have here (first : firstSequence held.value ≤ number) :
          ∃ earlier event, earlier <+: before ++ [made] ∧ Retained (reached earlier) id event ∧
            event.sequence = number := by
        obtain ⟨event, mem, same⟩ := List.mem_map.mp (numbered.mem_iff.mpr ⟨first, next⟩)
        exact ⟨_, event, List.prefix_rfl, ⟨held, stored, mem⟩, same⟩
      have old {was : VersionedState WaitRecord} (stored : (reached before).files id = some was)
          (next : number < was.value.nextSequence) :
          ∃ earlier event, earlier <+: before ++ [made] ∧ Retained (reached earlier) id event ∧
            event.sequence = number := by
        obtain ⟨earlier, event, front, retained⟩ := ih stored next
        exact ⟨earlier, event, front.trans (List.prefix_append _ _), retained⟩
      rw [reached_concat] at stored
      rcases stored_step made stored with same | ⟨was, found, settled⟩ | whole
      · exact old same next
      · generalize held.value = record at *
        cases settled with
        | same => exact old found next
        | touches _ _ _ same => exact old found (same ▸ next)
        | @appends limits base _ _ _ _ _ same =>
            rcases Nat.lt_or_ge number was.value.nextSequence with before | last
            · exact old found before
            · refine here ?_
              have positive := limits.positive.1
              rw [numbered.firstSequence_eq]
              simp only [append, List.length_drop, List.length_append, List.length_singleton]
              omega
      · refine here ?_
        rw [numbered.firstSequence_eq]
        omega

/-- What was dropped comes before what is retained. -/
theorem Dropped.before_first {event : WaitEvent} (dropped : Dropped acts id event)
    (stored : (reached acts).files id = some held) :
    event.sequence < firstSequence held.value := by
  obtain ⟨⟨earlier, ⟨more, rfl⟩, was, found, mem⟩, gone⟩ := dropped
  have coherent := coherent_reached earlier
  have run : Run WaitSystem.Steps (reached earlier) more (reached (earlier ++ more)) := by
    rw [reached, reached, List.foldl_append]
    exact Run.foldl WaitSystem.step _ more
  obtain ⟨now, found', follows⟩ := follows_of_run run coherent found
  obtain rfl := Option.some.inj (found'.symm.trans stored)
  have numbered := coherent.numbered id was found
  have numbered' := (coherent_reached (earlier ++ more)).numbered id now stored
  have given := (numbered.mem_iff.mp (List.mem_map_of_mem mem)).2
  by_contra retained
  have known := numbered'.mem_iff.mpr
    ⟨Nat.not_lt.mp retained, Nat.lt_of_lt_of_le given follows.numbers⟩
  obtain ⟨twin, htwin, same⟩ := List.mem_map.mp known
  have old : twin ∈ was.value.events := follows.old twin htwin (same ▸ given)
  have unique : event = twin := by
    refine List.inj_on_of_nodup_map ?_ mem old same.symm
    rw [numbered.numbers]
    exact List.nodup_range'
  exact gone ⟨now, stored, unique ▸ htwin⟩

/-- An event after the cursor was dropped just in case the first retained one is not next. -/
theorem exists_dropped_iff (stored : (reached acts).files id = some held) (cursor : Nat) :
    (∃ event, Dropped acts id event ∧ cursor < event.sequence) ↔
      cursor < firstSequence held.value - 1 := by
  have numbered := (coherent_reached acts).numbered id held stored
  constructor
  · rintro ⟨event, dropped, above⟩
    have below := dropped.before_first stored
    omega
  · intro gap
    have room := numbered.room
    have first := numbered.firstSequence_eq
    obtain ⟨earlier, event, front, retained, same⟩ :=
      retained_number stored (cursor + 1) (by omega) (by omega)
    refine ⟨event, ⟨⟨earlier, front, retained⟩, ?_⟩, by omega⟩
    rintro ⟨now, found, mem⟩
    obtain rfl := Option.some.inj (found.symm.trans stored)
    have := (numbered.mem_iff.mp (List.mem_map_of_mem mem)).1
    omega

end History

/-- The gap is told just in case the reader is past the start or nothing was dropped. -/
theorem wait_paging_exact_iff {host : WaitHost} {acts : List AdmittedAct} {id : String}
    {record : WaitRecord} (reads : readRecord host id ((reached acts).files id) = .ok record)
    {cursor : Nat} (place : safeTimestamp (.finite cursor) = true) :
    PagingExact host acts id cursor record ↔ 0 < cursor ∨ ∀ event, ¬ Dropped acts id event := by
  obtain ⟨version, stored⟩ := readRecord_eq_ok reads
  have numbered := (coherent_reached acts).numbered id _ stored
  have dropped := exists_dropped_iff stored cursor
  constructor
  · intro exactly
    rcases Nat.eq_zero_or_pos cursor with rfl | later
    · have one : positiveInteger (.finite ((some 1 : Option Nat).getD
          host.limits.maxEventsPerWait)) = true := rfl
      have told := exactly.gap _ _ (events_of_reads reads place one)
      refine .inr fun event gone => ?_
      obtain ⟨earlier, front, was, found, mem⟩ := gone.1
      have early := (coherent_reached earlier).numbered _ _ found
      have first := early.one_le_first
      have given := (early.mem_iff.mp (List.mem_map_of_mem mem)).1
      have shown := told.mpr ⟨event, gone, by omega⟩
      cases shown
    · exact .inl later
  · intro holds
    refine ⟨fun limit page read => ?_, fun limit polls positive enough => ?_,
      numbered.ascending.itemsAfter cursor⟩
    · obtain rfl := events_eq_ok reads read
      rw [dropped]
      rcases holds with later | none
      · simp [eventPage, later]
      · have noGap : ¬ cursor < firstSequence record - 1 := by
          rw [← dropped]
          rintro ⟨event, gone, -⟩
          exact none event gone
        simp [eventPage, noGap]
    · have fewer : (newerEvents cursor record).length ≤ record.events.length :=
        List.length_filter_le _ _
      exact followPages_eq reads numbered limit positive polls place
        (Nat.lt_of_le_of_lt fewer enough)

/-- A host that retains one event. -/
def narrowHost : WaitHost :=
  ⟨⟨1, 8, 64 * 1024, 100, by decide⟩, [⟨"timer", 1, fun _ _ => true⟩], fun _ => "0"⟩

/-- A wait that is cancelled, so that its first event is dropped. -/
def droppedScript : List AdmittedAct :=
  [.create narrowHost ⟨⟨⟨"timer", 1, ⟨"timer", "t"⟩⟩, ⟨"elapsed", none⟩, ⟨.operator, "o"⟩,
      ⟨.events, none⟩, none, .inspect⟩, some "w"⟩ "" 1,
    .cancel narrowHost "w" 3].map fun act => ⟨act, true⟩

def droppedRecord : WaitRecord :=
  ⟨⟨⟨"timer", 1, ⟨"timer", "t"⟩⟩, ⟨"elapsed", none⟩, ⟨.operator, "o"⟩, ⟨.events, none⟩, none,
    .inspect⟩, "w", .cancelled, 1, 3, 3, [⟨2, "w", .cancelled, 3, some ⟨.cancelled, 3⟩⟩],
    [⟨.cancelled, 3⟩], none⟩

theorem openedWait_valid_narrowHost : validateRecord narrowHost openedWait 1 = .ok () := by
  decide +kernel

theorem droppedRecord_valid : validateRecord narrowHost droppedRecord 2 = .ok () := by
  decide +kernel

/-- The acts of the script one after another. -/
theorem foldl_droppedScript {σ : Type} (next : σ → AdmittedAct → σ) (s : σ) :
    droppedScript.foldl next s = next (next s
      ⟨.create narrowHost ⟨⟨⟨"timer", 1, ⟨"timer", "t"⟩⟩, ⟨"elapsed", none⟩, ⟨.operator, "o"⟩,
        ⟨.events, none⟩, none, .inspect⟩, some "w"⟩ "" 1, true⟩)
      ⟨.cancel narrowHost "w" 3, true⟩ :=
  rfl

theorem cancel_openedWait :
    cancel narrowHost "w" 3 (some ⟨1, openedWait⟩) = .ok droppedRecord := by
  have read := current_openedWait openedWait_valid_narrowHost
  have counted : nextEnvelopeVersion (some ⟨1, openedWait⟩) "w" = .ok 2 := rfl
  rw [cancel, transition]
  exact mutate_of_valid (bind_eq_ok.mpr ⟨_, read, by rfl⟩) counted droppedRecord_valid

theorem create_narrowHost : create narrowHost ⟨⟨⟨"timer", 1, ⟨"timer", "t"⟩⟩, ⟨"elapsed", none⟩,
    ⟨.operator, "o"⟩, ⟨.events, none⟩, none, .inspect⟩, some "w"⟩ "" 1 = .ok openedWait :=
  create_openedWait rfl rfl openedWait_valid_narrowHost

theorem reached_droppedScript :
    (reached droppedScript).files "w" = some ⟨2, droppedRecord⟩ := by
  have opened : WaitSystem.start.files.swap openedWait.id 0 openedWait =
      some (Function.update WaitSystem.start.files "w" (some ⟨1, openedWait⟩)) := rfl
  generalize created : ({ WaitSystem.start with
    files := Function.update WaitSystem.start.files "w" (some ⟨1, openedWait⟩) } : WaitSystem) =
      first
  have stored : first.files "w" = some ⟨1, openedWait⟩ := by
    simp [← created]
  rw [reached, foldl_droppedScript, WaitSystem.step_create create_narrowHost opened, created,
    WaitSystem.step_cancel (by rw [stored, cancel_openedWait]), WaitSystem.store_self,
    VersionedFiles.version_eq stored]

theorem reads_droppedScript :
    readRecord narrowHost "w" ((reached droppedScript).files "w") = .ok droppedRecord := by
  have named : waitId.test "w" = true := by decide +kernel
  rw [reached_droppedScript]
  exact require_bind_eq_ok.mpr ⟨named, currentRecord_of_valid rfl droppedRecord_valid⟩

theorem wait_paging_exact_iff_droppedScript :
    PagingExact narrowHost droppedScript "w" 1 droppedRecord :=
  (wait_paging_exact_iff reads_droppedScript (by decide)).mpr (.inl (by decide))

/-- From the first cursor the dropped event is not told. -/
theorem wait_paging_exact_refuted : ¬ PagingExact narrowHost droppedScript "w" 0 droppedRecord := by
  intro exactly
  obtain ⟨version, stored⟩ := readRecord_eq_ok reads_droppedScript
  have behind : 0 < firstSequence droppedRecord - 1 := by decide
  have gone := (exists_dropped_iff stored 0).mpr behind
  have page : events narrowHost "w" 0 none ((reached droppedScript).files "w") =
      .ok (eventPage droppedRecord 0 1) := events_of_reads reads_droppedScript rfl rfl
  have shown := (exactly.gap none _ page).mpr gone
  cases shown

end AdCoder.Waits
