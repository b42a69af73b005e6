import AdCoder.BackgroundRuns.EventHistory

/-!
# Subscribers of background events

A notification takes the next page of a run into a bounded queue, from which a
drain hands one notice after the other to the consumer. A full queue loses its
oldest notice, and the newest then reports what was lost.
-/

namespace AdCoder.BackgroundRuns

open Foundation

/-! ## State -/

structure BackgroundRunNotice where
  runId : String
  page : BackgroundEventPage
  droppedEvents : Nat
  pending : Bool

structure BackgroundSubscriber where
  cursors : String → Option Nat
  queue : List BackgroundRunNotice
  active : Bool
  draining : Bool

/-- The runs of a manager and one subscriber, with what was delivered to it and the events that
were appended since it subscribed. -/
structure SubscribedRuns where
  entries : String → Option Entry
  subscriber : BackgroundSubscriber
  delivered : List BackgroundRunNotice
  since : List (String × BackgroundRunEvent)

namespace SubscribedRuns

/-- No run, and nobody has subscribed. -/
def initial : SubscribedRuns where
  entries := fun _ => none
  subscriber := ⟨fun _ => none, [], false, false⟩
  delivered := []
  since := []

variable {showNumber : JsNumber → String} (limits : BackgroundPageLimits showNumber)
  (w : SubscribedRuns)

def cursor (runId : String) : Nat := (w.subscriber.cursors runId).getD 0

/-! ## Operations -/

/-- A run without events. -/
def create (runId : String) : SubscribedRuns :=
  match w.entries runId with
  | some _ => w
  | none => { w with entries := Function.update w.entries runId (some (createdEntry true)) }

/-- An event is appended, here or by another process, under the retention there. -/
def append (runId : String) (config : BackgroundRunConfig) (a : Appended) : SubscribedRuns :=
  match w.entries runId with
  | none => w
  | some e =>
      { w with
        entries := Function.update w.entries runId
          (some (e.append { config with runId := runId } a.now a.lifecycle a.fields))
        since := w.since ++ [(runId, e.nextEvent { config with runId := runId } a)] }

def subscribe : SubscribedRuns :=
  { w with
    subscriber := ⟨fun runId => (w.entries runId).map (·.nextSequence - 1), [], true, false⟩
    delivered := []
    since := [] }

def enqueue (notice : BackgroundRunNotice) : SubscribedRuns :=
  let queue := w.subscriber.queue
  let (queue, notice) :=
    if queue.length ≥ limits.subscriberQueueCapacity then
      match queue with
      | [] => (queue, notice)
      | replaced :: rest =>
          (rest, { notice with
            droppedEvents := notice.droppedEvents +
              (replaced.droppedEvents + replaced.page.events.length)
            pending := true })
    else (queue, notice)
  { w with subscriber := { w.subscriber with queue := queue ++ [notice], draining := true } }

/-- The notice of a run, if there is anything to say. -/
def noticeOf (runId : String) (e : Entry) : Option BackgroundRunNotice :=
  let cursor := w.cursor runId
  let page := eventsOf limits e cursor limits.maxPageSize
  let pending : Bool := page.nextCursor < e.nextSequence - 1
  if page.events.isEmpty && !page.gap && !pending then none
  else
    let droppedEvents := if page.gap then oldestSequence e - cursor - 1 else 0
    some ⟨runId, page, droppedEvents, pending⟩

def setCursor (runId : String) (position : Nat) : SubscribedRuns :=
  { w with subscriber := { w.subscriber with
      cursors := Function.update w.subscriber.cursors runId (some position) } }

/-- `notify`, for the one subscriber. -/
def notify (runId : String) : SubscribedRuns :=
  match w.entries runId with
  | none => w
  | some e =>
      if w.subscriber.active then
        match w.noticeOf limits runId e with
        | none => w
        | some notice => (w.setCursor runId notice.page.nextCursor).enqueue limits notice
      else w

def removeSubscriber : SubscribedRuns :=
  { w with subscriber := { w.subscriber with active := false, queue := [] } }

/-- One turn of the drain; a consumer that fails loses its subscription. -/
def drain (accepts : Bool) : SubscribedRuns :=
  if w.subscriber.draining then
    match w.subscriber.queue with
    | [] => { w with subscriber := { w.subscriber with draining := false } }
    | notice :: rest =>
        let handed := { w with
          subscriber := { w.subscriber with queue := rest }
          delivered := w.delivered ++ [notice] }
        if accepts then handed else handed.removeSubscriber
  else w

inductive Move where
  | create (runId : String)
  | append (runId : String) (config : BackgroundRunConfig) (a : Appended)
  | notify (runId : String)
  | subscribe
  | unsubscribe
  | drain (accepts : Bool)

def next : Move → SubscribedRuns
  | .create runId => w.create runId
  | .append runId config a => w.append runId config a
  | .notify runId => w.notify limits runId
  | .subscribe => w.subscribe
  | .unsubscribe => w.removeSubscriber
  | .drain accepts => w.drain accepts

def run (moves : List Move) : SubscribedRuns :=
  moves.foldl (fun w move => w.next limits move) initial

/-! ## Accounts -/

section Accounts

variable {limits} {w : SubscribedRuns} {runId other : String}

/-- The events that a notice stands for. -/
def covered (notice : BackgroundRunNotice) : Nat :=
  notice.droppedEvents + notice.page.events.length

def identities (notice : BackgroundRunNotice) : List (String × Nat) :=
  notice.page.events.map fun event => (notice.runId, event.sequence)

def nextSequence (w : SubscribedRuns) (runId : String) : Nat :=
  ((w.entries runId).map (·.nextSequence)).getD 1

/-- The notices of the subscription. -/
def notices (w : SubscribedRuns) : List BackgroundRunNotice := w.delivered ++ w.subscriber.queue

/-- The events of which the subscriber was notified. -/
def notified (w : SubscribedRuns) : Nat :=
  w.since.countP fun x => x.2.sequence ≤ w.cursor x.1

/-- Since the subscription every run has appended consecutive events, and the notices stand for
those up to the cursors. -/
structure Accounted (w : SubscribedRuns) (start : String → Nat) : Prop where
  bounds : ∀ runId, start runId ≤ w.cursor runId ∧ w.cursor runId < w.nextSequence runId
  since : ∀ runId, (w.since.filter fun x => x.1 = runId).map (·.2.sequence) =
    List.range' (start runId + 1) (w.nextSequence runId - 1 - start runId)
  balance : (w.notices.map covered).sum = w.notified
  distinct : (w.notices.flatMap identities).Nodup
  passed : ∀ id ∈ w.notices.flatMap identities, id.2 ≤ w.cursor id.1

theorem countP_range' (start count cursor : Nat) (within : start ≤ cursor)
    (bounded : cursor ≤ start + count) :
    (List.range' (start + 1) count).countP (fun sequence => decide (sequence ≤ cursor)) =
      cursor - start := by
  have later : ((List.range' (start + 1) count).filter (cursor < ·)).length =
      start + count - cursor := by
    rw [filter_range', List.length_range']
    omega
  have split := List.length_eq_countP_add_countP (fun sequence => decide (sequence ≤ cursor))
    (l := List.range' (start + 1) count)
  have rest : (List.range' (start + 1) count).countP
      (fun sequence => decide (¬ decide (sequence ≤ cursor) = true)) = start + count - cursor := by
    rw [← later, ← List.countP_eq_length_filter]
    congr 1
    funext sequence
    simp
  rw [rest, List.length_range'] at split
  omega

/-- Of the events of one run, those up to its cursor. -/
theorem Accounted.countP_run {start : String → Nat} (accounted : Accounted w start)
    (runId : String) {position : Nat} (within : start runId ≤ position)
    (bounded : position < w.nextSequence runId) :
    (w.since.filter fun x => x.1 = runId).countP (fun x => decide (x.2.sequence ≤ position)) =
      position - start runId := by
  have mapped : (w.since.filter fun x => x.1 = runId).countP
        (fun x => decide (x.2.sequence ≤ position)) =
      ((w.since.filter fun x => x.1 = runId).map (·.2.sequence)).countP
        (fun sequence => decide (sequence ≤ position)) := by
    rw [List.countP_map]
    rfl
  rw [mapped, accounted.since]
  exact countP_range' _ _ _ within (by omega)

theorem setCursor_cursor (position : Nat) : (w.setCursor runId position).cursor other =
    if other = runId then position else w.cursor other := by
  by_cases h : other = runId
  · simp [setCursor, cursor, h]
  · simp [setCursor, cursor, h]

/-- A cursor that moves is one more event each. -/
theorem Accounted.notified_setCursor {start : String → Nat} (accounted : Accounted w start)
    {position : Nat} (forward : w.cursor runId ≤ position)
    (bounded : position < w.nextSequence runId) :
    (w.setCursor runId position).notified = w.notified + (position - w.cursor runId) := by
  have bounds := accounted.bounds runId
  have parts (p : String × BackgroundRunEvent → Bool) :
      w.since.countP p = (w.since.filter fun x => x.1 = runId).countP p +
        (w.since.filter fun x => !decide (x.1 = runId)).countP p :=
    List.countP_eq_countP_filter_add _ _ _
  have here (c : SubscribedRuns) : (w.since.filter fun x => x.1 = runId).countP
        (fun x => decide (x.2.sequence ≤ c.cursor x.1)) =
      (w.since.filter fun x => x.1 = runId).countP
        (fun x => decide (x.2.sequence ≤ c.cursor runId)) := by
    refine List.countP_congr fun x mem => ?_
    have : x.1 = runId := of_decide_eq_true (List.mem_filter.mp mem).2
    rw [this]
  have elsewhere : (w.since.filter fun x => !decide (x.1 = runId)).countP
        (fun x => decide (x.2.sequence ≤ (w.setCursor runId position).cursor x.1)) =
      (w.since.filter fun x => !decide (x.1 = runId)).countP
        (fun x => decide (x.2.sequence ≤ w.cursor x.1)) := by
    refine List.countP_congr fun x mem => ?_
    have apart : ¬ x.1 = runId := by simpa using (List.mem_filter.mp mem).2
    rw [setCursor_cursor, if_neg apart]
  have same : (w.setCursor runId position).since = w.since := rfl
  have moved : (w.setCursor runId position).cursor runId = position := by
    rw [setCursor_cursor, if_pos rfl]
  rw [notified, notified, same, parts, parts, elsewhere, here, here, moved,
    accounted.countP_run runId (Nat.le_trans bounds.1 forward) bounded,
    accounted.countP_run runId bounds.1 bounds.2]
  omega

/-! ## Notices -/

/-- The place before the first event that a page can hold. -/
def effective (e : Entry) (position : Nat) : Nat := max (oldestSequence e) (position + 1) - 1

/-- A page holds consecutive events, and the next cursor is the last of them. -/
theorem eventsOf_sequences (limits : BackgroundPageLimits showNumber) {e : Entry}
    (contiguous : Contiguous e) (position limit : Nat) :
    (eventsOf limits e position limit).events.map (·.sequence) =
        List.range' (effective e position + 1) (eventsOf limits e position limit).events.length ∧
      (eventsOf limits e position limit).nextCursor =
        effective e position + (eventsOf limits e position limit).events.length := by
  have first : effective e position + 1 = max (oldestSequence e) (position + 1) := by
    unfold effective
    omega
  have page : (eventsOf limits e position limit).events <+: newer position e.events :=
    eventsOf_front limits contiguous.increasing
  have front := page.map (·.sequence)
  have short := front.length_le
  rw [contiguous.newer_sequences, ← first] at front short
  rw [List.length_map, List.length_range'] at short
  have numbers := List.prefix_iff_eq_take.mp front
  rw [List.length_map, List.take_range'_of_length_ge short] at numbers
  refine ⟨numbers, ?_⟩
  rcases List.eq_nil_or_concat' (eventsOf limits e position limit).events with
    empty | ⟨start, last, ends⟩
  · rw [nextCursor_of_nil limits empty, empty, effective, List.length_nil]
    split <;> omega
  · rw [ends, List.map_append, List.length_append, List.map_singleton, List.length_singleton,
      List.range'_1_concat] at numbers
    have here := List.singleton_inj.mp (List.append_inj_right' numbers rfl)
    rw [nextCursor_of_last limits ends, here, ends, List.length_append, List.length_singleton]
    omega

/-- What a notification takes into the queue. -/
structure Taken (w : SubscribedRuns) (runId : String) (e : Entry)
    (notice : BackgroundRunNotice) : Prop where
  named : notice.runId = runId
  sequences : ∃ first, w.cursor runId < first ∧ notice.page.events.map (·.sequence) =
    List.range' first notice.page.events.length
  moved : w.cursor runId + covered notice = notice.page.nextCursor
  known : notice.page.nextCursor < e.nextSequence
  last : ∀ event ∈ notice.page.events, event.sequence ≤ notice.page.nextCursor

theorem noticeOf_taken {e : Entry} (contiguous : Contiguous e)
    (behind : w.cursor runId < e.nextSequence) {notice : BackgroundRunNotice}
    (h : w.noticeOf limits runId e = some notice) : Taken w runId e notice := by
  simp only [noticeOf] at h
  split at h
  · cases h
  · obtain rfl := Option.some.inj h
    obtain ⟨sequences, next⟩ :=
      eventsOf_sequences limits contiguous (w.cursor runId) limits.maxPageSize
    have gap : (eventsOf limits e (w.cursor runId) limits.maxPageSize).gap =
        decide (w.cursor runId + 1 < oldestSequence e) := rfl
    have place : effective e (w.cursor runId) =
        max (oldestSequence e) (w.cursor runId + 1) - 1 := rfl
    have page : (eventsOf limits e (w.cursor runId) limits.maxPageSize).events <+:
        newer (w.cursor runId) e.events := eventsOf_front limits contiguous.increasing
    have short := page.length_le
    have count := congrArg List.length (contiguous.newer_sequences (w.cursor runId))
    rw [List.length_map, List.length_range'] at count
    have room := contiguous.room
    have oldest := oldest_eq contiguous
    refine ⟨rfl, ⟨effective e (w.cursor runId) + 1, by omega, sequences⟩, ?_, ?_, ?_⟩
    · rw [next, covered]
      simp only [gap, decide_eq_true_eq]
      split <;> omega
    · show (eventsOf limits e (w.cursor runId) limits.maxPageSize).nextCursor < e.nextSequence
      omega
    · intro event mem
      have known := List.mem_map_of_mem (f := (·.sequence)) mem
      rw [sequences, List.mem_range'_1] at known
      show event.sequence ≤ (eventsOf limits e (w.cursor runId) limits.maxPageSize).nextCursor
      omega

/-! ## Queues -/

/-- A full queue passes the count of its oldest notice to the newest. -/
theorem enqueue_notices (limits : BackgroundPageLimits showNumber) (w : SubscribedRuns)
    (notice : BackgroundRunNotice) :
    ((w.enqueue limits notice).notices.map covered).sum =
        (w.notices.map covered).sum + covered notice ∧
      ((w.enqueue limits notice).notices.flatMap identities).Sublist
        (w.notices.flatMap identities ++ identities notice) := by
  simp only [enqueue, notices]
  split
  · rcases w.subscriber.queue with _ | ⟨replaced, rest⟩
    · simp [List.flatMap_append]
    · constructor
      · simp only [List.map_append, List.map_cons, List.map_nil, List.sum_append, List.sum_cons,
          List.sum_nil, covered]
        omega
      · simp only [List.flatMap_append, List.flatMap_cons, List.flatMap_nil, List.append_nil,
          List.append_assoc]
        refine (List.Sublist.refl _).append ?_
        exact List.sublist_append_right _ _
  · simp [List.flatMap_append, List.append_assoc, Nat.add_assoc]

/-! ## Steps -/

theorem nextSequence_append {e : Entry} (hentry : w.entries runId = some e)
    (config : BackgroundRunConfig) (a : Appended) (other : String) :
    (w.append runId config a).nextSequence other =
      w.nextSequence other + if other = runId then 1 else 0 := by
  by_cases h : other = runId
  · subst h
    simp [append, nextSequence, hentry, append_nextSequence]
  · simp [append, nextSequence, hentry, h]

theorem Accounted.append {start : String → Nat} (accounted : Accounted w start)
    (config : BackgroundRunConfig) (a : Appended) : Accounted (w.append runId config a) start := by
  rcases hentry : w.entries runId with _ | e
  · simpa only [SubscribedRuns.append, hentry] using accounted
  · obtain ⟨bounds, since, balance, distinct, passed⟩ := accounted
    have number : w.nextSequence runId = e.nextSequence := by simp [nextSequence, hentry]
    have position : (w.append runId config a).cursor = w.cursor := by
      simp only [SubscribedRuns.append, hentry]
      rfl
    have kept : (w.append runId config a).notices = w.notices := by
      simp only [SubscribedRuns.append, hentry, notices]
    have added : (w.append runId config a).since =
        w.since ++ [(runId, e.nextEvent { config with runId := runId } a)] := by
      simp only [SubscribedRuns.append, hentry]
    have here := bounds runId
    refine ⟨fun other => ?_, fun other => ?_, ?_, ?_, ?_⟩
    · rw [nextSequence_append hentry, position]
      have := bounds other
      exact ⟨this.1, by omega⟩
    · rw [nextSequence_append hentry, added, List.filter_append, List.map_append, since other]
      by_cases h : other = runId
      · subst h
        have more : w.nextSequence other + 1 - 1 - start other =
            w.nextSequence other - 1 - start other + 1 := by omega
        have last : start other + 1 + (w.nextSequence other - 1 - start other) =
            w.nextSequence other := by omega
        rw [if_pos rfl, more, List.range'_1_concat, last]
        simp [number, Entry.nextEvent]
      · simp [h, Ne.symm h]
    · have later : ¬ e.nextSequence ≤ w.cursor runId := by omega
      rw [kept, notified, added, position, List.countP_append, balance]
      simp [notified, Entry.nextEvent, later]
    · rw [kept]
      exact distinct
    · rw [kept, position]
      exact passed

theorem Accounted.create {start : String → Nat} (accounted : Accounted w start) :
    Accounted (w.create runId) start := by
  rcases hentry : w.entries runId with _ | e
  · have same : (w.create runId).nextSequence = w.nextSequence := by
      funext other
      by_cases h : other = runId
      · subst h
        simp [SubscribedRuns.create, nextSequence, hentry, createdEntry]
      · simp [SubscribedRuns.create, nextSequence, hentry, h]
    have created : w.create runId =
        { w with entries := Function.update w.entries runId (some (createdEntry true)) } := by
      simp only [SubscribedRuns.create, hentry]
    rw [created] at same ⊢
    refine ⟨fun other => ?_, fun other => ?_, accounted.balance, accounted.distinct,
      accounted.passed⟩
    · rw [same]
      exact accounted.bounds other
    · rw [same]
      exact accounted.since other
  · simpa only [SubscribedRuns.create, hentry] using accounted

/-- A new subscription has missed what was appended before it, and nothing else. -/
theorem accounted_subscribe (positive : ∀ runId, 0 < w.nextSequence runId) :
    Accounted w.subscribe fun runId => w.nextSequence runId - 1 := by
  have position (runId : String) : w.subscribe.cursor runId = w.nextSequence runId - 1 := by
    rcases hentry : w.entries runId with _ | e
    · simp [subscribe, cursor, nextSequence, hentry]
    · simp [subscribe, cursor, nextSequence, hentry]
  refine ⟨fun runId => ?_, fun runId => ?_, rfl, List.nodup_nil, ?_⟩
  · have := positive runId
    rw [position]
    exact ⟨Nat.le_refl _, Nat.sub_one_lt_of_lt this⟩
  · show [] = List.range' _ (w.nextSequence runId - 1 - (w.nextSequence runId - 1))
    rw [Nat.sub_self, List.range'_zero]
  · intro id mem
    cases mem

/-- A notification moves the cursor over the events that its notice stands for. -/
theorem Accounted.take {start : String → Nat} (accounted : Accounted w start) {e : Entry}
    (hentry : w.entries runId = some e) {notice : BackgroundRunNotice}
    (taken : Taken w runId e notice) :
    Accounted ((w.setCursor runId notice.page.nextCursor).enqueue limits notice) start := by
  obtain ⟨rfl, ⟨first, later, sequences⟩, moved, known, last⟩ := taken
  have number : w.nextSequence notice.runId = e.nextSequence := by simp [nextSequence, hentry]
  have forward : w.cursor notice.runId ≤ notice.page.nextCursor := by omega
  have position (other : String) :
      ((w.setCursor notice.runId notice.page.nextCursor).enqueue limits notice).cursor other =
        if other = notice.runId then notice.page.nextCursor else w.cursor other :=
    setCursor_cursor _
  have advances (other : String) : w.cursor other ≤
      ((w.setCursor notice.runId notice.page.nextCursor).enqueue limits notice).cursor other := by
    rw [position]
    split
    · rename_i h
      rw [h]
      exact forward
    · exact Nat.le_refl _
  obtain ⟨counts, ids⟩ := enqueue_notices limits
    (w.setCursor notice.runId notice.page.nextCursor) notice
  have fresh : ∀ id ∈ identities notice, id.1 = notice.runId ∧ w.cursor notice.runId < id.2 ∧
      id.2 ≤ notice.page.nextCursor := by
    intro id mem
    obtain ⟨event, hevent, rfl⟩ := List.mem_map.mp mem
    have number := List.mem_map_of_mem (f := (·.sequence)) hevent
    rw [sequences, List.mem_range'_1] at number
    exact ⟨rfl, Nat.lt_of_lt_of_le later number.1, last event hevent⟩
  constructor
  · intro other
    have bounds := accounted.bounds other
    refine ⟨Nat.le_trans bounds.1 (advances other), ?_⟩
    rw [position]
    split
    · rename_i h
      rw [h]
      exact number ▸ known
    · exact bounds.2
  · exact accounted.since
  · have grown := accounted.notified_setCursor forward (number ▸ known)
    have balance : ((w.setCursor notice.runId notice.page.nextCursor).notices.map covered).sum =
        w.notified := accounted.balance
    calc (((w.setCursor notice.runId notice.page.nextCursor).enqueue limits notice).notices.map
          covered).sum
        = w.notified + covered notice := by rw [counts, balance]
      _ = w.notified + (notice.page.nextCursor - w.cursor notice.runId) := by omega
      _ = (w.setCursor notice.runId notice.page.nextCursor).notified := grown.symm
  · refine ids.nodup (List.nodup_append.mpr ⟨accounted.distinct, ?_, ?_⟩)
    · have numbers : (identities notice).map Prod.snd =
          List.range' first notice.page.events.length := by
        rw [identities, List.map_map, ← sequences]
        rfl
      exact List.Nodup.of_map Prod.snd (numbers ▸ List.nodup_range')
    · rintro old hold new hnew rfl
      obtain ⟨named, after, -⟩ := fresh old hnew
      have before := accounted.passed old hold
      rw [named] at before
      omega
  · intro id mem
    rcases List.mem_append.mp (ids.subset mem) with old | new
    · exact Nat.le_trans (accounted.passed id old) (advances id.1)
    · obtain ⟨named, -, bound⟩ := fresh id new
      rw [position, if_pos named]
      exact bound

/-! ## Runs -/

/-- The invariant of every run: an active subscription is accounted for. -/
structure Kept (w : SubscribedRuns) : Prop where
  contiguous : ∀ runId e, w.entries runId = some e → Contiguous e
  active : w.subscriber.active = true → ∃ start, Accounted w start
  inactive : w.subscriber.active = false → w.subscriber.queue = []
  once : (w.delivered.flatMap identities).Nodup

theorem kept_initial : Kept initial where
  contiguous := by simp [initial]
  active := by simp [initial]
  inactive := fun _ => rfl
  once := List.nodup_nil

theorem Kept.nextSequence_pos (kept : Kept w) (runId : String) : 0 < w.nextSequence runId := by
  rcases hentry : w.entries runId with _ | e
  · simp [nextSequence, hentry]
  · have := (kept.contiguous runId e hentry).room
    simp only [nextSequence, hentry, Option.map_some, Option.getD_some]
    omega

theorem Kept.create (kept : Kept w) : Kept (w.create runId) := by
  have same : (w.create runId).subscriber = w.subscriber ∧
      (w.create runId).delivered = w.delivered := by
    unfold SubscribedRuns.create
    split <;> exact ⟨rfl, rfl⟩
  refine ⟨fun other e => ?_, fun active => ?_, ?_, ?_⟩
  · unfold SubscribedRuns.create
    split
    · exact kept.contiguous other e
    · intro he
      by_cases h : other = runId
      · subst h
        obtain rfl : createdEntry true = e := by simpa using he
        exact contiguous_created true
      · exact kept.contiguous other e (by simpa [h] using he)
  · rw [same.1] at active
    obtain ⟨start, accounted⟩ := kept.active active
    exact ⟨start, accounted.create⟩
  · rw [same.1]
    exact kept.inactive
  · rw [same.2]
    exact kept.once

theorem Kept.append (kept : Kept w) (config : BackgroundRunConfig) (a : Appended) :
    Kept (w.append runId config a) := by
  have same : (w.append runId config a).subscriber = w.subscriber ∧
      (w.append runId config a).delivered = w.delivered := by
    unfold SubscribedRuns.append
    split <;> exact ⟨rfl, rfl⟩
  refine ⟨fun other e => ?_, fun active => ?_, ?_, ?_⟩
  · unfold SubscribedRuns.append
    split
    · exact kept.contiguous other e
    · rename_i old hold
      intro he
      by_cases h : other = runId
      · subst h
        obtain rfl := Option.some.inj ((Function.update_self other _ w.entries).symm.trans he)
        exact (kept.contiguous other old hold).append a
      · exact kept.contiguous other e (by simpa [h] using he)
  · rw [same.1] at active
    obtain ⟨start, accounted⟩ := kept.active active
    exact ⟨start, accounted.append config a⟩
  · rw [same.1]
    exact kept.inactive
  · rw [same.2]
    exact kept.once

theorem Kept.notify (kept : Kept w) : Kept (w.notify limits runId) := by
  unfold SubscribedRuns.notify
  rcases hentry : w.entries runId with _ | e
  · exact kept
  · by_cases active : w.subscriber.active = true
    · simp only [if_pos active]
      rcases hnotice : w.noticeOf limits runId e with _ | notice
      · exact kept
      · obtain ⟨start, accounted⟩ := kept.active active
        have behind : w.cursor runId < e.nextSequence := by
          simpa [nextSequence, hentry] using (accounted.bounds runId).2
        have taken := noticeOf_taken (kept.contiguous runId e hentry) behind hnotice
        have still : ((w.setCursor runId notice.page.nextCursor).enqueue limits
            notice).subscriber.active = true := active
        exact ⟨kept.contiguous, fun _ => ⟨start, accounted.take hentry taken⟩,
          fun gone => absurd (still.symm.trans gone) (by decide), kept.once⟩
    · simp only [if_neg active]
      exact kept

theorem Kept.subscribe (kept : Kept w) : Kept w.subscribe where
  contiguous := kept.contiguous
  active _ := ⟨_, accounted_subscribe kept.nextSequence_pos⟩
  inactive _ := rfl
  once := List.nodup_nil

theorem Kept.removeSubscriber (kept : Kept w) : Kept w.removeSubscriber where
  contiguous := kept.contiguous
  active := fun active => absurd active (by simp [SubscribedRuns.removeSubscriber])
  inactive _ := rfl
  once := kept.once

theorem Kept.drain (kept : Kept w) (accepts : Bool) : Kept (w.drain accepts) := by
  unfold SubscribedRuns.drain
  by_cases draining : w.subscriber.draining = true
  · rw [if_pos draining]
    rcases hqueue : w.subscriber.queue with _ | ⟨notice, rest⟩
    · refine ⟨kept.contiguous, fun active => ?_, fun _ => hqueue, kept.once⟩
      obtain ⟨start, accounted⟩ := kept.active active
      exact ⟨start, accounted.bounds, accounted.since, accounted.balance, accounted.distinct,
        accounted.passed⟩
    · have active : w.subscriber.active = true := by
        cases h : w.subscriber.active with
        | true => rfl
        | false => cases hqueue.symm.trans (kept.inactive h)
      obtain ⟨start, accounted⟩ := kept.active active
      -- A turn moves the notice from the queue to what was delivered.
      have moved : w.notices = w.delivered ++ [notice] ++ rest := by
        rw [notices, hqueue, List.append_assoc, List.singleton_append]
      have handed : Kept { w with
          subscriber := { w.subscriber with queue := rest }
          delivered := w.delivered ++ [notice] } := by
        refine ⟨kept.contiguous, fun _ => ⟨start, accounted.bounds, accounted.since, ?_, ?_, ?_⟩,
          fun gone => absurd (active.symm.trans gone) (by decide), ?_⟩
        · exact (congrArg (fun all => (all.map covered).sum) moved).symm.trans accounted.balance
        · have distinct := accounted.distinct
          rw [moved] at distinct
          exact distinct
        · have passed := accounted.passed
          rw [moved] at passed
          exact passed
        · have whole := accounted.distinct
          rw [moved, List.flatMap_append] at whole
          exact (List.nodup_append.mp whole).1
      cases accepts with
      | true => exact handed
      | false => exact handed.removeSubscriber
  · rw [if_neg draining]
    exact kept

theorem kept_run (limits : BackgroundPageLimits showNumber) (moves : List Move) :
    Kept (run limits moves) := by
  refine (Run.foldl (fun w move => next limits w move) initial moves).invariant ?_ kept_initial
  rintro w move _ kept rfl
  cases move with
  | create runId => exact kept.create
  | append runId config a => exact kept.append config a
  | notify runId => exact kept.notify
  | subscribe => exact kept.subscribe
  | unsubscribe => exact kept.removeSubscriber
  | drain accepts => exact kept.drain accepts

end Accounts

/-- What was delivered, was dropped and is queued are the events of which the subscriber was
notified, and none was delivered twice. -/
structure Conserved (w : SubscribedRuns) : Prop where
  balance : w.subscriber.active = true →
    (w.delivered.map (·.page.events.length)).sum + (w.notices.map (·.droppedEvents)).sum +
      (w.subscriber.queue.map (·.page.events.length)).sum = w.notified
  once : (w.delivered.flatMap identities).Nodup

theorem subscriber_conserved {showNumber : JsNumber → String}
    (limits : BackgroundPageLimits showNumber) (moves : List Move) :
    Conserved (run limits moves) := by
  have kept := kept_run limits moves
  refine ⟨fun active => ?_, kept.once⟩
  obtain ⟨start, accounted⟩ := kept.active active
  have parts (notices : List BackgroundRunNotice) : (notices.map covered).sum =
      (notices.map (·.droppedEvents)).sum + (notices.map (·.page.events.length)).sum := by
    induction notices with
    | nil => rfl
    | cons notice rest ih =>
        simp only [List.map_cons, List.sum_cons, covered, ih]
        omega
  have balance := accounted.balance
  rw [parts, notices, List.map_append, List.map_append, List.sum_append, List.sum_append] at balance
  rw [notices, List.map_append, List.sum_append]
  omega

end SubscribedRuns

end AdCoder.BackgroundRuns
