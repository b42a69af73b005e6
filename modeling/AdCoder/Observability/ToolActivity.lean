import AdCoder.Foundation.Runs

/-!
# The tool activity channel

Publications are delivered to the subscribers of a channel one after the other,
and a consumer may call the channel again from inside its call. What the
channel still has to do when a consumer returns is kept on a stack, so that one
step is what runs between two calls of a consumer.
-/

namespace AdCoder.Observability

variable {δ : Type}

/-! ## Records -/

/-- `TOOL_ACTIVITY_LIFECYCLES`. -/
def toolActivityLifecycles : List String :=
  ["requested", "started", "completed", "failed", "cancelled", "timed_out"]

/-- `TOOL_ACTIVITY_KINDS`. -/
def toolActivityKinds : List String :=
  ["Read", "Search", "Edit", "Run", "Web", "Inspect image", "Skill", "Tool"]

/-- An event. `details` are its identifiers, bounded texts and numbers, which the
channel writes and does not read again. -/
structure ToolActivityEvent (δ : Type) where
  sequence : Nat
  lifecycle : String
  activity : String
  droppedCount : Nat
  details : δ
  deriving DecidableEq

structure ToolActivityDropNotice where
  sequence : Nat
  dropped : Nat
  droppedCount : Nat
  deriving DecidableEq

inductive ToolActivityRecord (δ : Type) where
  | event (event : ToolActivityEvent δ)
  | notice (notice : ToolActivityDropNotice)
  deriving DecidableEq

namespace ToolActivityRecord

def sequence : ToolActivityRecord δ → Nat
  | event e => e.sequence
  | notice n => n.sequence

def isEvent : ToolActivityRecord δ → Bool
  | event _ => true
  | notice _ => false

/-- The records that a consumer learns of: the event itself, or those that a notice reports. -/
def weight : ToolActivityRecord δ → Nat
  | event _ => 1
  | notice n => n.dropped

@[simp] theorem sequence_event (e : ToolActivityEvent δ) : (event e).sequence = e.sequence := rfl

@[simp] theorem sequence_notice (n : ToolActivityDropNotice) :
    (notice n : ToolActivityRecord δ).sequence = n.sequence := rfl

@[simp] theorem isEvent_event (e : ToolActivityEvent δ) : (event e).isEvent = true := rfl

@[simp] theorem isEvent_notice (n : ToolActivityDropNotice) :
    (notice n : ToolActivityRecord δ).isEvent = false := rfl

@[simp] theorem weight_event (e : ToolActivityEvent δ) : (event e).weight = 1 := rfl

@[simp] theorem weight_notice (n : ToolActivityDropNotice) :
    (notice n : ToolActivityRecord δ).weight = n.dropped := rfl

end ToolActivityRecord

/-! ## Channel -/

/-- The part of `ToolActivityConfig` that the channel reads. `fits` is whether the JSON of a
record is within `maxEventBytes`. -/
structure ToolActivityConfig (δ : Type) where
  replayCapacity : Nat
  subscriberPendingCapacity : Nat
  closeDrainMs : Nat
  fits : ToolActivityRecord δ → Bool
  capacity_pos : 1 ≤ subscriberPendingCapacity

/-- A subscriber's state, whether the channel's set still holds it, and what its consumer was
addressed, was handed, accepted and refused. `promises` are the deliveries that its consumer
answered with a promise, not settled yet. -/
structure Subscription (δ : Type) where
  pending : Nat
  dropped : Nat
  active : Bool
  promises : List (ToolActivityRecord δ)
  member : Bool
  addressed : List (ToolActivityRecord δ)
  handed : List (ToolActivityRecord δ)
  accepted : List (ToolActivityRecord δ)
  refused : List (ToolActivityRecord δ)
  deriving DecidableEq

def Subscription.fresh : Subscription δ := ⟨0, 0, true, [], true, [], [], [], []⟩

/-- The subscribers stand in the order in which they were added. One that was deleted keeps its
place, where a loop over the set passes it by. -/
structure ToolActivityChannel (δ : Type) where
  sequence : Nat
  dropped : Nat
  closed : Bool
  retained : List (ToolActivityRecord δ)
  subscribers : List (Subscription δ)
  deriving DecidableEq

/-- What the channel is in the middle of: a publication's loop over the subscribers, a replay,
the loop of `close`, a record that follows a drop notice, and a consumer's call. -/
inductive Frame (δ : Type) where
  | publishing (record : ToolActivityRecord δ) (cursor : Nat)
  | replaying (subscriber index : Nat)
  | closing (cursor : Nat) (flushed : Bool)
  | invoking (subscriber : Nat) (record : ToolActivityRecord δ)
  | calling (subscriber : Nat) (record : ToolActivityRecord δ)
  deriving DecidableEq

namespace ToolActivityChannel

variable (channel : ToolActivityChannel δ)

def update (subscriber : Nat) (f : Subscription δ → Subscription δ) : ToolActivityChannel δ :=
  { channel with subscribers := channel.subscribers.modify subscriber f }

def noteDrop (count : Nat) : ToolActivityChannel δ :=
  { channel with dropped := channel.dropped + count }

def retain (config : ToolActivityConfig δ) (record : ToolActivityRecord δ) :
    ToolActivityChannel δ :=
  if config.replayCapacity = 0 then channel
  else { channel with
    retained := (if channel.retained.length = config.replayCapacity then channel.retained.tail
      else channel.retained) ++ [record] }

/-- The call of a consumer begins. -/
def invoke (subscriber : Nat) (record : ToolActivityRecord δ) :
    ToolActivityChannel δ × List (Frame δ) :=
  (channel.update subscriber fun s =>
    { s with pending := s.pending + 1, handed := s.handed ++ [record] },
    [.calling subscriber record])

def flushDropNotice (subscriber : Nat) (s : Subscription δ) :
    ToolActivityChannel δ × List (Frame δ) :=
  if !s.active || s.dropped == 0 then (channel, [])
  else
    let notice := ⟨channel.sequence + 1, s.dropped, channel.dropped⟩
    ({ channel.update subscriber fun s => { s with dropped := 0 } with
      sequence := channel.sequence + 1 }).invoke subscriber (.notice notice)

/-- Hand a record to a subscriber, behind a notice of what it has missed. -/
def deliver (config : ToolActivityConfig δ) (subscriber : Nat) (record : ToolActivityRecord δ) :
    ToolActivityChannel δ × List (Frame δ) :=
  match channel.subscribers[subscriber]? with
  | none => (channel, [])
  | some s =>
      if !s.active then (channel, [])
      else
        let addressed := channel.update subscriber fun s =>
          { s with addressed := s.addressed ++ [record] }
        if s.pending ≥ config.subscriberPendingCapacity then
          ((addressed.update subscriber fun s => { s with dropped := s.dropped + 1 }).noteDrop 1, [])
        else match addressed.flushDropNotice subscriber s with
          | (flushed, []) => flushed.invoke subscriber record
          | (flushed, call) => (flushed, call ++ [.invoking subscriber record])

/-- A delivery settles: its consumer accepted it. -/
def accept (subscriber : Nat) (record : ToolActivityRecord δ) : ToolActivityChannel δ :=
  channel.update subscriber fun s =>
    { s with pending := s.pending - 1, accepted := s.accepted ++ [record] }

/-- A delivery settles: its consumer threw, or its promise was rejected. -/
def refuse (subscriber : Nat) (record : ToolActivityRecord δ) : ToolActivityChannel δ :=
  (channel.update subscriber fun s =>
    { s with pending := s.pending - 1, dropped := s.dropped + 1,
             refused := s.refused ++ [record] }).noteDrop 1

end ToolActivityChannel

/-! ## Steps -/

/-- A channel with what it is in the middle of. While `close` waits for outstanding deliveries
it is `draining`. -/
structure ActivitySystem (δ : Type) where
  channel : ToolActivityChannel δ
  stack : List (Frame δ)
  draining : Bool
  deriving DecidableEq

/-- How a consumer's call ends. -/
inductive ConsumerOutcome where
  | returned
  | threw
  | promised
  deriving DecidableEq

/-- What is published, before the channel numbers it. -/
structure Publication (δ : Type) where
  lifecycle : String
  activity : String
  details : δ
  deriving DecidableEq

/-- Calls of the channel, the end of a consumer's call, a promise that settles, the wait of
`close` that ends, and the channel that goes on. In `close`, `lingering` is whether a settled
promise has not left its set yet. -/
inductive ActivityEvent (δ : Type) where
  | publish (publication : Publication δ)
  | subscribe (replay : Bool)
  | unsubscribe (subscriber : Nat)
  | close (lingering : Bool)
  | drained
  | advance
  | returns (outcome : ConsumerOutcome)
  | settles (subscriber promise : Nat) (accepted : Bool)
  deriving DecidableEq

namespace ActivitySystem

variable (config : ToolActivityConfig δ) (system : ActivitySystem δ)

def initial : ActivitySystem δ := ⟨⟨0, 0, false, [], []⟩, [], false⟩

/-- The program runs: no channel code is on the way, or a consumer's call is the innermost. -/
def mayCall : Bool :=
  match system.stack with
  | [] => true
  | .calling _ _ :: _ => true
  | _ => false

/-- Go on from a channel, with what is to be done before the rest. -/
def goOn (next : ToolActivityChannel δ × List (Frame δ)) (rest : List (Frame δ)) :
    ActivitySystem δ :=
  { system with channel := next.1, stack := next.2 ++ rest }

def publish (publication : Publication δ) : ActivitySystem δ :=
  if system.channel.closed then system
  -- An unknown lifecycle or kind throws before anything is numbered.
  else if !toolActivityLifecycles.contains publication.lifecycle ||
      !toolActivityKinds.contains publication.activity then system
  else
    let event := .event ⟨system.channel.sequence + 1, publication.lifecycle,
      publication.activity, system.channel.dropped, publication.details⟩
    let numbered := { system.channel with sequence := system.channel.sequence + 1 }
    if config.fits event then
      system.goOn (numbered.retain config event, [.publishing event 0]) system.stack
    else { system with channel := numbered.noteDrop 1 }

def subscribe (replay : Bool) : ActivitySystem δ :=
  if system.channel.closed then system
  else
    let added := { system.channel with
      subscribers := system.channel.subscribers ++ [.fresh] }
    system.goOn (added,
      if replay then [.replaying system.channel.subscribers.length 0] else []) system.stack

def unsubscribe (subscriber : Nat) : ActivitySystem δ :=
  { system with channel := system.channel.update subscriber fun s =>
    { s with active := false, member := false } }

/-- `close` up to its wait, or into its loop where nothing is outstanding. -/
def close (lingering : Bool) : ActivitySystem δ :=
  if system.channel.closed then system
  else
    let closed := { system.channel with closed := true }
    let outstanding := lingering || system.channel.subscribers.any fun s =>
      s.member && !s.promises.isEmpty
    if outstanding && config.closeDrainMs != 0 then
      { system with channel := closed, draining := true }
    else system.goOn (closed, [.closing 0 false]) system.stack

/-- The body of the loop of `close`, up to the end of its drop notice. -/
def closeOver (cursor : Nat) (s : Subscription δ) : ToolActivityChannel δ × List (Frame δ) :=
  let missed := { s with dropped := s.dropped + s.pending }
  let counted := (system.channel.update cursor fun s =>
    { s with dropped := s.dropped + s.pending }).noteDrop s.pending
  counted.flushDropNotice cursor missed

def advance : ActivitySystem δ :=
  match system.stack with
  | [] => system
  | .publishing record cursor :: rest =>
      match system.channel.subscribers[cursor]? with
      | none => { system with stack := rest }
      | some s => system.goOn
          (if s.member then system.channel.deliver config cursor record else (system.channel, []))
          (.publishing record (cursor + 1) :: rest)
  | .replaying subscriber index :: rest =>
      match system.channel.retained[index]? with
      | none => { system with stack := rest }
      | some record => system.goOn (system.channel.deliver config subscriber record)
          (.replaying subscriber (index + 1) :: rest)
  | .closing cursor false :: rest =>
      match system.channel.subscribers[cursor]? with
      | none => { system with
          channel := { system.channel with
            subscribers := system.channel.subscribers.map fun s => { s with member := false } }
          stack := rest }
      | some s =>
          if s.member then system.goOn (system.closeOver cursor s) (.closing cursor true :: rest)
          else { system with stack := .closing (cursor + 1) false :: rest }
  | .closing cursor true :: rest =>
      { system with
        channel := system.channel.update cursor fun s => { s with active := false }
        stack := .closing (cursor + 1) false :: rest }
  | .invoking subscriber record :: rest =>
      system.goOn (system.channel.invoke subscriber record) rest
  | .calling _ _ :: _ => system

/-- The innermost call of a consumer ends. -/
def returns (outcome : ConsumerOutcome) : ActivitySystem δ :=
  match system.stack with
  | .calling subscriber record :: rest =>
      let channel := match outcome with
        | .returned => system.channel.accept subscriber record
        | .threw => system.channel.refuse subscriber record
        | .promised => system.channel.update subscriber fun s =>
            { s with promises := s.promises ++ [record] }
      { system with channel := channel, stack := rest }
  | _ => system

/-- A promise settles, which no code of the channel or of a consumer is interrupted for. -/
def settles (subscriber promise : Nat) (accepted : Bool) : ActivitySystem δ :=
  match system.stack, system.channel.subscribers[subscriber]?.bind (·.promises[promise]?) with
  | [], some record =>
      let settled := system.channel.update subscriber fun s =>
        { s with promises := s.promises.eraseIdx promise }
      { system with channel :=
          if accepted then settled.accept subscriber record
          else settled.refuse subscriber record }
  | _, _ => system

/-- One step. A call that the program cannot make now changes nothing. -/
def next : ActivityEvent δ → ActivitySystem δ
  | .publish publication => if system.mayCall then system.publish config publication else system
  | .subscribe replay => if system.mayCall then system.subscribe replay else system
  | .unsubscribe subscriber => if system.mayCall then system.unsubscribe subscriber else system
  | .close lingering => if system.mayCall then system.close config lingering else system
  | .drained =>
      if system.draining && system.stack.isEmpty then
        { system with stack := [.closing 0 false], draining := false }
      else system
  | .advance => system.advance config
  | .returns outcome => system.returns outcome
  | .settles subscriber promise accepted => system.settles subscriber promise accepted

end ActivitySystem

/-- The steps of a channel with its program and its consumers. -/
def ActivitySystem.Steps (config : ToolActivityConfig δ) (system : ActivitySystem δ)
    (event : ActivityEvent δ) (next : ActivitySystem δ) : Prop :=
  next = system.next config event

/-! ## What the parts of a step do -/

section Parts

variable {config : ToolActivityConfig δ} {system : ActivitySystem δ}
  {channel : ToolActivityChannel δ} {subscriber : Nat} {s : Subscription δ}
  {record : ToolActivityRecord δ}

theorem update_subscribers? (subscriber other : Nat) (f : Subscription δ → Subscription δ) :
    (channel.update subscriber f).subscribers[other]? =
      if subscriber = other then channel.subscribers[other]?.map f
      else channel.subscribers[other]? := by
  simp only [ToolActivityChannel.update, List.getElem?_modify]
  split_ifs <;> simp

theorem update_update (f g : Subscription δ → Subscription δ) :
    (channel.update subscriber f).update subscriber g = channel.update subscriber (g ∘ f) := by
  simp [ToolActivityChannel.update, List.modify_modify_eq]

@[simp] theorem length_update (subscriber : Nat) (f : Subscription δ → Subscription δ) :
    (channel.update subscriber f).subscribers.length = channel.subscribers.length := by
  simp [ToolActivityChannel.update]

@[simp] theorem retain_subscribers (record : ToolActivityRecord δ) :
    (channel.retain config record).subscribers = channel.subscribers := by
  unfold ToolActivityChannel.retain
  split_ifs <;> rfl

@[simp] theorem retain_sequence (record : ToolActivityRecord δ) :
    (channel.retain config record).sequence = channel.sequence := by
  unfold ToolActivityChannel.retain
  split_ifs <;> rfl

@[simp] theorem retain_closed (record : ToolActivityRecord δ) :
    (channel.retain config record).closed = channel.closed := by
  unfold ToolActivityChannel.retain
  split_ifs <;> rfl

theorem mem_retain {r : ToolActivityRecord δ}
    (h : r ∈ (channel.retain config record).retained) : r ∈ channel.retained ∨ r = record := by
  unfold ToolActivityChannel.retain at h
  split_ifs at h with none full
  · exact .inl h
  · rcases List.mem_append.mp h with old | new
    · exact .inl (List.mem_of_mem_tail old)
    · exact .inr (by simpa using new)
  · simpa using h

/-- A change of one subscriber, with what it means for the others. -/
theorem each_update {P Q : Nat → Subscription δ → Prop} {f : Subscription δ → Subscription δ}
    (each : ∀ other s, channel.subscribers[other]? = some s → P other s)
    (own : ∀ s, channel.subscribers[subscriber]? = some s → P subscriber s → Q subscriber (f s))
    (others : ∀ other ≠ subscriber, ∀ s, P other s → Q other s) :
    ∀ other s, (channel.update subscriber f).subscribers[other]? = some s → Q other s := by
  intro other s found
  rw [update_subscribers?] at found
  split_ifs at found with its
  · subst its
    obtain ⟨before, was, rfl⟩ := Option.map_eq_some_iff.mp found
    exact own before was (each subscriber before was)
  · exact others other (Ne.symm its) s (each other s found)

/-- An addition of a subscriber. -/
theorem each_append {P Q : Nat → Subscription δ → Prop}
    (each : ∀ other s, channel.subscribers[other]? = some s → P other s)
    (kept : ∀ other s, P other s → Q other s) (new : Q channel.subscribers.length s) :
    ∀ other t, (channel.subscribers ++ [s])[other]? = some t → Q other t := by
  intro other t found
  rcases Nat.lt_trichotomy other channel.subscribers.length with old | rfl | beyond
  · exact kept other t (each other t (by simpa [List.getElem?_append_left old] using found))
  · obtain rfl : s = t := by simpa using found
    exact new
  · rw [List.getElem?_eq_none (by simp; omega)] at found
    cases found

/-! ### Delivering -/

theorem deliver_none (none : channel.subscribers[subscriber]? = none) :
    channel.deliver config subscriber record = (channel, []) := by
  simp [ToolActivityChannel.deliver, none]

theorem deliver_inactive (found : channel.subscribers[subscriber]? = some s)
    (inactive : s.active = false) :
    channel.deliver config subscriber record = (channel, []) := by
  simp [ToolActivityChannel.deliver, found, inactive]

theorem deliver_full (found : channel.subscribers[subscriber]? = some s) (active : s.active = true)
    (full : config.subscriberPendingCapacity ≤ s.pending) :
    channel.deliver config subscriber record =
      ((channel.update subscriber fun s =>
        { s with addressed := s.addressed ++ [record], dropped := s.dropped + 1 }).noteDrop 1,
        []) := by
  simp [ToolActivityChannel.deliver, found, active, full, update_update, Function.comp_def]

theorem deliver_prompt (found : channel.subscribers[subscriber]? = some s)
    (active : s.active = true) (room : s.pending < config.subscriberPendingCapacity)
    (reported : s.dropped = 0) :
    channel.deliver config subscriber record =
      (channel.update subscriber fun s =>
        { s with addressed := s.addressed ++ [record], pending := s.pending + 1,
                 handed := s.handed ++ [record] }, [.calling subscriber record]) := by
  simp [ToolActivityChannel.deliver, found, active, room, reported,
    ToolActivityChannel.flushDropNotice, ToolActivityChannel.invoke, update_update,
    Function.comp_def]

/-- The notice takes a later number than the record behind it. -/
theorem deliver_behind (found : channel.subscribers[subscriber]? = some s)
    (active : s.active = true) (room : s.pending < config.subscriberPendingCapacity)
    (missed : s.dropped ≠ 0) :
    channel.deliver config subscriber record =
      ({ channel.update subscriber fun t =>
          { t with addressed := t.addressed ++ [record], dropped := 0, pending := t.pending + 1,
                   handed := t.handed ++
                    [.notice ⟨channel.sequence + 1, s.dropped, channel.dropped⟩] } with
          sequence := channel.sequence + 1 },
        [.calling subscriber (.notice ⟨channel.sequence + 1, s.dropped, channel.dropped⟩),
          .invoking subscriber record]) := by
  simp [ToolActivityChannel.deliver, found, active, room, missed,
    ToolActivityChannel.flushDropNotice, ToolActivityChannel.invoke, ToolActivityChannel.update,
    List.modify_modify_eq, Function.comp_def]

/-! ### Closing -/

theorem closeOver_silent (silent : s.active = false ∨ s.dropped + s.pending = 0) :
    system.closeOver subscriber s = ((system.channel.update subscriber fun s =>
      { s with dropped := s.dropped + s.pending }).noteDrop s.pending, []) := by
  rcases silent with inactive | none
  · simp [ActivitySystem.closeOver, ToolActivityChannel.flushDropNotice, inactive]
  · simp [ActivitySystem.closeOver, ToolActivityChannel.flushDropNotice, none]

theorem closeOver_reports (active : s.active = true) (missed : s.dropped + s.pending ≠ 0) :
    system.closeOver subscriber s =
      ({ system.channel.update subscriber fun t =>
          { t with dropped := 0, pending := t.pending + 1,
                   handed := t.handed ++ [.notice ⟨system.channel.sequence + 1,
                    s.dropped + s.pending, system.channel.dropped + s.pending⟩] } with
          sequence := system.channel.sequence + 1,
          dropped := system.channel.dropped + s.pending },
        [.calling subscriber (.notice ⟨system.channel.sequence + 1, s.dropped + s.pending,
          system.channel.dropped + s.pending⟩)]) := by
  have some : s.dropped = 0 → ¬ s.pending = 0 := by omega
  simpa [ActivitySystem.closeOver, ToolActivityChannel.flushDropNotice, active,
    ToolActivityChannel.invoke, ToolActivityChannel.noteDrop, ToolActivityChannel.update,
    List.modify_modify_eq, Function.comp_def] using some

end Parts

end AdCoder.Observability
