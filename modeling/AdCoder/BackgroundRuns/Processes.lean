import AdCoder.BackgroundRuns.Manager

/-!
# Processes that share the record of a run

Every process has a manager of the run's owner, and the store gives each access
to the record in one piece. A method of a manager may make several accesses;
between two of them other processes act, and the manager itself does not. The
promise and the timers of a launched run act between the methods.
-/

namespace AdCoder.BackgroundRuns

open Foundation Orchestration ProjectOperations

/-- The methods that begin with a look at the record. -/
inductive Call where
  | observe
  | pendingWakes
  | cancel
  | claim (workerId : String) (process : RunProcessIdentity)
  | projectPause (reason : Pause) (metrics : RunMetrics) (segment : List StepCost)
  | projectResult (result : RunPipelineResult)

/-- The access that a method makes next. -/
inductive Point where
  | idle
  | reading (call : Call)
  | reaping (call : Call)
  | claiming (workerId : String) (process : RunProcessIdentity)
  | writing (work : Work)

/-- A manager, with the windows that its `pendingWakes` reported last; while it launches,
`startDetached` awaits the host. -/
structure Manager where
  entry : Option Entry := none
  point : Point := .idle
  pending : List WakeEntry := []
  launching : Bool := false

/-- What happens in a process. -/
inductive Action where
  | construct
  | call (call : Call)
  | access
  | promise (work : Work)
  | settle
  | heartbeat
  | timeout
  | launched
  | launchFails
  | mark (marks : Marks)

def Action.accesses : Action → Bool
  | access => true
  | _ => false

/-- The methods of a foreground resume. -/
def Call.projects : Call → Bool
  | projectPause _ _ _ | projectResult _ => true
  | _ => false

def Action.projects : Action → Bool
  | call method => method.projects
  | _ => false

/-- The work whose result is written next. -/
def Point.work? : Point → Option Work
  | writing work => some work
  | _ => none

structure Event where
  manager : Nat
  now : Nat
  action : Action

/-- What the manager writes next is written under a condition. -/
def Manager.Writes (allowed : Entry → Work → Prop) (m : Manager) (action : Action) : Prop :=
  action.accesses = true → ∀ e ∈ m.entry, ∀ work ∈ m.point.work?, allowed e work

instance (allowed : Entry → Work → Prop) [∀ e work, Decidable (allowed e work)] (m : Manager)
    (action : Action) : Decidable (m.Writes allowed action) := inferInstanceAs (Decidable (_ → _))

section Managers

variable (config : BackgroundRunConfig)

/-! ## Methods -/

/-- A method goes on with the entry that it found. -/
def Manager.resume (m : Manager) (e : Entry) : Call → Manager
  | .observe => { m with point := .idle }
  | .pendingWakes => { m with point := .idle, pending := pendingOf config e }
  | .cancel => { m with point := if e.lifecycle.isTerminal then .idle else .writing .cancel }
  | .claim workerId process => { m with
      point := if e.lifecycle = .requested ∧ e.lease = none then .claiming workerId process
        else .idle }
  | .projectPause reason metrics segment => { m with
      point := if e.active then .idle else .writing (.projectPause reason metrics segment) }
  | .projectResult result => { m with
      point := if e.active then .idle else .writing (.projectResult result) }

/-- `owned`; only the entry of a run that is not active is refreshed. -/
def Manager.call (m : Manager) (e : Entry) (call : Call) : Manager :=
  if e.active then m.resume config e call else { m with point := .reading call }

/-- An unreadable record ends a method, but not `pendingWakes`. -/
def Manager.unreadable (m : Manager) (e : Entry) : Call → Manager
  | .pendingWakes => m.resume config e .pendingWakes
  | _ => { m with point := .idle }

/-- `refresh`. -/
def Manager.refresh (now : Nat) (record : Option PersistedEntry) (m : Manager) (e : Entry)
    (call : Call) : Manager :=
  match record with
  | none => m.resume config e call
  | some record =>
      match parsePersistedEntry record.toJson with
      | .error _ => m.unreadable config e call
      | .ok persisted =>
          if persisted.ownerId ≠ config.ownerId then m.resume config e call
          else
            let e := e.ofRecord persisted
            let m := { m with entry := some e }
            if reapDue config now e.lifecycle e.lease e.events then
              { m with point := .reaping call }
            else m.resume config e call

/-- `load`; the entry is abandoned, or reaped, if nobody works on the run. -/
def Manager.load (now : Nat) (record : Option PersistedEntry) : Manager :=
  match record with
  | none => {}
  | some record =>
      match parsePersistedEntry record.toJson with
      | .error _ => {}
      | .ok persisted =>
          if persisted.ownerId ≠ config.ownerId then {}
          else if reapDue config now persisted.lifecycle persisted.lease persisted.events then
            { entry := some (loadedEntry persisted), point := .reaping .observe }
          else if abandoned config now persisted then
            { entry := some (loadedEntry persisted), point := .writing .abandon }
          else { entry := some (loadedEntry persisted) }

/-! ## Accesses -/

/-- `reapStaleRequested`, on the record as it now is. -/
def Manager.reap (now : Nat) (record : Option PersistedEntry) (m : Manager) (e : Entry)
    (call : Call) : Manager × Option PersistedEntry :=
  let e := { e with cancelled := true }
  let m := { m with entry := some e }
  match record with
  | none => (m.resume config e call, none)
  | some record =>
      if reapDue config now record.lifecycle record.lease record.events then
        ({ m with point := .reading call }, some (reaped config now record))
      else (m.resume config e call, some record)

/-- `claim` writes its lease and identity into an unclaimed record, and launches. -/
def Manager.claim (now : Nat) (record : Option PersistedEntry) (m : Manager) (e : Entry)
    (workerId : String) (process : RunProcessIdentity) : Manager × Option PersistedEntry :=
  match record with
  | none => ({ m with point := .idle }, none)
  | some record =>
      if record.lifecycle = .requested ∧ record.lease = none then
        let e := { e with active := true, lease := some ⟨workerId, now⟩, process := some process }
        ({ m with entry := some e, point := .writing (.launch workerId) },
          some { record with lease := some ⟨workerId, now⟩, process := some process })
      else ({ m with point := .idle }, some record)

/-- What a method does after its write. -/
def Work.next : Work → Point
  | .create (some workerId) => .writing (.launch workerId)
  | .failLaunch => .writing .persist
  | _ => .idle

/-- `persist`, after work on the copy. -/
def Manager.write (now : Nat) (record : Option PersistedEntry) (m : Manager) (e : Entry)
    (work : Work) : Manager × Option PersistedEntry :=
  let e := work.run config now e
  ({ m with entry := some e, point := work.next }, some (e.persisted config record))

def Manager.access (now : Nat) (record : Option PersistedEntry) (m : Manager) (e : Entry) :
    Manager × Option PersistedEntry :=
  match m.point with
  | .idle => (m, record)
  | .reading call => (m.refresh config now record e call, record)
  | .reaping call => m.reap config now record e call
  | .claiming workerId process => m.claim now record e workerId process
  | .writing work => m.write config now record e work

/-! ## Promise, timers and marks -/

/-- When the promise does the work. -/
def Work.promisedAt : Work → Progress
  | .begin => .scheduled
  | .stage _ | .complete _ | .pause _ _ | .attention | .fail => .executing
  | _ => .idle

/-- Whether the executor goes on after the work. -/
def Work.goesOn : Work → Bool
  | .stage _ => true
  | _ => false

/-- A cancelled run's promise does nothing more but settle. -/
def Manager.promise (m : Manager) (e : Entry) (work : Work) : Manager :=
  if e.cancelled = false then { m with point := .writing work }
  else if work.goesOn then m
  else { m with entry := some { e with progress := .settling } }

/-- What a manager does between its methods. -/
def Manager.between (m : Manager) (e : Entry) : Action → Manager
  | .call call => m.call config e call
  | .promise work =>
      if e.progress ≠ .idle ∧ work.promisedAt = e.progress then m.promise e work else m
  | .settle => if e.progress = .settling then { m with point := .writing .settle } else m
  | .heartbeat =>
      if e.leaseTimer ∧ e.active ∧ e.lease ≠ none then { m with point := .writing .heartbeat }
      else m
  | .timeout =>
      if e.timer ∧ e.lifecycle.isTerminal = false then { m with point := .writing .timeout }
      else m
  | .launched => { m with launching := false }
  | .launchFails =>
      if m.launching then { m with launching := false, point := .writing .failLaunch } else m
  | _ => m

/-- `markWakesHandled`, on the copy and on the record. -/
def Manager.mark (now : Nat) (record : Option PersistedEntry) (m : Manager) (marks : Marks) :
    Manager × Option PersistedEntry :=
  ({ m with entry := m.entry.map fun e => { e with wake := marks.handle now e.wake } },
    record.map fun record =>
      { record with wake := some (marks.handle now (record.wake.getD [])) })

/-- A process may be replaced at any time; between two accesses of a method it does
nothing else. -/
def Manager.act (now : Nat) (record : Option PersistedEntry) (m : Manager) (action : Action) :
    Manager × Option PersistedEntry :=
  match action, m.entry, m.point with
  | .construct, _, _ => (Manager.load config now record, record)
  | .mark marks, _, .idle => m.mark now record marks
  | .access, some e, _ => m.access config now record e
  | action, some e, .idle => (m.between config e action, record)
  | _, _, _ => (m, record)

/-- What an action does, in five cases. -/
theorem Manager.act_cases (now : Nat) (record : Option PersistedEntry) (m : Manager)
    (action : Action) :
    (action = .construct ∧
      m.act config now record action = (Manager.load config now record, record)) ∨
    (∃ marks, action = .mark marks ∧ m.point = .idle ∧
      m.act config now record action = m.mark now record marks) ∨
    (∃ e, action = .access ∧ m.entry = some e ∧
      m.act config now record action = m.access config now record e) ∨
    (∃ e, m.entry = some e ∧ m.point = .idle ∧
      m.act config now record action = (m.between config e action, record)) ∨
    m.act config now record action = (m, record) := by
  unfold Manager.act
  split
  · exact .inl ⟨rfl, rfl⟩
  · exact .inr (.inl ⟨_, rfl, ‹_›, rfl⟩)
  · exact .inr (.inr (.inl ⟨_, rfl, ‹_›, rfl⟩))
  · exact .inr (.inr (.inr (.inl ⟨_, ‹_›, ‹_›, rfl⟩)))
  · exact .inr (.inr (.inr (.inr rfl)))

end Managers

/-! ## The system -/

/-- The record on disk and the manager of each process. -/
structure World where
  record : Option PersistedEntry
  managers : Nat → Manager

namespace World

variable (config : BackgroundRunConfig)

/-- Manager `0` has created the run, for a worker of its own or for a detached one. -/
def initial (workerId : Option String) : World where
  record := none
  managers := fun p =>
    if p = 0 then
      { entry := some (createdEntry workerId.isSome), point := .writing (.create workerId),
        launching := workerId.isNone }
    else {}

def apply (world : World) (event : Event) : World :=
  let (m, record) := (world.managers event.manager).act config event.now world.record event.action
  { record := record, managers := Function.update world.managers event.manager m }

def Steps (world : World) (event : Event) (next : World) : Prop := next = world.apply config event

/-- A host whose additions are exact. -/
def plainConfig : BackgroundRunConfig where
  ownerId := "owner"
  runId := "run"
  maxEventsPerRun := 0
  maxRunMs := 0
  leaseMs := 15000
  maxWakeEntriesPerRun := 64
  wakeKinds := none
  addCost
    | .finite a, .finite b => .finite (a + b)
    | _, _ => .nan

/-- The owner creates a detached run; a worker claims, launches and begins it. -/
def startedScript : List Event :=
  [⟨0, 1, .access⟩, ⟨1, 2, .construct⟩, ⟨1, 3, .call (.claim "worker" ⟨7, none, none, none⟩)⟩,
   ⟨1, 3, .access⟩, ⟨1, 4, .access⟩, ⟨1, 5, .access⟩, ⟨1, 6, .promise .begin⟩, ⟨1, 6, .access⟩,
   ⟨0, 7, .launched⟩]

end World

end AdCoder.BackgroundRuns
