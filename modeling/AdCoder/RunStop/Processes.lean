import AdCoder.Foundation.Effects

/-!
# Processes and signals

A stop looks at one process through separate system calls, and the process
table may change between any two of them. The table that each call sees is
given from outside; a run of the procedure records what every call was
answered.
-/

namespace AdCoder.RunStop

open Foundation

/-- A process as the kernel and procfs show it. -/
structure Process where
  pid : Nat
  groupId : Nat
  startTime : String
  /-- The procfs state letter; `Z` is an exited process nobody has reaped yet. -/
  state : String
  procfsCtimeNs : Option String
  argv : Option (List String)
  /-- Whether `/proc/<pid>/stat` says anything to this host. -/
  visible : Bool
  /-- Whether this host may signal the process. -/
  permitted : Bool
  deriving DecidableEq, Repr

/-- The table one system call sees and the milliseconds passed since the clock was last moved. -/
structure Moment where
  processes : List Process
  elapsed : Nat

/-- The process table over time, one moment for each system call. -/
abbrev Evolution := Nat → Moment

namespace Moment

variable (moment : Moment) (pid : Nat)

def process? : Option Process := moment.processes.find? (·.pid == pid)

/-- The processes that a signal to a pid, or to a group, is meant for. -/
def targets (groupId : Option Nat) : List Process :=
  match groupId with
  | none => moment.processes.filter (·.pid == pid)
  | some group => moment.processes.filter (·.groupId == group)

end Moment

structure ProcessStat where
  state : String
  groupId : Nat
  startTime : String
  deriving DecidableEq, Repr

def Process.stat? (process : Process) : Option ProcessStat :=
  if process.visible then some ⟨process.state, process.groupId, process.startTime⟩ else none

inductive Signal where
  | sigterm
  | sigkill
  deriving DecidableEq, Repr

/-- How the kernel answers a signal. -/
inductive KillAnswer where
  | delivered
  | esrch
  | eperm
  deriving DecidableEq, Repr

def Moment.kill (moment : Moment) (pid : Nat) (groupId : Option Nat) : KillAnswer :=
  let targets := moment.targets pid groupId
  if targets.isEmpty then .esrch else if targets.any (·.permitted) then .delivered else .eperm

/-- The stop request as it stands on disk. -/
structure RunStopRequest where
  runId : String
  requestedAt : Nat
  requesterPid : Nat
  signal : Signal
  deriving DecidableEq, Repr

/-- What a stop did, with what it was answered. A liveness read shows the process it found. -/
inductive Event where
  | probed (found : Option Process)
  | stat (answer : Option ProcessStat)
  | ctime (answer : Option String)
  | argv (answer : Option (List String))
  | requested (request : RunStopRequest)
  | consumed
  | signalled (groupId : Option Nat) (value : Signal) (answer : KillAnswer)
  | slept
  deriving DecidableEq, Repr

/-- A stop in progress: the system calls made, the clock and what happened, latest first. -/
structure Progress where
  calls : Nat
  now : Nat
  events : List Event

/-- A signal that this host may not send is the one failure that propagates. -/
inductive SystemError where
  | eperm
  deriving DecidableEq, Repr

abbrev Stopping (α : Type) := Effect Progress SystemError α

namespace Progress

variable (evolution : Evolution) (progress : Progress)

def moment : Moment := evolution progress.calls

/-- One more system call was made and left an event. -/
def call (event : Event) : Progress :=
  { calls := progress.calls + 1
    now := progress.now + (progress.moment evolution).elapsed
    events := event :: progress.events }

def note (event : Event) : Progress := { progress with events := event :: progress.events }

@[simp] theorem call_calls (event : Event) :
    (progress.call evolution event).calls = progress.calls + 1 := rfl

@[simp] theorem call_now (event : Event) :
    (progress.call evolution event).now = progress.now + (evolution progress.calls).elapsed := rfl

@[simp] theorem call_events (event : Event) :
    (progress.call evolution event).events = event :: progress.events := rfl

@[simp] theorem note_calls (event : Event) : (progress.note event).calls = progress.calls := rfl

@[simp] theorem note_now (event : Event) : (progress.note event).now = progress.now := rfl

@[simp] theorem note_events (event : Event) :
    (progress.note event).events = event :: progress.events := rfl

end Progress

section Calls

variable (evolution : Evolution) (pid : Nat)

/-- One read of the table at the moment of the call. -/
def observe {α : Type} (see : Moment → α) (record : α → Event) : Stopping α :=
  Effect.act fun progress =>
    let seen := see (progress.moment evolution)
    (.ok seen, progress.call evolution (record seen))

def processIsAlive : Stopping Bool := do
  let found ← observe evolution (·.process? pid) .probed
  return found.isSome

def readProcessStat : Stopping (Option ProcessStat) :=
  observe evolution (fun moment => (moment.process? pid).bind Process.stat?) .stat

def readProcessProcfsCtimeNs : Stopping (Option String) :=
  observe evolution (fun moment => (moment.process? pid).bind (·.procfsCtimeNs)) .ctime

def readProcessArgv : Stopping (Option (List String)) :=
  observe evolution (fun moment => (moment.process? pid).bind (·.argv)) .argv

def dateNow : Stopping Nat := Effect.act fun progress => (.ok progress.now, progress)

def sleep (ms : Nat) : Stopping Unit :=
  Effect.act fun progress =>
    (.ok (), { progress with now := progress.now + ms, events := .slept :: progress.events })

def writeRunStopRequest (requesterPid : Nat) (runId : String) (value : Signal) : Stopping Unit :=
  Effect.act fun progress =>
    (.ok (), progress.note (.requested ⟨runId, progress.now, requesterPid, value⟩))

def consumeRunStopRequest : Stopping Unit :=
  Effect.act fun progress => (.ok (), progress.note .consumed)

inductive Delivery where
  | delivered
  | alreadyGone
  deriving DecidableEq, Repr

def signal (groupId : Option Nat) (value : Signal) : Stopping Delivery := do
  let answer ← observe evolution (·.kill pid groupId) (.signalled groupId value)
  match answer with
  | .delivered => return .delivered
  | .esrch => return .alreadyGone
  | .eperm => throw .eperm

end Calls

section Runs

variable (evolution : Evolution) (pid : Nat) (progress : Progress)

open Effect

theorem runOn_observe {α : Type} (see : Moment → α) (record : α → Event) :
    (observe evolution see record).runOn progress =
      (.ok (see (evolution progress.calls)),
        progress.call evolution (record (see (evolution progress.calls)))) := rfl

@[simp] theorem runOn_processIsAlive :
    (processIsAlive evolution pid).runOn progress =
      (.ok ((evolution progress.calls).process? pid).isSome,
        progress.call evolution (.probed ((evolution progress.calls).process? pid))) := rfl

@[simp] theorem runOn_readProcessStat :
    (readProcessStat evolution pid).runOn progress =
      (.ok (((evolution progress.calls).process? pid).bind Process.stat?),
        progress.call evolution
          (.stat (((evolution progress.calls).process? pid).bind Process.stat?))) := rfl

@[simp] theorem runOn_readProcessProcfsCtimeNs :
    (readProcessProcfsCtimeNs evolution pid).runOn progress =
      (.ok (((evolution progress.calls).process? pid).bind (·.procfsCtimeNs)),
        progress.call evolution
          (.ctime (((evolution progress.calls).process? pid).bind (·.procfsCtimeNs)))) := rfl

@[simp] theorem runOn_dateNow : dateNow.runOn progress = (.ok progress.now, progress) := rfl

/-- A signal answered by no such process is no failure; one that is not permitted is. -/
theorem runOn_signal (groupId : Option Nat) (value : Signal) :
    (signal evolution pid groupId value).runOn progress =
      (match (evolution progress.calls).kill pid groupId with
        | .delivered => .ok .delivered
        | .esrch => .ok .alreadyGone
        | .eperm => .error .eperm,
        progress.call evolution
          (.signalled groupId value ((evolution progress.calls).kill pid groupId))) := by
  rw [signal, runOn_bind, runOn_observe]
  cases (evolution progress.calls).kill pid groupId <;> rfl

end Runs

end AdCoder.RunStop
