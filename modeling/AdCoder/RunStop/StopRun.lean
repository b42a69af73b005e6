import AdCoder.RunStop.Processes

/-!
# Stopping a run

The identity a run recorded about itself is compared with the live process,
read by read. Then the stop request is written, SIGTERM is sent and, on demand,
SIGKILL follows after a bounded wait. The programmatic stop and the command
carry out the same steps and report them in their own words.
-/

namespace AdCoder.RunStop

open Foundation

def defaultRunStopKillAfterMs : Int := 2000

def killConfirmGraceMs : Nat := 1000

def alivePollMs : Nat := 50

/-- What a run recorded about its own process. -/
structure RunProcessIdentity where
  pid : Nat
  startTime : Option String
  procfsCtimeNs : Option String
  groupId : Option Nat
  deriving DecidableEq, Repr

structure LiveProcessIdentity where
  pid : Nat
  argv : List String
  startTime : Option String
  groupId : Option Nat
  state : Option String
  deriving DecidableEq, Repr

inductive RecordKind where
  | standalone
  | background
  deriving DecidableEq, Repr

structure StoppableRunRecord where
  kind : RecordKind
  path : String
  state : Option String
  identity : Option RunProcessIdentity
  cmdlineWitness : Option (String × String)
  deriving DecidableEq, Repr

structure ProjectStoreError where
  code : String
  message : String
  path : Option String
  deriving DecidableEq, Repr

/-- The checks made so far; a key that was not reached is absent. -/
structure Checked where
  pidAlive : Option Bool := none
  state : Option (Option String) := none
  startTimeMatches : Option (Option Bool) := none
  procfsCtimeMatches : Option (Option Bool) := none
  argvRead : Option Bool := none
  argv : Option (List String) := none
  targetDirInArgv : Option Bool := none
  witnessInArgv : Option Bool := none
  deriving DecidableEq, Repr

inductive Verification where
  | ok (live : LiveProcessIdentity)
  | failed (reason : String) (checked : Checked)
  deriving DecidableEq, Repr

section Verify

variable (evolution : Evolution) (identity : RunProcessIdentity)

/-- The pid-reuse guard: nothing is compared where one side is missing. -/
def startTimeMatches (stat : Option ProcessStat) : Option Bool := do
  let recorded ← identity.startTime
  let live ← stat
  return live.startTime == recorded

/-- The witness tokens stand next to each other. -/
def witnessInArgv (cmdlineWitness : Option (String × String)) (argv : List String) : Bool :=
  cmdlineWitness.any fun pair => (argv.zip (argv.drop 1)).contains pair

def missingTokens (cmdlineWitness : Option (String × String)) : String :=
  match cmdlineWitness with
  | none => "identity tokens"
  | some (first, second) => s!"{first} {second}"

/-- What the command line proves: it carries the target directory and the witness tokens. -/
def commandLineVerdict (stopperTargetDir : String) (cmdlineWitness : Option (String × String))
    (stat : Option ProcessStat) (checked : Checked) : Option (List String) → Verification
  | none =>
      .failed s!"command line of pid {identity.pid} could not be read for identification"
        { checked with argvRead := some false }
  | some argv =>
      let named := argv.contains stopperTargetDir
      let checked :=
        { checked with argvRead := some true, argv := some argv, targetDirInArgv := some named }
      let witnessed := witnessInArgv cmdlineWitness argv
      if !named then
        .failed
          (s!"command line of pid {identity.pid} does not carry the target directory " ++
            stopperTargetDir) checked
      else if !witnessed then
        .failed
          (s!"command line of pid {identity.pid} does not carry the run's own " ++
            missingTokens cmdlineWitness) { checked with witnessInArgv := some witnessed }
      else
        .ok
          { pid := identity.pid, argv, startTime := stat.map (·.startTime),
            groupId := stat.map (·.groupId), state := stat.map (·.state) }

def verifyCommandLine (stopperTargetDir : String) (cmdlineWitness : Option (String × String))
    (stat : Option ProcessStat) (checked : Checked) : Stopping Verification := do
  let argv ← readProcessArgv evolution identity.pid
  return commandLineVerdict identity stopperTargetDir cmdlineWitness stat checked argv

def verifyBirth (stopperTargetDir : String) (cmdlineWitness : Option (String × String))
    (stat : Option ProcessStat) (checked : Checked) : Stopping Verification := do
  let checked := { checked with procfsCtimeMatches := some none }
  match identity.procfsCtimeNs with
  | none => verifyCommandLine evolution identity stopperTargetDir cmdlineWitness stat checked
  | some recorded =>
      let current ← readProcessProcfsCtimeNs evolution identity.pid
      match current with
      | none =>
          return .failed
            s!"procfs birth witness of pid {identity.pid} could not be read for identification"
            checked
      | some current =>
          let checked := { checked with procfsCtimeMatches := some (some (current == recorded)) }
          if current == recorded then
            verifyCommandLine evolution identity stopperTargetDir cmdlineWitness stat checked
          else
            return .failed
              (s!"pid {identity.pid} procfs birth witness does not match the recorded process; " ++
                "the pid was reused") checked

/-- Compare the record's process identity with the live process. Nothing here signals. -/
def verifyStopTarget (stopperTargetDir : String) (cmdlineWitness : Option (String × String)) :
    Stopping Verification := do
  let alive ← processIsAlive evolution identity.pid
  if alive then
    let stat ← readProcessStat evolution identity.pid
    let checked : Checked := { state := some (stat.map (·.state)) }
    if stat.any (·.state == "Z") then
      return .failed s!"pid {identity.pid} exited and was never reaped (state Z)"
        { checked with pidAlive := some true }
    else
      let same := startTimeMatches identity stat
      let checked := { checked with startTimeMatches := some same }
      if same = some false then
        return .failed
          (s!"pid {identity.pid} start time {(stat.map (·.startTime)).getD default} does not " ++
            s!"match the recorded {identity.startTime.getD default}; the pid was reused") checked
      else
        verifyBirth evolution identity stopperTargetDir cmdlineWitness stat checked
  else
    return .failed s!"pid {identity.pid} is not alive" { pidAlive := some false }

end Verify

/-- The group to signal, when the record proves that the run leads it. -/
def provenGroup (identity : RunProcessIdentity) (live : LiveProcessIdentity) : Option Nat :=
  match identity.groupId, live.groupId with
  | some recorded, some group =>
      if recorded = identity.pid ∧ group = recorded then some recorded else none
  | _, _ => none

/-- Whether SIGKILL was sent, and when the death was confirmed. -/
structure Escalation where
  escalated : Bool
  exitAfterMs : Option Nat
  deriving DecidableEq, Repr

/-- How the steps of a stop ended. -/
inductive StopEnd where
  | unreadable (error : ProjectStoreError)
  | notFound
  | unidentified (record : StoppableRunRecord)
  | gone (reason : String)
  | unverified (record : StoppableRunRecord) (reason : String) (checked : Checked)
  | groupUnproven (identity : RunProcessIdentity) (liveGroup : Option Nat)
  | vanished
  | settled (kind : RecordKind) (pid : Nat) (groupId : Option Nat) (escalation : Escalation)
  deriving DecidableEq, Repr

section Steps

variable (evolution : Evolution)

/-- Sleep while the pid is alive and the deadline is ahead; `fuel` bounds the looks. -/
def pollWhileAlive (pid : Nat) (deadline : Int) : Nat → Stopping Unit
  | 0 => pure ()
  | fuel + 1 => do
      let alive ← processIsAlive evolution pid
      let now ← dateNow
      if alive ∧ now < deadline then
        sleep alivePollMs
        pollWhileAlive pid deadline fuel

/-- Every sleep brings the deadline nearer, so the looks are fewer than the milliseconds to it. -/
def waitForExit (pid : Nat) (deadline : Int) : Stopping Unit := do
  let now ← dateNow
  pollWhileAlive evolution pid deadline ((deadline - now).toNat + 1)

def killIfAlive (pid : Nat) (groupId : Option Nat) : Stopping Bool := do
  let alive ← processIsAlive evolution pid
  if alive then
    let _ ← signal evolution pid groupId .sigkill
    let now ← dateNow
    waitForExit evolution pid (now + killConfirmGraceMs)
  return alive

def confirmExit (pid : Nat) (started : Nat) (escalated : Bool) : Stopping Escalation := do
  let alive ← processIsAlive evolution pid
  let ended ← dateNow
  return ⟨escalated, if alive then none else some (ended - started)⟩

/-- The opt-in escalation. The liveness read is the run's own pid, in group mode too. -/
def escalate (pid : Nat) (groupId : Option Nat) (killAfterMs : Int) : Stopping Escalation := do
  let started ← dateNow
  waitForExit evolution pid (started + killAfterMs)
  let escalated ← killIfAlive evolution pid groupId
  confirmExit evolution pid started escalated

/-- A confirmed death leaves nobody to consume the request. -/
def settle (kind : RecordKind) (pid : Nat) (groupId : Option Nat) (escalation : Escalation) :
    Stopping StopEnd := do
  if escalation.exitAfterMs.isSome then
    consumeRunStopRequest
  return .settled kind pid groupId escalation

/-- Where and how a stop is asked for. -/
structure StopOptions where
  runId : String
  targetDir : String
  kill : Bool
  group : Bool
  killAfterMs : Int

variable (requesterPid : Nat) (options : StopOptions)

/-- The signals to a verified process, the stop request before the first of them. -/
def signalVerified (kind : RecordKind) (pid : Nat) (groupId : Option Nat) : Stopping StopEnd := do
  writeRunStopRequest requesterPid options.runId .sigterm
  let delivery ← signal evolution pid groupId .sigterm
  match delivery with
  | .alreadyGone =>
      consumeRunStopRequest
      return .vanished
  | .delivered =>
      let escalation ←
        if options.kill then escalate evolution pid groupId options.killAfterMs
        else pure ⟨false, none⟩
      settle kind pid groupId escalation

def stopIdentified (record : StoppableRunRecord) (identity : RunProcessIdentity) :
    Stopping StopEnd := do
  let verification ←
    verifyStopTarget evolution identity options.targetDir record.cmdlineWitness
  match verification with
  | .failed reason checked =>
      if checked.pidAlive = some false ∨ checked.state = some (some "Z") then return .gone reason
      else return .unverified record reason checked
  | .ok live =>
      if options.group then
        match provenGroup identity live with
        | none => return .groupUnproven identity live.groupId
        | some groupId =>
            signalVerified evolution requesterPid options record.kind identity.pid (some groupId)
      else signalVerified evolution requesterPid options record.kind identity.pid none

/-- The steps of a stop, from the record that was found under the run id. -/
def stopSteps (found : Except ProjectStoreError (Option StoppableRunRecord)) :
    Stopping StopEnd :=
  match found with
  | .error error => return .unreadable error
  | .ok none => return .notFound
  | .ok (some record) =>
      match record.identity with
      | none => return .unidentified record
      | some identity => stopIdentified evolution requesterPid options record identity

end Steps

/-! ## The two fronts -/

/-- The facts a refusal prints. -/
inductive RefusalChecked where
  | record (recordRead : String) (record : Option String)
  | identity (state : Option String) (record : String)
  | verification (checked : Checked)
  | group (pid : Nat) (recordedGroup liveGroup : Option Nat)
  deriving DecidableEq, Repr

/-- The stop confirmed the death. -/
def StopEnd.stopped : StopEnd → Bool
  | .settled _ _ _ escalation => escalation.exitAfterMs.isSome
  | _ => false

structure StopRunSuccess where
  runId : String
  kind : RecordKind
  pid : Nat
  groupId : Option Nat
  escalated : Bool
  exited : Bool
  exitAfterMs : Option Nat
  deriving DecidableEq, Repr

/-- Paths are given by their segments. -/
inductive StopRunOutcome where
  | stopped (result : StopRunSuccess)
  | signalled (result : StopRunSuccess)
  | alreadyGone (runId reason nextAction : String)
  | notFound (runId : String) (checked : List (List String)) (nextAction : String)
  | refused (runId reason : String) (checked : RefusalChecked) (nextAction : String)
  deriving DecidableEq, Repr

def StopRunOutcome.isStopped : StopRunOutcome → Bool
  | .stopped _ => true
  | _ => false

/-- The record files a run id may stand in. -/
def recordFiles (targetDir runId : String) : List (List String) :=
  [[targetDir, ".ad-coder", "runs", s!"standalone-{runId}.json"],
    [targetDir, ".ad-coder", "runs", "background", s!"{runId}.json"]]

def nothingToStop : String := "nothing to stop; resume from durable state if the run is paused"

def stopRunOutcome (options : StopOptions) : StopEnd → StopRunOutcome
  | .unreadable error =>
      .refused options.runId s!"the run record could not be read: {error.message}"
        (.record error.code error.path)
        "inspect the record file; a corrupt record names no trustworthy pid"
  | .notFound =>
      .notFound options.runId (recordFiles options.targetDir options.runId)
        "check the run id and exact target directory spelling"
  | .unidentified record =>
      .refused options.runId "the run record carries no process identity"
        (.identity record.state record.path) "restart the run so it records its process identity"
  | .gone reason => .alreadyGone options.runId reason nothingToStop
  | .unverified record reason checked =>
      .refused options.runId reason (.verification checked)
        s!"inspect {record.path}; it must name this run's live process"
  | .groupUnproven identity liveGroup =>
      .refused options.runId "the record does not prove the run leads its own process group"
        (.group identity.pid identity.groupId liveGroup)
        "drop group mode or restart the run under a detached group-owning launcher"
  | .vanished =>
      .alreadyGone options.runId "the process exited between identity verification and SIGTERM"
        nothingToStop
  | .settled kind pid groupId escalation =>
      let exited := escalation.exitAfterMs.isSome
      let result : StopRunSuccess :=
        { runId := options.runId, kind, pid, groupId, escalated := escalation.escalated, exited,
          exitAfterMs := escalation.exitAfterMs }
      if exited then .stopped result else .signalled result

structure StopRunInput where
  runId : String
  targetDir : String
  kill : Option Bool
  group : Option Bool
  killAfterMs : Option Int

def StopRunInput.options (input : StopRunInput) : StopOptions :=
  { runId := input.runId
    targetDir := input.targetDir
    kill := input.kill.getD false
    group := input.group.getD false
    killAfterMs := input.killAfterMs.getD defaultRunStopKillAfterMs }

/-- The programmatic stop. -/
def stopRun (evolution : Evolution) (requesterPid : Nat)
    (found : Except ProjectStoreError (Option StoppableRunRecord)) (input : StopRunInput) :
    Stopping StopRunOutcome := do
  let ended ← stopSteps evolution requesterPid input.options found
  return stopRunOutcome input.options ended

/-- What the command prints; the structured and the plain front print the same facts. -/
inductive CommandReport where
  | refused (detail text : String) (checked : RefusalChecked) (nextAction : String)
  | notFound (text nextAction : String) (names : List (List String))
  | alreadyGone (detail text nextAction : String)
  | result (status kind : String) (pid : Nat) (group : Option Nat) (escalated : Bool)
      (exitAfterMs : Option Nat)
  deriving DecidableEq, Repr

structure CommandExit where
  code : Nat
  report : CommandReport
  deriving DecidableEq, Repr

def CommandExit.isStopped (exit : CommandExit) : Bool :=
  match exit.report with
  | .result status .. => status == "stopped"
  | _ => false

def RecordKind.words : RecordKind → String
  | .standalone => "standalone role run"
  | .background => "background run"

def groupText (group : Option Nat) : String := (group.map toString).getD "none"

def commandExit (options : StopOptions) : StopEnd → CommandExit
  | .unreadable error =>
      ⟨3, .refused options.runId s!"the run record could not be read: {error.message}"
        (.record error.code error.path)
        "inspect the record file; a corrupt record names no trustworthy pid"⟩
  | .notFound =>
      ⟨3, .notFound
        s!"no run record named {options.runId} under {options.targetDir}/.ad-coder/runs; nothing was signalled"
        "check the run id and the --target-dir spelling (the record lives under <target>/.ad-coder/runs/)"
        (recordFiles options.targetDir options.runId)⟩
  | .unidentified record =>
      ⟨3, .refused options.runId
        s!"the {record.kind.words} record carries no process identity; nothing recorded a pid for it"
        (.identity record.state record.path)
        "records written before a run recorded its own process name no pid; restart the run to record one"⟩
  | .gone reason =>
      ⟨1, .alreadyGone options.runId
        s!"run {options.runId} is already gone ({reason}); nothing was signalled"
        "nothing to stop; resume the run from its durable state if its record is paused"⟩
  | .unverified record reason checked =>
      ⟨3, .refused options.runId reason (.verification checked)
        s!"inspect {record.path}; the record's identity must name this run's own live process"⟩
  | .groupUnproven identity liveGroup =>
      ⟨3, .refused options.runId
        ("the record does not prove the run leads its own process group (recorded group " ++
          s!"{groupText identity.groupId}, live group {groupText liveGroup}, pid {identity.pid}); " ++
          "the group may belong to the lane that started the run")
        (.group identity.pid identity.groupId liveGroup)
        "drop --group to signal the pid alone, or restart the run under a launcher that makes it a group leader"⟩
  | .vanished =>
      ⟨1, .alreadyGone options.runId
        (s!"run {options.runId} is already gone: it exited between the identity checks and the " ++
          "signal; nothing was signalled")
        "nothing to stop; resume the run from its durable state if its record is paused"⟩
  | .settled kind pid groupId escalation =>
      ⟨0, .result (if escalation.exitAfterMs.isSome then "stopped" else "signalled") kind.words pid
        groupId escalation.escalated escalation.exitAfterMs⟩

/-- The command: the same steps, then the process exits with what it reports. -/
def runsStopCommand (evolution : Evolution) (requesterPid : Nat)
    (found : Except ProjectStoreError (Option StoppableRunRecord)) (params : StopOptions) :
    Stopping CommandExit := do
  let ended ← stopSteps evolution requesterPid params found
  return commandExit params ended

end AdCoder.RunStop
