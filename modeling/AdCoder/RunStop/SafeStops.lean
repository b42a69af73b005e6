import AdCoder.RunStop.StopRun

/-!
# When a stop is safe

A stop is safe when the identity was checked right before every signal, when the
stop request is on disk for the first signal and gone once nothing needs it, and
when a run that is over is reported as stopped. The evolutions of the process
table for which that holds are characterised exactly.
-/

namespace AdCoder.RunStop

open Foundation Effect

/-! ## What is asked of a stop -/

def Event.isSignal : Event → Bool
  | .signalled .. => true
  | _ => false

/-- The reads and the sleeps of a stop. -/
def Event.isLook : Event → Bool
  | .signalled .. | .requested _ | .consumed => false
  | _ => true

/-- What happened since the last sleep. -/
def sinceSleep (events : List Event) : List Event := events.takeWhile (· != .slept)

/-- The live start time was the recorded one and, for a group, this process led it. -/
def CheckedFor (pid : Nat) (startTime : String) (groupId : Option Nat) (before : List Event) :
    Prop :=
  ∃ stat, Event.stat (some stat) ∈ sinceSleep before ∧ stat.startTime = startTime ∧
    ∀ group ∈ groupId, group = pid ∧ stat.groupId = group

/-- `P` holds of what had happened before each signal. -/
def BeforeEachSignal (P : Option Nat → List Event → Prop) : List Event → Prop
  | [] => True
  | .signalled groupId _ _ :: before => P groupId before ∧ BeforeEachSignal P before
  | _ :: before => BeforeEachSignal P before

/-- The stop request of this call is on disk. -/
def requestOnDisk : List Event → Bool
  | [] => false
  | .requested _ :: _ => true
  | .consumed :: _ => false
  | _ :: before => requestOnDisk before

def NothingDelivered (events : List Event) : Prop :=
  ∀ groupId value, Event.signalled groupId value .delivered ∉ events

/-- What the last liveness read after the first signal found. -/
def lastLook : List Event → Option (Option Process)
  | [] => none
  | .probed found :: before => if before.any Event.isSignal then some found else none
  | _ :: before => lastLook before

/-- The recorded process is there and not a zombie. -/
def Running (startTime : String) (found : Option Process) : Prop :=
  ∃ process ∈ found, process.startTime = startTime ∧ process.state ≠ "Z"

/-- A finished call that signals only its run, leaves no request behind and reports a death. -/
structure Safe {α : Type} (pid : Nat) (startTime : String) (kill : Bool) (stopped : α → Prop)
    (run : Except SystemError α × Progress) : Prop where
  checked : BeforeEachSignal (CheckedFor pid startTime) run.2.events
  witnessed : BeforeEachSignal (fun _ before => requestOnDisk before) run.2.events
  removed : NothingDelivered run.2.events ∨ lastLook run.2.events = some none →
    requestOnDisk run.2.events = false
  reported : kill → ∀ found, lastLook run.2.events = some found → ¬ Running startTime found →
    ∃ outcome, run.1 = .ok outcome ∧ stopped outcome

/-! ## The evolutions that keep it safe -/

section Conditions

variable (evolution : Evolution) (identity : RunProcessIdentity)

def statAt (pid call : Nat) : Option ProcessStat :=
  ((evolution call).process? pid).bind Process.stat?

/-- The system call that reads the command line. -/
def argvCall (first : Nat) : Nat := if identity.procfsCtimeNs.isSome then first + 3 else first + 2

/-- Each read of the identity checks, begun with system call `first`, finds what it must. -/
structure Identified (targetDir : String) (cmdlineWitness : Option (String × String))
    (first : Nat) : Prop where
  alive : ((evolution first).process? identity.pid).isSome
  noZombie : ∀ stat ∈ statAt evolution identity.pid (first + 1), stat.state ≠ "Z"
  sameStart : startTimeMatches identity (statAt evolution identity.pid (first + 1)) ≠ some false
  sameBirth : ∀ recorded ∈ identity.procfsCtimeNs,
    ((evolution (first + 2)).process? identity.pid).bind (·.procfsCtimeNs) = some recorded
  named : ∃ argv,
    ((evolution (argvCall identity first)).process? identity.pid).bind (·.argv) = some argv ∧
      argv.contains targetDir ∧ witnessInArgv cmdlineWitness argv

/-- The record and the live process prove that the run leads its group. -/
def LeadsGroup (call : Nat) : Prop :=
  identity.groupId = some identity.pid ∧
    (statAt evolution identity.pid call).map (·.groupId) = some identity.pid

variable (pid : Nat)

/-- The pid is taken at this system call and the deadline is ahead of its end. -/
def Sleeps (deadline : Int) (call now : Nat) : Prop :=
  ((evolution call).process? pid).isSome ∧ ((now + (evolution call).elapsed : Nat) : Int) < deadline

/-- A poll that begins at a system call and a time sleeps exactly `n` times. -/
def PollsFor (deadline : Int) : Nat → Nat → Nat → Prop
  | call, now, 0 => ¬ Sleeps evolution pid deadline call now
  | call, now, n + 1 => Sleeps evolution pid deadline call now ∧
      PollsFor deadline (call + 1) (now + (evolution call).elapsed + alivePollMs) n

/-- The clock after `n` more looks with a sleep between each two. -/
def lookTime : Nat → Nat → Nat → Nat
  | call, now, 0 => now + (evolution call).elapsed
  | call, now, n + 1 => lookTime (call + 1) (now + (evolution call).elapsed + alivePollMs) n

/-- The pid is free or still the recorded process, running. -/
def FreeOrRunning (startTime : String) (call : Nat) : Prop :=
  ((evolution call).process? pid = none) ∨ Running startTime ((evolution call).process? pid)

/-- The last look after SIGKILL, asked for by system call `call` at time `now`. -/
def KillConfirms (startTime : String) (groupId : Option Nat) (call now : Nat) : Prop :=
  if (evolution call).kill pid groupId = .eperm then FreeOrRunning evolution pid startTime (call - 1)
  else
    let sent := now + (evolution call).elapsed
    ∀ n, PollsFor evolution pid (sent + killConfirmGraceMs) (call + 1) sent n →
      FreeOrRunning evolution pid startTime (call + 1 + n + 1)

/-- SIGKILL waits for no sleep, and a pid found taken in the end is the running process. -/
def EscalatesSafely (startTime : String) (groupId : Option Nat) (killAfterMs : Int)
    (call now : Nat) : Prop :=
  ∀ n, PollsFor evolution pid (now + killAfterMs) call now n →
    let second := call + n + 1
    if (evolution second).process? pid = none then FreeOrRunning evolution pid startTime (second + 1)
    else n = 0 ∧ KillConfirms evolution pid startTime groupId (second + 1)
      (lookTime evolution call now n + (evolution second).elapsed)

/-- The clock when `n` system calls were made and nothing slept. -/
def clockAfter (now : Nat) : Nat → Nat
  | 0 => now
  | n + 1 => clockAfter now n + (evolution n).elapsed

/-- What must not happen between the reads of a stop whose identity checks pass. -/
structure Undisturbed (startTime : String) (options : StopOptions) (groupId : Option Nat)
    (now : Nat) : Prop where
  visible : (statAt evolution identity.pid 1).isSome
  permitted : (evolution (argvCall identity 0 + 1)).kill identity.pid groupId ≠ .eperm
  escalation : options.kill →
    (evolution (argvCall identity 0 + 1)).kill identity.pid groupId = .delivered →
      EscalatesSafely evolution identity.pid startTime groupId options.killAfterMs
        (argvCall identity 0 + 2) (clockAfter evolution now (argvCall identity 0 + 2))

def groupAsked (options : StopOptions) : Option Nat :=
  if options.group then some identity.pid else none

/-- The evolutions of the process table under which the stop is safe. -/
def KeepsSafe (startTime : String) (cmdlineWitness : Option (String × String))
    (options : StopOptions) (now : Nat) : Prop :=
  Identified evolution identity options.targetDir cmdlineWitness 0 →
    (options.group → LeadsGroup evolution identity 1) →
      Undisturbed evolution identity startTime options (groupAsked identity options) now

end Conditions

/-! ## Reading a run -/

theorem beforeEachSignal_append {P : Option Nat → List Event → Prop} {added events : List Event}
    (looks : ∀ event ∈ added, event.isLook) :
    BeforeEachSignal P (added ++ events) ↔ BeforeEachSignal P events := by
  induction added with
  | nil => rfl
  | cons event added ih =>
    rw [List.forall_mem_cons] at looks
    rw [List.cons_append, ← ih looks.2]
    cases event <;> simp_all [BeforeEachSignal, Event.isLook]

theorem requestOnDisk_append {added events : List Event}
    (looks : ∀ event ∈ added, event.isLook) :
    requestOnDisk (added ++ events) = requestOnDisk events := by
  induction added with
  | nil => rfl
  | cons event added ih =>
    rw [List.forall_mem_cons] at looks
    rw [List.cons_append, ← ih looks.2]
    cases event <;> simp_all [requestOnDisk, Event.isLook]

theorem any_isSignal_append {added events : List Event}
    (looks : ∀ event ∈ added, event.isLook) :
    (added ++ events).any Event.isSignal = events.any Event.isSignal := by
  have quiet : added.any Event.isSignal = false := by
    rw [List.any_eq_false]
    intro event member
    have := looks event member
    cases event <;> simp_all [Event.isLook, Event.isSignal]
  rw [List.any_append, quiet, Bool.false_or]

theorem nothingDelivered_append {added events : List Event}
    (looks : ∀ event ∈ added, event.isLook) :
    NothingDelivered (added ++ events) ↔ NothingDelivered events := by
  have quiet : ∀ groupId value, Event.signalled groupId value .delivered ∉ added :=
    fun groupId value member => by simpa [Event.isLook] using looks _ member
  simp [NothingDelivered, quiet]

theorem lastLook_of_no_signal {events : List Event} (quiet : events.any Event.isSignal = false) :
    lastLook events = none := by
  induction events with
  | nil => rfl
  | cons event events ih =>
    rw [List.any_cons, Bool.or_eq_false_iff] at quiet
    cases event <;> simp [lastLook, ih quiet.2, quiet.2]

theorem beforeEachSignal_of_looks {P : Option Nat → List Event → Prop} {events : List Event}
    (looks : ∀ event ∈ events, event.isLook) : BeforeEachSignal P events := by
  rw [← List.append_nil events, beforeEachSignal_append looks]
  trivial

theorem lastLook_of_looks {events : List Event} (looks : ∀ event ∈ events, event.isLook) :
    lastLook events = none := by
  apply lastLook_of_no_signal
  rw [← List.append_nil events, any_isSignal_append looks]
  rfl

theorem nothingDelivered_of_looks {events : List Event}
    (looks : ∀ event ∈ events, event.isLook) : NothingDelivered events := by
  rw [← List.append_nil events, nothingDelivered_append looks]
  exact fun _ _ => List.not_mem_nil

/-- A call that only looked is safe. -/
theorem safe_of_looks {α : Type} {pid : Nat} {startTime : String} {kill : Bool}
    {stopped : α → Prop} {run : Except SystemError α × Progress}
    (looks : ∀ event ∈ run.2.events, event.isLook) : Safe pid startTime kill stopped run where
  checked := beforeEachSignal_of_looks looks
  witnessed := beforeEachSignal_of_looks looks
  removed _ := by rw [← List.append_nil run.2.events, requestOnDisk_append looks]; rfl
  reported _ found last := by rw [lastLook_of_looks looks] at last; cases last

end AdCoder.RunStop
