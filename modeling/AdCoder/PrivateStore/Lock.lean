import Mathlib.Logic.Function.Basic

/-!
# The lock of a private store

The credential store and the user profile store guard a read, a change and a
publication of their file by a lock file, in the same way but for a few checks.
Every access to the file system is a step of its own, between any two of which
other processes act, and a process may end at any point. A number stands for
each lock file that was ever created; the number of its inode may be used again.
-/

namespace AdCoder.PrivateStore

inductive StoreKind where
  | profile
  | credential
  deriving DecidableEq

/-! ## Files -/

/-- What a lock file says: nothing that can be parsed, no process, or a process. -/
inductive Metadata where
  | unreadable
  | anonymous
  | pid (pid : Nat)
  deriving DecidableEq

structure LockFile where
  ino : Nat
  metadata : Metadata
  mtime : Nat

/-- What an operation makes of the text that it reads. An operation of the credential store
may throw the code that says that a file exists. -/
inductive Change where
  | unchanged
  | publish (text : String)
  | throws
  | throwsExists

/-- A publication, with the operation that it belongs to and the text that this had read. -/
structure Publication where
  agent : Nat
  operation : Option String → Change
  before : Option String
  after : String

/-! ## Calls -/

inductive WaitFailure where
  | timedOut
  | aborted
  | unsafeLock
  | changed
  | unreadable
  deriving DecidableEq

/-- How a call ends, or that it tries again. -/
inductive Outcome where
  | returns (published : Option String)
  | throws
  | unsafeLock
  | changed
  | waitFails (failure : WaitFailure)
  | again
  deriving DecidableEq

/-- The next access of a call that has created the lock file. -/
inductive Holding where
  | created
  | writing
  | reading
  | checking (version : Nat) (text : String)
  | updating (before : Option String)
  | publishing (before : Option String) (after : String)
  | published (after : String)
  | releasing (outcome : Outcome)
  | unlinking (outcome : Outcome)

/-- The next access of a call that has not. -/
inductive Waiting where
  | opening
  | inspecting
  | stating (lock : Nat)
  | parsing (lock : Nat)
  | probing (lock pid : Nat)
  | comparing (lock : Nat)
  | reclaiming (lock : Nat)
  | pausing
  | sleeping

inductive Point where
  | idle
  | waiting (waiting : Waiting)
  | holding (lock : Nat) (holding : Holding)
  | finished (outcome : Outcome)

inductive Status where
  | unborn
  | live
  | dead
  deriving DecidableEq

/-- A store of a process; it runs one call at a time. -/
structure Agent where
  pid : Nat
  lockWaitMs : Nat
  staleLockMs : Nat
  status : Status
  operation : Option String → Change
  started : Nat
  point : Point

/-- The read, the change and the publication. -/
def Holding.operates : Holding → Bool
  | reading | checking _ _ | updating _ | publishing _ _ | published _ => true
  | _ => false

def Point.operates : Point → Bool
  | .holding _ next => next.operates
  | _ => false

def Agent.InSection (agent : Agent) : Prop :=
  agent.status = .live ∧ agent.point.operates = true

instance (agent : Agent) : Decidable agent.InSection := inferInstanceAs (Decidable (_ ∧ _))

/-- The files, the processes that are alive, and what was published so far. -/
structure World where
  lockName : Option Nat
  locks : Nat → LockFile
  created : Nat
  file : Option String
  version : Nat
  alive : Nat → Bool
  agents : Nat → Agent
  history : List Publication

namespace World

def goto (world : World) (a : Nat) (point : Point) : World :=
  { world with agents := Function.update world.agents a { world.agents a with point := point } }

def finish (world : World) (a : Nat) : Outcome → World
  | .again => world.goto a (.waiting .inspecting)
  | outcome => world.goto a (.finished outcome)

section Accesses

variable (store : StoreKind) (world : World) (a now : Nat)

/-! ## Accesses without the lock -/

/-- The exclusive creation of the lock file; the file system gives it an inode. -/
def openLock (ino : Nat) : World :=
  match world.lockName with
  | none =>
      { world with
        lockName := some world.created
        locks := Function.update world.locks world.created ⟨ino, .unreadable, now⟩
        created := world.created + 1 }.goto a (.holding world.created .created)
  | some _ => world.goto a (.waiting .inspecting)

/-- `unlink`, by name. -/
def unlinkLock : World := { world with lockName := none }

/-- What `removeAbandonedLock` does with the status of the lock file that it opened. -/
def inspectLock (lock : Nat) : World :=
  if world.lockName ≠ some lock then
    match store with
    | .credential => world.goto a (.waiting .opening)
    | .profile => world.goto a (.finished (.waitFails .unsafeLock))
  else if now < (world.locks lock).mtime + (world.agents a).staleLockMs then
    world.goto a (.waiting .pausing)
  else world.goto a (.waiting (.parsing lock))

/-- The lock file names its process. -/
def parseLock (lock : Nat) : World :=
  match (world.locks lock).metadata with
  | .unreadable => world.goto a (.finished (.waitFails .unreadable))
  | .anonymous => world.goto a (.waiting .pausing)
  | .pid pid => world.goto a (.waiting (if pid = 0 then .pausing else .probing lock pid))

/-- Signal `0` to the process that the lock file names. -/
def probeLock (lock pid : Nat) : World :=
  if world.alive pid then world.goto a (.waiting .pausing)
  else
    match store with
    | .credential => world.goto a (.waiting (.comparing lock))
    | .profile => world.goto a (.waiting (.reclaiming lock))

/-- The comparison in `unlinkIfSame`, of an abandoned lock. -/
def compareLock (lock : Nat) : World :=
  match world.lockName with
  | none => world.goto a (.waiting .opening)
  | some current =>
      if (world.locks current).ino = (world.locks lock).ino then
        world.goto a (.waiting (.reclaiming lock))
      else world.goto a (.finished (.waitFails .changed))

def wait (ino : Nat) : Waiting → World
  | .opening => world.openLock a now ino
  | .inspecting =>
      match world.lockName with
      | none => world.goto a (.waiting .opening)
      | some lock => world.goto a (.waiting (.stating lock))
  | .stating lock => world.inspectLock store a now lock
  | .parsing lock => world.parseLock a lock
  | .probing lock pid => world.probeLock store a lock pid
  | .comparing lock => world.compareLock a lock
  | .reclaiming _ => world.unlinkLock.goto a (.waiting .opening)
  | .pausing =>
      if (world.agents a).started + (world.agents a).lockWaitMs ≤ now then
        world.goto a (.finished (.waitFails .timedOut))
      else world.goto a (.waiting .sleeping)
  | .sleeping => world.goto a (.waiting .opening)

/-! ## Accesses with the lock -/

/-- The process writes its number into the lock file. -/
def writeLock (lock : Nat) : World :=
  { world with
    locks := Function.update world.locks lock
      { world.locks lock with metadata := .pid (world.agents a).pid, mtime := now } }

/-- The operation on the text that was read. -/
def update (lock : Nat) (before : Option String) : World :=
  match (world.agents a).operation before with
  | .unchanged => world.goto a (.holding lock (.releasing (.returns none)))
  | .publish after => world.goto a (.holding lock (.publishing before after))
  | .throws => world.goto a (.holding lock (.releasing .throws))
  | .throwsExists =>
      match store with
      | .credential => world.goto a (.holding lock (.releasing .again))
      | .profile => world.goto a (.holding lock (.releasing .throws))

/-- The renaming in `publish`. -/
def publish (before : Option String) (after : String) : World :=
  { world with
    file := some after
    version := world.version + 1
    history := world.history ++ [⟨a, (world.agents a).operation, before, after⟩] }

/-- The comparison at the end of `withLock`. -/
def release (lock : Nat) (outcome : Outcome) : World :=
  match world.lockName with
  | none => world.finish a outcome
  | some current =>
      if (world.locks current).ino = (world.locks lock).ino then
        world.goto a (.holding lock (.unlinking outcome))
      else
        match store with
        | .credential => world.finish a .changed
        | .profile => world.finish a outcome

def hold (lock : Nat) : Holding → World
  | .created =>
      if world.lockName = some lock then world.goto a (.holding lock .writing)
      else world.goto a (.holding lock (.releasing .unsafeLock))
  | .writing => (world.writeLock a now lock).goto a (.holding lock .reading)
  | .reading =>
      match world.file with
      | none => world.goto a (.holding lock (.updating none))
      | some text => world.goto a (.holding lock (.checking world.version text))
  | .checking version text =>
      if version = world.version then world.goto a (.holding lock (.updating (some text)))
      else world.goto a (.holding lock (.releasing .throws))
  | .updating before => world.update store a lock before
  | .publishing before after =>
      (world.publish a before after).goto a (.holding lock (.published after))
  | .published after => world.goto a (.holding lock (.releasing (.returns (some after))))
  | .releasing outcome => world.release store a lock outcome
  | .unlinking outcome => world.unlinkLock.finish a outcome

end Accesses

end World

/-! ## Steps -/

/-- What a store does. The number is that of the inode of a lock file that it creates. -/
inductive Action where
  | start
  | call (operation : Option String → Change)
  | access (ino : Nat)
  | abort
  | fails

/-- A store acts; a process ends, with its stores; the number of a process is taken. -/
inductive Event where
  | act (a now : Nat) (action : Action)
  | exit (pid : Nat)
  | occupy (pid : Nat)

namespace World

variable (store : StoreKind) (world : World)

def access (a now ino : Nat) : World :=
  match (world.agents a).point with
  | .waiting waiting => world.wait store a now ino waiting
  | .holding lock holding => world.hold store a now lock holding
  | _ => world

/-- A credential store looks at its signal before it opens the lock, and while it sleeps. -/
def abort (a : Nat) : World :=
  match store, (world.agents a).point with
  | .credential, .waiting .opening => world.goto a (.finished (.waitFails .aborted))
  | .credential, .waiting .sleeping => world.goto a (.finished (.waitFails .aborted))
  | _, _ => world

/-- An access of the operation itself fails. -/
def fail (a : Nat) : World :=
  match (world.agents a).point with
  | .holding lock holding =>
      if holding.operates then world.goto a (.holding lock (.releasing .throws)) else world
  | _ => world

def call (a now : Nat) (operation : Option String → Change) : World :=
  let agent : Agent :=
    { world.agents a with
      operation := operation
      started := now
      point := .waiting .opening }
  match (world.agents a).point with
  | .idle | .finished _ => { world with agents := Function.update world.agents a agent }
  | _ => world

def start (a : Nat) : World :=
  { world with
    agents := Function.update world.agents a { world.agents a with status := .live, point := .idle }
    alive := Function.update world.alive (world.agents a).pid true }

def act (a now : Nat) (action : Action) : World :=
  match (world.agents a).status, action with
  | .unborn, .start => world.start a
  | .live, .call operation => world.call a now operation
  | .live, .access ino => world.access store a now ino
  | .live, .abort => world.abort store a
  | .live, .fails => world.fail a
  | _, _ => world

def exit (pid : Nat) : World :=
  { world with
    alive := Function.update world.alive pid false
    agents := fun a =>
      let agent := world.agents a
      if agent.pid = pid ∧ agent.status = .live then { agent with status := .dead } else agent }

def apply : Event → World
  | .act a now action => world.act store a now action
  | .exit pid => world.exit pid
  | .occupy pid => { world with alive := Function.update world.alive pid true }

def Steps (world : World) (event : Event) (next : World) : Prop :=
  next = world.apply store event

/-- No store has started; a lock file may have been left by an earlier process. -/
structure Start (world : World) : Prop where
  unborn : ∀ a, (world.agents a).status = .unborn
  idle : ∀ a, (world.agents a).point = .idle
  lock : ∀ lock ∈ world.lockName, lock < world.created
  history : world.history = []

end World

end AdCoder.PrivateStore
