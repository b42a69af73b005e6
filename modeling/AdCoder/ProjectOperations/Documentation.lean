import AdCoder.Foundation.Occurrences
import AdCoder.ProjectOperations.DocumentationLock

/-!
# Appending documentation proposals

Any number of processes append generated blocks to one destination, one
file-system step at a time, and each may die at any step. A block carries a
marker of its effect; the marker is looked for and the block is appended under
a lock file, which is reclaimed from a process that is no longer alive.
-/

namespace AdCoder.ProjectOperations

open Foundation

/-! ## Blocks -/

/-- The start of every generated comment. -/
def commentStart : List Char := "<!--".toList

/-- What a caller appends: an effect id, which is a digest with a plain prefix,
and a content in which no comment starts. -/
structure DocumentationProposal where
  effectId : List Char
  content : List Char
  plain : ∀ x ∈ effectId, isIdentifierChar x = true
  unmarked : occurrences commentStart content = 0

namespace DocumentationProposal

/-- The comment that identifies the block of an effect. -/
def marker (proposal : DocumentationProposal) : List Char :=
  commentStart ++ (" ad-coder:".toList ++ (proposal.effectId ++ " -->".toList))

/-- The text to append: the block on a line of its own. -/
def block (proposal : DocumentationProposal) (current : List Char) : List Char :=
  (if current.getLast? = some '\n' ∨ current = [] then [] else ['\n']) ++
    (proposal.marker ++ '\n' :: proposal.content)

end DocumentationProposal

/-! ## Processes and files -/

/-- The lock file: its identity, the process that created it, and its text. -/
structure LockFile where
  inode : Nat
  owner : Pid
  text : List Char

/-- The next file-system step of `appendDocumentationProposal`. The attempts of
the loop are counted from zero; an inode is the lock that the process created,
or the one whose text it read. -/
inductive AppendPoint where
  | opening (attempt : Nat)
  | inspecting (attempt : Nat)
  | readingHolder (attempt : Nat)
  | probing (attempt inode : Nat) (holder : Pid)
  | reclaiming (attempt inode : Nat)
  | writing (inode written : Nat)
  | openingDestination (inode : Nat)
  | readingDestination (inode : Nat)
  | appending (inode : Nat) (current : List Char)
  | releasing (inode : Nat)

/-- The lock that a process created and has not released. -/
def AppendPoint.held : AppendPoint → Option Nat
  | .writing inode _ => some inode
  | .openingDestination inode => some inode
  | .readingDestination inode => some inode
  | .appending inode _ => some inode
  | .releasing inode => some inode
  | _ => none

/-- A call in progress. -/
structure AppendCall where
  proposal : DocumentationProposal
  point : AppendPoint

/-- The destination, its lock, and what each process is in the middle of. -/
structure DocumentationWorld where
  text : List Char
  lock : Option LockFile
  nextInode : Nat
  alive : Pid → Bool
  pending : Pid → Option AppendCall

/-- An event names a process. A size says how many characters a write puts down:
a lock may be written in parts, and a process may die inside a write. -/
inductive DocumentationEvent where
  | spawn (pid : Pid)
  | call (pid : Pid) (proposal : DocumentationProposal)
  | step (pid : Pid) (size : Nat)
  | refuse (pid : Pid)
  | crash (pid : Pid) (size : Nat)

namespace DocumentationWorld

/-- The destination before any call. -/
def start (text : List Char) (alive : Pid → Bool) : DocumentationWorld :=
  ⟨text, none, 0, alive, fun _ => none⟩

/-- The call of the process returned or threw. -/
def finish (world : DocumentationWorld) (pid : Pid) : DocumentationWorld :=
  { world with pending := Function.update world.pending pid none }

def proceed (world : DocumentationWorld) (pid : Pid) (proposal : DocumentationProposal)
    (point : AppendPoint) : DocumentationWorld :=
  { world with pending := Function.update world.pending pid (some ⟨proposal, point⟩) }

/-- `openSync` with `O_CREAT | O_EXCL` of a lock that is not there. -/
def createLock (world : DocumentationWorld) (pid : Pid) : DocumentationWorld :=
  { world with
    lock := some ⟨world.nextInode, pid, []⟩
    nextInode := world.nextInode + 1 }

/-- A write through the descriptor, which shows if the lock is still that file. -/
def writeLock (world : DocumentationWorld) (inode : Nat) (text : List Char) : DocumentationWorld :=
  { world with lock := world.lock.map fun lock =>
      if lock.inode = inode then { lock with text := text } else lock }

def unlinkLock (world : DocumentationWorld) : DocumentationWorld := { world with lock := none }

/-- A write with `O_APPEND`. -/
def append (world : DocumentationWorld) (text : List Char) : DocumentationWorld :=
  { world with text := world.text ++ text }

section Step

variable (format : NumberFormat) (world : DocumentationWorld) (pid : Pid)

/-- `acquireDocumentationLock`: at most two attempts. -/
def openLock (proposal : DocumentationProposal) (attempt : Nat) : DocumentationWorld :=
  if attempt < 2 then
    match world.lock with
    | none => (world.createLock pid).proceed pid proposal (.writing world.nextInode 0)
    | some _ => world.proceed pid proposal (.inspecting attempt)
  else world.finish pid

/-- The holder that the lock names, if its text can be read. -/
def readHolder (proposal : DocumentationProposal) (attempt : Nat) : DocumentationWorld :=
  match world.lock.bind fun lock => (lockHolder format lock.text).map fun pid => (lock.inode, pid)
  with
  | none => world.finish pid
  | some (inode, holder) => world.proceed pid proposal (.probing attempt inode holder)

/-- One step of a call; a step that throws ends the call. -/
def advance (call : AppendCall) (size : Nat) : DocumentationWorld :=
  match call.point with
  | .opening attempt => openLock world pid call.proposal attempt
  | .inspecting attempt =>
      if world.lock.isNone then world.finish pid
      else world.proceed pid call.proposal (.readingHolder attempt)
  | .readingHolder attempt => readHolder format world pid call.proposal attempt
  | .probing attempt inode holder =>
      if world.alive holder then world.finish pid
      else world.proceed pid call.proposal (.reclaiming attempt inode)
  | .reclaiming attempt _ =>
      if world.lock.isNone then world.finish pid
      else world.unlinkLock.proceed pid call.proposal (.opening (attempt + 1))
  | .writing inode written =>
      let text := lockText format pid
      let next := written + size
      (world.writeLock inode (text.take next)).proceed pid call.proposal
        (if text.length ≤ next then .openingDestination inode else .writing inode next)
  | .openingDestination inode => world.proceed pid call.proposal (.readingDestination inode)
  | .readingDestination inode =>
      world.proceed pid call.proposal
        (if includes call.proposal.marker world.text then .releasing inode
        else .appending inode world.text)
  | .appending inode current =>
      (world.append (call.proposal.block current)).proceed pid call.proposal (.releasing inode)
  | .releasing _ => world.unlinkLock.finish pid

/-- A process that dies inside a write leaves a part of the text. -/
def die (size : Nat) : DocumentationWorld :=
  let dead := { world.finish pid with alive := Function.update world.alive pid false }
  match world.pending pid with
  | some ⟨proposal, .appending _ current⟩ => dead.append ((proposal.block current).take size)
  | _ => dead

end Step

/-- The world after an event; an event that cannot happen changes nothing. -/
def after (format : NumberFormat) (world : DocumentationWorld) :
    DocumentationEvent → DocumentationWorld
  | .spawn pid =>
      if world.alive pid then world
      else { world with alive := Function.update world.alive pid true }
  | .call pid proposal =>
      if world.alive pid ∧ (world.pending pid).isNone then
        world.proceed pid proposal (.opening 0)
      else world
  | .step pid size =>
      match world.pending pid with
      | some call => advance format world pid call size
      | none => world
  | .refuse pid =>
      match world.pending pid with
      | some ⟨proposal, .openingDestination inode⟩ =>
          world.proceed pid proposal (.releasing inode)
      | _ => world
  | .crash pid size => die world pid size

/-- The process holds the lock with this identity. -/
def Holds (world : DocumentationWorld) (pid : Pid) (inode : Nat) : Prop :=
  ∃ call, world.pending pid = some call ∧ call.point.held = some inode

end DocumentationWorld

end AdCoder.ProjectOperations
