import AdCoder.SessionManager.Types

/-!
# Single-writer lease files

A project's lease is one file that is only ever replaced as a whole. A call reads
the file once, judges what it read by the host's liveness, and then replaces the
file with the records it has to write, one after another.
-/

namespace AdCoder.SessionManager

open Foundation

/-- `LeaseIdentity`, as it answers during one call. -/
structure LeaseIdentity where
  now : JsNumber
  hostIsLocal : String → Bool
  pidAlive : Nat → Bool

/-- Who acquires a lease: the process, its host and the token drawn for the lease. -/
structure LeaseOwner where
  pid : Nat
  hostname : String
  ownerToken : String

/-- The contents of a lease file. -/
inductive LeaseFile where
  | absent
  | unparsed
  | malformed
  | record (lease : LeaseRecord)
  deriving DecidableEq

structure LeaseProbe where
  state : SessionLeaseState
  record : Option LeaseRecord
  deriving DecidableEq

namespace LeaseRecord

/-- The record with its release in the same row. -/
def release (lease : LeaseRecord) (now : JsNumber) : LeaseRecord :=
  { lease with releasedAt := some now }

/-- Whether the record is an unreleased lease of a process. -/
def Names (lease : LeaseRecord) (hostname : String) (pid : Nat) : Prop :=
  lease.host = hostname ∧ lease.pid = pid ∧ lease.releasedAt = none

instance (lease : LeaseRecord) (hostname : String) (pid : Nat) :
    Decidable (lease.Names hostname pid) := by
  unfold Names
  infer_instance

end LeaseRecord

def readLease : LeaseFile → Except SessionManagerError (Option LeaseRecord)
  | .absent => .ok none
  | .unparsed => .error ⟨.invalidBinding, true, "the private state file could not be parsed",
      "remove the corrupted file from the private state directory; it will be rebuilt"⟩
  | .malformed => .error ⟨.sessionLeaseHeld, true,
      "the project's lease file is malformed; its provenance cannot be established",
      "remove the malformed lease file from the private state directory, then retry"⟩
  | .record lease => .ok (some lease)

/-- What `probeLease` makes of a record. -/
def classifyLease (identity : LeaseIdentity) : Option LeaseRecord → LeaseProbe
  | none => ⟨.none, none⟩
  | some lease =>
      if lease.releasedAt.isSome then ⟨.released, some lease⟩
      else if identity.hostIsLocal lease.host && !identity.pidAlive lease.pid then
        ⟨.stale, some lease⟩
      else ⟨.live, some lease⟩

def probeLease (identity : LeaseIdentity) (rawProjectKey : String) (file : LeaseFile) :
    Except SessionManagerError LeaseProbe := do
  let _ ← validateProjectKey rawProjectKey
  let record ← readLease file
  pure (classifyLease identity record)

def isStandaloneLive (probe : LeaseProbe) : Bool := probe.state == .live

/-! ## The records that a call writes -/

/-- The calls on a lease; each is given the session that it names. -/
inductive LeaseCall where
  | acquireManagerLease (sessionId : String)
  | recordStandaloneReleaseInLease (sessionId : String)
  | releaseLease
  deriving DecidableEq

def LeaseCall.isAcquire : LeaseCall → Bool
  | .acquireManagerLease _ => true
  | _ => false

/-- The lease that an acquiring call leaves. -/
def ownLease (owner : LeaseOwner) (sessionId : String) (now : JsNumber) : LeaseRecord :=
  ⟨sessionId, owner.pid, owner.hostname, owner.ownerToken, now, none⟩

/-- A stale lease is marked released before the own lease replaces it. -/
def acquireManagerLease (now : JsNumber) (owner : LeaseOwner) (sessionId : String)
    (probe : LeaseProbe) : Except SessionManagerError (List LeaseRecord) :=
  match probe.state, probe.record with
  | .live, _ => .error ⟨.sessionLeaseHeld, false, "another live process holds this project's " ++
      "interactive lease; the manager never steals a live session",
      "suggest the holding front detach or accept handoff first"⟩
  | .stale, some lease => .ok [lease.release now, ownLease owner sessionId now]
  | _, _ => .ok [ownLease owner sessionId now]

def recordStandaloneReleaseInLease (now : JsNumber) (sessionId : String) (probe : LeaseProbe) :
    Except SessionManagerError (List LeaseRecord) :=
  match probe.record with
  | some lease =>
      if lease.sessionId = sessionId then .ok [lease.release now]
      else .error ⟨.handoffNotRecorded, false,
        "no live lease naming that session exists to release",
        "the standalone console releases through :handoff accept on its own lease"⟩
  | none => .error ⟨.handoffNotRecorded, false,
      "no live lease naming that session exists to release",
      "the standalone console releases through :handoff accept on its own lease"⟩

def releaseLease (now : JsNumber) (probe : LeaseProbe) : List LeaseRecord :=
  match probe.record with
  | some lease => if lease.releasedAt.isSome then [] else [lease.release now]
  | none => []

/-- What a call writes once it has probed the file. -/
def leaseWrites (identity : LeaseIdentity) (owner : LeaseOwner) (probe : LeaseProbe) :
    LeaseCall → Except SessionManagerError (List LeaseRecord)
  | .acquireManagerLease sessionId => acquireManagerLease identity.now owner sessionId probe
  | .recordStandaloneReleaseInLease sessionId =>
      recordStandaloneReleaseInLease identity.now sessionId probe
  | .releaseLease => .ok (releaseLease identity.now probe)

/-- The file after the writes of a call that nothing interrupts. -/
def LeaseFile.replaced (file : LeaseFile) (records : List LeaseRecord) : LeaseFile :=
  records.foldl (fun _ lease => .record lease) file

@[simp] theorem LeaseFile.replaced_nil (file : LeaseFile) : file.replaced [] = file := rfl

@[simp] theorem LeaseFile.replaced_cons (file : LeaseFile) (lease : LeaseRecord)
    (records : List LeaseRecord) :
    file.replaced (lease :: records) = (LeaseFile.record lease).replaced records := rfl

theorem replaced_cases (file : LeaseFile) (records : List LeaseRecord) :
    file.replaced records = file ∨ ∃ lease, file.replaced records = .record lease := by
  induction records generalizing file with
  | nil => exact .inl rfl
  | cons lease rest ih =>
      rw [LeaseFile.replaced_cons]
      rcases ih (.record lease) with h | h
      · exact .inr ⟨lease, h⟩
      · exact .inr h

/-! ## Probing and acquiring -/

section Probing

variable {identity : LeaseIdentity} {record : Option LeaseRecord} {lease : LeaseRecord}

@[simp] theorem classifyLease_record (identity : LeaseIdentity) (record : Option LeaseRecord) :
    (classifyLease identity record).record = record := by
  cases record with
  | none => rfl
  | some lease =>
      simp only [classifyLease]
      split
      · rfl
      · split <;> rfl

theorem classifyLease_live : (classifyLease identity record).state = .live ↔
    ∃ lease, record = some lease ∧ lease.releasedAt = none ∧
      (identity.hostIsLocal lease.host = true → identity.pidAlive lease.pid = true) := by
  cases record with
  | none => simp [classifyLease]
  | some lease =>
      cases released : lease.releasedAt <;> cases here : identity.hostIsLocal lease.host <;>
        cases alive : identity.pidAlive lease.pid <;>
        simp [classifyLease, released, here, alive]

variable {now : JsNumber} {owner : LeaseOwner} {sessionId : String} {probe : LeaseProbe}
  {records : List LeaseRecord}

/-- A call that is not refused ends with its own lease on file. -/
theorem acquireManagerLease_eq_ok
    (h : acquireManagerLease now owner sessionId probe = .ok records) :
    probe.state ≠ .live ∧ ∃ marks, records = marks ++ [ownLease owner sessionId now] ∧
      ∀ mark ∈ marks, ∃ lease : LeaseRecord, mark = lease.release now := by
  unfold acquireManagerLease at h
  split at h
  · cases h
  · cases h
    exact ⟨by simp_all, [_], rfl, fun mark hm => ⟨_, List.mem_singleton.mp hm⟩⟩
  · cases h
    exact ⟨by assumption, [], rfl, fun mark hm => by cases hm⟩

theorem leaseWrites_acquire {call : LeaseCall}
    (h : leaseWrites identity owner probe call = .ok records) (acquire : call.isAcquire = true) :
    probe.state ≠ .live ∧ ∃ marks lease, records = marks ++ [lease] ∧
      lease.Names owner.hostname owner.pid := by
  cases call with
  | acquireManagerLease sessionId =>
      obtain ⟨free, marks, heq, -⟩ := acquireManagerLease_eq_ok h
      exact ⟨free, marks, _, heq, rfl, rfl, rfl⟩
  | recordStandaloneReleaseInLease sessionId => cases acquire
  | releaseLease => cases acquire

theorem leaseWrites_release {call : LeaseCall}
    (h : leaseWrites identity owner probe call = .ok records) (release : call.isAcquire = false) :
    records = [] ∨ ∃ lease, records = [lease] := by
  cases call with
  | acquireManagerLease sessionId => cases release
  | recordStandaloneReleaseInLease sessionId =>
      simp only [leaseWrites, recordStandaloneReleaseInLease] at h
      split at h
      · split at h
        · exact .inr ⟨_, (Except.ok.inj h).symm⟩
        · cases h
      · cases h
  | releaseLease =>
      obtain rfl := Except.ok.inj h
      unfold releaseLease
      split
      · split
        · exact .inl rfl
        · exact .inr ⟨_, rfl⟩
      · exact .inl rfl

end Probing

end AdCoder.SessionManager
