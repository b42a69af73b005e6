import AdCoder.SessionManager.ManagerRuns

/-!
# Operations whose writes may fail

A file in the state directory is replaced as a whole, so a write that fails
leaves it as it was. What an operation has done in memory by then stays there.
-/

namespace AdCoder.SessionManager

open Foundation

/-- The driver key under which an adoption binds. -/
def consoleKey (options : SessionManagerOptions) : String := "console:u" ++ toString options.uid

/-- The writes that fail during one piece of a call: the save of the bindings, the save
after it, and the writes of the lease after a number of them. -/
structure Faults where
  save : Bool
  saveAgain : Bool
  lease : Option Nat

def Faults.none : Faults := ⟨false, false, Option.none⟩

namespace Faults

open ManagerState

variable (options : SessionManagerOptions) (host : CallHost) (faults : Faults) (s : ManagerState)

/-- The end of an operation whose last step saves the bindings. -/
def saved (fails : Bool) : Result Unit → Result Unit
  | (.ok done, t) => if fails then (.error .host, { t with file := s.file }) else (.ok done, t)
  | (.error failure, t) => (.error failure, t)

def createProject (projectKey : String) : Result Unit :=
  saved s faults.save (s.createProject options host projectKey)

def bindDriver (projectKey driverKey : String) : Result Unit :=
  saved s faults.save (s.bindDriver options host projectKey driverKey)

def unbindDriver (driverKey : String) (projectKey : Option String) : Result Unit :=
  saved s faults.save (s.unbindDriver driverKey projectKey)

def renameSession (projectKey : String) (manual : Except String String) : Result Unit :=
  saved s faults.save (s.renameSession projectKey manual)

/-- Nothing is saved for a name that was given manually. -/
def setTitleFromGeneration (projectKey sanitized : String) : Result Unit :=
  let manual := (s.bindings.projects.lookup projectKey).any (·.nameSource == .manual)
  saved s (faults.save && !manual) (s.setTitleFromGeneration projectKey sanitized)

/-- The first write of the lease may succeed and the second one fail. -/
def ensureSession (projectKey driverKey : String) : Result Opening :=
  s.attempt (do
    assertDriverKeyShape driverKey
    validateProjectKey projectKey) fun key =>
  let s := if (s.bindings.drivers.lookup driverKey).any (·.projectKey == key) then s
    else s.setDriver driverKey key
  match s.bindings.projects.lookup key with
  | Option.none =>
      s.attempt (do require (!isStandaloneLive (← s.probe host key)) leaseHeld) fun _ =>
      match faults.createProject options host s key with
      | (.error failure, s) => (.error failure, s)
      | (.ok _, s) => (.ok ⟨key, driverKey, true⟩, s)
  | some record =>
      s.attempt (s.reopen options host key record) fun records =>
      match faults.lease.filter (· < records.length) with
      | some written => (.error .host, s.writeLease key (records.take written))
      | Option.none =>
          if faults.save then (.error .host, s.writeLease key records)
          else (.ok ⟨key, driverKey, false⟩, (s.writeLease key records).save)

def opened (opening : Opening) : Result SessionListItem :=
  if opening.created && faults.save then
    (.error .host, s.setDriver opening.driverKey opening.projectKey)
  else s.opened host opening

/-- An adoption saves what it binds, and saves again under the adopted session id. -/
def adoptAfterRelease (projectKey : String) : Result SessionListItem :=
  match s.adoptAfterRelease options host projectKey with
  | (.error failure, t) => (.error failure, t)
  | (.ok item, t) =>
      if (s.bindings.projects.lookup projectKey).isSome then (.ok item, t)
      else
        let bound := (s.bindDriver options host projectKey (consoleKey options)).2
        if faults.save then (.error .host, { bound with file := s.file })
        else if faults.saveAgain then (.error .host, { t with file := bound.file })
        else (.ok item, t)

def recordStandaloneRelease (projectKey : String) : Result Unit :=
  if faults.lease = some 0 then
    match s.recordStandaloneRelease host projectKey with
    | (.ok _, _) => (.error .host, s)
    | refused => refused
  else s.recordStandaloneRelease host projectKey

/-- A call that does not wait. -/
def ended {α : Type} (result : Result α) : Result (Option Opening) :=
  result.map (·.map fun _ => Option.none) id

/-- A call up to its end, or up to its wait for the conversation host. -/
def call : ManagerCall → Result (Option Opening)
  | .ensureSession projectKey driverKey =>
      (faults.ensureSession options host s projectKey driverKey).map (·.map some) id
  | .createProject projectKey => ended (faults.createProject options host s projectKey)
  | .bindDriver projectKey driverKey =>
      ended (faults.bindDriver options host s projectKey driverKey)
  | .unbindDriver driverKey projectKey => ended (faults.unbindDriver s driverKey projectKey)
  | .renameSession projectKey manual => ended (faults.renameSession s projectKey manual)
  | .setTitleFromGeneration projectKey sanitized =>
      ended (faults.setTitleFromGeneration s projectKey sanitized)
  | .adoptAfterRelease projectKey =>
      ended (faults.adoptAfterRelease options host s projectKey)
  | .recordStandaloneRelease projectKey => ended (faults.recordStandaloneRelease host s projectKey)

end Faults

/-! ## Runs -/

/-- A manager process comes, calls, waits for the conversation host and goes; a standalone
console replaces a lease file, and writes may fail. -/
inductive FaultyEvent where
  | start (pid : Nat) (faults : Faults)
  | stop
  | console (projectKey : String) (file : LeaseFile)
  | call (host : CallHost) (faults : Faults) (call : ManagerCall)
  | resume (host : CallHost) (faults : Faults) (index : Nat)

/-- The manager's memory and files, and the opens that wait. -/
structure FaultyWorld where
  state : ManagerState
  running : Bool
  opening : List ManagerState.Opening

namespace FaultyWorld

def initial (state : ManagerState) : FaultyWorld := ⟨state, false, []⟩

variable (options : SessionManagerOptions) (world : FaultyWorld)

/-- A manager that cannot drop the rejected records from the file is not constructed. -/
def start (pid : Nat) (faults : Faults) : FaultyWorld :=
  match world.state.construct options pid with
  | (.ok rejected, state) =>
      if rejected ≠ [] ∧ faults.save = true then { world with running := false, opening := [] }
      else ⟨state, true, []⟩
  | (.error _, state) => ⟨state, false, []⟩

def callStep (host : CallHost) (faults : Faults) (method : ManagerCall) : FaultyWorld :=
  match faults.call options host world.state method with
  | (.ok opening, state) => { world with state, opening := world.opening ++ opening.toList }
  | (.error _, state) => { world with state }

def resumeStep (host : CallHost) (faults : Faults) (index : Nat) : FaultyWorld :=
  match world.opening[index]? with
  | none => world
  | some opening =>
      { world with
        state := (faults.opened host world.state opening).2
        opening := world.opening.eraseIdx index }

def apply : FaultyEvent → FaultyWorld
  | .start pid faults => world.start options pid faults
  | .stop => { world with running := false, opening := [] }
  | .console projectKey file =>
      { world with state.leases := Function.update world.state.leases projectKey file }
  | .call host faults method =>
      if world.running then world.callStep options host faults method else world
  | .resume host faults index => world.resumeStep host faults index

def Steps (world : FaultyWorld) (event : FaultyEvent) (next : FaultyWorld) : Prop :=
  next = world.apply options event

end FaultyWorld

/-! ## Without faults -/

namespace Faults

open ManagerState

variable {options : SessionManagerOptions} {host : CallHost} {s : ManagerState}

@[simp] theorem saved_false (result : Result Unit) : saved s false result = result := by
  obtain ⟨result | result, t⟩ := result <;> rfl

theorem ensureSession_none (projectKey driverKey : String) :
    none.ensureSession options host s projectKey driverKey =
      s.ensureSession options host projectKey driverKey := by
  simp only [Faults.ensureSession, ManagerState.ensureSession, Faults.createProject, none,
    saved_false, Option.filter_none]
  rfl

theorem opened_none (opening : Opening) : none.opened host s opening = s.opened host opening := by
  simp [Faults.opened, none]

theorem adoptAfterRelease_none (projectKey : String) :
    none.adoptAfterRelease options host s projectKey =
      s.adoptAfterRelease options host projectKey := by
  unfold Faults.adoptAfterRelease
  split
  · simp_all
  · simp_all [none]

end Faults

/-- The event with no write failing. -/
def ManagerEvent.faultless : ManagerEvent → FaultyEvent
  | .start pid => .start pid .none
  | .stop => .stop
  | .console projectKey file => .console projectKey file
  | .call host method => .call host .none method
  | .resume host index => .resume host .none index

/-- The world without its faults. -/
def ManagerWorld.faultless (world : ManagerWorld) : FaultyWorld :=
  ⟨world.state, world.running, world.opening⟩

/-- A call that does not wait leaves its state. -/
theorem FaultyWorld.callStep_ended {options : SessionManagerOptions} {host : CallHost}
    {faults : Faults} {world : FaultyWorld} {method : ManagerCall} {α : Type}
    {result : ManagerState.Result α}
    (h : faults.call options host world.state method = Faults.ended result) :
    world.callStep options host faults method = { world with state := result.2 } := by
  unfold FaultyWorld.callStep
  rw [h]
  obtain ⟨result | result, state⟩ := result
  · rfl
  · simp [Faults.ended, Except.map]

/-- A lawful step of the manager is a step without faults. -/
theorem FaultyWorld.apply_faultless (options : SessionManagerOptions) (world : ManagerWorld)
    (event : ManagerEvent) (lawful : world.Lawful options event) :
    world.faultless.apply options event.faultless = (world.apply options event).faultless := by
  cases event with
  | start pid =>
      simp only [FaultyWorld.apply, FaultyWorld.start, ManagerEvent.faultless,
        ManagerWorld.apply, ManagerWorld.faultless, Faults.none, Bool.false_eq_true, and_false,
        if_false]
      rcases world.state.construct options pid with ⟨result | result, state⟩ <;> rfl
  | stop => rfl
  | console projectKey file => rfl
  | call host method =>
      obtain ⟨state, isRunning, opening, answered⟩ := world
      obtain rfl : isRunning = true := lawful.1
      show FaultyWorld.callStep options _ host .none method =
        (ManagerWorld.callStep options _ host method).faultless
      cases method with
      | ensureSession projectKey driverKey =>
          simp only [FaultyWorld.callStep, Faults.call, ManagerWorld.callStep,
            Faults.ensureSession_none, ManagerWorld.faultless]
          rcases state.ensureSession options host projectKey driverKey with
            ⟨result | result, after⟩ <;> rfl
      | createProject projectKey => exact callStep_ended (congrArg Faults.ended (Faults.saved_false _))
      | bindDriver projectKey driverKey => exact callStep_ended (congrArg Faults.ended (Faults.saved_false _))
      | unbindDriver driverKey projectKey =>
          exact callStep_ended (congrArg Faults.ended (Faults.saved_false _))
      | renameSession projectKey manual =>
          exact callStep_ended (congrArg Faults.ended (Faults.saved_false _))
      | setTitleFromGeneration projectKey sanitized =>
          exact callStep_ended (congrArg Faults.ended (Faults.saved_false _))
      | adoptAfterRelease projectKey =>
          exact callStep_ended (congrArg Faults.ended (Faults.adoptAfterRelease_none projectKey))
      | recordStandaloneRelease projectKey => exact callStep_ended rfl
  | resume host index =>
      simp only [FaultyWorld.apply, FaultyWorld.resumeStep, ManagerEvent.faultless,
        ManagerWorld.apply, ManagerWorld.resumeStep, Faults.opened_none, ManagerWorld.faultless]
      cases found : world.opening[index]? with
      | none => rfl
      | some opening =>
          dsimp only
          rcases world.state.opened host opening with ⟨result | result, state⟩ <;> rfl

end AdCoder.SessionManager
