import AdCoder.SessionManager.Manager

/-!
# Runs of a session manager

A manager is constructed, called and stopped, opens wait and go on, and other
processes write lease files in between. A project that was opened is opened
again under the same session id as long as its record is kept and the lease on
file is none, released, or that of a dead process on the same session.
-/

namespace AdCoder.SessionManager

open Foundation

inductive ManagerCall where
  | ensureSession (projectKey driverKey : String)
  | createProject (projectKey : String)
  | bindDriver (projectKey driverKey : String)
  | unbindDriver (driverKey : String) (projectKey : Option String)
  | renameSession (projectKey : String) (manual : Except String String)
  | setTitleFromGeneration (projectKey sanitized : String)
  | adoptAfterRelease (projectKey : String)
  | recordStandaloneRelease (projectKey : String)

/-- A manager process comes, calls, waits for the conversation host and goes; a standalone
console replaces a lease file. -/
inductive ManagerEvent where
  | start (pid : Nat)
  | stop
  | console (projectKey : String) (file : LeaseFile)
  | call (host : CallHost) (call : ManagerCall)
  | resume (host : CallHost) (index : Nat)

/-- The manager, the opens that wait, and the session id that the first successful open
returned for a project since a console last wrote its lease. -/
structure ManagerWorld where
  state : ManagerState
  running : Bool
  opening : List ManagerState.Opening
  answered : String → Option String

namespace ManagerWorld

/-- Durable state that any earlier processes left. -/
def initial (state : ManagerState) : ManagerWorld := ⟨state, false, [], fun _ => none⟩

section Steps

variable (options : SessionManagerOptions) (world : ManagerWorld)

def callStep (host : CallHost) : ManagerCall → ManagerWorld
  | .ensureSession projectKey driverKey =>
      match world.state.ensureSession options host projectKey driverKey with
      | (.ok opening, state) => { world with state, opening := world.opening ++ [opening] }
      | (.error _, state) => { world with state }
  | .createProject projectKey =>
      { world with state := (world.state.createProject options host projectKey).2 }
  | .bindDriver projectKey driverKey =>
      { world with state := (world.state.bindDriver options host projectKey driverKey).2 }
  | .unbindDriver driverKey projectKey =>
      { world with state := (world.state.unbindDriver driverKey projectKey).2 }
  | .renameSession projectKey manual =>
      { world with state := (world.state.renameSession projectKey manual).2 }
  | .setTitleFromGeneration projectKey sanitized =>
      { world with state := (world.state.setTitleFromGeneration projectKey sanitized).2 }
  | .adoptAfterRelease projectKey =>
      { world with state := (world.state.adoptAfterRelease options host projectKey).2 }
  | .recordStandaloneRelease projectKey =>
      { world with state := (world.state.recordStandaloneRelease host projectKey).2 }

/-- An open goes on; a first answer is remembered. -/
def resumeStep (host : CallHost) (index : Nat) : ManagerWorld :=
  match world.opening[index]? with
  | none => world
  | some opening =>
      match world.state.opened host opening with
      | (.ok item, state) =>
          { world with
            state
            opening := world.opening.eraseIdx index
            answered := Function.update world.answered opening.projectKey
              (some ((world.answered opening.projectKey).getD item.sessionId)) }
      | (.error _, state) => { world with state, opening := world.opening.eraseIdx index }

def apply : ManagerEvent → ManagerWorld
  | .start pid =>
      match world.state.construct options pid with
      | (.ok _, state) => { world with state, running := true, opening := [] }
      | (.error _, state) => { world with state, running := false, opening := [] }
  | .stop => { world with running := false, opening := [] }
  | .console projectKey file =>
      { world with
        state.leases := Function.update world.state.leases projectKey file
        answered := Function.update world.answered projectKey none }
  | .call host call => world.callStep options host call
  | .resume host index => world.resumeStep host index

def Steps (world : ManagerWorld) (event : ManagerEvent) (next : ManagerWorld) : Prop :=
  next = world.apply options event

/-- The manager runs, and its own process counts as alive on its own host. -/
def Truthful (host : CallHost) : Prop :=
  world.running = true ∧ host.identity.hostIsLocal options.hostname = true ∧
    host.identity.pidAlive world.state.pid = true

/-- Calls reach a running manager, whose liveness answers are truthful about itself. -/
def Lawful : ManagerEvent → Prop
  | .call host _ => world.Truthful options host
  | .resume host _ => world.Truthful options host
  | _ => True

instance (host : CallHost) : Decidable (world.Truthful options host) := by
  unfold Truthful
  infer_instance

instance (event : ManagerEvent) : Decidable (world.Lawful options event) := by
  cases event <;> unfold Lawful <;> infer_instance

/-! ### The property and its condition -/

/-- A lease on file that the manager's own process acquired does not count as that of a
live standalone session. -/
def OwnLeaseNotLive (host : CallHost) (projectKey : String) : Prop :=
  ∀ lease, world.state.leases projectKey = .record lease →
    lease.Names options.hostname world.state.pid →
    isStandaloneLive (classifyLease host.identity (some lease)) = false

/-- A later open of an opened project, by any driver, succeeds and answers with the same
session id; the manager's own lease is not taken for a console's. -/
def Reopens : ManagerEvent → Prop
  | .call host (.ensureSession projectKey driverKey) =>
      ((world.answered projectKey).isSome → driverKeyPattern.test driverKey = true →
        ∃ opening,
          (world.state.ensureSession options host projectKey driverKey).1 = .ok opening) ∧
      world.OwnLeaseNotLive options host projectKey
  | .resume host index => ∀ opening, world.opening[index]? = some opening →
      ∀ sessionId, world.answered opening.projectKey = some sessionId →
        ∃ item, (world.state.opened host opening).1 = .ok item ∧ item.sessionId = sessionId
  | _ => True

/-- The lease on file lets a session be opened again. -/
def LeaseAllows (identity : LeaseIdentity) (sessionId : String) : LeaseFile → Prop
  | .absent => True
  | .record lease => lease.releasedAt.isSome ∨ (identity.hostIsLocal lease.host = true ∧
      identity.pidAlive lease.pid = false ∧ lease.sessionId = sessionId)
  | _ => False

/-- The project's record is kept, under the same session id, and the lease on file is none,
released, or a dead process's on the same session; it is not the manager's own. -/
def Reopenable : ManagerEvent → Prop
  | .call host (.ensureSession projectKey driverKey) =>
      ((world.answered projectKey).isSome → driverKeyPattern.test driverKey = true →
        ∃ record, world.state.bindings.projects.lookup projectKey = some record ∧
          LeaseAllows host.identity record.sessionId (world.state.leases projectKey)) ∧
      ∀ lease, world.state.leases projectKey = .record lease →
        ¬ lease.Names options.hostname world.state.pid
  | .resume _ index => ∀ opening, world.opening[index]? = some opening →
      ∀ sessionId, world.answered opening.projectKey = some sessionId →
        (world.state.bindings.projects.lookup opening.projectKey).map (·.sessionId) =
          some sessionId
  | _ => True

end Steps

end ManagerWorld

/-! ## What a method keeps -/

namespace ManagerState

variable {options : SessionManagerOptions} {host : CallHost} {s t u : ManagerState}

/-- A method neither removes a directory nor forgets a project, gives every new project a
directory, and leaves a lease file as it is or with a record in it. -/
structure Extends (options : SessionManagerOptions) (s t : ManagerState) : Prop where
  pid : t.pid = s.pid
  entries : ∀ path, s.fs path ≠ .absent → t.fs path ≠ .absent
  kept : ∀ key, (s.bindings.projects.lookup key).isSome →
    (t.bindings.projects.lookup key).isSome
  housed : ∀ key, (t.bindings.projects.lookup key).isSome →
    (s.bindings.projects.lookup key).isSome ∨ Housed options.roots t.fs key
  leases : ∀ key, t.leases key = s.leases key ∨ ∃ lease, t.leases key = .record lease

namespace Extends

theorem refl (s : ManagerState) : s.Extends options s :=
  ⟨rfl, fun _ h => h, fun _ h => h, fun _ h => .inl h, fun _ => .inl rfl⟩

theorem trans (first : s.Extends options t) (second : t.Extends options u) :
    s.Extends options u where
  pid := second.pid.trans first.pid
  entries path h := second.entries path (first.entries path h)
  kept key h := second.kept key (first.kept key h)
  housed key h := by
    rcases second.housed key h with h | h
    · exact (first.housed key h).imp_right fun housed => housed.mono second.entries
    · exact .inr h
  leases key := by
    rcases second.leases key with h | h
    · rw [h]
      exact first.leases key
    · exact .inr h

theorem save (s : ManagerState) : s.Extends options s.save :=
  ⟨rfl, fun _ h => h, fun _ h => h, fun _ h => .inl h, fun _ => .inl rfl⟩

/-- The drivers bind nothing that the invariant looks at. -/
theorem drivers (s : ManagerState) (drivers : KeyMap BindingRecord) :
    s.Extends options { s with bindings.drivers := drivers } :=
  ⟨rfl, fun _ h => h, fun _ h => h, fun _ h => .inl h, fun _ => .inl rfl⟩

theorem setDriver (s : ManagerState) (driverKey projectKey : String) :
    s.Extends options (s.setDriver driverKey projectKey) :=
  drivers s _

theorem setProject {projectKey : String} (record : ProjectRecord)
    (h : (s.bindings.projects.lookup projectKey).isSome ∨ Housed options.roots s.fs projectKey) :
    s.Extends options (s.setProject projectKey record) where
  pid := rfl
  entries _ h := h
  kept key some := by
    rcases eq_or_ne key projectKey with rfl | hne
    · simp [ManagerState.setProject]
    · simpa [ManagerState.setProject, AList.lookup_insert_ne hne] using some
  housed key some := by
    rcases eq_or_ne key projectKey with rfl | hne
    · exact h
    · exact .inl (by simpa [ManagerState.setProject, AList.lookup_insert_ne hne] using some)
  leases _ := .inl rfl

theorem writeLease (s : ManagerState) (projectKey : String) (records : List LeaseRecord) :
    s.Extends options (s.writeLease projectKey records) where
  pid := rfl
  entries _ h := h
  kept _ h := h
  housed _ h := .inl h
  leases key := by
    rcases eq_or_ne key projectKey with rfl | hne
    · simp only [ManagerState.writeLease, Function.update_self]
      exact replaced_cases _ _
    · exact .inl (Function.update_of_ne hne ..)

/-- A new directory. -/
theorem makeDirectory (s : ManagerState) (dir : String) :
    s.Extends options { s with fs := Function.update s.fs dir (.directory dir) } where
  pid := rfl
  entries path h := by
    rcases eq_or_ne path dir with rfl | hne
    · simp
    · simpa [Function.update_of_ne hne] using h
  kept _ h := h
  housed _ h := .inl h
  leases _ := .inl rfl

theorem attempt {α β : Type} {check : Except SessionManagerError α} {next : α → Result β}
    (h : ∀ a, check = .ok a → s.Extends options (next a).2) :
    s.Extends options (s.attempt check next).2 := by
  cases check with
  | error e => exact .refl s
  | ok a => exact h a rfl

end Extends

/-! ### One method -/

/-- Where nothing occupies a key no directory resolves for it, and conversely. -/
theorem resolveProjectDir_none {fs : FileSystem} {roots : List String} {projectKey : String} :
    resolveProjectDir fs roots projectKey = .ok none ↔ ¬ Housed roots fs projectKey := by
  induction roots with
  | nil => simp [resolveProjectDir, Housed]
  | cons root rest ih =>
      have split_root : Housed (root :: rest) fs projectKey ↔
          fs (joinPath root projectKey) ≠ .absent ∨ Housed rest fs projectKey := by
        simp [Housed]
      rw [split_root, resolveProjectDir]
      cases entry : fs (joinPath root projectKey) with
      | absent => simpa using ih
      | symlink real => simp
      | directory real => by_cases inside : real = joinPath root projectKey <;> simp [inside]
      | other => simp

theorem housed_of_resolveProjectDir {fs : FileSystem} {roots : List String}
    {projectKey dir : String} (h : resolveProjectDir fs roots projectKey = .ok (some dir)) :
    Housed roots fs projectKey := by
  by_contra empty
  rw [resolveProjectDir_none.mpr empty] at h
  cases h

theorem createProject_extends (projectKey : String) :
    s.Extends options (s.createProject options host projectKey).2 := by
  refine .attempt fun dir checked => ?_
  obtain ⟨_, -, checked⟩ := bind_eq_ok.mp checked
  obtain ⟨-, checked⟩ := require_bind_eq_ok.mp checked
  obtain ⟨-, checked⟩ := require_bind_eq_ok.mp checked
  obtain ⟨_, -, checked⟩ := bind_eq_ok.mp checked
  obtain ⟨-, checked⟩ := require_bind_eq_ok.mp checked
  have made : s.Extends options { s with fs := Function.update s.fs dir (.directory dir) } :=
    .makeDirectory s dir
  dsimp only
  split
  · exact .refl s
  · exact .refl s
  · exact made
  · exact made
  · exact made
  · refine made.trans (.trans (.setProject _ (.inr ?_)) (.save _))
    split at checked
    · rename_i rootReal found
      rw [pure_eq_ok] at checked
      subst checked
      exact ⟨rootReal, List.mem_of_find?_eq_some found, by simp⟩
    · cases checked

/-- Nothing is created for a key that something occupies. -/
theorem createProject_of_housed {projectKey : String}
    (housed : Housed options.roots s.fs projectKey) :
    ∃ failure, s.createProject options host projectKey = (.error failure, s) := by
  unfold createProject attempt
  split
  · exact ⟨_, rfl⟩
  · rename_i dir checked
    obtain ⟨_, -, checked⟩ := bind_eq_ok.mp checked
    obtain ⟨-, checked⟩ := require_bind_eq_ok.mp checked
    obtain ⟨-, checked⟩ := require_bind_eq_ok.mp checked
    obtain ⟨resolved, nothing, checked⟩ := bind_eq_ok.mp checked
    obtain ⟨free, -⟩ := require_bind_eq_ok.mp checked
    rw [Option.isNone_iff_eq_none.mp free] at nothing
    exact absurd housed (resolveProjectDir_none.mp nothing)

theorem createProject_records {projectKey : String} {made : Unit}
    (h : s.createProject options host projectKey = (.ok made, t)) :
    (t.bindings.projects.lookup projectKey).isSome := by
  unfold createProject attempt at h
  split at h
  · simp at h
  · dsimp only at h
    split at h
    · simp at h
    · simp at h
    · simp at h
    · simp at h
    · simp at h
    · obtain ⟨-, rfl⟩ := Prod.mk.inj h
      simp [save, setProject]

theorem bindDriver_extends (projectKey driverKey : String) :
    s.Extends options (s.bindDriver options host projectKey driverKey).2 := by
  refine .attempt fun bound checked => ?_
  obtain ⟨_, -, checked⟩ := bind_eq_ok.mp checked
  obtain ⟨key, -, checked⟩ := bind_eq_ok.mp checked
  obtain ⟨resolved, found, checked⟩ := bind_eq_ok.mp checked
  cases resolved with
  | none => cases checked
  | some dir =>
      obtain rfl := pure_eq_ok.mp checked
      dsimp only
      refine .trans ?_ (.save _)
      split
      · exact .setDriver s _ _
      · exact .trans (.setDriver s _ _)
          (.setProject _ (.inr (housed_of_resolveProjectDir found)))

theorem unbindDriver_extends (driverKey : String) (projectKey : Option String) :
    s.Extends options (s.unbindDriver driverKey projectKey).2 :=
  .attempt fun _ _ => .trans (.drivers s _) (.save _)

theorem itemForRecord_state (projectKey : String) :
    (s.itemForRecord host projectKey).2 = s := by
  unfold itemForRecord attempt
  split <;> rfl

theorem ensureSession_extends (projectKey driverKey : String) :
    s.Extends options (s.ensureSession options host projectKey driverKey).2 := by
  refine .attempt fun key _ => ?_
  dsimp only
  generalize hattributed : (if (s.bindings.drivers.lookup driverKey).any (·.projectKey == key)
    then s else s.setDriver driverKey key) = attributed
  have first : s.Extends options attributed := by
    subst hattributed
    split
    · exact .refl s
    · exact .setDriver s _ _
  refine first.trans ?_
  split
  · refine .attempt fun _ _ => ?_
    have created : attributed.Extends options (attributed.createProject options host key).2 :=
      createProject_extends key
    split <;> simp_all
  · exact .attempt fun records _ => .trans (.writeLease _ _ _) (.save _)

theorem opened_extends (opening : Opening) :
    s.Extends options (s.opened host opening).2 := by
  unfold opened
  split
  · dsimp only
    have bound : s.Extends options (s.setDriver opening.driverKey opening.projectKey).save :=
      .trans (.setDriver s _ _) (.save _)
    split
    · rw [itemForRecord_state]
      exact bound
    · exact bound
  · rw [itemForRecord_state]
    exact .refl s

theorem readLease_of_item {projectKey : String} {item : SessionListItem}
    (h : s.itemForRecord host projectKey = (.ok item, t)) :
    ∃ record, readLease (t.leases projectKey) = .ok record := by
  unfold itemForRecord attempt at h
  split at h
  · simp at h
  · rename_i probe probed
    obtain ⟨-, rfl⟩ := Prod.mk.inj h
    obtain ⟨_, -, probed⟩ := bind_eq_ok.mp probed
    obtain ⟨record, read, -⟩ := bind_eq_ok.mp probed
    exact ⟨record, read⟩

theorem opened_readable {opening : Opening} {item : SessionListItem}
    (h : s.opened host opening = (.ok item, t)) :
    ∃ record, readLease (t.leases opening.projectKey) = .ok record := by
  unfold opened at h
  split at h
  · dsimp only at h
    split at h
    · exact readLease_of_item h
    · simp at h
  · exact readLease_of_item h

theorem requireRecord_eq_ok {key : String} {record : ProjectRecord}
    (h : s.requireRecord key = .ok record) : s.bindings.projects.lookup key = some record := by
  unfold requireRecord at h
  split at h
  · rwa [← Except.ok.inj h]
  · cases h

theorem renameSession_extends (projectKey : String) (manual : Except String String) :
    s.Extends options (s.renameSession projectKey manual).2 := by
  refine .attempt fun found checked => ?_
  obtain ⟨key, -, checked⟩ := bind_eq_ok.mp checked
  obtain ⟨record, there, checked⟩ := bind_eq_ok.mp checked
  obtain rfl := pure_eq_ok.mp checked
  cases manual with
  | error message => exact .refl s
  | ok name =>
      exact .trans (.setProject _ (.inl (by simp [requireRecord_eq_ok there]))) (.save _)

theorem setTitleFromGeneration_extends (projectKey sanitized : String) :
    s.Extends options (s.setTitleFromGeneration projectKey sanitized).2 := by
  refine .attempt fun found checked => ?_
  obtain ⟨key, -, checked⟩ := bind_eq_ok.mp checked
  obtain ⟨record, there, checked⟩ := bind_eq_ok.mp checked
  obtain rfl := pure_eq_ok.mp checked
  dsimp only
  split
  · exact .refl s
  · exact .trans (.setProject _ (.inl (by simp [requireRecord_eq_ok there]))) (.save _)

theorem adoptAfterRelease_extends (projectKey : String) :
    s.Extends options (s.adoptAfterRelease options host projectKey).2 := by
  refine .attempt fun found _ => ?_
  obtain ⟨key, sessionId⟩ := found
  dsimp only
  split
  · rw [itemForRecord_state]
    exact .refl s
  · have bound : s.Extends options
        (s.bindDriver options host key ("console:u" ++ toString options.uid)).2 :=
      bindDriver_extends key _
    split
    · simp_all
    · rename_i after heq
      rw [heq] at bound
      refine bound.trans (.attempt fun record there => ?_)
      rw [itemForRecord_state]
      refine .trans (.setProject _ (.inl ?_)) (.save _)
      split at there
      · simp [*]
      · cases there

theorem recordStandaloneRelease_extends (projectKey : String) :
    s.Extends options (s.recordStandaloneRelease host projectKey).2 :=
  .attempt fun _ _ => .writeLease s _ _

end ManagerState

/-! ## The invariant of a run -/

namespace ManagerWorld

variable {options : SessionManagerOptions} {world : ManagerWorld}

/-- Known and opened projects have a directory, and an opened project's key is a slug whose
lease file can be read. -/
structure Sound (options : SessionManagerOptions) (world : ManagerWorld) : Prop where
  known : world.running = true → ∀ key, (world.state.bindings.projects.lookup key).isSome →
    Housed options.roots world.state.fs key
  housed : ∀ key, (world.answered key).isSome → Housed options.roots world.state.fs key
  slug : ∀ key, (world.answered key).isSome → validateProjectKey key = .ok key
  readable : ∀ key, (world.answered key).isSome →
    ∃ record, readLease (world.state.leases key) = .ok record
  opening : ∀ opening ∈ world.opening,
    validateProjectKey opening.projectKey = .ok opening.projectKey ∧
      (world.state.bindings.projects.lookup opening.projectKey).isSome

theorem sound_initial (state : ManagerState) : (initial state).Sound options where
  known h := by cases h
  housed _ h := by cases h
  slug _ h := by cases h
  readable _ h := by cases h
  opening _ h := by cases h

/-- A method of the manager, which may leave an open that waits. -/
theorem Sound.extends (sound : world.Sound options) (running : world.running = true)
    {state : ManagerState} (step : world.state.Extends options state)
    {opening : List ManagerState.Opening}
    (waits : ∀ o ∈ opening, o ∈ world.opening ∨
      validateProjectKey o.projectKey = .ok o.projectKey ∧
        (state.bindings.projects.lookup o.projectKey).isSome) :
    Sound options { world with state, opening } where
  known _ key some := (step.housed key some).elim
    (fun before => (sound.known running key before).mono step.entries) id
  housed key some := (sound.housed key some).mono step.entries
  slug := sound.slug
  readable key some := by
    rcases step.leases key with same | ⟨lease, written⟩
    · simpa only [same] using sound.readable key some
    · exact ⟨_, by rw [written]; rfl⟩
  opening o ho := (waits o ho).elim
    (fun before => ⟨(sound.opening o before).1, step.kept _ (sound.opening o before).2⟩) id

end ManagerWorld

namespace ManagerState

variable {options : SessionManagerOptions} {host : CallHost} {s t : ManagerState}

/-- An open that waits is of a project that is recorded by then. -/
theorem ensureSession_waits {projectKey driverKey : String} {opening : Opening}
    (h : s.ensureSession options host projectKey driverKey = (.ok opening, t)) :
    validateProjectKey opening.projectKey = .ok opening.projectKey ∧
      (t.bindings.projects.lookup opening.projectKey).isSome := by
  unfold ensureSession attempt at h
  split at h
  · simp at h
  · rename_i key checked
    obtain ⟨_, -, slug⟩ := bind_eq_ok.mp checked
    obtain rfl := validateProjectKey_eq_ok slug
    dsimp only at h
    split at h
    · split at h
      · simp at h
      · split at h
        · simp at h
        · rename_i u created
          obtain ⟨heq, rfl⟩ := Prod.mk.inj h
          obtain rfl := Except.ok.inj heq
          exact ⟨slug, createProject_records created⟩
    · rename_i record there
      split at h
      · simp at h
      · obtain ⟨heq, rfl⟩ := Prod.mk.inj h
        obtain rfl := Except.ok.inj heq
        exact ⟨slug, by simp [save, writeLease, there]⟩

end ManagerState

namespace ManagerWorld

variable {options : SessionManagerOptions} {world : ManagerWorld}

theorem Sound.callStep (sound : world.Sound options) (running : world.running = true)
    (host : CallHost) (call : ManagerCall) : (world.callStep options host call).Sound options := by
  have kept {state : ManagerState} (step : world.state.Extends options state) :
      Sound options { world with state } :=
    sound.extends running step fun o ho => .inl ho
  cases call with
  | ensureSession projectKey driverKey =>
      have step : world.state.Extends options
          (world.state.ensureSession options host projectKey driverKey).2 :=
        ManagerState.ensureSession_extends projectKey driverKey
      unfold ManagerWorld.callStep
      dsimp only
      split
      · rename_i opening state heq
        rw [heq] at step
        refine sound.extends running step fun o ho => ?_
        rcases List.mem_append.mp ho with before | new
        · exact .inl before
        · obtain rfl := List.mem_singleton.mp new
          exact .inr (ManagerState.ensureSession_waits heq)
      · rename_i failure state heq
        rw [heq] at step
        exact kept step
  | createProject projectKey => exact kept (ManagerState.createProject_extends projectKey)
  | bindDriver projectKey driverKey =>
      exact kept (ManagerState.bindDriver_extends projectKey driverKey)
  | unbindDriver driverKey projectKey =>
      exact kept (ManagerState.unbindDriver_extends driverKey projectKey)
  | renameSession projectKey manual =>
      exact kept (ManagerState.renameSession_extends projectKey manual)
  | setTitleFromGeneration projectKey sanitized =>
      exact kept (ManagerState.setTitleFromGeneration_extends projectKey sanitized)
  | adoptAfterRelease projectKey => exact kept (ManagerState.adoptAfterRelease_extends projectKey)
  | recordStandaloneRelease projectKey =>
      exact kept (ManagerState.recordStandaloneRelease_extends projectKey)

theorem Sound.resumeStep (sound : world.Sound options) (running : world.running = true)
    (host : CallHost) (index : Nat) : (world.resumeStep host index).Sound options := by
  unfold ManagerWorld.resumeStep
  split
  · exact sound
  · rename_i opening found
    have step : world.state.Extends options (world.state.opened host opening).2 :=
      ManagerState.opened_extends opening
    have waiting := sound.opening opening (List.mem_of_getElem? found)
    split
    · rename_i item state heq
      rw [heq] at step
      have after : Sound options { world with state, opening := world.opening.eraseIdx index } :=
        sound.extends running step fun o ho => .inl (List.mem_of_mem_eraseIdx ho)
      refine ⟨after.known, fun key some => ?_, fun key some => ?_, fun key some => ?_,
        after.opening⟩
      · rcases eq_or_ne key opening.projectKey with rfl | hne
        · exact after.known running _ (step.kept _ waiting.2)
        · exact after.housed key (by simpa [Function.update_of_ne hne] using some)
      · rcases eq_or_ne key opening.projectKey with rfl | hne
        · exact waiting.1
        · exact after.slug key (by simpa [Function.update_of_ne hne] using some)
      · rcases eq_or_ne key opening.projectKey with rfl | hne
        · exact ManagerState.opened_readable heq
        · exact after.readable key (by simpa [Function.update_of_ne hne] using some)
    · rename_i failure state heq
      rw [heq] at step
      exact sound.extends running step fun o ho => .inl (List.mem_of_mem_eraseIdx ho)

theorem Sound.start (sound : world.Sound options) (pid : Nat) :
    (world.apply options (.start pid)).Sound options := by
  simp only [ManagerWorld.apply, ManagerState.construct, ManagerState.attempt]
  cases loading : loadBindings options.roots world.state.fs world.state.file with
  | error error =>
      exact ⟨fun h => (by cases h), sound.housed, sound.slug, sound.readable,
        fun _ h => (by cases h)⟩
  | ok loaded =>
      have housed := loadBindings_housed loading
      by_cases none : loaded.rejected = []
      · simp only [none, if_true]
        exact ⟨fun _ => housed, sound.housed, sound.slug, sound.readable,
          fun _ h => (by cases h)⟩
      · simp only [none, if_false]
        exact ⟨fun _ => housed, sound.housed, sound.slug, sound.readable,
          fun _ h => (by cases h)⟩

theorem Sound.console (sound : world.Sound options) (projectKey : String) (file : LeaseFile) :
    (world.apply options (.console projectKey file)).Sound options := by
  have before {key : String}
      (some : (Function.update world.answered projectKey none key).isSome) :
      key ≠ projectKey ∧ (world.answered key).isSome := by
    rcases eq_or_ne key projectKey with rfl | hne
    · simp at some
    · exact ⟨hne, by simpa [Function.update_of_ne hne] using some⟩
  refine ⟨sound.known, fun key some => ?_, fun key some => ?_, fun key some => ?_,
    sound.opening⟩
  · exact sound.housed key (before some).2
  · exact sound.slug key (before some).2
  · have readable := sound.readable key (before some).2
    rwa [← Function.update_of_ne (before some).1 file world.state.leases] at readable

theorem Sound.apply (sound : world.Sound options) {event : ManagerEvent}
    (lawful : world.Lawful options event) : (world.apply options event).Sound options := by
  cases event with
  | start pid => exact sound.start pid
  | stop => exact ⟨fun h => (by cases h), sound.housed, sound.slug, sound.readable,
      fun _ h => (by cases h)⟩
  | console projectKey file => exact sound.console projectKey file
  | call host call => exact sound.callStep lawful.1 host call
  | resume host index => exact sound.resumeStep lawful.1 host index

end ManagerWorld

/-! ## When an open succeeds -/

namespace ManagerState

variable {options : SessionManagerOptions} {host : CallHost} {s : ManagerState}

theorem attempt_ok_iff {α β : Type} {check : Except SessionManagerError α}
    {next : α → Result β} :
    (∃ b, (s.attempt check next).1 = .ok b) ↔
      ∃ a, check = .ok a ∧ ∃ b, (next a).1 = .ok b := by
  cases check <;> simp [attempt]

variable {projectKey driverKey : String} {record : ProjectRecord}

theorem probe_record (slug : validateProjectKey projectKey = .ok projectKey)
    {lease : LeaseRecord} (file : s.leases projectKey = .record lease) :
    s.probe host projectKey = .ok (classifyLease host.identity (some lease)) := by
  simp only [probe, probeLease, slug, file]
  rfl

theorem reopen_ok_iff (slug : validateProjectKey projectKey = .ok projectKey) :
    (∃ records, s.reopen options host projectKey record = .ok records) ↔
      ManagerWorld.LeaseAllows host.identity record.sessionId (s.leases projectKey) := by
  cases file : s.leases projectKey with
  | absent =>
      have probed : s.probe host projectKey = .ok ⟨.none, none⟩ := by
        simp only [probe, probeLease, slug, file]
        rfl
      refine iff_of_true ⟨[ownLease ⟨s.pid, options.hostname, host.ownerToken⟩
        record.sessionId host.identity.now], ?_⟩ trivial
      simp only [reopen, probed]
      rfl
  | unparsed =>
      refine iff_of_false ?_ id
      rintro ⟨records, h⟩
      simp only [reopen, probe, probeLease, slug, file] at h
      cases h
  | malformed =>
      refine iff_of_false ?_ id
      rintro ⟨records, h⟩
      simp only [reopen, probe, probeLease, slug, file] at h
      cases h
  | record lease =>
      have probed : s.probe host projectKey = .ok (classifyLease host.identity (some lease)) :=
        probe_record slug file
      cases released : lease.releasedAt with
      | some at_time =>
          have probe : classifyLease host.identity (some lease) = ⟨.released, some lease⟩ := by
            simp [classifyLease, released]
          refine iff_of_true ⟨[], ?_⟩ (.inl (by simp [released]))
          simp [reopen, probed, probe, bind, Except.bind, isStandaloneLive, require]
      | none =>
          by_cases dead : host.identity.hostIsLocal lease.host = true ∧
              host.identity.pidAlive lease.pid = false
          · have probe : classifyLease host.identity (some lease) = ⟨.stale, some lease⟩ := by
              simp [classifyLease, released, dead]
            by_cases same : lease.sessionId = record.sessionId
            · refine iff_of_true ⟨[lease.release host.identity.now,
                ownLease ⟨s.pid, options.hostname, host.ownerToken⟩ record.sessionId
                  host.identity.now], ?_⟩ (.inr ⟨dead.1, dead.2, same⟩)
              simp [reopen, probed, probe, bind, Except.bind, isStandaloneLive, require, same]
              rfl
            · refine iff_of_false ?_ ?_
              · simp [reopen, probed, probe, bind, Except.bind, require, same]
              · simp [ManagerWorld.LeaseAllows, released, same]
          · have probe : classifyLease host.identity (some lease) = ⟨.live, some lease⟩ := by
              simp only [classifyLease, released]
              simp_all
            refine iff_of_false ?_ ?_
            · rintro ⟨records, h⟩
              simp only [reopen, probed, probe] at h
              obtain ⟨_, found, h⟩ := bind_eq_ok.mp h
              obtain rfl := Except.ok.inj found
              obtain ⟨-, h⟩ := require_bind_eq_ok.mp h
              obtain ⟨no, -⟩ := require_bind_eq_ok.mp h
              cases no
            · simp only [ManagerWorld.LeaseAllows, released]
              rintro (h | ⟨here, gone, -⟩)
              · cases h
              · exact dead ⟨here, gone⟩

/-- Whether an open by a front succeeds is decided by the project's record and the lease. -/
theorem ensureSession_ok_iff (slug : validateProjectKey projectKey = .ok projectKey)
    (driver : driverKeyPattern.test driverKey = true) (housed :
      Housed options.roots s.fs projectKey) :
    (∃ opening, (s.ensureSession options host projectKey driverKey).1 = .ok opening) ↔
      ∃ record, s.bindings.projects.lookup projectKey = some record ∧
        ManagerWorld.LeaseAllows host.identity record.sessionId (s.leases projectKey) := by
  have checked : (do
      assertDriverKeyShape driverKey
      validateProjectKey projectKey) = .ok projectKey := by
    simp [assertDriverKeyShape, driver, slug, bind, Except.bind]
  unfold ensureSession
  rw [attempt_ok_iff, checked]
  generalize hattributed : (if (s.bindings.drivers.lookup driverKey).any
    (·.projectKey == projectKey) then s else s.setDriver driverKey projectKey) = attributed
  have projects : attributed.bindings.projects = s.bindings.projects := by
    rw [← hattributed]
    split <;> rfl
  have leases : attributed.leases = s.leases := by
    rw [← hattributed]
    split <;> rfl
  have fs : attributed.fs = s.fs := by
    rw [← hattributed]
    split <;> rfl
  simp only [Except.ok.injEq, exists_eq_left', hattributed, projects]
  cases recorded : s.bindings.projects.lookup projectKey with
  | none =>
      refine iff_of_false ?_ (by simp)
      rw [attempt_ok_iff]
      rintro ⟨_, -, opening, h⟩
      obtain ⟨failure, refused⟩ : ∃ failure,
          attributed.createProject options host projectKey = (.error failure, attributed) :=
        createProject_of_housed (fs ▸ housed)
      rw [refused] at h
      cases h
  | some record =>
      rw [attempt_ok_iff, ← leases]
      simpa using reopen_ok_iff slug

end ManagerState

namespace ManagerWorld

variable {options : SessionManagerOptions} {world : ManagerWorld} {host : CallHost}

theorem ownLeaseNotLive_iff (truthful : world.Truthful options host) (projectKey : String) :
    world.OwnLeaseNotLive options host projectKey ↔
      ∀ lease, world.state.leases projectKey = .record lease →
        ¬ lease.Names options.hostname world.state.pid := by
  refine forall₂_congr fun lease _ => ⟨fun h names => ?_, fun h names => absurd names h⟩
  have live : (classifyLease host.identity (some lease)).state = .live := by
    refine classifyLease_live.mpr ⟨lease, rfl, names.2.2, fun _ => ?_⟩
    rw [names.2.1]
    exact truthful.2.2
  simpa [isStandaloneLive, live] using h names

/-- An open that waits ends with the session id of its record. -/
theorem Sound.opened_iff (sound : world.Sound options) (host : CallHost)
    {opening : ManagerState.Opening} (waiting : opening ∈ world.opening) {sessionId : String}
    (answered : world.answered opening.projectKey = some sessionId) :
    (∃ item, (world.state.opened host opening).1 = .ok item ∧ item.sessionId = sessionId) ↔
      (world.state.bindings.projects.lookup opening.projectKey).map (·.sessionId) =
        some sessionId := by
  obtain ⟨slug, recorded⟩ := sound.opening opening waiting
  obtain ⟨record, there⟩ := Option.isSome_iff_exists.mp recorded
  obtain ⟨lease, readable⟩ := sound.readable opening.projectKey (by simp [answered])
  have item (s : ManagerState) (leases : s.leases = world.state.leases)
      (projects : s.bindings.projects = world.state.bindings.projects) :
      ∃ item, (s.itemForRecord host opening.projectKey).1 = .ok item ∧
        item.sessionId = record.sessionId := by
    have probed : s.probe host opening.projectKey = .ok (classifyLease host.identity lease) := by
      simp only [ManagerState.probe, probeLease, slug, leases, readable]
      rfl
    exact ⟨_, by rw [ManagerState.itemForRecord, probed]; rfl,
      by simp [ManagerState.projectListItem, projects, there]⟩
  have opened : ∃ item, (world.state.opened host opening).1 = .ok item ∧
      item.sessionId = record.sessionId := by
    unfold ManagerState.opened
    split
    · dsimp only
      rw [if_pos (by simp [ManagerState.save, ManagerState.setDriver, there])]
      exact item _ rfl rfl
    · exact item _ rfl rfl
  obtain ⟨answer, ok, same⟩ := opened
  rw [there, ok]
  simp [same]

/-- One root, and a digest that is right about the one project. -/
def scriptOptions : SessionManagerOptions where
  roots := ["/r"]
  stateDir := "/s"
  maxProjects := 64
  hostname := "host"
  uid := 1000
  sha256 _ := "2b7f18f362e4867211588d2336d5b26580de87b99743682bed79e9452eebcf5f"
  roots_ne := by simp

/-- A host where every recorded process lives. -/
def scriptHost : CallHost where
  identity := ⟨1, (· == "host"), fun _ => true⟩
  now := 1
  ownerToken := "sm:token"
  creation := .created

/-- An empty state directory and an empty root. -/
def scriptState : ManagerState :=
  ⟨0, emptyBindings, .absent, fun _ => .absent, fun _ => .absent⟩

def openAlpha (driverKey : String) : ManagerEvent :=
  .call scriptHost (.ensureSession "alpha" driverKey)

/-- The project is created by its first open. -/
def createdScript : List ManagerEvent :=
  [.start 7, openAlpha "telegram:bridge", .resume scriptHost 0]

/-- Its second open acquires the lease. -/
def acquiredScript : List ManagerEvent :=
  createdScript ++ [openAlpha "telegram:bridge", .resume scriptHost 0]

end ManagerWorld

end AdCoder.SessionManager
