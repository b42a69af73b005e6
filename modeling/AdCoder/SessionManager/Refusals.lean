import AdCoder.SessionManager.Faults

/-!
# Refused calls

A call that ends with an error leaves the bindings as they were, unless it had
changed them in memory before the error: an open binds its driver first, and a
save may fail after the change that it was to save.
-/

namespace AdCoder.SessionManager

open Foundation

namespace ManagerState

/-! ## What a call does, by its checks -/

section Checks

variable (options : SessionManagerOptions) (host : CallHost) (s : ManagerState)

/-- A new directory may be made for the key, and is made. -/
def Creatable (projectKey : String) : Prop :=
  validateProjectKey projectKey = .ok projectKey ∧ options.maxProjects ≠ 0 ∧
    s.bindings.projects.keys.length < options.maxProjects ∧
    ¬ Housed options.roots s.fs projectKey ∧ host.creation = .created

/-- The first root, where a new project goes. -/
def newDirectory (projectKey : String) : String :=
  joinPath (options.roots.head options.roots_ne) projectKey

/-- The new directory is made and recorded. -/
def withProject (projectKey : String) : ManagerState :=
  let dir := newDirectory options projectKey
  { s with fs := Function.update s.fs dir (.directory dir) }.setProject projectKey
    (newRecord options host projectKey dir)

/-- The driver may be bound to the project's directory. -/
def Bindable (projectKey driverKey : String) : Prop :=
  driverKeyPattern.test driverKey = true ∧ validateProjectKey projectKey = .ok projectKey ∧
    ∃ dir, resolveProjectDir s.fs options.roots projectKey = .ok (some dir)

/-- The front may drop its binding. -/
def Unbindable (driverKey : String) (projectKey : Option String) : Prop :=
  driverKeyPattern.test driverKey = true ∧
    ∃ binding, s.bindings.drivers.lookup driverKey = some binding ∧
      projectKey.all (· == binding.projectKey) = true

/-- The lease file records a release. -/
def Released (projectKey : String) : Prop :=
  ∃ lease, s.leases projectKey = .record lease ∧ lease.releasedAt.isSome = true

/-- A released lease of a project that has no record and may be bound. -/
def Adoptable (projectKey : String) : Prop :=
  s.Released projectKey ∧ s.bindings.projects.lookup projectKey = none ∧
    s.Bindable options projectKey (consoleKey options)

/-- The driver is bound to the project already. -/
def Attributed (projectKey driverKey : String) : Prop :=
  (s.bindings.drivers.lookup driverKey).any (·.projectKey == projectKey) = true

end Checks

variable {options : SessionManagerOptions} {host : CallHost} {s t : ManagerState}

theorem validateProjectKey_cases (input : String) :
    validateProjectKey input = .ok input ∨ ∃ error, validateProjectKey input = .error error := by
  cases h : validateProjectKey input with
  | ok key => exact .inl (by rw [validateProjectKey_eq_ok h])
  | error error => exact .inr ⟨error, rfl⟩

/-- Under an empty key the first root is free. -/
theorem find_root {fs : FileSystem} {roots : List String} {projectKey : String} (ne : roots ≠ [])
    (empty : ¬ Housed roots fs projectKey) :
    (roots.find? fun root => (realpath fs (joinPath root projectKey)).isNone) =
      some (roots.head ne) := by
  cases roots with
  | nil => exact absurd rfl ne
  | cons root rest =>
      have absent : fs (joinPath root projectKey) = .absent := by
        by_contra there
        exact empty ⟨root, List.mem_cons_self, there⟩
      simp [realpath, absent]

/-- What was there under a path is still the same. -/
def Grows (s t : ManagerState) : Prop := ∀ path, s.fs path ≠ .absent → t.fs path = s.fs path

theorem grows_update {dir : String} (absent : s.fs dir = .absent) (entry : FileEntry) :
    s.Grows { s with fs := Function.update s.fs dir entry } := by
  intro path there
  refine Function.update_of_ne ?_ ..
  rintro rfl
  exact there absent

theorem newDirectory_absent {projectKey : String}
    (empty : ¬ Housed options.roots s.fs projectKey) :
    s.fs (newDirectory options projectKey) = .absent := by
  by_contra there
  exact empty ⟨_, List.head_mem options.roots_ne, there⟩

theorem createProject_cases (options : SessionManagerOptions) (host : CallHost)
    (s : ManagerState) (projectKey : String) :
    (s.Creatable options host projectKey ∧
      s.createProject options host projectKey =
        (.ok (), (s.withProject options host projectKey).save)) ∨
    (¬ s.Creatable options host projectKey ∧ ∃ failure t,
      s.createProject options host projectKey = (.error failure, t) ∧
        t.bindings = s.bindings ∧ t.file = s.file ∧ s.Grows t) := by
  unfold createProject attempt
  split
  · rename_i error refused
    refine .inr ⟨?_, _, s, rfl, rfl, rfl, fun _ _ => rfl⟩
    rintro ⟨slug, enabled, below, empty, -⟩
    rw [slug, resolveProjectDir_none.mpr empty, find_root options.roots_ne empty] at refused
    simp [require, enabled, below, bind, Except.bind, pure, Except.pure] at refused
  · rename_i dir checked
    obtain ⟨key, slug, checked⟩ := bind_eq_ok.mp checked
    obtain rfl := validateProjectKey_eq_ok slug
    obtain ⟨enabled, checked⟩ := require_bind_eq_ok.mp checked
    obtain ⟨below, checked⟩ := require_bind_eq_ok.mp checked
    obtain ⟨resolved, nothing, checked⟩ := bind_eq_ok.mp checked
    obtain ⟨free, checked⟩ := require_bind_eq_ok.mp checked
    rw [Option.isNone_iff_eq_none.mp free] at nothing
    have empty := resolveProjectDir_none.mp nothing
    rw [find_root options.roots_ne empty] at checked
    obtain rfl : newDirectory options key = dir := pure_eq_ok.mp checked
    have creatable : host.creation = .created → s.Creatable options host key := fun created =>
      ⟨slug, by simpa using enabled, by simpa using below, empty, created⟩
    have grown := grows_update (newDirectory_absent empty)
      (.directory (newDirectory options key))
    cases outcome : host.creation with
    | created => exact .inl ⟨creatable outcome, rfl⟩
    | «exists» =>
        refine .inr ⟨fun h => ?_, _, _, rfl, rfl, rfl, fun _ _ => rfl⟩
        simp [h.2.2.2.2] at outcome
    | notMade =>
        refine .inr ⟨fun h => ?_, _, _, rfl, rfl, rfl, fun _ _ => rfl⟩
        simp [h.2.2.2.2] at outcome
    | misplaced =>
        refine .inr ⟨fun h => ?_, _, _, rfl, rfl, rfl, grown⟩
        simp [h.2.2.2.2] at outcome
    | scaffoldFailed =>
        refine .inr ⟨fun h => ?_, _, _, rfl, rfl, rfl, grown⟩
        simp [h.2.2.2.2] at outcome
    | gitFailed detail =>
        refine .inr ⟨fun h => ?_, _, _, rfl, rfl, rfl, grown⟩
        simp [h.2.2.2.2] at outcome

theorem bindDriver_cases (options : SessionManagerOptions) (host : CallHost)
    (s : ManagerState) (projectKey driverKey : String) :
    (s.Bindable options projectKey driverKey ∧ ∃ dir,
      resolveProjectDir s.fs options.roots projectKey = .ok (some dir) ∧
      s.bindDriver options host projectKey driverKey = (.ok (),
        (if (s.bindings.projects.lookup projectKey).isSome then s.setDriver driverKey projectKey
          else (s.setDriver driverKey projectKey).setProject projectKey
            (newRecord options host projectKey dir)).save)) ∨
    (¬ s.Bindable options projectKey driverKey ∧ ∃ failure,
      s.bindDriver options host projectKey driverKey = (.error failure, s)) := by
  unfold bindDriver attempt
  split
  · rename_i error refused
    refine .inr ⟨?_, _, rfl⟩
    rintro ⟨driver, slug, dir, resolved⟩
    simp [assertDriverKeyShape, require, driver, slug, resolved, bind, Except.bind, pure,
      Except.pure] at refused
  · rename_i bound checked
    obtain ⟨driver, checked⟩ := require_bind_eq_ok.mp checked
    obtain ⟨key, slug, checked⟩ := bind_eq_ok.mp checked
    obtain ⟨resolved, found, checked⟩ := bind_eq_ok.mp checked
    cases resolved with
    | none => cases checked
    | some dir =>
        obtain rfl := pure_eq_ok.mp checked
        obtain rfl := validateProjectKey_eq_ok slug
        exact .inl ⟨⟨driver, slug, dir, found⟩, dir, found, rfl⟩

theorem unbindDriver_cases (driverKey : String) (projectKey : Option String) :
    (s.Unbindable driverKey projectKey ∧ s.unbindDriver driverKey projectKey = (.ok (),
      { s with bindings.drivers := s.bindings.drivers.erase driverKey }.save)) ∨
    (¬ s.Unbindable driverKey projectKey ∧ ∃ failure,
      s.unbindDriver driverKey projectKey = (.error failure, s)) := by
  unfold unbindDriver attempt
  split
  · rename_i error refused
    refine .inr ⟨?_, _, rfl⟩
    rintro ⟨driver, binding, bound, named⟩
    simp [assertDriverKeyShape, require, driver, bound, named, bind, Except.bind] at refused
  · rename_i done checked
    obtain ⟨driver, checked⟩ := require_bind_eq_ok.mp checked
    cases bound : s.bindings.drivers.lookup driverKey with
    | none =>
        rw [bound] at checked
        cases checked
    | some binding =>
        rw [bound] at checked
        exact .inl ⟨⟨driver, binding, bound, require_eq_ok.mp checked⟩, rfl⟩

/-- Renaming and titling begin with the project's record. -/
theorem attempt_record_cases {α : Type} (projectKey : String)
    (next : String × ProjectRecord → Result α) :
    (∃ record, validateProjectKey projectKey = .ok projectKey ∧
      s.bindings.projects.lookup projectKey = some record ∧
      s.attempt (do
        let key ← validateProjectKey projectKey
        pure (key, ← s.requireRecord key)) next = next (projectKey, record)) ∨
    ((validateProjectKey projectKey = .ok projectKey →
        s.bindings.projects.lookup projectKey = none) ∧ ∃ failure,
      s.attempt (do
        let key ← validateProjectKey projectKey
        pure (key, ← s.requireRecord key)) next = (.error failure, s)) := by
  rcases validateProjectKey_cases projectKey with slug | ⟨error, refused⟩
  · cases recorded : s.bindings.projects.lookup projectKey with
    | some record =>
        refine .inl ⟨record, slug, rfl, ?_⟩
        rw [slug]
        simp [attempt, requireRecord, recorded, bind, Except.bind, pure, Except.pure]
    | none =>
        refine .inr ⟨fun _ => rfl, ?_⟩
        rw [slug]
        simp [attempt, requireRecord, recorded, bind, Except.bind]
  · refine .inr ⟨fun slug => ?_, _, by rw [refused]; rfl⟩
    rw [slug] at refused
    cases refused

theorem renameSession_cases (projectKey : String) (manual : Except String String) :
    (∃ record, validateProjectKey projectKey = .ok projectKey ∧
      s.bindings.projects.lookup projectKey = some record ∧
      s.renameSession projectKey manual = match manual with
        | .error message => (.error (.rangeError message), s)
        | .ok name =>
            (.ok (), (s.setProject projectKey { record with name, nameSource := .manual }).save)) ∨
    ((validateProjectKey projectKey = .ok projectKey →
        s.bindings.projects.lookup projectKey = none) ∧ ∃ failure,
      s.renameSession projectKey manual = (.error failure, s)) := by
  unfold renameSession
  refine (attempt_record_cases projectKey _).imp_left ?_
  rintro ⟨record, slug, recorded, found⟩
  exact ⟨record, slug, recorded, found.trans (by cases manual <;> rfl)⟩

theorem setTitleFromGeneration_cases (projectKey sanitized : String) :
    (∃ record, validateProjectKey projectKey = .ok projectKey ∧
      s.bindings.projects.lookup projectKey = some record ∧
      s.setTitleFromGeneration projectKey sanitized =
        if record.nameSource = .manual then (.ok (), s)
        else (.ok (), (s.setProject projectKey
          { record with name := sanitized, nameSource := .generated }).save)) ∨
    ((validateProjectKey projectKey = .ok projectKey →
        s.bindings.projects.lookup projectKey = none) ∧ ∃ failure,
      s.setTitleFromGeneration projectKey sanitized = (.error failure, s)) := by
  unfold setTitleFromGeneration
  exact attempt_record_cases projectKey _

/-- A probe that found a record read it. -/
theorem leases_of_probe {projectKey : String} {probe : LeaseProbe} {lease : LeaseRecord}
    (h : s.probe host projectKey = .ok probe) (found : probe.record = some lease) :
    s.leases projectKey = .record lease := by
  obtain ⟨_, -, h⟩ := bind_eq_ok.mp h
  obtain ⟨record, read, h⟩ := bind_eq_ok.mp h
  obtain rfl := pure_eq_ok.mp h
  obtain rfl : record = some lease := by simpa using found
  cases file : s.leases projectKey with
  | record own =>
      rw [file] at read
      cases read
      rfl
  | _ =>
      rw [file] at read
      cases read

theorem itemForRecord_ok {projectKey : String} {probe : LeaseProbe}
    (h : s.probe host projectKey = .ok probe) :
    s.itemForRecord host projectKey = (.ok (s.projectListItem host projectKey probe), s) := by
  simp [itemForRecord, attempt, h]

theorem adoptAfterRelease_cases (options : SessionManagerOptions) (host : CallHost)
    (s : ManagerState) (projectKey : String) :
    (s.Adoptable options projectKey ∧ ∃ item lease dir,
      s.leases projectKey = .record lease ∧
      resolveProjectDir s.fs options.roots projectKey = .ok (some dir) ∧
      s.adoptAfterRelease options host projectKey = (.ok item,
        ((s.bindDriver options host projectKey (consoleKey options)).2.setProject projectKey
          { newRecord options host projectKey dir with sessionId := lease.sessionId }).save)) ∨
    (¬ s.Adoptable options projectKey ∧ ∃ result,
      s.adoptAfterRelease options host projectKey = (result, s) ∧
        ((s.bindings.projects.lookup projectKey).isSome ∨ ∃ failure, result = .error failure)) := by
  unfold adoptAfterRelease attempt
  split
  · rename_i error refused
    refine .inr ⟨?_, _, rfl, .inr ⟨_, rfl⟩⟩
    rintro ⟨⟨lease, file, released⟩, -, -, slug, -⟩
    rw [slug] at refused
    have probed : s.probe host projectKey = .ok (classifyLease host.identity (some lease)) :=
      probe_record slug file
    simp [probed, bind, Except.bind, require, released, pure, Except.pure] at refused
  · rename_i found checked
    obtain ⟨key, slug, checked⟩ := bind_eq_ok.mp checked
    obtain ⟨probe, probed, checked⟩ := bind_eq_ok.mp checked
    cases held : probe.record with
    | none =>
        rw [held] at checked
        cases checked
    | some lease =>
        rw [held] at checked
        obtain ⟨released, checked⟩ := require_bind_eq_ok.mp checked
        obtain rfl := pure_eq_ok.mp checked
        obtain rfl := validateProjectKey_eq_ok slug
        dsimp only
        by_cases recorded : (s.bindings.projects.lookup key).isSome = true
        · rw [if_pos recorded]
          refine .inr ⟨fun h => ?_, (s.itemForRecord host key).1, ?_, .inl recorded⟩
          · simp [h.2.1] at recorded
          · exact Prod.ext rfl (itemForRecord_state key)
        · rw [if_neg recorded]
          have empty : s.bindings.projects.lookup key = none := by simpa using recorded
          rcases s.bindDriver_cases options host key (consoleKey options)
            with ⟨bindable, dir, resolved, bound⟩ | ⟨unbindable, failure, refused⟩
          · refine .inl ⟨⟨⟨lease, leases_of_probe probed held, released⟩, empty, bindable⟩, ?_⟩
            simp only [empty, Option.isSome_none, Bool.false_eq_true, if_false] at bound
            have same : s.bindDriver options host key ("console:u" ++ toString options.uid) = _ :=
              bound
            rw [bound, same]
            have read : ((s.setDriver (consoleKey options) key).setProject key
                (newRecord options host key dir)).save.bindings.projects.lookup key =
                  some (newRecord options host key dir) := AList.lookup_insert _
            obtain ⟨item, ok⟩ : ∃ item, (((s.setDriver (consoleKey options) key).setProject key
                (newRecord options host key dir)).save.setProject key
                  { newRecord options host key dir with
                    sessionId := lease.sessionId }).save.itemForRecord host key = (.ok item, _) :=
              ⟨_, itemForRecord_ok probed⟩
            refine ⟨item, lease, dir, leases_of_probe probed held, resolved, ?_⟩
            simp only [read]
            exact ok
          · have same : s.bindDriver options host key ("console:u" ++ toString options.uid) =
                (.error failure, s) := refused
            rw [same]
            exact .inr ⟨fun h => unbindable h.2.2, _, rfl, .inr ⟨failure, rfl⟩⟩

/-! ## Intact bindings -/

/-- The bindings in memory and on file are as they were. -/
structure Intact (s t : ManagerState) : Prop where
  drivers : ∀ driverKey, t.bindings.drivers.lookup driverKey = s.bindings.drivers.lookup driverKey
  projects : ∀ projectKey,
    t.bindings.projects.lookup projectKey = s.bindings.projects.lookup projectKey
  file : t.file = s.file

theorem Intact.refl (s : ManagerState) : s.Intact s := ⟨fun _ => rfl, fun _ => rfl, rfl⟩

theorem Intact.of_eq (bindings : t.bindings = s.bindings) (file : t.file = s.file) :
    s.Intact t :=
  ⟨fun _ => by rw [bindings], fun _ => by rw [bindings], file⟩

theorem intact_setDriver {driverKey projectKey : String} :
    s.Intact (s.setDriver driverKey projectKey) ↔
      s.bindings.drivers.lookup driverKey = some ⟨projectKey, driverKeyKind driverKey⟩ := by
  constructor
  · intro h
    simpa [setDriver] using (h.drivers driverKey).symm
  · intro bound
    refine ⟨fun other => ?_, fun _ => rfl, rfl⟩
    rcases eq_or_ne other driverKey with rfl | hne
    · simp [setDriver, bound]
    · simp [setDriver, AList.lookup_insert_ne hne]

theorem intact_setProject {projectKey : String} {record : ProjectRecord} :
    s.Intact (s.setProject projectKey record) ↔
      s.bindings.projects.lookup projectKey = some record := by
  constructor
  · intro h
    simpa [setProject] using (h.projects projectKey).symm
  · intro recorded
    refine ⟨fun _ => rfl, fun other => ?_, rfl⟩
    rcases eq_or_ne other projectKey with rfl | hne
    · simp [setProject, recorded]
    · simp [setProject, AList.lookup_insert_ne hne]

end ManagerState

/-! ## Calls that spare the bindings -/

namespace Faults

open ManagerState

section Conditions

variable (options : SessionManagerOptions) (host : CallHost) (faults : Faults) (s : ManagerState)

/-- What a call that fails has changed in memory by then, it has left as it was: an open is
by a driver that is bound to the project already, and a save that fails was to save nothing
new. -/
def Spares : ManagerCall → Prop
  | .ensureSession projectKey driverKey =>
      driverKeyPattern.test driverKey = true → validateProjectKey projectKey = .ok projectKey →
        s.Attributed projectKey driverKey ∧
          (faults.save = true → s.bindings.projects.lookup projectKey = Option.none →
            (∃ probe, s.probe host projectKey = .ok probe ∧ isStandaloneLive probe = false) →
            ¬ s.Creatable options host projectKey)
  | .createProject projectKey =>
      faults.save = true → s.Creatable options host projectKey →
        s.bindings.projects.lookup projectKey =
          some (newRecord options host projectKey (newDirectory options projectKey))
  | .bindDriver projectKey driverKey =>
      faults.save = true → s.Bindable options projectKey driverKey →
        (s.bindings.projects.lookup projectKey).isSome ∧
          s.bindings.drivers.lookup driverKey = some ⟨projectKey, driverKeyKind driverKey⟩
  | .unbindDriver driverKey projectKey => faults.save = true → ¬ s.Unbindable driverKey projectKey
  | .renameSession projectKey manual =>
      faults.save = true → validateProjectKey projectKey = .ok projectKey →
        ∀ record, s.bindings.projects.lookup projectKey = some record →
          ∀ name, manual = .ok name → record.name = name ∧ record.nameSource = .manual
  | .setTitleFromGeneration projectKey sanitized =>
      faults.save = true → validateProjectKey projectKey = .ok projectKey →
        ∀ record, s.bindings.projects.lookup projectKey = some record →
          record.nameSource = .generated → record.name = sanitized
  | .adoptAfterRelease projectKey =>
      faults.save = true ∨ faults.saveAgain = true → ¬ s.Adoptable options projectKey
  | .recordStandaloneRelease _ => True

/-- An open that waits has changed nothing: the driver was bound, the project was recorded,
and the file holds the bindings. -/
def SparesOpening (projectKey driverKey : String) : Prop :=
  s.Attributed projectKey driverKey ∧ (s.bindings.projects.lookup projectKey).isSome ∧
    s.file = .parsed s.bindings.toJson

end Conditions

variable {options : SessionManagerOptions} {host : CallHost} {faults : Faults}
  {s t : ManagerState}

theorem createProject_intact {projectKey : String} {failure : ManagerFailure}
    (h : faults.createProject options host s projectKey = (.error failure, t)) :
    s.Intact t ↔ faults.Spares options host s (.createProject projectKey) := by
  unfold Faults.createProject at h
  rcases s.createProject_cases options host projectKey with
    ⟨creatable, made⟩ | ⟨uncreatable, why, u, refused, bindings, file, -⟩
  · rw [made] at h
    cases fails : faults.save with
    | false => simp [saved, fails] at h
    | true =>
        simp only [saved, fails, if_true, Prod.mk.injEq, Except.error.injEq] at h
        obtain ⟨-, rfl⟩ := h
        have changed : s.Intact { (s.withProject options host projectKey).save with
            file := s.file } ↔ s.Intact (s.setProject projectKey
              (newRecord options host projectKey (newDirectory options projectKey))) :=
          ⟨fun h => ⟨h.drivers, h.projects, rfl⟩, fun h => ⟨h.drivers, h.projects, rfl⟩⟩
        rw [changed, intact_setProject]
        exact ⟨fun recorded _ _ => recorded, fun spares => spares fails creatable⟩
  · rw [refused] at h
    obtain ⟨-, rfl⟩ := Prod.mk.inj h
    exact iff_of_true (.of_eq bindings file) fun _ creatable => absurd creatable uncreatable

theorem bindDriver_intact {projectKey driverKey : String} {failure : ManagerFailure}
    (h : faults.bindDriver options host s projectKey driverKey = (.error failure, t)) :
    s.Intact t ↔ faults.Spares options host s (.bindDriver projectKey driverKey) := by
  unfold Faults.bindDriver at h
  rcases s.bindDriver_cases options host projectKey driverKey with
    ⟨bindable, dir, -, bound⟩ | ⟨unbindable, why, refused⟩
  · rw [bound] at h
    cases fails : faults.save with
    | false => simp [saved, fails] at h
    | true =>
        simp only [saved, fails, if_true, Prod.mk.injEq, Except.error.injEq] at h
        obtain ⟨-, rfl⟩ := h
        have spares : faults.Spares options host s (.bindDriver projectKey driverKey) ↔
            (s.bindings.projects.lookup projectKey).isSome ∧
              s.bindings.drivers.lookup driverKey = some ⟨projectKey, driverKeyKind driverKey⟩ :=
          ⟨fun spares => spares fails bindable, fun known _ _ => known⟩
        rw [spares]
        by_cases recorded : (s.bindings.projects.lookup projectKey).isSome = true
        · rw [if_pos recorded, and_iff_right recorded, ← intact_setDriver]
          exact ⟨fun h => ⟨h.drivers, h.projects, rfl⟩, fun h => ⟨h.drivers, h.projects, rfl⟩⟩
        · rw [if_neg recorded]
          refine iff_of_false (fun h => recorded ?_) fun h => recorded h.1
          have same := h.projects projectKey
          simp only [ManagerState.save, setProject, AList.lookup_insert] at same
          simp [← same]
  · rw [refused] at h
    obtain ⟨-, rfl⟩ := Prod.mk.inj h
    exact iff_of_true (.refl s) fun _ bindable => absurd bindable unbindable

theorem unbindDriver_intact {driverKey : String} {projectKey : Option String}
    {failure : ManagerFailure}
    (h : faults.unbindDriver s driverKey projectKey = (.error failure, t)) :
    s.Intact t ↔ faults.Spares options host s (.unbindDriver driverKey projectKey) := by
  unfold Faults.unbindDriver at h
  rcases s.unbindDriver_cases driverKey projectKey with
    ⟨unbindable, dropped⟩ | ⟨bound, why, refused⟩
  · rw [dropped] at h
    cases fails : faults.save with
    | false => simp [saved, fails] at h
    | true =>
        simp only [saved, fails, if_true, Prod.mk.injEq, Except.error.injEq] at h
        obtain ⟨-, rfl⟩ := h
        refine iff_of_false (fun h => ?_) fun spares => spares fails unbindable
        obtain ⟨-, binding, held, -⟩ := unbindable
        have same := h.drivers driverKey
        simp [ManagerState.save, held] at same
  · rw [refused] at h
    obtain ⟨-, rfl⟩ := Prod.mk.inj h
    exact iff_of_true (.refl s) fun _ unbindable => bound unbindable

theorem renameSession_intact {projectKey : String} {manual : Except String String}
    {failure : ManagerFailure}
    (h : faults.renameSession s projectKey manual = (.error failure, t)) :
    s.Intact t ↔ faults.Spares options host s (.renameSession projectKey manual) := by
  unfold Faults.renameSession at h
  rcases s.renameSession_cases projectKey manual with
    ⟨record, slug, recorded, found⟩ | ⟨unrecorded, why, refused⟩
  · rw [found] at h
    cases manual with
    | error message =>
        obtain ⟨-, rfl⟩ := Prod.mk.inj h
        refine iff_of_true (.refl s) fun _ _ _ _ name ok => ?_
        cases ok
    | ok name =>
        cases fails : faults.save with
        | false => simp [saved, fails] at h
        | true =>
            simp only [saved, fails, if_true, Prod.mk.injEq, Except.error.injEq] at h
            obtain ⟨-, rfl⟩ := h
            have changed : s.Intact { (s.setProject projectKey
                { record with name, nameSource := .manual }).save with file := s.file } ↔
                s.Intact (s.setProject projectKey { record with name, nameSource := .manual }) :=
              ⟨fun h => ⟨h.drivers, h.projects, rfl⟩, fun h => ⟨h.drivers, h.projects, rfl⟩⟩
            rw [changed, intact_setProject, recorded]
            constructor
            · rintro same _ _ other held own ⟨⟩
              obtain rfl := Option.some.inj (recorded.symm.trans held)
              have := Option.some.inj same
              rw [this]
              exact ⟨rfl, rfl⟩
            · intro spares
              obtain ⟨named, manual⟩ := spares fails slug record recorded name rfl
              rw [← named, ← manual]
  · rw [refused] at h
    obtain ⟨-, rfl⟩ := Prod.mk.inj h
    refine iff_of_true (.refl s) fun _ slug record recorded => ?_
    rw [unrecorded slug] at recorded
    cases recorded

theorem setTitleFromGeneration_intact {projectKey sanitized : String} {failure : ManagerFailure}
    (h : faults.setTitleFromGeneration s projectKey sanitized = (.error failure, t)) :
    s.Intact t ↔ faults.Spares options host s (.setTitleFromGeneration projectKey sanitized) := by
  unfold Faults.setTitleFromGeneration at h
  rcases s.setTitleFromGeneration_cases projectKey sanitized with
    ⟨record, slug, recorded, found⟩ | ⟨unrecorded, why, refused⟩
  · rw [found] at h
    cases source : record.nameSource with
    | manual => simp [saved, recorded, source] at h
    | generated =>
        cases fails : faults.save with
        | false => simp [saved, fails, source] at h
        | true =>
            simp [saved, fails, recorded, source] at h
            obtain ⟨-, rfl⟩ := h
            have changed : s.Intact { (s.setProject projectKey { record with
                name := sanitized, nameSource := .generated }).save with file := s.file } ↔
                s.Intact (s.setProject projectKey { record with
                  name := sanitized, nameSource := .generated }) :=
              ⟨fun h => ⟨h.drivers, h.projects, rfl⟩, fun h => ⟨h.drivers, h.projects, rfl⟩⟩
            rw [changed, intact_setProject, recorded]
            constructor
            · rintro same _ _ other held -
              obtain rfl := Option.some.inj (recorded.symm.trans held)
              have := Option.some.inj same
              rw [this]
            · intro spares
              rw [← spares fails slug record recorded source, ← source]
  · rw [refused] at h
    obtain ⟨-, rfl⟩ := Prod.mk.inj h
    refine iff_of_true (.refl s) fun _ slug record recorded => ?_
    rw [unrecorded slug] at recorded
    cases recorded

theorem adoptAfterRelease_intact {projectKey : String} {failure : ManagerFailure}
    (h : faults.adoptAfterRelease options host s projectKey = (.error failure, t)) :
    s.Intact t ↔ faults.Spares options host s (.adoptAfterRelease projectKey) := by
  unfold Faults.adoptAfterRelease at h
  rcases s.adoptAfterRelease_cases options host projectKey with
    ⟨adoptable, item, lease, dir, -, -, adopted⟩ | ⟨unadoptable, result, refused, ended⟩
  · have failing : faults.save = true ∨ faults.saveAgain = true := by
      by_contra none
      rw [adopted] at h
      simp only [adoptable.2.1, Option.isSome_none, Bool.false_eq_true, if_false] at h
      simp [not_or.mp none] at h
    refine iff_of_false (fun intact => ?_) fun spares => spares failing adoptable
    have empty := adoptable.2.1
    rcases s.bindDriver_cases options host projectKey (consoleKey options)
      with ⟨-, own, -, bound⟩ | ⟨unbindable, -⟩
    · have recorded : (t.bindings.projects.lookup projectKey).isSome := by
        rw [adopted] at h
        simp only [empty, bound, Option.isSome_none, Bool.false_eq_true, if_false] at h
        cases first : faults.save with
        | true =>
            simp only [first, if_true, Prod.mk.injEq] at h
            rw [← h.2]
            simp [setProject, ManagerState.save]
        | false =>
            cases again : faults.saveAgain with
            | true =>
                simp only [first, again, Bool.false_eq_true, if_false, if_true,
                  Prod.mk.injEq] at h
                rw [← h.2]
                simp [setProject, ManagerState.save]
            | false => simp [first, again] at failing
      rw [intact.projects, empty] at recorded
      cases recorded
    · exact absurd adoptable.2.2 unbindable
  · rw [refused] at h
    refine iff_of_true ?_ fun _ adoptable => unadoptable adoptable
    rcases ended with recorded | ⟨why, rfl⟩
    · cases result with
      | error why =>
          obtain ⟨-, rfl⟩ := Prod.mk.inj h
          exact .refl s
      | ok item => simp [recorded] at h
    · obtain ⟨-, rfl⟩ := Prod.mk.inj h
      exact .refl s

/-! ### Opens -/

/-- The state in which an open has bound its driver. -/
def bound (s : ManagerState) (projectKey driverKey : String) : ManagerState :=
  if (s.bindings.drivers.lookup driverKey).any (·.projectKey == projectKey) then s
  else s.setDriver driverKey projectKey

theorem bound_of_attributed {projectKey driverKey : String}
    (h : s.Attributed projectKey driverKey) : bound s projectKey driverKey = s :=
  if_pos h

theorem bound_projects (projectKey driverKey : String) :
    (bound s projectKey driverKey).bindings.projects = s.bindings.projects := by
  unfold bound
  split <;> rfl

/-- A driver that was not bound to the project is bound to it now. -/
theorem not_intact_of_bound {projectKey driverKey : String}
    (unattributed : ¬ s.Attributed projectKey driverKey)
    (same : t.bindings.drivers = (bound s projectKey driverKey).bindings.drivers) :
    ¬ s.Intact t := by
  intro intact
  have before := intact.drivers driverKey
  have set : bound s projectKey driverKey = s.setDriver driverKey projectKey := if_neg unattributed
  rw [same, set] at before
  refine unattributed ?_
  simp [Attributed, ← before, setDriver]

theorem createProject_drivers (projectKey : String) :
    (faults.createProject options host s projectKey).2.bindings.drivers = s.bindings.drivers := by
  unfold Faults.createProject
  rcases s.createProject_cases options host projectKey with
    ⟨-, made⟩ | ⟨-, why, u, refused, bindings, -⟩
  · rw [made]
    cases fails : faults.save with
    | false => simp [ManagerState.save, withProject, setProject]
    | true => simp [saved, ManagerState.save, withProject, setProject]
  · rw [refused]
    exact congrArg _ bindings

/-- How an open ends before its wait, by its checks. -/
theorem ensureSession_cases (options : SessionManagerOptions) (host : CallHost)
    (faults : Faults) (s : ManagerState) (projectKey driverKey : String) :
    (¬ (driverKeyPattern.test driverKey = true ∧
        validateProjectKey projectKey = .ok projectKey) ∧ ∃ failure,
      faults.ensureSession options host s projectKey driverKey = (.error failure, s)) ∨
    ((driverKeyPattern.test driverKey = true ∧
        validateProjectKey projectKey = .ok projectKey) ∧
      faults.ensureSession options host s projectKey driverKey =
        match s.bindings.projects.lookup projectKey with
        | Option.none =>
            (bound s projectKey driverKey).attempt
              (do require (!isStandaloneLive (← s.probe host projectKey)) leaseHeld) fun _ =>
            match faults.createProject options host (bound s projectKey driverKey) projectKey with
            | (.error failure, s) => (.error failure, s)
            | (.ok _, s) => (.ok ⟨projectKey, driverKey, true⟩, s)
        | some record =>
            (bound s projectKey driverKey).attempt
              ((bound s projectKey driverKey).reopen options host projectKey record) fun records =>
            match faults.lease.filter (· < records.length) with
            | some written =>
                (.error .host, (bound s projectKey driverKey).writeLease projectKey
                  (records.take written))
            | Option.none =>
                if faults.save then
                  (.error .host, (bound s projectKey driverKey).writeLease projectKey records)
                else (.ok ⟨projectKey, driverKey, false⟩,
                  ((bound s projectKey driverKey).writeLease projectKey records).save)) := by
  unfold Faults.ensureSession attempt
  split
  · rename_i error refused
    refine .inl ⟨?_, _, rfl⟩
    rintro ⟨driver, slug⟩
    simp [assertDriverKeyShape, require, driver, slug, bind, Except.bind] at refused
  · rename_i key checked
    obtain ⟨driver, slug⟩ := require_bind_eq_ok.mp checked
    obtain rfl := validateProjectKey_eq_ok slug
    refine .inr ⟨⟨driver, slug⟩, ?_⟩
    have probes : (bound s key driverKey).probe host key = s.probe host key := by
      unfold bound
      split <;> rfl
    have projects := congrArg (AList.lookup key) (bound_projects (s := s) key driverKey)
    unfold bound at probes projects ⊢
    dsimp only
    rw [probes, projects]
    all_goals rfl

theorem ensureSession_drivers (options : SessionManagerOptions) (host : CallHost)
    (faults : Faults) (s : ManagerState) {projectKey driverKey : String}
    (accepted : driverKeyPattern.test driverKey = true ∧
      validateProjectKey projectKey = .ok projectKey) :
    (faults.ensureSession options host s projectKey driverKey).2.bindings.drivers =
      (bound s projectKey driverKey).bindings.drivers := by
  rcases ensureSession_cases options host faults s
    projectKey driverKey with ⟨unaccepted, -⟩ | ⟨-, h⟩
  · exact absurd accepted unaccepted
  · rw [h]
    split
    · unfold attempt
      split
      · rfl
      · have kept : (faults.createProject options host (bound s projectKey driverKey)
            projectKey).2.bindings.drivers = (bound s projectKey driverKey).bindings.drivers :=
          createProject_drivers projectKey
        split <;> simp_all
    · unfold attempt
      split
      · rfl
      · dsimp only
        split
        · rfl
        · split <;> rfl

theorem ensureSession_intact {projectKey driverKey : String} {failure : ManagerFailure}
    (h : faults.ensureSession options host s projectKey driverKey = (.error failure, t)) :
    s.Intact t ↔ faults.Spares options host s (.ensureSession projectKey driverKey) := by
  rcases ensureSession_cases options host faults s
    projectKey driverKey with ⟨unaccepted, why, refused⟩ | ⟨accepted, going⟩
  · rw [refused] at h
    obtain ⟨-, rfl⟩ := Prod.mk.inj h
    exact iff_of_true (.refl s) fun driver slug => absurd ⟨driver, slug⟩ unaccepted
  · by_cases attributed : s.Attributed projectKey driverKey
    · rw [bound_of_attributed attributed] at going
      rw [going] at h
      have spares : faults.Spares options host s (.ensureSession projectKey driverKey) ↔
          (faults.save = true → s.bindings.projects.lookup projectKey = Option.none →
            (∃ probe, s.probe host projectKey = .ok probe ∧ isStandaloneLive probe = false) →
            ¬ s.Creatable options host projectKey) :=
        ⟨fun spares => (spares accepted.1 accepted.2).2, fun spares _ _ => ⟨attributed, spares⟩⟩
      rw [spares]
      split at h
      · rename_i unrecorded
        unfold attempt at h
        split at h
        · rename_i error held
          obtain ⟨-, rfl⟩ := Prod.mk.inj h
          refine iff_of_true (.refl s) ?_
          rintro - - ⟨probe, probed, free⟩
          simp [probed, free, bind, Except.bind, require] at held
        · rename_i checked
          obtain ⟨probe, probed, free⟩ := bind_eq_ok.mp checked
          have unheld : isStandaloneLive probe = false := by simpa using free
          split at h
          · rename_i created
            obtain ⟨-, rfl⟩ := Prod.mk.inj h
            rw [createProject_intact created]
            constructor
            · intro made fails _ _ creatable
              have recorded := made fails creatable
              rw [unrecorded] at recorded
              cases recorded
            · intro spared fails creatable
              exact absurd creatable (spared fails unrecorded ⟨probe, probed, unheld⟩)
          · simp at h
      · rename_i record recorded
        have spared : faults.save = true → s.bindings.projects.lookup projectKey = Option.none →
            (∃ probe, s.probe host projectKey = .ok probe ∧ isStandaloneLive probe = false) →
            ¬ s.Creatable options host projectKey := by
          intro _ unrecorded
          rw [recorded] at unrecorded
          cases unrecorded
        refine iff_of_true ?_ spared
        unfold attempt at h
        split at h
        · obtain ⟨-, rfl⟩ := Prod.mk.inj h
          exact .refl s
        · dsimp only at h
          split at h
          · obtain ⟨-, rfl⟩ := Prod.mk.inj h
            exact .of_eq rfl rfl
          · split at h
            · obtain ⟨-, rfl⟩ := Prod.mk.inj h
              exact .of_eq rfl rfl
            · simp at h
    · have drivers := ensureSession_drivers options host
        faults s accepted
      rw [h] at drivers
      refine iff_of_false (not_intact_of_bound attributed drivers) fun spares => ?_
      exact attributed (spares accepted.1 accepted.2).1

/-- An open that waits has changed nothing just in case it creates nothing, and what it set
and saved was there. -/
theorem ensureSession_opening {projectKey driverKey : String} {opening : Opening}
    (h : faults.ensureSession options host s projectKey driverKey = (.ok opening, t)) :
    opening.projectKey = projectKey ∧ opening.driverKey = driverKey ∧
      (s.Intact t → opening.created = false) ∧
      (s.Intact t ↔ SparesOpening s projectKey driverKey) := by
  rcases ensureSession_cases options host faults s
    projectKey driverKey with ⟨-, why, refused⟩ | ⟨accepted, going⟩
  · rw [refused] at h
    simp at h
  · have drivers := ensureSession_drivers options host
      faults s accepted
    rw [h] at drivers
    rw [going] at h
    cases recorded : s.bindings.projects.lookup projectKey with
    | none =>
        simp only [recorded] at h
        unfold attempt at h
        split at h
        · simp at h
        · split at h
          · simp at h
          · rename_i u created
            obtain ⟨heq, rfl⟩ := Prod.mk.inj h
            obtain rfl := Except.ok.inj heq
            have changed : ¬ s.Intact u := by
              intro intact
              have there : (u.bindings.projects.lookup projectKey).isSome := by
                unfold Faults.createProject at created
                rcases (bound s projectKey driverKey).createProject_cases options host
                  projectKey with ⟨-, made⟩ | ⟨-, why, v, refused, -⟩
                · rw [made] at created
                  cases fails : faults.save with
                  | true => simp [saved, fails] at created
                  | false =>
                      simp only [saved, fails, Bool.false_eq_true, if_false,
                        Prod.mk.injEq] at created
                      rw [← created.2]
                      simp [ManagerState.save, withProject, setProject]
                · rw [refused] at created
                  simp [saved] at created
              rw [intact.projects, recorded] at there
              cases there
            exact ⟨rfl, rfl, fun intact => absurd intact changed,
              iff_of_false changed fun spares => by simp [SparesOpening, recorded] at spares⟩
    | some record =>
        simp only [recorded] at h
        unfold attempt at h
        split at h
        · simp at h
        · rename_i records _
          dsimp only at h
          split at h
          · simp at h
          · split at h
            · simp at h
            · obtain ⟨heq, rfl⟩ := Prod.mk.inj h
              obtain rfl := Except.ok.inj heq
              refine ⟨rfl, rfl, fun _ => rfl, ?_⟩
              by_cases attributed : s.Attributed projectKey driverKey
              · rw [bound_of_attributed attributed]
                constructor
                · intro intact
                  exact ⟨attributed, by simp [recorded], intact.file.symm⟩
                · intro spares
                  exact ⟨fun _ => rfl, fun _ => rfl, spares.2.2.symm⟩
              · exact iff_of_false (not_intact_of_bound attributed drivers)
                  fun spares => attributed spares.1

/-- The end of an open that created nothing changes nothing. -/
theorem opened_intact (host : CallHost) (faults : Faults) (s : ManagerState)
    {opening : Opening} (existing : opening.created = false) :
    s.Intact (faults.opened host s opening).2 := by
  have kept : (faults.opened host s opening).2 = s := by
    simp only [Faults.opened, existing, Bool.false_and, Bool.false_eq_true, if_false,
      ManagerState.opened]
    exact itemForRecord_state opening.projectKey
  rw [kept]
  exact .refl s

end Faults

/-! ## Refusals in runs -/

/-- The file holds the driver's binding. -/
def StateFile.HoldsDriver (file : StateFile) (driverKey : String) (binding : BindingRecord) :
    Prop :=
  ∃ bindings : PersistedBindings, file = .parsed bindings.toJson ∧
    bindings.drivers.lookup driverKey = some binding

def StateFile.HoldsProject (file : StateFile) (projectKey : String) (record : ProjectRecord) :
    Prop :=
  ∃ bindings : PersistedBindings, file = .parsed bindings.toJson ∧
    bindings.projects.lookup projectKey = some record

namespace ManagerState

/-- What a step of a refused call leaves: the bindings are intact, and whatever runs later,
nothing that the step bound is saved. -/
structure Harmless (options : SessionManagerOptions) (s t : ManagerState) : Prop where
  intact : s.Intact t
  drivers : ∀ opening events later,
    Run (FaultyWorld.Steps options) ⟨t, true, opening⟩ events later →
    ∀ driverKey binding, t.bindings.drivers.lookup driverKey = some binding →
      s.bindings.drivers.lookup driverKey ≠ some binding →
      ¬ later.state.file.HoldsDriver driverKey binding
  projects : ∀ opening events later,
    Run (FaultyWorld.Steps options) ⟨t, true, opening⟩ events later →
    ∀ projectKey record, t.bindings.projects.lookup projectKey = some record →
      s.bindings.projects.lookup projectKey ≠ some record →
      ¬ later.state.file.HoldsProject projectKey record

theorem harmless_iff {options : SessionManagerOptions} {s t : ManagerState} :
    s.Harmless options t ↔ s.Intact t := by
  refine ⟨Harmless.intact, fun intact => ⟨intact, ?_, ?_⟩⟩
  · intro _ _ _ _ driverKey binding now before
    exact absurd (intact.drivers driverKey ▸ now) before
  · intro _ _ _ _ projectKey record now before
    exact absurd (intact.projects projectKey ▸ now) before

end ManagerState

namespace Faults

open ManagerState

variable {options : SessionManagerOptions} {host : CallHost} {faults : Faults} {s t : ManagerState}

theorem ended_error {α : Type} {result : Result α} {failure : ManagerFailure}
    (h : ended result = (.error failure, t)) : result = (.error failure, t) := by
  obtain ⟨result | result, u⟩ := result
  · obtain ⟨same, rfl⟩ := Prod.mk.inj h
    cases same
    rfl
  · simp [ended, Except.map] at h

theorem ended_waits {α : Type} {result : Result α} {opening : Opening} :
    ended result ≠ (.ok (some opening), t) := by
  obtain ⟨result | result, u⟩ := result <;> simp [ended, Except.map]

theorem recordStandaloneRelease_refused {projectKey : String} {failure : ManagerFailure}
    (h : faults.recordStandaloneRelease host s projectKey = (.error failure, t)) : t = s := by
  have refused {why : ManagerFailure} {u : ManagerState}
      (h : s.recordStandaloneRelease host projectKey = (.error why, u)) : u = s := by
    unfold ManagerState.recordStandaloneRelease attempt at h
    split at h
    · exact (Prod.mk.inj h).2.symm
    · simp at h
  unfold Faults.recordStandaloneRelease at h
  split at h
  · split at h
    · exact (Prod.mk.inj h).2.symm
    · exact refused h
  · exact refused h

/-- A live standalone session holds the project's lease. -/
def consoleLease : LeaseFile :=
  .record ⟨"sess-console", 5, "host", "console:token", 1, Option.none⟩

/-- A front has opened the project, before the console. -/
def openedScript : List FaultyEvent :=
  [.start 7 none, .call ManagerWorld.scriptHost none (.ensureSession "alpha" "telegram:bridge"),
   .resume ManagerWorld.scriptHost none 0, .console "alpha" consoleLease]

/-- The console was there first. -/
def heldScript : List FaultyEvent := [.start 7 none, .console "alpha" consoleLease]

/-- The world after a script. -/
def after (script : List FaultyEvent) : FaultyWorld :=
  script.foldl (FaultyWorld.apply ManagerWorld.scriptOptions)
    (.initial ManagerWorld.scriptState)

/-- The open of the project after a script. -/
def openAfter (script : List FaultyEvent) : Result (Option Opening) :=
  none.call ManagerWorld.scriptOptions ManagerWorld.scriptHost (after script).state
    (.ensureSession "alpha" "telegram:bridge")

theorem openAfter_error (script : List FaultyEvent)
    (refused : (openAfter script).1.toOption = Option.none) :
    ∃ failure, openAfter script = (.error failure, (openAfter script).2) := by
  rcases ended : openAfter script with ⟨failure | opening, t⟩
  · exact ⟨failure, rfl⟩
  · simp [ended, Except.toOption] at refused

end Faults

end AdCoder.SessionManager
