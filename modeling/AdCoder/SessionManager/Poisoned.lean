import AdCoder.SessionManager.Refusals

/-!
# Rejected records

A record that is rejected at load is dropped from memory and from the file, so
that nothing but what occupies the project's directory keeps a later open from
creating the project anew.
-/

namespace AdCoder.SessionManager

open Foundation

/-! ## What loading records -/

/-- `JSON.parse` keeps one value for each key of the projects. -/
def StateFile.Distinct : StateFile → Prop
  | .parsed (.obj doc) => ∀ entries, recordAt "projects" doc = .ok entries →
      (entries.map Prod.fst).Nodup
  | _ => True

/-- What loading knows about the entries that it has gone through. -/
structure LoadedBindings.Covers (loaded : LoadedBindings) (keys : List String) : Prop where
  recorded : ∀ key, (loaded.bindings.projects.lookup key).isSome → key ∈ keys
  rejected : ∀ key reason, (key, reason) ∈ loaded.rejected →
    key ∈ keys ∧ validateProjectKey key = .ok key ∧
      loaded.bindings.projects.lookup key = none

section Loading

variable {roots : List String} {fs : FileSystem} {loaded next : LoadedBindings}

theorem LoadedBindings.Covers.loadProject {keys : List String} {entry : String × Json}
    (covers : loaded.Covers keys) (new : entry.1 ∉ keys)
    (h : loadProject roots fs loaded entry = .ok next) : next.Covers (keys ++ [entry.1]) := by
  have unrecorded : loaded.bindings.projects.lookup entry.1 = none := by
    by_contra recorded
    exact new (covers.recorded _ (Option.isSome_iff_ne_none.mpr recorded))
  unfold SessionManager.loadProject at h
  obtain ⟨fields, -, h⟩ := bind_eq_ok.mp h
  obtain ⟨-, h⟩ := require_bind_eq_ok.mp h
  split at h
  · cases h
  · rename_i projectKey slug
    obtain rfl := validateProjectKey_eq_ok slug
    split at h
    · obtain rfl := pure_eq_ok.mp h
      constructor
      · intro key some
        exact List.mem_append_left _ (covers.recorded key some)
      · intro key reason found
        rcases List.mem_append.mp found with before | now
        · obtain ⟨known, rest⟩ := covers.rejected key reason before
          exact ⟨List.mem_append_left _ known, rest⟩
        · obtain ⟨rfl, -⟩ := Prod.mk.inj (List.mem_singleton.mp now)
          exact ⟨by simp, slug, unrecorded⟩
    · rename_i record _
      obtain rfl := pure_eq_ok.mp h
      constructor
      · intro key some
        rcases eq_or_ne key entry.1 with rfl | hne
        · simp
        · rw [AList.lookup_insert_ne hne] at some
          exact List.mem_append_left _ (covers.recorded key some)
      · intro key reason found
        obtain ⟨known, valid, none⟩ := covers.rejected key reason found
        have hne : key ≠ entry.1 := fun same => new (same ▸ known)
        exact ⟨List.mem_append_left _ known, valid, by rwa [AList.lookup_insert_ne hne]⟩

theorem LoadedBindings.Covers.foldlM {entries : List (String × Json)} {keys : List String}
    (covers : loaded.Covers keys) (distinct : (keys ++ entries.map Prod.fst).Nodup)
    (h : entries.foldlM (SessionManager.loadProject roots fs) loaded = .ok next) :
    next.Covers (keys ++ entries.map Prod.fst) := by
  induction entries generalizing loaded keys with
  | nil =>
      obtain rfl : loaded = next := by simpa [pure, Except.pure] using h
      simpa using covers
  | cons entry rest ih =>
      rw [List.foldlM_cons] at h
      obtain ⟨middle, first, last⟩ := bind_eq_ok.mp h
      have new : entry.1 ∉ keys := by
        intro known
        rw [List.nodup_append] at distinct
        exact distinct.2.2 _ known _ (by simp) rfl
      have after := ih (covers.loadProject new first) (by simpa using distinct) last
      simpa using after

/-- A record that is rejected has a slug for its key and is left out. -/
theorem rejected_of_loadBindings {file : StateFile} (distinct : file.Distinct)
    (h : loadBindings roots fs file = .ok loaded) {key reason : String}
    (poisoned : (key, reason) ∈ loaded.rejected) :
    validateProjectKey key = .ok key ∧ loaded.bindings.projects.lookup key = none := by
  unfold loadBindings at h
  split at h
  · obtain rfl := Except.ok.inj h
    cases poisoned
  · cases h
  · rename_i raw
    obtain ⟨doc, object, h⟩ := bind_eq_ok.mp h
    obtain ⟨_, -, h⟩ := bind_eq_ok.mp h
    obtain ⟨-, h⟩ := require_bind_eq_ok.mp h
    obtain ⟨_, -, h⟩ := bind_eq_ok.mp h
    obtain ⟨drivers, -, h⟩ := bind_eq_ok.mp h
    obtain ⟨entries, projects, h⟩ := bind_eq_ok.mp h
    have nodup : (entries.map Prod.fst).Nodup := by
      cases raw with
      | obj fields =>
          obtain rfl := Except.ok.inj object
          exact distinct entries projects
      | _ => cases object
    have start : LoadedBindings.Covers ⟨⟨drivers, ∅⟩, []⟩ [] :=
      ⟨fun key some => by simp at some, fun key reason found => by cases found⟩
    have covers := start.foldlM (by simpa using nodup) h
    exact (covers.rejected key reason poisoned).2

/-- No load of the file records the project. -/
def StateFile.Unrecorded (file : StateFile) (key : String) : Prop :=
  ∀ roots fs loaded, loadBindings roots fs file = .ok loaded →
    loaded.bindings.projects.lookup key = none

theorem unrecorded_of_lookup {bindings : PersistedBindings} {key : String}
    (none : bindings.projects.lookup key = none) :
    (StateFile.parsed bindings.toJson).Unrecorded key := by
  intro roots fs loaded h
  obtain ⟨doc, object, h⟩ := bind_eq_ok.mp h
  obtain rfl := Except.ok.inj object
  obtain ⟨_, -, h⟩ := bind_eq_ok.mp h
  obtain ⟨-, h⟩ := require_bind_eq_ok.mp h
  obtain ⟨_, -, h⟩ := bind_eq_ok.mp h
  obtain ⟨drivers, -, h⟩ := bind_eq_ok.mp h
  obtain ⟨entries, projects, h⟩ := bind_eq_ok.mp h
  obtain rfl : bindings.projects.entries.map (fun e => (e.1, e.2.toJson)) = entries :=
    Except.ok.inj projects
  have keys : (bindings.projects.entries.map fun e => (e.1, e.2.toJson)).map Prod.fst =
      bindings.projects.keys := by
    simp [AList.keys, List.keys]
  have start : LoadedBindings.Covers ⟨⟨drivers, ∅⟩, []⟩ [] :=
    ⟨fun key some => by simp at some, fun key reason found => by cases found⟩
  have covers := start.foldlM (by simpa [keys] using bindings.projects.keys_nodup) h
  by_contra recorded
  have listed := covers.recorded key (Option.isSome_iff_ne_none.mpr recorded)
  rw [List.nil_append, keys] at listed
  exact AList.lookup_eq_none.mp none (AList.mem_keys.mpr listed)

end Loading

/-! ## What a method does for another project -/

namespace ManagerState

variable {options : SessionManagerOptions} {host : CallHost} {s t u : ManagerState} {key : String}

/-- The project's record is as it was, and so is the file, unless bindings with that record
were saved. -/
structure Leaves (key : String) (s t : ManagerState) : Prop where
  projects : t.bindings.projects.lookup key = s.bindings.projects.lookup key
  file : t.file = s.file ∨ ∃ bindings : PersistedBindings, t.file = .parsed bindings.toJson ∧
    bindings.projects.lookup key = s.bindings.projects.lookup key

namespace Leaves

theorem refl (s : ManagerState) : Leaves key s s := ⟨rfl, .inl rfl⟩

theorem saved (same : t.bindings.projects.lookup key = s.bindings.projects.lookup key) :
    Leaves key s t.save := ⟨same, .inr ⟨t.bindings, rfl, same⟩⟩

theorem trans (first : Leaves key s t) (second : Leaves key t u) : Leaves key s u where
  projects := second.projects.trans first.projects
  file := by
    rcases second.file with same | ⟨bindings, written, lookup⟩
    · rw [same]
      exact first.file
    · exact .inr ⟨bindings, written, lookup.trans first.projects⟩

end Leaves

theorem lookup_setProject {projectKey : String} (hne : projectKey ≠ key) (record : ProjectRecord) :
    (s.setProject projectKey record).bindings.projects.lookup key =
      s.bindings.projects.lookup key :=
  AList.lookup_insert_ne (Ne.symm hne)

theorem createProject_leaves {projectKey : String} (hne : projectKey ≠ key) :
    Leaves key s (s.createProject options host projectKey).2 := by
  rcases s.createProject_cases options host projectKey with
    ⟨-, made⟩ | ⟨-, failure, t, refused, bindings, file, -⟩
  · rw [made]
    exact .saved (lookup_setProject hne _)
  · rw [refused]
    exact ⟨congrArg (fun b => AList.lookup key b.projects) bindings, .inl file⟩

theorem bindDriver_leaves {projectKey : String} (hne : projectKey ≠ key) (driverKey : String) :
    Leaves key s (s.bindDriver options host projectKey driverKey).2 := by
  rcases s.bindDriver_cases options host projectKey driverKey with
    ⟨-, dir, -, bound⟩ | ⟨-, failure, refused⟩
  · rw [bound]
    refine .saved ?_
    split
    · rfl
    · exact lookup_setProject hne _
  · rw [refused]
    exact .refl s

theorem unbindDriver_leaves (driverKey : String) (projectKey : Option String) :
    Leaves key s (s.unbindDriver driverKey projectKey).2 := by
  rcases s.unbindDriver_cases driverKey projectKey with ⟨-, dropped⟩ | ⟨-, failure, refused⟩
  · rw [dropped]
    exact .saved rfl
  · rw [refused]
    exact .refl s

/-- A name is given only to a project that is recorded. -/
theorem renameSession_leaves (none : s.bindings.projects.lookup key = none) (projectKey : String)
    (manual : Except String String) : Leaves key s (s.renameSession projectKey manual).2 := by
  rcases s.renameSession_cases projectKey manual with
    ⟨record, -, recorded, named⟩ | ⟨-, failure, refused⟩
  · have hne : projectKey ≠ key := by
      rintro rfl
      rw [none] at recorded
      cases recorded
    rw [named]
    cases manual with
    | error message => exact .refl s
    | ok name => exact .saved (lookup_setProject hne _)
  · rw [refused]
    exact .refl s

theorem setTitleFromGeneration_leaves (none : s.bindings.projects.lookup key = none)
    (projectKey sanitized : String) :
    Leaves key s (s.setTitleFromGeneration projectKey sanitized).2 := by
  rcases s.setTitleFromGeneration_cases projectKey sanitized with
    ⟨record, -, recorded, titled⟩ | ⟨-, failure, refused⟩
  · have hne : projectKey ≠ key := by
      rintro rfl
      rw [none] at recorded
      cases recorded
    rw [titled]
    split
    · exact .refl s
    · exact .saved (lookup_setProject hne _)
  · rw [refused]
    exact .refl s

theorem adoptAfterRelease_leaves {projectKey : String} (hne : projectKey ≠ key) :
    Leaves key s (s.adoptAfterRelease options host projectKey).2 := by
  rcases s.adoptAfterRelease_cases options host projectKey with
    ⟨-, item, lease, dir, -, -, adopted⟩ | ⟨-, result, same, -⟩
  · rw [adopted]
    exact .saved ((lookup_setProject hne _).trans (bindDriver_leaves hne _).projects)
  · rw [same]
    exact .refl s

theorem recordStandaloneRelease_leaves (projectKey : String) :
    Leaves key s (s.recordStandaloneRelease host projectKey).2 := by
  unfold recordStandaloneRelease attempt
  split
  · exact .refl s
  · exact ⟨rfl, .inl rfl⟩

theorem opened_leaves (opening : Opening) : Leaves key s (s.opened host opening).2 := by
  unfold opened
  split
  · dsimp only
    split
    · rw [itemForRecord_state]
      exact .saved rfl
    · exact .saved rfl
  · rw [itemForRecord_state]
    exact .refl s

/-! ## Opens of a project without a record -/

section Opens

variable (options : SessionManagerOptions) (host : CallHost) (s : ManagerState)

/-- A new directory is made for the project, whatever becomes of it. -/
def Makes (projectKey : String) : Prop :=
  options.maxProjects ≠ 0 ∧ s.bindings.projects.keys.length < options.maxProjects ∧
    ¬ Housed options.roots s.fs projectKey ∧
    host.creation ≠ .exists ∧ host.creation ≠ .notMade

/-- An open by the front goes on to create the project: no live lease holds it. -/
def Invited (projectKey driverKey : String) : Prop :=
  driverKeyPattern.test driverKey = true ∧
    (∃ probe, s.probe host projectKey = .ok probe ∧ isStandaloneLive probe = false) ∧
    s.Makes options host projectKey

/-- An open by the front is refused, and makes neither a directory nor a record. -/
def StaysRefused (projectKey driverKey : String) : Prop :=
  ∃ failure t, s.ensureSession options host projectKey driverKey = (.error failure, t) ∧
    t.bindings.projects = s.bindings.projects ∧ t.file = s.file ∧ t.fs = s.fs

end Opens

theorem createProject_makes (options : SessionManagerOptions) (host : CallHost)
    (s : ManagerState) {projectKey : String}
    (slug : validateProjectKey projectKey = .ok projectKey) :
    (s.Makes options host projectKey ∧
      (s.createProject options host projectKey).2.fs ≠ s.fs) ∨
    (¬ s.Makes options host projectKey ∧
      ∃ failure, s.createProject options host projectKey = (.error failure, s)) := by
  unfold createProject attempt
  split
  · rename_i error refused
    refine .inr ⟨?_, _, rfl⟩
    rintro ⟨enabled, below, empty, -⟩
    rw [slug, resolveProjectDir_none.mpr empty, find_root options.roots_ne empty] at refused
    simp [require, enabled, below, bind, Except.bind, pure, Except.pure] at refused
  · rename_i dir checked
    rw [slug] at checked
    obtain ⟨_, -, checked⟩ := bind_eq_ok.mp checked
    obtain ⟨enabled, checked⟩ := require_bind_eq_ok.mp checked
    obtain ⟨below, checked⟩ := require_bind_eq_ok.mp checked
    obtain ⟨resolved, nothing, checked⟩ := bind_eq_ok.mp checked
    obtain ⟨free, checked⟩ := require_bind_eq_ok.mp checked
    rw [Option.isNone_iff_eq_none.mp free] at nothing
    have empty := resolveProjectDir_none.mp nothing
    rw [find_root options.roots_ne empty] at checked
    obtain rfl := pure_eq_ok.mp checked
    have absent := newDirectory_absent empty
    have changed : Function.update s.fs (newDirectory options projectKey)
        (.directory (newDirectory options projectKey)) ≠ s.fs := by
      intro same
      have here := congrFun same (newDirectory options projectKey)
      rw [Function.update_self, absent] at here
      cases here
    have makes (h : host.creation ≠ .exists) (h' : host.creation ≠ .notMade) :
        s.Makes options host projectKey :=
      ⟨by simpa using enabled, by simpa using below, empty, h, h'⟩
    cases outcome : host.creation with
    | created => exact .inl ⟨makes (by simp [outcome]) (by simp [outcome]), changed⟩
    | misplaced => exact .inl ⟨makes (by simp [outcome]) (by simp [outcome]), changed⟩
    | scaffoldFailed => exact .inl ⟨makes (by simp [outcome]) (by simp [outcome]), changed⟩
    | gitFailed detail => exact .inl ⟨makes (by simp [outcome]) (by simp [outcome]), changed⟩
    | «exists» => exact .inr ⟨fun h => h.2.2.2.1 outcome, _, rfl⟩
    | notMade => exact .inr ⟨fun h => h.2.2.2.2 outcome, _, rfl⟩

theorem staysRefused_iff {projectKey : String}
    (slug : validateProjectKey projectKey = .ok projectKey)
    (unrecorded : s.bindings.projects.lookup projectKey = none) (driverKey : String) :
    s.StaysRefused options host projectKey driverKey ↔
      ¬ s.Invited options host projectKey driverKey := by
  unfold StaysRefused
  rw [← Faults.ensureSession_none]
  rcases Faults.ensureSession_cases options host .none s
    projectKey driverKey with ⟨unaccepted, failure, refused⟩ | ⟨accepted, going⟩
  · exact iff_of_true ⟨failure, s, refused, rfl, rfl, rfl⟩
      fun invited => unaccepted ⟨invited.1, slug⟩
  · have frame : (Faults.bound s projectKey driverKey).file = s.file ∧
        (Faults.bound s projectKey driverKey).fs = s.fs ∧
        (Faults.bound s projectKey driverKey).bindings.projects = s.bindings.projects := by
      unfold Faults.bound
      split <;> exact ⟨rfl, rfl, rfl⟩
    obtain ⟨file, fs, projects⟩ := frame
    rw [going, unrecorded]
    dsimp only
    unfold attempt
    split
    · rename_i error held
      refine iff_of_true ⟨_, _, rfl, projects, file, fs⟩ ?_
      rintro ⟨-, ⟨probe, probed, free⟩, -⟩
      simp [probed, free, bind, Except.bind, require] at held
    · rename_i checked
      obtain ⟨probe, probed, free⟩ := bind_eq_ok.mp checked
      have unheld : isStandaloneLive probe = false := by simpa using free
      have same : (Faults.bound s projectKey driverKey).Makes options host projectKey ↔
          s.Makes options host projectKey := by
        unfold Makes
        rw [fs, projects]
      dsimp only
      rw [show Faults.none.createProject options host (Faults.bound s projectKey driverKey)
        projectKey = (Faults.bound s projectKey driverKey).createProject options host projectKey
        from Faults.saved_false _]
      rcases (Faults.bound s projectKey driverKey).createProject_makes options host
        slug with ⟨makes, made⟩ | ⟨idle, failure, refused⟩
      · refine iff_of_false ?_ (not_not.mpr ⟨accepted.1, ⟨probe, probed, unheld⟩, same.mp makes⟩)
        rintro ⟨failure, t, ended, -, -, kept⟩
        refine made ?_
        rw [fs, ← kept]
        split at ended
        · rename_i why u created
          obtain ⟨-, rfl⟩ := Prod.mk.inj ended
          rw [created]
        · simp at ended
      · rw [refused]
        exact iff_of_true ⟨failure, _, rfl, projects, file, fs⟩
          fun invited => idle (same.mpr invited.2.2)

theorem ensureSession_leaves {projectKey : String} (hne : projectKey ≠ key) (driverKey : String) :
    Leaves key s (s.ensureSession options host projectKey driverKey).2 := by
  rw [← Faults.ensureSession_none]
  rcases Faults.ensureSession_cases options host .none s
    projectKey driverKey with ⟨-, failure, refused⟩ | ⟨accepted, going⟩
  · rw [refused]
    exact .refl s
  · have bound : Leaves key s (Faults.bound s projectKey driverKey) := by
      unfold Faults.bound
      split
      · exact .refl s
      · exact ⟨rfl, .inl rfl⟩
    rw [going]
    refine bound.trans ?_
    split
    · unfold attempt
      split
      · exact .refl _
      · dsimp only
        rw [show Faults.none.createProject options host (Faults.bound s projectKey driverKey)
          projectKey = (Faults.bound s projectKey driverKey).createProject options host
          projectKey from Faults.saved_false _]
        have created : Leaves key (Faults.bound s projectKey driverKey)
            ((Faults.bound s projectKey driverKey).createProject options host projectKey).2 :=
          createProject_leaves hne
        split <;> simp_all
    · unfold attempt
      split
      · exact .refl _
      · exact .saved rfl

end ManagerState

/-! ## Runs -/

namespace ManagerWorld

variable (options : SessionManagerOptions) (key : String) (world : ManagerWorld)

/-- Nobody creates, binds or adopts the project by its key, and an open of it is not one that
would create it. -/
def Uninvited : ManagerEvent → Prop
  | .call host (.ensureSession projectKey driverKey) =>
      projectKey = key → ¬ world.state.Invited options host key driverKey
  | .call _ (.createProject projectKey) | .call _ (.bindDriver projectKey _)
  | .call _ (.adoptAfterRelease projectKey) => projectKey ≠ key
  | _ => True

/-- Neither the manager nor the file has a record of the project. -/
structure Barred : Prop where
  memory : world.state.bindings.projects.lookup key = none
  file : world.state.file.Unrecorded key

variable {options : SessionManagerOptions} {key : String} {world : ManagerWorld}

theorem Barred.leaves (barred : world.Barred key) {state : ManagerState}
    (h : world.state.Leaves key state) (opening : List ManagerState.Opening)
    (answered : String → Option String) :
    Barred key { world with state, opening, answered } := by
  refine ⟨h.projects.trans barred.memory, ?_⟩
  rcases h.file with same | ⟨bindings, written, lookup⟩
  · show state.file.Unrecorded key
    rw [same]
    exact barred.file
  · show state.file.Unrecorded key
    rw [written]
    exact unrecorded_of_lookup (lookup.trans barred.memory)

theorem Barred.start (barred : world.Barred key) (pid : Nat) :
    (world.apply options (.start pid)).Barred key := by
  simp only [ManagerWorld.apply, ManagerState.construct, ManagerState.attempt]
  cases loading : loadBindings options.roots world.state.fs world.state.file with
  | error error => exact ⟨barred.memory, barred.file⟩
  | ok loaded =>
      have none := barred.file _ _ _ loading
      dsimp only
      split
      · exact ⟨none, barred.file⟩
      · exact ⟨none, unrecorded_of_lookup none⟩

theorem Barred.callStep (slug : validateProjectKey key = .ok key) (barred : world.Barred key)
    {host : CallHost} {method : ManagerCall}
    (uninvited : world.Uninvited options key (.call host method)) :
    (world.callStep options host method).Barred key := by
  cases method with
  | ensureSession projectKey driverKey =>
      have leaves : world.state.Leaves key
          (world.state.ensureSession options host projectKey driverKey).2 := by
        by_cases same : projectKey = key
        · subst same
          obtain ⟨failure, t, ended, projects, file, -⟩ :=
            (ManagerState.staysRefused_iff slug barred.memory driverKey).mpr (uninvited rfl)
          rw [ended]
          exact ⟨by rw [projects], .inl file⟩
        · exact ManagerState.ensureSession_leaves same driverKey
      simp only [ManagerWorld.callStep]
      split
      · rename_i ended
        rw [ended] at leaves
        exact barred.leaves leaves _ _
      · rename_i ended
        rw [ended] at leaves
        exact barred.leaves leaves _ _
  | createProject projectKey =>
      exact barred.leaves (ManagerState.createProject_leaves uninvited) _ _
  | bindDriver projectKey driverKey =>
      exact barred.leaves (ManagerState.bindDriver_leaves uninvited driverKey) _ _
  | unbindDriver driverKey projectKey =>
      exact barred.leaves (ManagerState.unbindDriver_leaves driverKey projectKey) _ _
  | renameSession projectKey manual =>
      exact barred.leaves (ManagerState.renameSession_leaves barred.memory projectKey manual) _ _
  | setTitleFromGeneration projectKey sanitized =>
      exact barred.leaves
        (ManagerState.setTitleFromGeneration_leaves barred.memory projectKey sanitized) _ _
  | adoptAfterRelease projectKey =>
      exact barred.leaves (ManagerState.adoptAfterRelease_leaves uninvited) _ _
  | recordStandaloneRelease projectKey =>
      exact barred.leaves (ManagerState.recordStandaloneRelease_leaves projectKey) _ _

theorem Barred.resumeStep (barred : world.Barred key) (host : CallHost) (index : Nat) :
    (world.resumeStep host index).Barred key := by
  unfold ManagerWorld.resumeStep
  split
  · exact barred
  · rename_i opening _
    have leaves : world.state.Leaves key (world.state.opened host opening).2 :=
      ManagerState.opened_leaves opening
    split
    · rename_i ended
      rw [ended] at leaves
      exact barred.leaves leaves _ _
    · rename_i ended
      rw [ended] at leaves
      exact barred.leaves leaves _ _

theorem Barred.apply (slug : validateProjectKey key = .ok key) (barred : world.Barred key)
    {event : ManagerEvent} (uninvited : world.Uninvited options key event) :
    (world.apply options event).Barred key := by
  cases event with
  | start pid => exact barred.start pid
  | stop => exact ⟨barred.memory, barred.file⟩
  | console projectKey file => exact ⟨barred.memory, barred.file⟩
  | call host method => exact barred.callStep slug uninvited
  | resume host index => exact barred.resumeStep host index

/-- A manager that rejects the record drops it from memory and from the file. -/
theorem barred_of_rejected {state : ManagerState} {pid : Nat} {rejected : List (String × String)}
    (distinct : state.file.Distinct)
    (loaded : (state.construct options pid).1 = .ok rejected) {reason : String}
    (poisoned : (key, reason) ∈ rejected) :
    validateProjectKey key = .ok key ∧
      ((initial state).apply options (.start pid)).Barred key := by
  simp only [ManagerWorld.apply, initial]
  unfold ManagerState.construct ManagerState.attempt at loaded ⊢
  cases loading : loadBindings options.roots state.fs state.file with
  | error error => simp [loading] at loaded
  | ok found =>
      simp only [loading, Except.ok.injEq] at loaded
      obtain ⟨slug, none⟩ := rejected_of_loadBindings distinct loading (loaded ▸ poisoned)
      have some : found.rejected ≠ [] := fun empty => by simp [← loaded, empty] at poisoned
      refine ⟨slug, ?_⟩
      simp only [some, if_false]
      exact ⟨none, unrecorded_of_lookup none⟩

/-- The bindings record a project. -/
def recordedBindings (sessionId : String) : PersistedBindings :=
  ⟨∅, (∅ : KeyMap ProjectRecord).insert "alpha"
    ⟨"/r/alpha", sessionId, none, sessionFallbackName, .generated, 1⟩⟩

/-- The project's directory is gone. -/
def vanishedState : ManagerState :=
  { scriptState with file := .parsed (recordedBindings "sess0123456789").toJson }

/-- The project's directory is there, but its session id is malformed. -/
def malformedState : ManagerState :=
  { scriptState with
    file := .parsed (recordedBindings "S").toJson
    fs := Function.update scriptState.fs "/r/alpha" (.directory "/r/alpha") }

theorem distinct_toJson (bindings : PersistedBindings) :
    (StateFile.parsed bindings.toJson).Distinct := by
  intro entries projects
  obtain rfl : bindings.projects.entries.map (fun e => (e.1, e.2.toJson)) = entries :=
    Except.ok.inj projects
  have keys : (bindings.projects.entries.map fun e => (e.1, e.2.toJson)).map Prod.fst =
      bindings.projects.keys := by
    simp [AList.keys, List.keys]
  rw [keys]
  exact bindings.projects.keys_nodup

theorem not_invited_of_housed {s : ManagerState} {host : CallHost} {projectKey driverKey : String}
    (housed : Housed options.roots s.fs projectKey) :
    ¬ s.Invited options host projectKey driverKey :=
  fun invited => invited.2.2.2.2.1 housed

/-- The manager that has rejected the malformed record. -/
def malformedWorld : ManagerWorld := (initial malformedState).apply scriptOptions (.start 7)

/-- An open of the malformed project, and a restart. -/
def restartedScript : List ManagerEvent := [openAlpha "telegram:bridge", .stop, .start 8]

end ManagerWorld

end AdCoder.SessionManager
