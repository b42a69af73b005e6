import AdCoder.Foundation.RegexLaws
import AdCoder.SessionManager.Poisoned
import AdCoder.SessionManager.Title

/-!
# Bindings that are read back

Written bindings are loaded as they were as long as every record has a name and
a session id within the bounds of the reader, whose name is counted in UTF-16
code units, and a safe creation time.
-/

namespace AdCoder.SessionManager

open Foundation Foundation.Regex

/-! ## Loading what was written -/

/-- A checked fold that inserts each of the entries, as the state's map shows. -/
theorem foldlM_insert {α σ : Type} (step : σ → String × Json → Except SessionManagerError σ)
    (encode : α → Json) (get : σ → KeyMap α) (I : σ → Prop)
    (entries : List (Sigma fun _ : String => α)) (nodup : (entries.map Sigma.fst).Nodup)
    (steps : ∀ s, I s → ∀ e ∈ entries, ∃ t, step s (e.1, encode e.2) = .ok t ∧ I t ∧
      get t = (get s).insert e.1 e.2) {s : σ} (start : I s) :
    ∃ t, (entries.map fun e => (e.1, encode e.2)).foldlM step s = .ok t ∧ I t ∧
      ∀ key, (get t).lookup key = (entries.dlookup key).or ((get s).lookup key) := by
  induction entries generalizing s with
  | nil => exact ⟨s, rfl, start, fun key => by simp⟩
  | cons e rest ih =>
      obtain ⟨name, value⟩ := e
      obtain ⟨new, nodup⟩ := List.nodup_cons.mp nodup
      obtain ⟨middle, first, kept, inserted⟩ := steps s start ⟨name, value⟩ List.mem_cons_self
      obtain ⟨t, later, final, lookup⟩ := ih nodup
        (fun s h e' he => steps s h e' (List.mem_cons_of_mem _ he)) kept
      refine ⟨t, ?_, final, fun key => ?_⟩
      · rw [List.map_cons, List.foldlM_cons]
        exact bind_eq_ok.mpr ⟨middle, first, later⟩
      · rw [lookup, inserted]
        rcases eq_or_ne key name with rfl | hne
        · have absent : rest.dlookup key = none := by
            simpa [List.dlookup_eq_none, List.keys] using new
          simp [absent]
        · rw [AList.lookup_insert_ne hne, List.dlookup_cons_ne _ _ hne]

variable {options : SessionManagerOptions} {roots : List String} {fs : FileSystem}

/-- The reader accepts every field of the record. -/
structure ProjectRecord.Fits (roots : List String) (fs : FileSystem) (key : String)
    (record : ProjectRecord) : Prop where
  slug : validateProjectKey key = .ok key
  sessionId : sessionIdPattern.test record.sessionId = true
  name : 0 < (codeUnits record.name).length ∧ (codeUnits record.name).length ≤ 64
  createdAt : record.createdAt.isSafeInteger = true
  profile : ∀ profile, record.profile = some profile → (codeUnits profile).length ≤ 64
  directory : checkDirectory roots fs key record.targetDir = .ok record.targetDir

theorem ProjectRecord.Fits.read {key : String} {record : ProjectRecord}
    (fits : record.Fits roots fs key) {loaded : LoadedBindings} :
    loadProject roots fs loaded (key, record.toJson) = .ok { loaded with
      bindings.projects := loaded.bindings.projects.insert key record } := by
  obtain ⟨targetDir, sessionId, profile, name, nameSource, createdAt⟩ := record
  have finite : jsonNumber createdAt = .num createdAt := by
    have safe := fits.createdAt
    cases createdAt with
    | finite value => rfl
    | _ => cases safe
  have source (fields : List (String × Json))
      (h : Json.lookup "nameSource" fields = some (.str nameSource.text)) :
      readNameSource fields = .ok nameSource := by
    cases nameSource <;> simp [readNameSource, h, Json.asString?, SessionNameSource.text]
  have session : sessionIdPattern.test sessionId = true := fits.sessionId
  have named : 0 < (codeUnits name).length ∧ (codeUnits name).length ≤ 64 := fits.name
  have safe : createdAt.isSafeInteger = true := fits.createdAt
  have checked : checkDirectory roots fs key targetDir = .ok targetDir := fits.directory
  cases profile with
  | none =>
      simp [loadProject, ProjectRecord.toJson, asRecord, knows, knownProjectKeys, fits.slug,
        readProject, textField, named, session, finite, readCreatedAt, safe, readProfile, checked,
        source, bind, Except.bind, pure, Except.pure]
  | some profile =>
      have short : (codeUnits profile).length ≤ 64 := fits.profile profile rfl
      simp [loadProject, ProjectRecord.toJson, asRecord, knows, knownProjectKeys, fits.slug,
        readProject, textField, named, session, finite, readCreatedAt, safe, readProfile, checked,
        source, short, bind, Except.bind, pure, Except.pure]

theorem loadDriver_toJson {binding : BindingRecord}
    (slug : validateProjectKey binding.projectKey = .ok binding.projectKey) :
    loadDriver binding.toJson = .ok binding := by
  obtain ⟨projectKey, driverKind⟩ := binding
  have slug : validateProjectKey projectKey = .ok projectKey := slug
  cases driverKind <;> simp [loadDriver, BindingRecord.toJson, asRecord, knows, knownDriverKeys,
    Json.asString?, slug, DriverKind.text, bind, Except.bind, pure, Except.pure]

namespace PersistedBindings

/-- Loading the bindings from their file gives the same maps, and rejects nothing. -/
def RoundTrips (roots : List String) (fs : FileSystem) (bindings : PersistedBindings) : Prop :=
  ∃ loaded, loadBindings roots fs (.parsed bindings.toJson) = .ok loaded ∧
    loaded.rejected = [] ∧
    (∀ driverKey, loaded.bindings.drivers.lookup driverKey = bindings.drivers.lookup driverKey) ∧
    ∀ key, loaded.bindings.projects.lookup key = bindings.projects.lookup key

/-- The reader accepts every driver and every project. -/
structure Fits (roots : List String) (fs : FileSystem) (bindings : PersistedBindings) : Prop where
  drivers : ∀ driverKey binding, bindings.drivers.lookup driverKey = some binding →
    validateProjectKey binding.projectKey = .ok binding.projectKey
  projects : ∀ key record, bindings.projects.lookup key = some record → record.Fits roots fs key

theorem Fits.empty : emptyBindings.Fits roots fs :=
  ⟨fun _ _ found => (Option.some_ne_none _ found.symm).elim,
    fun _ _ found => (Option.some_ne_none _ found.symm).elim⟩

theorem Fits.insert {bindings : PersistedBindings} {key : String} {record : ProjectRecord}
    (fits : bindings.Fits roots fs) (new : record.Fits roots fs key) :
    Fits roots fs { bindings with projects := bindings.projects.insert key record } := by
  refine ⟨fits.drivers, fun other found lookup => ?_⟩
  rcases eq_or_ne other key with rfl | hne
  · obtain rfl : record = found := by simpa using lookup
    exact new
  · rw [AList.lookup_insert_ne hne] at lookup
    exact fits.projects other found lookup

theorem Fits.insertDriver {bindings : PersistedBindings} {driverKey : String}
    {binding : BindingRecord} (fits : bindings.Fits roots fs)
    (slug : validateProjectKey binding.projectKey = .ok binding.projectKey) :
    Fits roots fs { bindings with drivers := bindings.drivers.insert driverKey binding } := by
  refine ⟨fun other found lookup => ?_, fits.projects⟩
  rcases eq_or_ne other driverKey with rfl | hne
  · obtain rfl : binding = found := by simpa using lookup
    exact slug
  · rw [AList.lookup_insert_ne hne] at lookup
    exact fits.drivers other found lookup

theorem Fits.eraseDriver {bindings : PersistedBindings} (fits : bindings.Fits roots fs)
    (driverKey : String) :
    Fits roots fs { bindings with drivers := bindings.drivers.erase driverKey } := by
  refine ⟨fun other found lookup => ?_, fits.projects⟩
  rcases eq_or_ne other driverKey with rfl | hne
  · simp at lookup
  · rw [AList.lookup_erase_ne hne] at lookup
    exact fits.drivers other found lookup

theorem Fits.roundTrips {bindings : PersistedBindings} (fits : bindings.Fits roots fs) :
    bindings.RoundTrips roots fs := by
  obtain ⟨drivers, driversLoaded, -, driversSame⟩ := foldlM_insert
    (fun (drivers : KeyMap BindingRecord) entry =>
      return drivers.insert entry.1 (← loadDriver entry.2))
    BindingRecord.toJson id (fun _ => True) bindings.drivers.entries bindings.drivers.nodupKeys
    (fun drivers _ e he => ⟨_, by
      have slug := fits.drivers e.1 e.2 (AList.mem_lookup_iff.mpr he)
      rw [loadDriver_toJson slug]
      rfl, trivial, rfl⟩) (s := ∅) trivial
  obtain ⟨loaded, projectsLoaded, ⟨same, none⟩, projectsSame⟩ := foldlM_insert
    (loadProject roots fs) ProjectRecord.toJson (fun loaded => loaded.bindings.projects)
    (fun loaded => loaded.bindings.drivers = drivers ∧ loaded.rejected = [])
    bindings.projects.entries bindings.projects.nodupKeys
    (fun loaded kept e he =>
      ⟨_, (fits.projects e.1 e.2 (AList.mem_lookup_iff.mpr he)).read, kept, rfl⟩)
    (s := ⟨⟨drivers, ∅⟩, []⟩) ⟨rfl, rfl⟩
  refine ⟨loaded, ?_, none, fun driverKey => ?_, fun key => ?_⟩
  · refine bind_eq_ok.mpr ⟨_, rfl, bind_eq_ok.mpr ⟨(), ?_, ?_⟩⟩
    · rfl
    · refine require_bind_eq_ok.mpr ⟨rfl, bind_eq_ok.mpr ⟨_, rfl, ?_⟩⟩
      exact bind_eq_ok.mpr ⟨drivers, driversLoaded, bind_eq_ok.mpr ⟨_, rfl, projectsLoaded⟩⟩
  · rw [same]
    exact (driversSame driverKey).trans (Option.or_none ..)
  · exact (projectsSame key).trans (Option.or_none ..)

end PersistedBindings

/-! ## What loading accepts -/

theorem textField_eq_ok {fields : List (String × Json)} {field reason text : String}
    {accepts : String → Bool} (h : textField fields field accepts reason = .ok text) :
    accepts text = true := by
  unfold textField at h
  split at h
  · split at h
    · rename_i accepted
      rwa [← Except.ok.inj h]
    · cases h
  · cases h

theorem checkDirectory_eq_ok {key targetDir real : String}
    (h : checkDirectory roots fs key targetDir = .ok real) :
    targetDir = real ∧ checkDirectory roots fs key real = .ok real := by
  have checked := h
  unfold checkDirectory at h
  split at h
  · cases h
  · split at h
    · rename_i inside
      obtain rfl := Except.ok.inj h
      obtain rfl := inside.1
      exact ⟨rfl, checked⟩
    · cases h

theorem ProjectRecord.Fits.of_readProject {key : String} {fields : List (String × Json)}
    {record : ProjectRecord} (slug : validateProjectKey key = .ok key)
    (h : readProject roots fs key fields = .ok record) : record.Fits roots fs key := by
  unfold readProject at h
  obtain ⟨targetDir, -, h⟩ := bind_eq_ok.mp h
  obtain ⟨sessionId, session, h⟩ := bind_eq_ok.mp h
  obtain ⟨name, named, h⟩ := bind_eq_ok.mp h
  obtain ⟨nameSource, -, h⟩ := bind_eq_ok.mp h
  obtain ⟨createdAt, created, h⟩ := bind_eq_ok.mp h
  obtain ⟨profile, profiled, h⟩ := bind_eq_ok.mp h
  obtain ⟨real, checked, h⟩ := bind_eq_ok.mp h
  obtain rfl := pure_eq_ok.mp h
  refine ⟨slug, ?_, ?_, ?_, ?_, (checkDirectory_eq_ok checked).2⟩
  · exact (textField_eq_ok session)
  · simpa using textField_eq_ok named
  · unfold readCreatedAt at created
    split at created
    · split at created
      · rename_i safe
        rwa [← Except.ok.inj created]
      · cases created
    · cases created
  · rintro text rfl
    unfold readProfile at profiled
    split at profiled
    · cases profiled
    · split at profiled
      · rename_i short
        obtain rfl := Option.some.inj (Except.ok.inj profiled)
        exact short
      · cases profiled
    · cases profiled

theorem PersistedBindings.Fits.loadProject {loaded next : LoadedBindings} {entry : String × Json}
    (fits : loaded.bindings.Fits roots fs) (h : loadProject roots fs loaded entry = .ok next) :
    next.bindings.Fits roots fs := by
  unfold SessionManager.loadProject at h
  obtain ⟨fields, -, h⟩ := bind_eq_ok.mp h
  obtain ⟨-, h⟩ := require_bind_eq_ok.mp h
  split at h
  · cases h
  · rename_i projectKey slug
    obtain rfl := validateProjectKey_eq_ok slug
    split at h
    · obtain rfl := pure_eq_ok.mp h
      exact fits
    · rename_i record read
      obtain rfl := pure_eq_ok.mp h
      exact fits.insert (.of_readProject slug read)

theorem loadDriver_slug {value : Json} {binding : BindingRecord}
    (h : loadDriver value = .ok binding) :
    validateProjectKey binding.projectKey = .ok binding.projectKey := by
  unfold loadDriver at h
  obtain ⟨fields, -, h⟩ := bind_eq_ok.mp h
  obtain ⟨-, h⟩ := require_bind_eq_ok.mp h
  split at h
  · cases h
  · rename_i boundKey _
    split at h
    · cases h
    · rename_i key slug
      obtain rfl := validateProjectKey_eq_ok slug
      split at h
      · obtain rfl := pure_eq_ok.mp h
        exact slug
      · obtain rfl := pure_eq_ok.mp h
        exact slug
      · cases h

/-- What was loaded can be loaded again once it is written. -/
theorem fits_of_loadBindings {file : StateFile} {loaded : LoadedBindings}
    (h : loadBindings roots fs file = .ok loaded) : loaded.bindings.Fits roots fs := by
  unfold loadBindings at h
  split at h
  · obtain rfl := Except.ok.inj h
    exact .empty
  · cases h
  · obtain ⟨doc, -, h⟩ := bind_eq_ok.mp h
    obtain ⟨_, -, h⟩ := bind_eq_ok.mp h
    obtain ⟨-, h⟩ := require_bind_eq_ok.mp h
    obtain ⟨_, -, h⟩ := bind_eq_ok.mp h
    obtain ⟨drivers, found, h⟩ := bind_eq_ok.mp h
    obtain ⟨entries, -, h⟩ := bind_eq_ok.mp h
    have bound : (⟨drivers, ∅⟩ : PersistedBindings).Fits roots fs := by
      refine foldlM_invariant (I := fun drivers => (⟨drivers, ∅⟩ : PersistedBindings).Fits roots fs)
        ?_ .empty found
      intro drivers entry next fits step
      obtain ⟨binding, read, step⟩ := bind_eq_ok.mp step
      obtain rfl := pure_eq_ok.mp step
      exact fits.insertDriver (loadDriver_slug read)
    exact foldlM_invariant (I := fun loaded => loaded.bindings.Fits roots fs)
      (fun fits step => fits.loadProject step) bound h

/-! ## Loading again after directories were made -/

section Growth

variable {fs' : FileSystem} (grown : ∀ path, fs path ≠ .absent → fs' path = fs path)

include grown

theorem checkDirectory_grows {key targetDir real : String}
    (h : checkDirectory roots fs key targetDir = .ok real) :
    checkDirectory roots fs' key targetDir = .ok real := by
  unfold checkDirectory at h
  split at h
  · cases h
  · rename_i resolved
    have same : realpath fs' targetDir = realpath fs targetDir := by
      unfold realpath
      rw [grown targetDir (entry_of_realpath resolved)]
    rw [checkDirectory, same, resolved]
    exact h

theorem PersistedBindings.Fits.grows {bindings : PersistedBindings}
    (fits : bindings.Fits roots fs) : bindings.Fits roots fs' :=
  ⟨fits.drivers, fun key record found =>
    { fits.projects key record found with
      directory := checkDirectory_grows grown (fits.projects key record found).directory }⟩

theorem readProject_grows {key : String} {fields : List (String × Json)} {record : ProjectRecord}
    (h : readProject roots fs key fields = .ok record) :
    readProject roots fs' key fields = .ok record := by
  unfold readProject at h ⊢
  obtain ⟨targetDir, read, h⟩ := bind_eq_ok.mp h
  refine bind_eq_ok.mpr ⟨targetDir, read, ?_⟩
  obtain ⟨sessionId, read, h⟩ := bind_eq_ok.mp h
  refine bind_eq_ok.mpr ⟨sessionId, read, ?_⟩
  obtain ⟨name, read, h⟩ := bind_eq_ok.mp h
  refine bind_eq_ok.mpr ⟨name, read, ?_⟩
  obtain ⟨nameSource, read, h⟩ := bind_eq_ok.mp h
  refine bind_eq_ok.mpr ⟨nameSource, read, ?_⟩
  obtain ⟨createdAt, read, h⟩ := bind_eq_ok.mp h
  refine bind_eq_ok.mpr ⟨createdAt, read, ?_⟩
  obtain ⟨profile, read, h⟩ := bind_eq_ok.mp h
  refine bind_eq_ok.mpr ⟨profile, read, ?_⟩
  obtain ⟨real, checked, h⟩ := bind_eq_ok.mp h
  exact bind_eq_ok.mpr ⟨real, checkDirectory_grows grown checked, h⟩

/-- A record that was not rejected is not rejected later. -/
theorem loadProject_grows {loaded next : LoadedBindings} {entry : String × Json}
    (h : loadProject roots fs loaded entry = .ok next) (none : next.rejected = []) :
    loadProject roots fs' loaded entry = .ok next ∧ loaded.rejected = [] := by
  unfold loadProject at h ⊢
  obtain ⟨fields, object, h⟩ := bind_eq_ok.mp h
  obtain ⟨known, h⟩ := require_bind_eq_ok.mp h
  split at h
  · cases h
  · rename_i projectKey slug
    split at h
    · obtain rfl := pure_eq_ok.mp h
      simp at none
    · rename_i record read
      obtain rfl := pure_eq_ok.mp h
      refine ⟨bind_eq_ok.mpr ⟨fields, object, require_bind_eq_ok.mpr ⟨known, ?_⟩⟩, none⟩
      rw [readProject_grows grown read]
      rfl

theorem loadBindings_grows {file : StateFile} {loaded : LoadedBindings}
    (h : loadBindings roots fs file = .ok loaded) (none : loaded.rejected = []) :
    loadBindings roots fs' file = .ok loaded := by
  unfold loadBindings at h ⊢
  split at h
  · exact h
  · cases h
  · obtain ⟨doc, object, h⟩ := bind_eq_ok.mp h
    obtain ⟨done, known, h⟩ := bind_eq_ok.mp h
    obtain ⟨version, h⟩ := require_bind_eq_ok.mp h
    obtain ⟨bound, read, h⟩ := bind_eq_ok.mp h
    obtain ⟨drivers, found, h⟩ := bind_eq_ok.mp h
    obtain ⟨entries, projects, h⟩ := bind_eq_ok.mp h
    refine bind_eq_ok.mpr ⟨doc, object, bind_eq_ok.mpr ⟨done, known, ?_⟩⟩
    refine require_bind_eq_ok.mpr ⟨version, bind_eq_ok.mpr ⟨bound, read, ?_⟩⟩
    refine bind_eq_ok.mpr ⟨drivers, found, bind_eq_ok.mpr ⟨entries, projects, ?_⟩⟩
    exact (foldlM_transfer (loadProject_grows grown) h none).1

end Growth

/-! ## What a manager writes -/

/-- `createHash("sha256")` and `digest("hex")` give sixty-four lowercase hexadecimal digits. -/
def SessionManagerOptions.HexDigest (options : SessionManagerOptions) : Prop :=
  ∀ text, (options.sha256 text).toList.length = 64 ∧
    ∀ x ∈ (options.sha256 text).toList, isDigit x = true ∨ ('a' ≤ x ∧ x ≤ 'f')

/-- A word of the class, after a leading character, has the shape of a session id. -/
theorem test_sessionIdPattern {lead : Char} {word : List Char}
    (leads : ('a' ≤ lead && lead ≤ 'z' || isDigit lead) = true)
    (all : ∀ x ∈ word, ('a' ≤ x && x ≤ 'z' || isDigit x || x == '_' || x == '-') = true)
    (enough : 8 ≤ word.length) (room : word.length ≤ 63) :
    sessionIdPattern.test (String.ofList (lead :: word)) = true := by
  have start : (⟨[], lead :: word⟩ : Cursor) ∈ atStart.ends ⟨[], lead :: word⟩ := by
    simp [atStart, ends]
  have first : (⟨[lead], word⟩ : Cursor) ∈
      (Regex.one fun x => 'a' ≤ x && x ≤ 'z' || isDigit x).ends ⟨[], lead :: word⟩ := by
    simp only [ends, leads, if_true, List.mem_singleton]
  have rest : (⟨word.reverse ++ [lead], []⟩ : Cursor) ∈
      (Regex.rep true 8 (some 63) (.one fun x =>
        'a' ≤ x && x ≤ 'z' || isDigit x || x == '_' || x == '-')).ends ⟨[lead], word⟩ := by
    have repeated := mem_iterate_word word all [lead] [] true word.length (Nat.le_refl _) enough
      fun n (h : some 63 = some n) => (Option.some.inj h) ▸ room
    simpa [ends] using repeated
  have finish : (⟨word.reverse ++ [lead], []⟩ : Cursor) ∈
      atEnd.ends ⟨word.reverse ++ [lead], []⟩ := by
    simp [atEnd, ends]
  refine test_eq_true.mpr ⟨⟨[], lead :: word⟩, [], ⟨word.reverse ++ [lead], []⟩, ?_, ?_⟩
  · constructor
    · simp
    · rfl
  · simp only [sessionIdPattern, Regex.sequence, List.foldr_cons, List.foldr_nil]
    exact List.mem_flatMap.mpr ⟨_, start, List.mem_flatMap.mpr ⟨_, first, List.mem_flatMap.mpr
      ⟨_, rest, List.mem_flatMap.mpr ⟨_, finish, List.mem_singleton.mpr rfl⟩⟩⟩⟩

theorem test_deriveSessionId (hex : options.HexDigest) (projectKey : String) :
    sessionIdPattern.test (deriveSessionId options projectKey) = true := by
  obtain ⟨size, digits⟩ := hex (options.stateDir ++ "\u0000" ++ projectKey)
  have derived : deriveSessionId options projectKey = String.ofList ('s' :: ("ess".toList ++
      (options.sha256 (options.stateDir ++ "\u0000" ++ projectKey)).toList.take 18)) := by
    simp [deriveSessionId, ← String.toList_inj]
  have length : ("ess".toList ++
      (options.sha256 (options.stateDir ++ "\u0000" ++ projectKey)).toList.take 18).length = 21 := by
    simp [size]
  rw [derived]
  refine test_sessionIdPattern (by decide) (fun x hx => ?_) (by omega) (by omega)
  rcases List.mem_append.mp hx with fixed | digit
  · have all : ("ess".toList.all fun x =>
        'a' ≤ x && x ≤ 'z' || isDigit x || x == '_' || x == '-') = true := by decide +kernel
    exact List.all_eq_true.mp all x fixed
  · rcases digits x (List.mem_of_mem_take digit) with digit | ⟨low, high⟩
    · simp [digit]
    · have high : x ≤ 'z' := Char.le_trans high (show 'f' ≤ 'z' by decide)
      simp [low, high]

namespace ManagerState

/-- The bindings round trip, and a restarted manager finds the projects on file. -/
def Restarts (options : SessionManagerOptions) (s : ManagerState) : Prop :=
  s.bindings.RoundTrips options.roots s.fs ∧
    ∃ loaded, loadBindings options.roots s.fs s.file = .ok loaded ∧ loaded.rejected = [] ∧
      ∀ key, loaded.bindings.projects.lookup key = s.bindings.projects.lookup key

/-- Every record is one that the reader accepts, and the file has the same projects. -/
structure Durable (options : SessionManagerOptions) (s : ManagerState) : Prop where
  fits : s.bindings.Fits options.roots s.fs
  reloads : ∃ loaded, loadBindings options.roots s.fs s.file = .ok loaded ∧
    loaded.rejected = [] ∧
    ∀ key, loaded.bindings.projects.lookup key = s.bindings.projects.lookup key

variable {host : CallHost} {s t : ManagerState}

namespace Durable

theorem restarts (durable : s.Durable options) : s.Restarts options :=
  ⟨durable.fits.roundTrips, durable.reloads⟩

/-- Once they are saved. -/
theorem save (fits : s.bindings.Fits options.roots s.fs) : s.save.Durable options := by
  refine ⟨fits, ?_⟩
  obtain ⟨loaded, loads, none, -, same⟩ := fits.roundTrips
  exact ⟨loaded, loads, none, same⟩

theorem grows (durable : s.Durable options) (bindings : t.bindings = s.bindings)
    (file : t.file = s.file) (grown : s.Grows t) : t.Durable options := by
  obtain ⟨loaded, loads, none, same⟩ := durable.reloads
  rw [← bindings] at same
  refine ⟨bindings ▸ durable.fits.grows grown, loaded, ?_, none, same⟩
  rw [file]
  exact loadBindings_grows grown loads none

/-- A driver that is bound in memory only. -/
theorem setDriver (durable : s.Durable options) {projectKey : String}
    (slug : validateProjectKey projectKey = .ok projectKey) (driverKey : String) :
    (s.setDriver driverKey projectKey).Durable options :=
  ⟨durable.fits.insertDriver slug, durable.reloads⟩

end Durable

/-! ### One method -/

theorem inside_of_resolveProjectDir {projectKey dir : String}
    (h : resolveProjectDir fs roots projectKey = .ok (some dir)) :
    ∃ root ∈ roots, dir = joinPath root projectKey ∧ fs dir = .directory dir := by
  induction roots with
  | nil => simp [resolveProjectDir] at h
  | cons root rest ih =>
      rw [resolveProjectDir] at h
      split at h
      · obtain ⟨found, mem, inside⟩ := ih h
        exact ⟨found, List.mem_cons_of_mem _ mem, inside⟩
      · cases h
      · cases h
      · rename_i real entry
        split at h
        · rename_i same
          obtain rfl : real = dir := by simpa using h
          exact ⟨root, List.mem_cons_self, same, by rwa [same] at entry ⊢⟩
        · cases h

theorem checkDirectory_inside {root projectKey dir : String} (mem : root ∈ roots)
    (inside : dir = joinPath root projectKey) (entry : fs dir = .directory dir) :
    checkDirectory roots fs projectKey dir = .ok dir := by
  have found : (roots.any fun root => dir == joinPath root projectKey) = true :=
    List.any_eq_true.mpr ⟨root, mem, beq_iff_eq.mpr inside⟩
  simp [checkDirectory, realpath, entry, found]

theorem newRecord_fits (hex : options.HexDigest) {projectKey dir : String}
    (slug : validateProjectKey projectKey = .ok projectKey)
    (safe : host.now.isSafeInteger = true)
    (checked : checkDirectory options.roots fs projectKey dir = .ok dir) :
    (newRecord options host projectKey dir).Fits options.roots fs projectKey where
  slug := slug
  sessionId := test_deriveSessionId hex projectKey
  name := by
    show 0 < (codeUnits sessionFallbackName).length ∧ (codeUnits sessionFallbackName).length ≤ 64
    decide
  createdAt := safe
  profile _ h := by cases h
  directory := checked

/-- A name within the reader's bound. -/
theorem Durable.rename (durable : s.Durable options) {projectKey name : String}
    {record : ProjectRecord} (recorded : s.bindings.projects.lookup projectKey = some record)
    (ne : name ≠ "") (short : (codeUnits name).length ≤ 64) (nameSource : SessionNameSource) :
    (s.setProject projectKey { record with name, nameSource }).save.Durable options :=
  .save (durable.fits.insert
    { durable.fits.projects projectKey record recorded with name := ⟨codeUnits_pos ne, short⟩ })

theorem bindDriver_fs (projectKey driverKey : String) :
    (s.bindDriver options host projectKey driverKey).2.fs = s.fs := by
  rcases s.bindDriver_cases options host projectKey driverKey with
    ⟨-, dir, -, bound⟩ | ⟨-, failure, refused⟩
  · rw [bound]
    dsimp only
    split <;> rfl
  · rw [refused]

section Methods

variable (hex : options.HexDigest) (durable : s.Durable options)

include hex durable

theorem createProject_durable {projectKey : String}
    (safe : s.Creatable options host projectKey → host.now.isSafeInteger = true) :
    (s.createProject options host projectKey).2.Durable options := by
  rcases s.createProject_cases options host projectKey with
    ⟨creatable, made⟩ | ⟨-, failure, t, refused, bindings, file, grown⟩
  · rw [made]
    have slug := creatable.1
    have grown := grows_update (newDirectory_absent creatable.2.2.2.1)
      (.directory (newDirectory options projectKey))
    refine .save ((durable.fits.grows grown).insert (newRecord_fits hex slug (safe creatable) ?_))
    exact checkDirectory_inside (List.head_mem options.roots_ne) rfl (Function.update_self ..)
  · rw [refused]
    exact durable.grows bindings file grown

theorem bindDriver_durable {projectKey driverKey : String}
    (safe : s.Bindable options projectKey driverKey →
      s.bindings.projects.lookup projectKey = none → host.now.isSafeInteger = true) :
    (s.bindDriver options host projectKey driverKey).2.Durable options := by
  rcases s.bindDriver_cases options host projectKey driverKey with
    ⟨bindable, dir, resolved, bound⟩ | ⟨-, failure, refused⟩
  · rw [bound]
    have slug := bindable.2.1
    split
    · exact .save (durable.setDriver slug driverKey).fits
    · rename_i unrecorded
      obtain ⟨root, mem, inside, entry⟩ := inside_of_resolveProjectDir resolved
      exact .save ((durable.setDriver slug driverKey).fits.insert (newRecord_fits hex slug
        (safe bindable (by simpa using unrecorded)) (checkDirectory_inside mem inside entry)))
  · rw [refused]
    exact durable

theorem adoptAfterRelease_durable {projectKey : String}
    (safe : s.Adoptable options projectKey → host.now.isSafeInteger = true)
    (shaped : s.Adoptable options projectKey → ∀ lease, s.leases projectKey = .record lease →
      sessionIdPattern.test lease.sessionId = true) :
    (s.adoptAfterRelease options host projectKey).2.Durable options := by
  rcases s.adoptAfterRelease_cases options host projectKey with
    ⟨adoptable, item, lease, dir, file, resolved, adopted⟩ | ⟨-, result, same, -⟩
  · rw [adopted]
    have now := safe adoptable
    have bound : (s.bindDriver options host projectKey (consoleKey options)).2.Durable options :=
      bindDriver_durable hex durable fun _ _ => now
    obtain ⟨root, mem, inside, entry⟩ := inside_of_resolveProjectDir resolved
    have fresh := newRecord_fits hex adoptable.2.2.2.1 now
      (checkDirectory_inside mem inside entry)
    have kept : (s.bindDriver options host projectKey (consoleKey options)).2.fs = s.fs :=
      bindDriver_fs ..
    generalize s.bindDriver options host projectKey (consoleKey options) = binding at bound kept ⊢
    refine .save (bound.fits.insert ?_)
    show ProjectRecord.Fits _ binding.2.fs _ _
    rw [kept]
    exact { fresh with sessionId := shaped adoptable lease file }
  · rw [same]
    exact durable

omit hex in
theorem unbindDriver_durable (driverKey : String) (projectKey : Option String) :
    (s.unbindDriver driverKey projectKey).2.Durable options := by
  rcases s.unbindDriver_cases driverKey projectKey with ⟨-, dropped⟩ | ⟨-, failure, refused⟩
  · rw [dropped]
    exact .save (durable.fits.eraseDriver driverKey)
  · rw [refused]
    exact durable

omit hex in
theorem renameSession_durable {projectKey : String} {manual : Except String String}
    (ne : ∀ name, manual = .ok name → name ≠ "")
    (short : (s.bindings.projects.lookup projectKey).isSome → ∀ name, manual = .ok name →
      (codeUnits name).length ≤ 64) :
    (s.renameSession projectKey manual).2.Durable options := by
  rcases s.renameSession_cases projectKey manual with
    ⟨record, -, recorded, named⟩ | ⟨-, failure, refused⟩
  · rw [named]
    cases manual with
    | error message => exact durable
    | ok name => exact durable.rename recorded (ne name rfl) (short (by simp [recorded]) name rfl) _
  · rw [refused]
    exact durable

omit hex in
theorem setTitleFromGeneration_durable {projectKey sanitized : String} (ne : sanitized ≠ "")
    (short : ∀ record, s.bindings.projects.lookup projectKey = some record →
      record.nameSource = .generated → (codeUnits sanitized).length ≤ 64) :
    (s.setTitleFromGeneration projectKey sanitized).2.Durable options := by
  rcases s.setTitleFromGeneration_cases projectKey sanitized with
    ⟨record, -, recorded, titled⟩ | ⟨-, failure, refused⟩
  · rw [titled]
    split
    · exact durable
    · rename_i source
      have generated : record.nameSource = .generated := by
        cases named : record.nameSource with
        | generated => rfl
        | manual => exact absurd named source
      exact durable.rename recorded ne (short record recorded generated) _
  · rw [refused]
    exact durable

omit hex in
theorem recordStandaloneRelease_durable (projectKey : String) :
    (s.recordStandaloneRelease host projectKey).2.Durable options := by
  unfold recordStandaloneRelease attempt
  split
  · exact durable
  · exact ⟨durable.fits, durable.reloads⟩

omit hex in
theorem opened_durable (host : CallHost) {opening : Opening}
    (slug : validateProjectKey opening.projectKey = .ok opening.projectKey) :
    (s.opened host opening).2.Durable options := by
  have bound := Durable.save (durable.setDriver slug opening.driverKey).fits
  unfold opened
  split
  · dsimp only
    split
    · rw [itemForRecord_state]
      exact bound
    · exact bound
  · rw [itemForRecord_state]
    exact durable

theorem ensureSession_durable (driverKey : String) {projectKey : String}
    (safe : s.Creatable options host projectKey →
      s.bindings.projects.lookup projectKey = none → host.now.isSafeInteger = true) :
    (s.ensureSession options host projectKey driverKey).2.Durable options ∧
      ∀ opening, (s.ensureSession options host projectKey driverKey).1 = .ok opening →
        validateProjectKey opening.projectKey = .ok opening.projectKey := by
  rw [← Faults.ensureSession_none]
  rcases Faults.ensureSession_cases options host .none s
    projectKey driverKey with ⟨-, failure, refused⟩ | ⟨⟨-, slug⟩, going⟩
  · rw [refused]
    exact ⟨durable, fun opening h => by cases h⟩
  · have bound : (Faults.bound s projectKey driverKey).Durable options := by
      unfold Faults.bound
      split
      · exact durable
      · exact durable.setDriver slug driverKey
    have same : (Faults.bound s projectKey driverKey).Creatable options host projectKey →
        s.Creatable options host projectKey := by
      unfold Faults.bound
      split <;> exact id
    rw [going]
    split
    · rename_i unrecorded
      unfold attempt
      split
      · exact ⟨bound, fun opening h => by cases h⟩
      · dsimp only
        rw [show Faults.none.createProject options host (Faults.bound s projectKey driverKey)
          projectKey = (Faults.bound s projectKey driverKey).createProject options host
          projectKey from Faults.saved_false _]
        have created := createProject_durable hex bound
          fun creatable => safe (same creatable) unrecorded
        split
        · rename_i ended
          rw [ended] at created
          exact ⟨created, fun opening h => by cases h⟩
        · rename_i ended
          rw [ended] at created
          refine ⟨created, fun opening h => ?_⟩
          obtain rfl := Except.ok.inj h
          exact slug
    · unfold attempt
      split
      · exact ⟨bound, fun opening h => by cases h⟩
      · refine ⟨.save bound.fits, fun opening h => ?_⟩
        obtain rfl := Except.ok.inj h
        exact slug

omit hex durable in
theorem construct_durable {pid : Nat} {rejected : List (String × String)}
    (h : (s.construct options pid).1 = .ok rejected) :
    (s.construct options pid).2.Durable options := by
  unfold construct attempt at h ⊢
  split
  · rename_i refused
    rw [refused] at h
    cases h
  · rename_i loaded loads
    have fits := fits_of_loadBindings loads
    dsimp only
    split
    · rename_i none
      exact ⟨fits, loaded, loads, none, fun _ => rfl⟩
    · exact .save fits

end Methods

end ManagerState

/-! ## Runs -/

namespace ManagerWorld

open ManagerState

/-- Manual names and titles come out of the sanitizers. -/
def Sanitized (classes : CharClasses) (titleMaxLength : Int) : ManagerEvent → Prop
  | .call _ (.renameSession _ manual) => ∃ raw, manual = createManualSessionName classes raw
  | .call _ (.setTitleFromGeneration _ sanitized) =>
      ∃ raw, sanitized = (sanitizeTitle classes raw titleMaxLength).value
  | _ => True

/-- What a call is about to record passes the reader's own checks: a name has at most
sixty-four UTF-16 code units, an adopted session id the shape of one, and a new record a time
that is a safe integer. -/
def Readable (options : SessionManagerOptions) (world : ManagerWorld) : ManagerEvent → Prop
  | .call host (.ensureSession projectKey _) =>
      world.state.Creatable options host projectKey →
        world.state.bindings.projects.lookup projectKey = none → host.now.isSafeInteger = true
  | .call host (.createProject projectKey) =>
      world.state.Creatable options host projectKey → host.now.isSafeInteger = true
  | .call host (.bindDriver projectKey driverKey) =>
      world.state.Bindable options projectKey driverKey →
        world.state.bindings.projects.lookup projectKey = none → host.now.isSafeInteger = true
  | .call _ (.renameSession projectKey manual) =>
      (world.state.bindings.projects.lookup projectKey).isSome → ∀ name, manual = .ok name →
        (codeUnits name).length ≤ 64
  | .call _ (.setTitleFromGeneration projectKey sanitized) =>
      ∀ record, world.state.bindings.projects.lookup projectKey = some record →
        record.nameSource = .generated → (codeUnits sanitized).length ≤ 64
  | .call host (.adoptAfterRelease projectKey) =>
      world.state.Adoptable options projectKey → host.now.isSafeInteger = true ∧
        ∀ lease, world.state.leases projectKey = .record lease →
          sessionIdPattern.test lease.sessionId = true
  | _ => True

/-- A running manager's records are durable, and an open that waits is of a slug. -/
def Lasting (options : SessionManagerOptions) (world : ManagerWorld) : Prop :=
  world.running = true → world.state.Durable options ∧
    ∀ opening ∈ world.opening, validateProjectKey opening.projectKey = .ok opening.projectKey

variable {options : SessionManagerOptions} {world : ManagerWorld} {classes : CharClasses}
  {titleMaxLength : Int}

theorem Lasting.start (world : ManagerWorld) (pid : Nat) :
    (world.apply options (.start pid)).Lasting options := by
  simp only [ManagerWorld.apply]
  split
  · rename_i rejected state built
    have durable : (world.state.construct options pid).2.Durable options :=
      construct_durable (congrArg Prod.fst built)
    rw [built] at durable
    exact fun _ => ⟨durable, fun opening mem => by cases mem⟩
  · exact fun running => by cases running

theorem Lasting.callStep (hex : options.HexDigest) (lasting : world.Lasting options) {host : CallHost}
    {method : ManagerCall} (sanitized : Sanitized classes titleMaxLength (.call host method))
    (readable : world.Readable options (.call host method)) :
    (world.callStep options host method).Lasting options := by
  cases method with
  | ensureSession projectKey driverKey =>
      simp only [ManagerWorld.callStep]
      split
      · rename_i opening state ended
        intro running
        obtain ⟨durable, slugs⟩ := lasting running
        obtain ⟨kept, slug⟩ := ensureSession_durable hex durable driverKey readable
        rw [ended] at kept slug
        refine ⟨kept, fun other mem => ?_⟩
        rcases List.mem_append.mp mem with before | new
        · exact slugs other before
        · rw [List.mem_singleton.mp new]
          exact slug opening rfl
      · rename_i failure state ended
        intro running
        obtain ⟨durable, slugs⟩ := lasting running
        obtain ⟨kept, -⟩ := ensureSession_durable hex durable driverKey readable
        rw [ended] at kept
        exact ⟨kept, slugs⟩
  | createProject projectKey =>
      exact fun running => (lasting running).imp_left (createProject_durable hex · readable)
  | bindDriver projectKey driverKey =>
      exact fun running => (lasting running).imp_left (bindDriver_durable hex · readable)
  | unbindDriver driverKey projectKey =>
      exact fun running => (lasting running).imp_left (unbindDriver_durable · driverKey projectKey)
  | renameSession projectKey manual =>
      obtain ⟨raw, rfl⟩ := sanitized
      exact fun running => (lasting running).imp_left
        (renameSession_durable · (fun name made => createManualSessionName_ne_empty made) readable)
  | setTitleFromGeneration projectKey title =>
      obtain ⟨raw, rfl⟩ := sanitized
      exact fun running => (lasting running).imp_left
        (setTitleFromGeneration_durable · (sanitizeTitle_ne_empty classes raw _) readable)
  | adoptAfterRelease projectKey =>
      exact fun running => (lasting running).imp_left (adoptAfterRelease_durable hex ·
        (fun adoptable => (readable adoptable).1) (fun adoptable => (readable adoptable).2))
  | recordStandaloneRelease projectKey =>
      exact fun running =>
        (lasting running).imp_left (recordStandaloneRelease_durable · projectKey)

theorem Lasting.resumeStep (lasting : world.Lasting options) (host : CallHost) (index : Nat) :
    (world.resumeStep host index).Lasting options := by
  unfold ManagerWorld.resumeStep
  split
  · exact lasting
  · rename_i opening found
    have mem := List.mem_of_getElem? found
    have rest : ∀ other ∈ world.opening.eraseIdx index, other ∈ world.opening :=
      fun other mem => List.mem_of_mem_eraseIdx mem
    split
    · rename_i ended
      intro running
      obtain ⟨durable, slugs⟩ := lasting running
      have kept := opened_durable durable host (slugs opening mem)
      rw [ended] at kept
      exact ⟨kept, fun other mem => slugs other (rest other mem)⟩
    · rename_i ended
      intro running
      obtain ⟨durable, slugs⟩ := lasting running
      have kept := opened_durable durable host (slugs opening mem)
      rw [ended] at kept
      exact ⟨kept, fun other mem => slugs other (rest other mem)⟩

theorem Lasting.apply (hex : options.HexDigest) (lasting : world.Lasting options) {event : ManagerEvent}
    (sanitized : Sanitized classes titleMaxLength event)
    (readable : world.Readable options event) : (world.apply options event).Lasting options := by
  cases event with
  | start pid => exact .start world pid
  | stop => exact fun running => by cases running
  | console projectKey file =>
      intro running
      obtain ⟨durable, slugs⟩ := lasting running
      exact ⟨⟨durable.fits, durable.reloads⟩, slugs⟩
  | call host method => exact lasting.callStep hex sanitized readable
  | resume host index => exact lasting.resumeStep host index

/-- As long as every call records what the reader accepts, the bindings of a running manager
are read back as they were, and a restart drops no project. -/
theorem recorded_restarts (hex : options.HexDigest) {state : ManagerState}
    {events : List ManagerEvent}
    (run : Run (Guarded (Steps options) fun world event =>
      Sanitized classes titleMaxLength event ∧ world.Readable options event)
      (initial state) events world) (running : world.running = true) :
    world.state.Restarts options := by
  have lasting : world.Lasting options := by
    refine run.invariant (I := Lasting options) ?_ (fun running => by cases running)
    rintro before event _ lasting ⟨⟨sanitized, readable⟩, rfl⟩
    exact lasting.apply hex sanitized readable
  exact (lasting running).1.restarts

/-! ### A short name and a long one -/

/-- Classes that agree with Unicode on the characters used here. -/
def scriptClasses : CharClasses := ⟨fun x => x.toNat == 0x200b, fun x => 0x20 ≤ x.toNat⟩

/-- The project is opened and then named. -/
def namedScript (raw : String) : List ManagerEvent := createdScript ++
  [.call scriptHost (.renameSession "alpha" (createManualSessionName scriptClasses raw))]

theorem hexDigest_literal {digest : List Char} (size : digest.length = 64)
    (digits : (digest.all fun x => isDigit x || decide ('a' ≤ x) && decide (x ≤ 'f')) = true) :
    (String.ofList digest).toList.length = 64 ∧
      ∀ x ∈ (String.ofList digest).toList, isDigit x = true ∨ 'a' ≤ x ∧ x ≤ 'f' := by
  rw [String.toList_ofList]
  refine ⟨size, fun x member => ?_⟩
  simpa using List.all_eq_true.mp digits x member

theorem hexDigest_scriptOptions : scriptOptions.HexDigest :=
  fun _ => hexDigest_literal rfl rfl

theorem sanitized_namedScript (raw : String) :
    ∀ event ∈ namedScript raw, Sanitized scriptClasses 48 event := by
  intro event mem
  simp only [namedScript, createdScript, openAlpha, List.cons_append, List.nil_append,
    List.mem_cons, List.not_mem_nil, or_false] at mem
  rcases mem with rfl | rfl | rfl | rfl
  · trivial
  · trivial
  · trivial
  · exact ⟨raw, rfl⟩

theorem recorded_restarts_namedScript :
    (((namedScript "Notes site").foldl (apply scriptOptions)
      (initial scriptState)).state).Restarts scriptOptions := by
  have allowed : ∀ event ∈ namedScript "Notes site", ∀ world : ManagerWorld,
      Sanitized scriptClasses 48 event ∧ world.Readable scriptOptions event := ?_
  · exact recorded_restarts hexDigest_scriptOptions (Run.guarded_foldl_of_forall allowed _)
      (by decide +kernel)
  refine fun event mem world => ⟨sanitized_namedScript _ event mem, ?_⟩
  simp only [namedScript, createdScript, openAlpha, List.cons_append, List.nil_append,
    List.mem_cons, List.not_mem_nil, or_false] at mem
  rcases mem with rfl | rfl | rfl | rfl
  · trivial
  · exact fun _ _ => rfl
  · trivial
  · intro _ name made
    have short : ∀ name, createManualSessionName scriptClasses "Notes site" = .ok name →
        name = "Notes site" := by
      intro name made
      have known : createManualSessionName scriptClasses "Notes site" = .ok "Notes site" := by
        decide +kernel
      exact (Except.ok.inj (known.symm.trans made)).symm
    rw [short name made]
    decide +kernel

/-- Forty astral characters, of two code units each. -/
def longName : String := String.ofList (List.replicate 40 (Char.ofNat 0x1f600))

theorem longName_toList : longName.toList = List.replicate 40 (Char.ofNat 0x1f600) := by
  unfold longName
  exact String.toList_ofList

/-- Nothing in the name is stripped or cut off. -/
theorem createManualSessionName_longName :
    createManualSessionName scriptClasses longName = .ok longName := by
  simp only [createManualSessionName, screened, Regex.test, Regex.replaceAll, glue, trim,
    clamp, String.toList_ofList, longName_toList]
  decide +kernel

/-- The world in which the project has the long name. -/
def longWorld : ManagerWorld :=
  (createdScript ++ [ManagerEvent.call scriptHost (.renameSession "alpha" (.ok longName))]).foldl
    (apply scriptOptions) (initial scriptState)

/-- A name of forty astral characters is within the writer's bound and beyond the reader's. -/
theorem recorded_restarts_refuted :
    ¬ ∀ options classes titleMaxLength state events world, SessionManagerOptions.HexDigest options →
      Run (Guarded (Steps options) fun _ event => Sanitized classes titleMaxLength event)
        (initial state) events world → world.running = true → world.state.Restarts options := by
  intro restarts
  have script : (namedScript longName).foldl (apply scriptOptions) (initial scriptState) =
      longWorld := by
    rw [namedScript, createManualSessionName_longName, longWorld]
  have run : Run (Guarded (Steps scriptOptions) fun _ event => Sanitized scriptClasses 48 event)
      (initial scriptState) (namedScript longName) longWorld := by
    rw [← script]
    exact Run.guarded_foldl_of_forall (fun event mem _ => sanitized_namedScript _ event mem) _
  have named := restarts scriptOptions scriptClasses 48 scriptState _ _ hexDigest_scriptOptions run
    (by decide +kernel)
  obtain ⟨-, loaded, loads, none, -⟩ := named
  have rejects : (loadBindings scriptOptions.roots longWorld.state.fs longWorld.state.file).map
      (·.rejected) = .ok [("alpha", "project record has an invalid name")] := by decide +kernel
  rw [loads] at rejects
  simp [Except.map, none] at rejects

end ManagerWorld

end AdCoder.SessionManager
