import AdCoder.Auth.CredentialStore
import AdCoder.Foundation.JsonObjects

/-!
# The credential store as a finite map

The store is a map from provider ids to credentials: the credential of an id is that of
the last `modify` that stored one, unless a `delete` came after it. A property that every
plain object inherits is read where the map has nothing.
-/

namespace AdCoder.Auth

open Foundation Foundation.Regex
open Foundation.JsonText (lookup_insert lookup_filter keys_insert mem_insert mem_keys_iff
  readable_lookup)
open Stamp (inheritedNames)

/-! ## Runs -/

/-- What a callback returns is data: it can be written as JSON and read back. -/
abbrev DataCallback (host : StoreHost) : Type :=
  { callback : Callback // ∀ current next, callback current = .returned (some next) →
    JsonText.Readable host.format next }

/-- The operations that can change the file. -/
inductive StoreOperation (host : StoreHost) where
  | modify (providerId : String) (rounds : List (DataCallback host))
  | delete (providerId : String)

/-- What an operation did to the map. -/
inductive MapEvent where
  | modified (providerId : String) (credential : Json)
  | deleted (providerId : String)

/-- The credential of the last `modify` of an id that no `delete` of it follows. -/
def credentialAfter (providerId : String) : List MapEvent → Option Json
  | [] => none
  | .modified other credential :: earlier =>
      if other = providerId then some credential else credentialAfter providerId earlier
  | .deleted other :: earlier =>
      if other = providerId then none else credentialAfter providerId earlier

/-- The file, and what the operations so far did to the map, the last of them first. -/
structure StoreState where
  file : StoredFile
  history : List MapEvent

namespace StoreState

def initial : StoreState := ⟨none, []⟩

def perform (host : StoreHost) (s : StoreState) : StoreOperation host → StoreState
  | .modify providerId rounds =>
      match modify host s.file providerId (rounds.map (·.val)) with
      | (file, .ok (.stored credential)) => ⟨file, .modified providerId credential :: s.history⟩
      | (file, _) => ⟨file, s.history⟩
  | .delete providerId =>
      match delete host s.file providerId with
      | (file, .ok ()) => ⟨file, .deleted providerId :: s.history⟩
      | (file, .error _) => ⟨file, s.history⟩

def run (host : StoreHost) (operations : List (StoreOperation host)) : StoreState :=
  operations.foldl (perform host) initial

/-- The credential that the map has under an id. -/
def credential (s : StoreState) (providerId : String) : Option Json :=
  credentialAfter providerId s.history

end StoreState

/-- A callback that stores nothing, whatever it finds. -/
def StoresNothing (callback : Callback) : Prop :=
  ∀ current, (∃ lockHeld, callback current = .failed lockHeld) ∨ callback current = .returned none

/-- The store agrees with the map about an id. -/
structure RefinesMap (host : StoreHost) (s : StoreState) (providerId : String) : Prop where
  reads : providerIdPattern.test providerId = true →
    read host s.file providerId = .ok (match s.credential providerId with
      | some credential => .credential credential
      | none => .undefined)
  lists : ∃ entries, list host s.file = .ok entries ∧ (entries.map (·.1)).Nodup ∧
    (providerId ∈ entries.map (·.1) ↔ (s.credential providerId).isSome)
  stored : ∃ ids, storedProviderIds host s.file = .ok ids ∧ ids.Nodup ∧
    (providerId ∈ ids ↔ (s.credential providerId).isSome)
  others : ∀ other ≠ providerId,
    (∀ rounds : List (DataCallback host), read host (modify host s.file other
      (rounds.map (·.val))).1 providerId = read host s.file providerId) ∧
    read host (delete host s.file other).1 providerId = read host s.file providerId
  unchanged : ∀ rounds, (∀ callback ∈ rounds, StoresNothing callback) →
    (modify host s.file providerId rounds).1 = s.file

/-! ## Credentials -/

section Credentials

variable {value credential : Json}

/-- The fields that an `api_key` credential keeps. -/
def apiFields (key env : Option Json) : List (String × Json) :=
  ("type", .str "api_key") :: ((key.map fun key => ("key", key)).toList ++
    (env.map fun env => ("env", env)).toList)

@[simp] theorem lookup_type_apiFields (key env : Option Json) :
    Json.lookup "type" (apiFields key env) = some (.str "api_key") := rfl

@[simp] theorem lookup_key_apiFields (key env : Option Json) :
    Json.lookup "key" (apiFields key env) = key := by
  cases key <;> cases env <;> simp [apiFields]

@[simp] theorem lookup_env_apiFields (key env : Option Json) :
    Json.lookup "env" (apiFields key env) = env := by
  cases key <;> cases env <;> simp [apiFields]

/-- An `api_key` credential with its fields. -/
theorem validateCredential_apiFields {key env : Option Json}
    (keyed : ∀ value, key = some value → ∃ text, value = .str text)
    (environment : ∀ value, env = some value → isEnvironment value = true) :
    validateCredential (.obj (apiFields key env)) = .ok (.obj (apiFields key env)) := by
  have accepted : env.all isEnvironment = true := by
    cases env with
    | none => rfl
    | some value => exact environment value rfl
  simp only [validateCredential, lookup_type_apiFields, lookup_key_apiFields,
    lookup_env_apiFields, accepted]
  cases key with
  | none => rfl
  | some value =>
      obtain ⟨text, rfl⟩ := keyed value rfl
      rfl

/-- An `oauth` credential is kept as it is, an `api_key` one is projected. -/
theorem validateCredential_cases (h : validateCredential value = .ok credential) :
    ∃ record, value = .obj record ∧ (credential = value ∨
      ((∀ key, Json.lookup "key" record = some key → ∃ text, key = .str text) ∧
        (∀ env, Json.lookup "env" record = some env → isEnvironment env = true) ∧
        credential = .obj (apiFields (Json.lookup "key" record) (Json.lookup "env" record)))) := by
  unfold validateCredential at h
  split at h
  · next record =>
      refine ⟨record, rfl, ?_⟩
      split at h
      · split at h
        · exact Or.inl (Except.ok.inj h).symm
        · cases h
      · simp only [bind_eq_ok, require_eq_ok, pure_eq_ok] at h
        obtain ⟨-, keyed, -, environment, rfl⟩ := h
        refine Or.inr ⟨?_, ?_, rfl⟩
        · intro key found
          rw [found] at keyed
          split at keyed
          · next h => cases h
          · next h => exact ⟨_, Option.some.inj h⟩
          · cases keyed
        · intro env found
          simpa [found] using environment
      · cases h
  · cases h

/-- A validated credential is validated again as it is. -/
theorem validateCredential_again (h : validateCredential value = .ok credential) :
    validateCredential credential = .ok credential := by
  obtain ⟨record, rfl, rfl | ⟨keyed, environment, rfl⟩⟩ := validateCredential_cases h
  · exact h
  · exact validateCredential_apiFields keyed environment

theorem validateCredential_readable {format : NumberFormat}
    (readable : JsonText.Readable format value) (h : validateCredential value = .ok credential) :
    JsonText.Readable format credential := by
  obtain ⟨record, rfl, rfl | ⟨keyed, environment, rfl⟩⟩ := validateCredential_cases h
  · exact readable
  · have found {name : String} {field : Json} (h : Json.lookup name record = some field) :
        JsonText.Readable format field := by
      exact readable_lookup readable h
    rw [JsonText.Readable, JsonText.readableFields_iff]
    cases key : Json.lookup "key" record with
    | none =>
        cases env : Json.lookup "env" record with
        | none => simp [apiFields]
        | some env => simpa [apiFields] using found ‹_›
    | some key =>
        cases env : Json.lookup "env" record with
        | none => simpa [apiFields] using found ‹_›
        | some env =>
            have first := found key
            have second := found env
            simpa [apiFields] using ⟨first, second⟩

end Credentials

/-! ## The file -/

section File

variable {host : StoreHost} {file : StoredFile} {all : CredentialFile} {providerId : String}

/-- An entry that the store can have written. -/
structure ValidEntry (host : StoreHost) (entry : String × Json) : Prop where
  id : providerIdPattern.test entry.1 = true
  credential : validateCredential entry.2 = .ok entry.2
  readable : JsonText.Readable host.format entry.2

/-- The file holds the given entries. -/
structure Held (host : StoreHost) (file : StoredFile) (all : CredentialFile) : Prop where
  distinct : (all.map (·.1)).Nodup
  valid : ∀ entry ∈ all, ValidEntry host entry
  written : file = publish host all ∨ file = none ∧ all = []

theorem readEntries {front : CredentialFile} (distinct : ((front ++ all).map (·.1)).Nodup)
    (valid : ∀ entry ∈ all, ValidEntry host entry) :
    all.foldlM (readEntry host) front = .ok (front ++ all) := by
  induction all generalizing front with
  | nil => simp [pure, Except.pure]
  | cons entry rest ih =>
      obtain ⟨id, credential, -⟩ := valid entry List.mem_cons_self
      have fresh : entry.1 ∉ front.map (·.1) := by
        rw [List.map_append, List.nodup_append] at distinct
        intro mem
        exact distinct.2.2 _ mem _ (by simp) rfl
      have first : readEntry host front entry = .ok (front ++ [entry]) := by
        rw [readEntry, validateProviderId, id, require_true, credential]
        exact congrArg Except.ok (JsonText.insert_fresh fresh)
      have regroup : front ++ entry :: rest = (front ++ [entry]) ++ rest := by simp
      rw [List.foldlM_cons, bind_eq_ok]
      refine ⟨front ++ [entry], first, ?_⟩
      rw [regroup] at distinct ⊢
      exact ih distinct fun other mem => valid other (List.mem_cons_of_mem _ mem)

theorem Held.parse (held : Held host (publish host all) all) :
    JsonText.parse host.format ((Json.stringify host.format.print (.obj all)).toList ++ ['\n']) =
      some (.obj all) := by
  apply JsonText.parse_line
  rw [JsonText.Readable, JsonText.readableFields_iff]
  exact ⟨held.distinct, fun entry mem => (held.valid entry mem).readable⟩

theorem Held.readAll (held : Held host file all) : readAll host file = .ok all := by
  obtain rfl | ⟨rfl, rfl⟩ := held.written
  · simp only [publish, Auth.readAll, held.parse]
    exact readEntries (by simpa using held.distinct) held.valid
  · rfl

theorem Held.storedProviderIds (held : Held host file all) :
    storedProviderIds host file = .ok (all.map (·.1)) := by
  obtain rfl | ⟨rfl, rfl⟩ := held.written
  · simp only [publish, Auth.storedProviderIds, held.parse, bind_eq_ok, pure_eq_ok, and_true]
    refine ⟨⟨⟩, forM_eq_ok.mpr fun id mem => ?_⟩
    obtain ⟨entry, among, rfl⟩ := List.mem_map.mp mem
    rw [validateProviderId, (held.valid entry among).id, require_true]
  · rfl

/-- A credential is put into the file. -/
theorem Held.insert (held : Held host file all) {credential next : Json}
    (id : providerIdPattern.test providerId = true) (readable : JsonText.Readable host.format next)
    (valid : validateCredential next = .ok credential) :
    Held host (publish host (JsonText.insert providerId credential all))
      (JsonText.insert providerId credential all) where
  distinct := by
    rw [keys_insert]
    split_ifs with known
    · exact held.distinct
    · rw [List.nodup_append]
      refine ⟨held.distinct, by simp, fun key mem other among => ?_⟩
      rw [List.mem_singleton.mp among]
      exact fun same => known (same ▸ mem)
  valid := by
    intro entry mem
    obtain rfl | old := mem_insert mem
    · exact ⟨id, validateCredential_again valid, validateCredential_readable readable valid⟩
    · exact held.valid entry old
  written := Or.inl rfl

/-- A credential is removed from the file. -/
theorem Held.remove (held : Held host file all) (providerId : String) :
    Held host (publish host (all.filter fun entry => entry.1 ≠ providerId))
      (all.filter fun entry => entry.1 ≠ providerId) where
  distinct := held.distinct.sublist (List.filter_sublist.map _)
  valid := fun entry mem => held.valid entry (List.mem_of_mem_filter mem)
  written := Or.inl rfl

/-- What `modify` does: it leaves the file, or stores what a callback returned. -/
theorem Held.modify_cases (held : Held host file all) (providerId : String)
    (rounds : List (DataCallback host)) :
    ((modify host file providerId (rounds.map (·.val))).1 = file ∧
      ∀ credential, (modify host file providerId (rounds.map (·.val))).2 ≠
        .ok (.stored credential)) ∨
    ∃ next credential, providerIdPattern.test providerId = true ∧
      JsonText.Readable host.format next ∧ validateCredential next = .ok credential ∧
      modify host file providerId (rounds.map (·.val)) =
        (publish host (JsonText.insert providerId credential all), .ok (.stored credential)) := by
  by_cases id : providerIdPattern.test providerId = true
  · have accepted : validateProviderId providerId = .ok () := by
      rw [validateProviderId, id, require_true]
    simp only [modify, accepted]
    induction rounds with
    | nil =>
        refine Or.inl ⟨rfl, fun credential same => ?_⟩
        cases same
    | cons round rounds ih =>
        obtain ⟨callback, data⟩ := round
        rw [List.map_cons, modifyLocked, held.readAll]
        dsimp only
        cases outcome : callback (property all providerId) with
        | failed lockHeld =>
            cases lockHeld with
            | true => exact ih
            | false =>
                refine Or.inl ⟨rfl, fun credential same => ?_⟩
                cases same
        | returned next =>
            cases next with
            | none =>
                refine Or.inl ⟨rfl, fun credential same => ?_⟩
                cases same
            | some next =>
                dsimp only
                cases valid : validateCredential next with
                | error error =>
                    refine Or.inl ⟨rfl, fun credential same => ?_⟩
                    cases same
                | ok credential =>
                    exact Or.inr ⟨next, credential, id, data _ _ outcome, valid, rfl⟩
  · have refused : validateProviderId providerId = .error ⟨"credential_store", providerId,
        "invalid credential provider id \"" ++ providerId ++ "\""⟩ := by
      rw [validateProviderId, Bool.eq_false_iff.mpr id, require_false]
    rw [modify, refused]
    refine Or.inl ⟨rfl, fun credential same => ?_⟩
    cases same

/-- Callbacks that store nothing leave the file. -/
theorem modify_unchanged (host : StoreHost) (file : StoredFile) (providerId : String)
    {rounds : List Callback} (nothing : ∀ callback ∈ rounds, StoresNothing callback) :
    (modify host file providerId rounds).1 = file := by
  unfold modify
  split
  · rfl
  · induction rounds with
    | nil => rfl
    | cons callback rounds ih =>
        rw [modifyLocked]
        split
        · rfl
        · next all _ =>
            obtain ⟨lockHeld, failed⟩ | returned :=
              nothing callback List.mem_cons_self (property all providerId)
            · rw [failed]
              cases lockHeld with
              | true => exact ih fun other mem => nothing other (List.mem_cons_of_mem _ mem)
              | false => rfl
            · rw [returned]

end File

/-! ## Every run -/

section Runs

variable {host : StoreHost} {s : StoreState} {all : CredentialFile} {providerId : String}

/-- The file holds the map. -/
structure Agrees (host : StoreHost) (s : StoreState) (all : CredentialFile) : Prop where
  held : Held host s.file all
  same : ∀ providerId, Json.lookup providerId all = s.credential providerId

theorem agrees_initial : Agrees host .initial [] :=
  ⟨⟨List.nodup_nil, fun _ mem => (List.not_mem_nil mem).elim, Or.inr ⟨rfl, rfl⟩⟩, fun _ => rfl⟩

theorem Agrees.modify (agrees : Agrees host s all) (providerId : String)
    (rounds : List (DataCallback host)) :
    ∃ all', Agrees host (s.perform host (.modify providerId rounds)) all' := by
  obtain ⟨kept, none⟩ | ⟨next, credential, id, readable, valid, stored⟩ :=
    agrees.held.modify_cases providerId rounds
  · refine ⟨all, ?_⟩
    have unchanged : s.perform host (.modify providerId rounds) = s := by
      cases result : Auth.modify host s.file providerId (rounds.map (·.val)) with
      | mk file outcome =>
          rw [result] at kept none
          simp only [StoreState.perform, result]
          obtain rfl : file = s.file := kept
          rfl
    rw [unchanged]
    exact agrees
  · refine ⟨JsonText.insert providerId credential all, ?_⟩
    have changed : s.perform host (.modify providerId rounds) =
        ⟨publish host (JsonText.insert providerId credential all),
          .modified providerId credential :: s.history⟩ := by
      simp only [StoreState.perform, stored]
    rw [changed]
    refine ⟨agrees.held.insert id readable valid, fun other => ?_⟩
    rw [lookup_insert, agrees.same]
    rfl

theorem Agrees.delete (agrees : Agrees host s all) (providerId : String) :
    ∃ all', Agrees host (s.perform host (.delete providerId)) all' := by
  by_cases id : providerIdPattern.test providerId = true
  · have accepted : validateProviderId providerId = .ok () := by
      rw [validateProviderId, id, require_true]
    by_cases present : hasProperty all providerId = true
    · have changed : s.perform host (.delete providerId) =
          ⟨publish host (all.filter fun entry => entry.1 ≠ providerId),
            .deleted providerId :: s.history⟩ := by
        simp only [StoreState.perform, Auth.delete, accepted, agrees.held.readAll, if_pos present]
      rw [changed]
      refine ⟨_, agrees.held.remove providerId, fun other => ?_⟩
      rw [lookup_filter, agrees.same]
      rfl
    · have changed : s.perform host (.delete providerId) =
          ⟨s.file, .deleted providerId :: s.history⟩ := by
        simp only [StoreState.perform, Auth.delete, accepted, agrees.held.readAll, if_neg present]
      rw [changed]
      refine ⟨all, agrees.held, fun other => ?_⟩
      -- The id had nothing of its own, so there is nothing to take away.
      have absent : Json.lookup providerId all = none := by
        rw [hasProperty, Bool.or_eq_true, not_or] at present
        exact Option.not_isSome_iff_eq_none.mp present.1
      show _ = if providerId = other then none else credentialAfter other s.history
      split_ifs with same
      · rw [← same, absent]
      · exact agrees.same other
  · have refused : s.perform host (.delete providerId) = s := by
      simp only [StoreState.perform, Auth.delete, validateProviderId, Bool.eq_false_iff.mpr id,
        require_false]
    rw [refused]
    exact ⟨all, agrees⟩

theorem agrees_run (host : StoreHost) (operations : List (StoreOperation host)) :
    ∃ all, Agrees host (StoreState.run host operations) all := by
  induction operations using List.reverseRecOn with
  | nil => exact ⟨[], agrees_initial⟩
  | append_singleton before operation ih =>
      obtain ⟨all, agrees⟩ := ih
      rw [StoreState.run, List.foldl_append]
      cases operation with
      | modify providerId rounds => exact agrees.modify providerId rounds
      | delete providerId => exact agrees.delete providerId

theorem Held.read {file : StoredFile} (held : Held host file all)
    (id : providerIdPattern.test providerId = true) :
    read host file providerId = .ok (property all providerId) := by
  rw [Auth.read, validateProviderId, id, require_true, held.readAll]
  rfl

/-- Two files that hold the same under an id are read the same. -/
theorem Held.read_congr {file file' : StoredFile} {all' : CredentialFile}
    (held : Held host file all) (held' : Held host file' all')
    (same : Json.lookup providerId all' = Json.lookup providerId all) :
    Auth.read host file' providerId = Auth.read host file providerId := by
  have found : property all' providerId = property all providerId := by
    rw [property, property, same]
  rw [Auth.read, Auth.read, held.readAll, held'.readAll]
  cases validateProviderId providerId with
  | error error => rfl
  | ok accepted => exact congrArg Except.ok found

theorem Held.read_modify {file : StoredFile} {other : String} (held : Held host file all)
    (apart : other ≠ providerId) (rounds : List (DataCallback host)) :
    Auth.read host (Auth.modify host file other (rounds.map (·.val))).1 providerId =
      Auth.read host file providerId := by
  obtain ⟨kept, -⟩ | ⟨next, credential, id, readable, valid, stored⟩ :=
    held.modify_cases other rounds
  · rw [kept]
  · rw [stored]
    refine held.read_congr (held.insert id readable valid) ?_
    rw [lookup_insert, if_neg apart]

theorem Held.read_delete {file : StoredFile} {other : String} (held : Held host file all)
    (apart : other ≠ providerId) :
    Auth.read host (Auth.delete host file other).1 providerId =
      Auth.read host file providerId := by
  unfold Auth.delete
  split
  · rfl
  · rw [held.readAll]
    dsimp only
    split_ifs with present
    · refine held.read_congr (held.remove other) ?_
      rw [lookup_filter, if_neg apart]
    · rfl

theorem Held.list {file : StoredFile} (held : Held host file all) :
    Auth.list host file = .ok (all.map fun (providerId, credential) => (providerId,
      match credential with
      | .obj fields => Json.lookup "type" fields
      | _ => none)) := by
  rw [Auth.list, held.readAll]
  rfl

/-- In every state of every run the store agrees with the map about an id exactly when the id is
no inherited name or has a credential. -/
theorem refinesMap_iff (host : StoreHost) (operations : List (StoreOperation host))
    (providerId : String) :
    RefinesMap host (StoreState.run host operations) providerId ↔
      (providerIdPattern.test providerId = true → providerId ∈ inheritedNames →
        ((StoreState.run host operations).credential providerId).isSome) := by
  obtain ⟨all, agrees⟩ := agrees_run host operations
  generalize StoreState.run host operations = s at agrees
  constructor
  · intro refines id inherited
    have found := refines.reads id
    rw [agrees.held.read id] at found
    rw [← agrees.same]
    cases stored : Json.lookup providerId all with
    | some credential => rfl
    | none =>
        rw [property, ← agrees.same, stored, if_pos inherited] at found
        cases found
  · intro own
    refine ⟨fun id => ?_, ?_, ?_, ?_, fun rounds nothing =>
      modify_unchanged host s.file providerId nothing⟩
    · rw [agrees.held.read id, property, agrees.same]
      cases stored : s.credential providerId with
      | some credential => rfl
      | none =>
          rw [if_neg]
          intro inherited
          have found := own id inherited
          rw [stored] at found
          cases found
    · refine ⟨_, agrees.held.list, ?_, ?_⟩
      · rw [List.map_map]
        exact agrees.held.distinct
      · rw [List.map_map, ← agrees.same, ← mem_keys_iff]
        rfl
    · refine ⟨all.map (·.1), agrees.held.storedProviderIds, agrees.held.distinct, ?_⟩
      rw [mem_keys_iff, agrees.same]
    · intro other apart
      exact ⟨agrees.held.read_modify apart, agrees.held.read_delete apart⟩

/-- The store in its default place. -/
def userStore : StoreHost := ⟨"/home/user/.config/ad-coder/credentials.json",
  "/proc/self/fd/3/credentials.json.lock", decimalFormat⟩

/-- An empty store is read as having what every plain object inherits under `constructor`. -/
theorem refinesMap_refuted :
    ¬RefinesMap userStore (StoreState.run userStore []) "constructor" := by
  intro refines
  have accepted : providerIdPattern.test "constructor" = true := by decide +kernel
  have found := refines.reads accepted
  rw [read, validateProviderId, accepted, require_true] at found
  cases found

end Runs

end AdCoder.Auth
