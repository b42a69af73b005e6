import AdCoder.ProjectOperations.GitHubBacklog

/-!
# Two backlog stores, one protocol

A backlog is, for its callers, a map from ids to items. Both stores refine this
abstract backlog: every call decides on the item under its id and replaces it.
-/

namespace AdCoder.ProjectOperations

open Foundation

/-! ## The abstract backlog -/

/-- The items under their ids. -/
abbrev BacklogItems := String → Option BacklogItem

namespace BacklogItems

/-- The item that a call writes, if it is accepted. -/
def accept (leaseMs : Nat) (items : BacklogItems) (timed : TimedCall) : Option BacklogItem := do
  let _ ← (validateClaim timed.call.input).toOption
  let current ← items timed.id
  (timed.call.decide leaseMs timed.id timed.time current).toOption

def service (leaseMs : Nat) : Service TimedCall BacklogAnswer BacklogItems :=
  fun items timed =>
    match accept leaseMs items timed with
    | none => (none, items)
    | some item => (some (item.status, item.claim), Function.update items timed.id (some item))

/-- Every item is held under its own id. -/
def Keyed (items : BacklogItems) : Prop :=
  ∀ id item, items id = some item → item.id = id

variable {leaseMs : Nat} {items : BacklogItems} {timed : TimedCall} {item : BacklogItem}

theorem toOption_eq_some {ε α : Type} {x : Except ε α} {a : α} :
    x.toOption = some a ↔ x = .ok a := by
  cases x with
  | error e => simp [Except.toOption]
  | ok b => simp [Except.toOption]

theorem accept_eq_some : items.accept leaseMs timed = some item ↔
    ∃ current, (∃ input, validateClaim timed.call.input = .ok input) ∧
      items timed.id = some current ∧
      timed.call.decide leaseMs timed.id timed.time current = .ok item := by
  simp only [accept, Option.bind_eq_bind, Option.bind_eq_some_iff, toOption_eq_some]
  constructor
  · rintro ⟨input, valid, current, held, decided⟩
    exact ⟨current, ⟨input, valid⟩, held, decided⟩
  · rintro ⟨current, ⟨input, valid⟩, held, decided⟩
    exact ⟨input, valid, current, held, decided⟩

theorem Keyed.update (h : items.Keyed) (own : item.id = timed.id) :
    Keyed (Function.update items timed.id (some item)) := by
  intro id held hheld
  rw [Function.update_apply] at hheld
  split_ifs at hheld with heq
  · obtain rfl := Option.some.inj hheld
    rw [own, heq]
  · exact h id held hheld

/-- A call writes an item under its own id. -/
theorem Keyed.accept_id (h : items.Keyed) (accepted : items.accept leaseMs timed = some item) :
    item.id = timed.id := by
  obtain ⟨current, _, held, decided⟩ := accept_eq_some.mp accepted
  rw [(BacklogCall.decide_frame decided).1]
  exact h _ _ held

end BacklogItems

/-! ## The file store -/

section Files

variable {format : StateFormat} {leaseMs : Nat}

/-- The items that `get` finds in the files. -/
def fileItems (format : StateFormat) (files : VersionedFiles String BacklogItem) : BacklogItems :=
  fun id => (FileBacklogStore.get format files id).toOption.map (·.value)

theorem fileItems_eq_some (h : format.limit = 0) {files : VersionedFiles String BacklogItem}
    {id : String} {item : BacklogItem} :
    fileItems format files id = some item ↔
      ∃ held, idPattern.test id = true ∧ files id = some held ∧ held.value = item := by
  simp only [fileItems, Option.map_eq_some_iff, BacklogItems.toOption_eq_some,
    FileBacklogStore.get_unlimited h, and_assoc]

/-- The file store refines the abstract backlog. -/
theorem fileBacklog_simulates (leaseMs : Nat) (h : format.limit = 0) :
    Service.Simulates (FileBacklogStore.service format leaseMs) (BacklogItems.service leaseMs)
      fun files items => fileItems format files = items ∧ items.Keyed := by
  rintro files items timed ⟨rfl, keyed⟩
  cases accepted : (fileItems format files).accept leaseMs timed with
  | none =>
      have refused : ∀ written, FileBacklogStore.perform format leaseMs files timed ≠
          .ok written := by
        intro written performed
        obtain ⟨held, item, next, valid, safe, stored, decided, _⟩ :=
          (FileBacklogStore.perform_unlimited h).mp performed
        have : (fileItems format files).accept leaseMs timed = some item :=
          BacklogItems.accept_eq_some.mpr ⟨held.value, valid,
            (fileItems_eq_some h).mpr ⟨held, safe, stored, rfl⟩, decided⟩
        simp [accepted] at this
      simp only [BacklogItems.service, accepted, FileBacklogStore.service]
      split
      · next performed => exact absurd performed (refused _)
      · exact ⟨rfl, rfl, keyed⟩
  | some item =>
      obtain ⟨current, valid, hcurrent, decided⟩ := BacklogItems.accept_eq_some.mp accepted
      obtain ⟨held, safe, stored, rfl⟩ := (fileItems_eq_some h).mp hcurrent
      have own := keyed.accept_id accepted
      have swapped : files.swap item.id held.version item =
          some (Function.update files item.id (some ⟨held.version + 1, item⟩)) := by
        rw [VersionedFiles.swap, if_pos]
        rw [own]
        exact VersionedFiles.version_eq stored
      have performed := (FileBacklogStore.perform_unlimited h).mpr
        ⟨held, item, _, valid, safe, stored, decided, swapped, rfl⟩
      simp only [BacklogItems.service, accepted, FileBacklogStore.service, performed]
      refine ⟨trivial, ?_, keyed.update own⟩
      funext id
      rw [Function.update_apply]
      split_ifs with heq
      · subst heq
        refine (fileItems_eq_some h).mpr ⟨⟨held.version + 1, item⟩, safe, ?_, rfl⟩
        rw [own, Function.update_self]
      · simp only [fileItems, FileBacklogStore.get, readVersionedJson]
        rw [Function.update_of_ne (by rw [own]; exact heq)]

end Files

/-! ## The GitHub store -/

section GitHub

variable {σ : Type} {format : StateFormat} {executor : GitHubExecutor σ} {config : GitHubConfig}
  {issues : σ → String → Option GitHubIssue}

/-- The items that `get` finds on GitHub. -/
def gitHubItems (format : StateFormat) (executor : GitHubExecutor σ) (config : GitHubConfig)
    (remote : σ) : BacklogItems :=
  fun id => (GitHubBacklogStore.get format executor config remote id).1.toOption.map (·.value)

/-- No change of an issue was left unfinished. -/
def Idle (locks : VersionedFiles String CoordinationLock) : Prop :=
  ∀ id held, locks id = some held → held.value.pending = false

theorem mutation_eq_decide (id : String) (call : BacklogCall) (time : Nat) :
    GitHubBacklogStore.mutation config id call time = call.decide config.leaseMs id time := by
  funext current
  have moved (state : BacklogState) (input : ClaimInput) :
      GitHubBacklogStore.transition id state input time current =
        transitionItem id state input time current := by
    have table : gitHubAllowed current.status = current.status.transitions := by
      cases current.status <;> rfl
    simp only [GitHubBacklogStore.transition, transitionItem, table]
    cases state <;> rfl
  cases call with
  | claim input => rfl
  | renew input => rfl
  | release input => exact moved .queued input
  | transition state input => exact moved state input

theorem validateGitHubClaim_eq_ok {input : ClaimInput} {u : Unit} :
    validateGitHubClaim input = .ok u ↔ ∃ checked, validateClaim input = .ok checked := by
  simp only [validateGitHubClaim, validateClaim, require_eq_ok, require_bind_eq_ok, pure_eq_ok,
    Bool.and_eq_true, and_assoc]
  constructor
  · rintro ⟨owner, runId, branch⟩
    exact ⟨input, owner, runId, branch, rfl⟩
  · rintro ⟨checked, owner, runId, branch, _⟩
    exact ⟨owner, runId, branch⟩

/-! ### Issues -/

/-- A decoded candidate is one that reads back as it was decoded. -/
theorem state_candidate {issue : GitHubIssue} {current : VersionedState BacklogItem}
    (h : GitHubBacklogStore.state format config issue = .ok current) :
    validateFollowUp format.showNumber 0 current.value.candidate.toJson =
        .ok (.backlog current.value.candidate) ∧
      projectBacklogFollowUp current.value.candidate = current.value.candidate ∧
      current.value.id = toString issue.number := by
  simp only [GitHubBacklogStore.state] at h
  split at h
  · cases h
  · next body _ =>
      split at h
      · cases h
      · split_ifs at h
        split at h
        · next candidate valid =>
            obtain rfl := Except.ok.inj h
            exact ⟨validateFollowUp_again valid, projectBacklogFollowUp_idem _, rfl⟩
        · cases h
        · cases h

/-- The label of a status is found among the two labels of a patched issue. -/
theorem find_status (injective : Function.Injective config.labels)
    (distinct : ∀ state, config.labels state ≠ config.managedLabel) {labels : List String}
    {status : BacklogState}
    (sent : ∀ label, label ∈ labels ↔ label ∈ [config.labels status, config.managedLabel]) :
    BacklogState.all.find? (fun key => labels.contains (config.labels key)) = some status := by
  have only (key : BacklogState) : labels.contains (config.labels key) = decide (key = status) := by
    rw [Bool.eq_iff_iff, List.contains_iff_mem, sent, decide_eq_true_eq]
    simp [distinct key, injective.eq_iff]
  simp only [only]
  cases status <;> rfl

/-- A patched issue decodes to the item that was sent. -/
theorem state_patched (format : StateFormat) (injective : Function.Injective config.labels)
    (distinct : ∀ state, config.labels state ≠ config.managedLabel) {issue : GitHubIssue}
    {revision : Nat} {item : BacklogItem}
    (body : issue.body = some ⟨1, revision, item.candidate.toJson, item.claim, item.createdAt,
      item.updatedAt⟩)
    (sent : ∀ label, label ∈ issue.labels ↔
      label ∈ [config.labels item.status, config.managedLabel])
    (own : item.id = toString issue.number)
    (valid : validateFollowUp format.showNumber 0 item.candidate.toJson =
      .ok (.backlog item.candidate))
    (projected : projectBacklogFollowUp item.candidate = item.candidate) :
    GitHubBacklogStore.state format config issue = .ok ⟨revision, item⟩ := by
  simp only [GitHubBacklogStore.state, body, find_status injective distinct sent, valid, projected,
    ← own]
  rfl

section Faithful

variable (faithful : executor.Faithful config.repository issues)
include faithful

theorem get_eq_ok {remote : σ} {id : String} {current : VersionedState BacklogItem} :
    (GitHubBacklogStore.get format executor config remote id).1 = .ok current ↔
      issueNumber.test id = true ∧ ∃ issue, issues remote id = some issue ∧
        GitHubBacklogStore.state format config issue = .ok current := by
  have viewed := faithful.viewed remote id
  simp only [GitHubBacklogStore.get, GitHubBacklogStore.read]
  split_ifs with number
  · simp only [GitHubBacklogStore.runJson, ← viewed]
    cases (executor.execute remote (.issue config.repository id)).1 with
    | error detail => simp [Except.mapError, Except.bind, Except.toOption, number]
    | ok issue => simp [Except.mapError, Except.bind, Except.toOption, number]
  · simp [Except.bind, number]

theorem get_keeps (format : StateFormat) (remote : σ) (id : String) :
    issues (GitHubBacklogStore.get format executor config remote id).2 = issues remote := by
  simp only [GitHubBacklogStore.get, GitHubBacklogStore.read]
  split_ifs
  · exact faithful.view_keeps remote id
  · rfl

theorem gitHubItems_eq_some {remote : σ} {id : String} {item : BacklogItem} :
    gitHubItems format executor config remote id = some item ↔
      issueNumber.test id = true ∧ ∃ issue version, issues remote id = some issue ∧
        GitHubBacklogStore.state format config issue = .ok ⟨version, item⟩ := by
  simp only [gitHubItems, Option.map_eq_some_iff, BacklogItems.toOption_eq_some,
    get_eq_ok faithful]
  constructor
  · rintro ⟨current, ⟨number, issue, held, decoded⟩, rfl⟩
    exact ⟨number, issue, current.version, held, decoded⟩
  · rintro ⟨number, issue, version, held, decoded⟩
    exact ⟨⟨version, item⟩, ⟨number, issue, held, decoded⟩, rfl⟩

/-- The items depend on the issues alone. -/
theorem gitHubItems_congr {remote next : σ} {id : String}
    (same : issues next id = issues remote id) :
    gitHubItems format executor config next id = gitHubItems format executor config remote id := by
  apply Option.ext
  intro item
  simp only [gitHubItems_eq_some faithful, same]

theorem gitHubItems_keyed (format : StateFormat) (remote : σ) : (gitHubItems format executor config remote).Keyed := by
  intro id item held
  obtain ⟨number, issue, version, shown, decoded⟩ := (gitHubItems_eq_some faithful).mp held
  exact (state_candidate decoded).2.2.trans (faithful.numbered remote id issue number shown)

/-- A change that is refused leaves every issue as it is. -/
theorem changeIssue_refused (format : StateFormat)
    (mutate : BacklogItem → Except ProjectOperationsError BacklogItem) (remote : σ) (id : String)
    (refused : ∀ current item,
      (GitHubBacklogStore.get format executor config remote id).1 = .ok current →
        mutate current.value ≠ .ok item) :
    (∃ error, (GitHubBacklogStore.changeIssue format executor config remote id mutate).1 =
      .error error) ∧
    issues (GitHubBacklogStore.changeIssue format executor config remote id mutate).2 =
      issues remote := by
  have keeps := get_keeps faithful format remote id
  simp only [GitHubBacklogStore.changeIssue]
  cases found : (GitHubBacklogStore.get format executor config remote id).1 with
  | error error => exact ⟨⟨error, rfl⟩, keeps⟩
  | ok current =>
      cases decided : mutate current.value with
      | error error => exact ⟨⟨.operations error, by simp [decided]⟩, by simpa [decided] using keeps⟩
      | ok item => exact absurd decided (refused current item found)

/-- A change that is accepted replaces one item. -/
theorem changeIssue_accepted (format : StateFormat) (injective : Function.Injective config.labels)
    (distinct : ∀ state, config.labels state ≠ config.managedLabel) {remote : σ} {id : String}
    {mutate : BacklogItem → Except ProjectOperationsError BacklogItem}
    {current : VersionedState BacklogItem} {item : BacklogItem}
    (found : (GitHubBacklogStore.get format executor config remote id).1 = .ok current)
    (decided : mutate current.value = .ok item)
    (frame : item.id = current.value.id ∧ item.candidate = current.value.candidate) :
    (GitHubBacklogStore.changeIssue format executor config remote id mutate).1 =
      .ok ⟨current.version + 1, item⟩ ∧
    gitHubItems format executor config
        (GitHubBacklogStore.changeIssue format executor config remote id mutate).2 =
      Function.update (gitHubItems format executor config remote) id (some item) := by
  obtain ⟨number, issue, shown, decoded⟩ := (get_eq_ok faithful).mp found
  have keeps := get_keeps faithful format remote id
  obtain ⟨valid, projected, own⟩ := state_candidate decoded
  rw [← frame.2] at valid projected
  rw [← frame.1] at own
  obtain ⟨patched, response, body, sent, after⟩ := faithful.patched
    (GitHubBacklogStore.get format executor config remote id).2 id
    ⟨1, current.version + 1, item.candidate.toJson, item.claim, item.createdAt, item.updatedAt⟩
    [config.labels item.status, config.managedLabel]
    (if item.status = .done then some "closed" else none) issue (by rw [keeps]; exact shown)
  have numbered : item.id = toString patched.number := by
    have shownAfter := congrFun after id
    rw [Function.update_self] at shownAfter
    rw [own, faithful.numbered _ id issue number shown,
      faithful.numbered _ id patched number shownAfter]
  have decodedAfter := state_patched format injective distinct body sent numbered
    valid projected
  have remoteAfter : (GitHubBacklogStore.changeIssue format executor config remote id mutate).2 =
      (executor.execute (GitHubBacklogStore.get format executor config remote id).2
        (.patch config.repository id ⟨1, current.version + 1, item.candidate.toJson, item.claim,
          item.createdAt, item.updatedAt⟩ [config.labels item.status, config.managedLabel]
          (if item.status = .done then some "closed" else none))).2 := by
    simp only [GitHubBacklogStore.changeIssue, found, decided, GitHubBacklogStore.runJson]
  constructor
  · simp only [GitHubBacklogStore.changeIssue, found, decided, GitHubBacklogStore.runJson,
      response, Except.mapError, Except.bind, decodedAfter]
  · rw [← remoteAfter] at after
    funext other
    rw [Function.update_apply]
    split_ifs with heq
    · subst heq
      refine (gitHubItems_eq_some faithful).mpr
        ⟨number, patched, current.version + 1, ?_, decodedAfter⟩
      rw [after, Function.update_self]
    · apply gitHubItems_congr faithful
      rw [after, Function.update_of_ne heq, keeps]

end Faithful

/-! ### Locks -/

section Locks

variable {locks : VersionedFiles String CoordinationLock}

theorem acquireMutation_idle (config : GitHubConfig) (h : format.limit = 0) (idle : Idle locks) (id : String) (now : Nat) :
    ∃ version, GitHubBacklogStore.acquireMutation format config locks id now =
      .ok (version, Function.update locks id (some ⟨version, ⟨true, now⟩⟩)) := by
  have swap : locks.swap id (locks.version id) ⟨true, now⟩ =
      some (Function.update locks id (some ⟨locks.version id + 1, ⟨true, now⟩⟩)) := by
    rw [VersionedFiles.swap, if_pos rfl]
  refine ⟨locks.version id + 1, ?_⟩
  simp only [GitHubBacklogStore.acquireMutation, readVersionedJson_unlimited h,
    writeVersionedJson_unlimited h]
  cases hlock : locks id with
  | none =>
      have version : locks.version id = 0 := by simp [VersionedFiles.version, hlock]
      rw [version] at swap
      simp [bind, Except.bind, swap, version]
  | some held =>
      have version := VersionedFiles.version_eq hlock
      rw [version] at swap
      simp [bind, Except.bind, idle id held hlock, swap, version]

theorem idle_release (h : format.limit = 0) (idle : Idle locks) (id : String) (version : Nat)
    (held : CoordinationLock) :
    ∃ released, writeVersionedJson format CoordinationLock.toJson
        (Function.update locks id (some ⟨version, held⟩)) id version ⟨false, 0⟩ =
          .ok (⟨version + 1, ⟨false, 0⟩⟩, released) ∧ Idle released := by
  have current : VersionedFiles.version (Function.update locks id (some ⟨version, held⟩)) id =
      version := by
    simp [VersionedFiles.version]
  refine ⟨Function.update (Function.update locks id (some ⟨version, held⟩)) id
    (some ⟨version + 1, ⟨false, 0⟩⟩), ?_, ?_⟩
  · rw [writeVersionedJson_unlimited h, VersionedFiles.swap, if_pos current]
  · intro other lock hlock
    rw [Function.update_apply, Function.update_apply] at hlock
    split_ifs at hlock
    · obtain rfl := Option.some.inj hlock
      rfl
    · exact idle other lock hlock

/-- With idle locks an update is the change of the issue, and the locks are idle
after it. -/
theorem update_idle (executor : GitHubExecutor σ) (config : GitHubConfig) (h : format.limit = 0) {world : GitHubWorld σ} (idle : Idle world.locks)
    (id : String) (lockTime : Nat)
    (mutate : BacklogItem → Except ProjectOperationsError BacklogItem) :
    ∃ released, Idle released ∧
      GitHubBacklogStore.update format executor config world id lockTime mutate =
        ((GitHubBacklogStore.changeIssue format executor config world.remote id mutate).1,
          ⟨(GitHubBacklogStore.changeIssue format executor config world.remote id mutate).2,
            released⟩) := by
  obtain ⟨version, acquired⟩ :=
    acquireMutation_idle config h idle id lockTime
  obtain ⟨released, release, idleAfter⟩ := idle_release h idle id version ⟨true, lockTime⟩
  refine ⟨released, idleAfter, ?_⟩
  simp only [GitHubBacklogStore.update, acquired, release]

end Locks

/-- The GitHub store refines the abstract backlog. -/
theorem gitHubBacklog_simulates (h : format.limit = 0)
    (faithful : executor.Faithful config.repository issues)
    (injective : Function.Injective config.labels)
    (distinct : ∀ state, config.labels state ≠ config.managedLabel) :
    Service.Simulates (GitHubBacklogStore.service format executor config)
      (BacklogItems.service config.leaseMs)
      fun world items => gitHubItems format executor config world.remote = items ∧
        Idle world.locks := by
  rintro world items timed ⟨rfl, idle⟩
  simp only [GitHubBacklogStore.service, GitHubBacklogStore.perform]
  cases valid : validateGitHubClaim timed.call.input with
  | error error =>
      have refused : (gitHubItems format executor config world.remote).accept config.leaseMs
          timed = none := by
        rw [Option.eq_none_iff_forall_ne_some]
        intro item accepted
        obtain ⟨_, checked, _⟩ := BacklogItems.accept_eq_some.mp accepted
        have := validateGitHubClaim_eq_ok (u := ()).mpr checked
        simp [valid] at this
      simp only [BacklogItems.service, refused, backlogAnswer]
      exact ⟨trivial, trivial, idle⟩
  | ok checked =>
      obtain ⟨released, idleAfter, updated⟩ := update_idle executor config h
        idle timed.id timed.lockTime
        (GitHubBacklogStore.mutation config timed.id timed.call timed.time)
      rw [mutation_eq_decide] at updated
      simp only [mutation_eq_decide, updated]
      cases accepted : (gitHubItems format executor config world.remote).accept config.leaseMs
          timed with
      | none =>
          obtain ⟨⟨error, answer⟩, keeps⟩ := changeIssue_refused faithful format
            (timed.call.decide config.leaseMs timed.id timed.time) world.remote timed.id (by
              intro current item found decided
              have held : gitHubItems format executor config world.remote timed.id =
                  some current.value :=
                Option.map_eq_some_iff.mpr
                  ⟨current, BacklogItems.toOption_eq_some.mpr found, rfl⟩
              have := BacklogItems.accept_eq_some.mpr
                ⟨current.value, validateGitHubClaim_eq_ok.mp valid, held, decided⟩
              simp [accepted] at this)
          simp only [BacklogItems.service, accepted, answer, backlogAnswer]
          refine ⟨trivial, ?_, idleAfter⟩
          funext id
          exact gitHubItems_congr faithful (congrFun keeps id)
      | some item =>
          obtain ⟨current, _, held, decided⟩ := BacklogItems.accept_eq_some.mp accepted
          obtain ⟨found, hfound, rfl⟩ := Option.map_eq_some_iff.mp held
          obtain ⟨answer, after⟩ := changeIssue_accepted faithful format injective
            distinct (BacklogItems.toOption_eq_some.mp hfound) decided
            (BacklogCall.decide_frame decided)
          simp only [BacklogItems.service, accepted, answer, backlogAnswer]
          exact ⟨trivial, after, idleAfter⟩

end GitHub

/-! ## Agreement -/

/-- Two stores that start from the same items give every sequence of calls the
same answers, and hold the same items after it. -/
theorem backlogs_agree {σ : Type} {format : StateFormat} {executor : GitHubExecutor σ}
    {config : GitHubConfig} {issues : σ → String → Option GitHubIssue}
    (unlimited : format.limit = 0) (faithful : executor.Faithful config.repository issues)
    (injective : Function.Injective config.labels)
    (distinct : ∀ state, config.labels state ≠ config.managedLabel)
    {files : VersionedFiles String BacklogItem} {world : GitHubWorld σ} (idle : Idle world.locks)
    (same : fileItems format files = gitHubItems format executor config world.remote)
    (calls : List TimedCall) :
    (FileBacklogStore.service format config.leaseMs).answers files calls =
        (GitHubBacklogStore.service format executor config).answers world calls ∧
      fileItems format ((FileBacklogStore.service format config.leaseMs).final files calls) =
        gitHubItems format executor config
          ((GitHubBacklogStore.service format executor config).final world calls).remote := by
  have keyed := gitHubItems_keyed faithful format world.remote
  have file := fileBacklog_simulates config.leaseMs unlimited
  obtain ⟨fileAnswers, fileFinal, _⟩ := file.run ⟨same, keyed⟩ calls
  obtain ⟨gitHubAnswers, gitHubFinal, _⟩ :=
    (gitHubBacklog_simulates unlimited faithful injective distinct).run ⟨rfl, idle⟩ calls
  constructor
  · rw [fileAnswers, gitHubAnswers]
  · rw [fileFinal, gitHubFinal]

/-! ## One issue -/

def hasNumber (id : String) (issue : GitHubIssue) : Bool := toString issue.number = id

/-- A repository as the list of its issues. -/
def issueList : GitHubExecutor (List GitHubIssue) where
  execute remote
    | .issue _ id =>
        match remote.find? (hasNumber id) with
        | none => (.error "command failed", remote)
        | some issue => (.ok issue, remote)
    | .patch _ id body labels _ =>
        let patch (issue : GitHubIssue) : GitHubIssue :=
          if hasNumber id issue then ⟨issue.number, some body, labels⟩ else issue
        match remote.find? (hasNumber id) with
        | none => (.error "command failed", remote)
        | some issue => (.ok (patch issue), remote.map patch)

theorem issueList_faithful (repository : String) :
    issueList.Faithful repository fun remote id => remote.find? (hasNumber id) := by
  constructor
  · intro remote id
    simp only [issueList]
    cases remote.find? (hasNumber id) <;> rfl
  · intro remote id
    simp only [issueList]
    cases remote.find? (hasNumber id) <;> rfl
  · intro remote id issue _ found
    simpa [hasNumber] using List.find?_some found
  · intro remote id body labels state old found
    have number := List.find?_some found
    refine ⟨⟨old.number, some body, labels⟩, ?_, rfl, fun label => Iff.rfl, ?_⟩
    · simp only [issueList, found, number, if_true]
    · funext other
      simp only [issueList, found, List.find?_map, Function.update_apply]
      have keeps : (hasNumber other ∘ fun issue : GitHubIssue =>
          if hasNumber id issue then ⟨issue.number, some body, labels⟩ else issue) =
          hasNumber other := by
        funext issue
        simp only [Function.comp]
        split_ifs <;> rfl
      rw [keeps]
      split_ifs with heq
      · subst heq
        simp [found, number]
      · cases held : remote.find? (hasNumber other) with
        | none => rfl
        | some issue =>
            have own := List.find?_some held
            have different : hasNumber id issue = false := by
              simp only [hasNumber, decide_eq_true_eq, decide_eq_false_iff_not] at own ⊢
              rw [own]
              exact heq
            simp [different]

def queuedItem : BacklogItem :=
  createdItem "1" ⟨"t", [⟨"s", none, none, none⟩], [⟨"run", "run-1", none⟩], none⟩ 0

def oneFile : VersionedFiles String BacklogItem :=
  Function.update (fun _ => none) "1" (some ⟨1, queuedItem⟩)

def oneIssue : List GitHubIssue := [⟨1, some ⟨1, 1, queuedItem.candidate.toJson, none, 0, 0⟩,
  ["ad-coder:queued", "ad-coder:managed"]⟩]

def withManagedLabel (managed : String) : GitHubConfig := ⟨"o/r", defaultLabels, managed, 10⟩

/-- State files with a byte limit; the numbers here are whole. -/
def withLimit (limit : Nat) : StateFormat where
  limit := limit
  showNumber
    | .finite q => toString q.num
    | _ => "null"

theorem oneFile_same {format : StateFormat} {config : GitHubConfig}
    (same : fileItems format oneFile "1" = gitHubItems format issueList config oneIssue "1") :
    fileItems format oneFile = gitHubItems format issueList config oneIssue := by
  funext id
  by_cases h : id = "1"
  · rw [h, same]
  · have noFile : fileItems format oneFile id = none := by
      simp only [fileItems, FileBacklogStore.get, readVersionedJson, oneFile,
        Function.update_of_ne h]
      cases idPattern.test id <;> rfl
    have noIssue : gitHubItems format issueList config oneIssue id = none := by
      rw [Option.eq_none_iff_forall_ne_some]
      intro item held
      obtain ⟨_, issue, _, found, _⟩ :=
        (gitHubItems_eq_some (issueList_faithful config.repository)).mp held
      have number : issue.number = 1 := by
        have := List.mem_of_find?_eq_some found
        rw [oneIssue, List.mem_singleton] at this
        rw [this]
      have own := List.find?_some found
      simp only [hasNumber, number, decide_eq_true_eq] at own
      exact h own.symm
    rw [noFile, noIssue]

def oneClaim : List TimedCall := [⟨"1", .claim ⟨"ada", "run-1", "feature/a"⟩, 5, 6⟩]

/-- From the same item and over a faithful executor with injective labels, the
two stores answer a claim differently. -/
def Disagree (format : StateFormat) (managed : String)
    (locks : VersionedFiles String CoordinationLock) : Prop :=
  let config := withManagedLabel managed
  issueList.Faithful config.repository (fun remote id => remote.find? (hasNumber id)) ∧
    Function.Injective config.labels ∧
    fileItems format oneFile = gitHubItems format issueList config oneIssue ∧
    (FileBacklogStore.service format config.leaseMs).answers oneFile oneClaim ≠
      (GitHubBacklogStore.service format issueList config).answers ⟨oneIssue, locks⟩ oneClaim

theorem defaultLabels_injective : Function.Injective defaultLabels := by
  intro left right h
  cases left <;> cases right <;> first | rfl | exact absurd h (by decide)

/-- The stores disagree when the managed label is also a status label, which the
constructor accepts, when a state file would exceed its limit, and when a dead
worker left a lock behind. -/
theorem backlogs_agree_refuted :
    gitHubConfig (some "o/r") (fun _ => none) (some "ad-coder:queued") (some 10) =
        .ok (withManagedLabel "ad-coder:queued") ∧
      Disagree (withLimit 0) "ad-coder:queued" (fun _ => none) ∧
      Disagree (withLimit 242) "ad-coder:managed" (fun _ => none) ∧
      Disagree (withLimit 0) "ad-coder:managed"
        (Function.update (fun _ => none) "1" (some ⟨1, ⟨true, 0⟩⟩)) := by
  refine ⟨?_, ⟨issueList_faithful _, defaultLabels_injective, oneFile_same ?_, ?_⟩,
    ⟨issueList_faithful _, defaultLabels_injective, oneFile_same ?_, ?_⟩,
    ⟨issueList_faithful _, defaultLabels_injective, oneFile_same ?_, ?_⟩⟩
  · rfl
  all_goals decide +kernel

/-- A claim, a foreign renewal and a release get the same answers. -/
theorem backlogs_agree_oneClaim :
    (withLimit 0).limit = 0 ∧
      (FileBacklogStore.service (withLimit 0)
          (withManagedLabel "ad-coder:managed").leaseMs).answers oneFile
          (oneClaim ++ [⟨"1", .renew ⟨"bob", "run-2", "feature/b"⟩, 7, 7⟩,
            ⟨"1", .release ⟨"ada", "run-1", "feature/a"⟩, 8, 8⟩]) =
        (GitHubBacklogStore.service (withLimit 0) issueList
          (withManagedLabel "ad-coder:managed")).answers ⟨oneIssue, fun _ => none⟩
          (oneClaim ++ [⟨"1", .renew ⟨"bob", "run-2", "feature/b"⟩, 7, 7⟩,
            ⟨"1", .release ⟨"ada", "run-1", "feature/a"⟩, 8, 8⟩]) := by
  have distinct (state : BacklogState) :
      (withManagedLabel "ad-coder:managed").labels state ≠
        (withManagedLabel "ad-coder:managed").managedLabel := by
    cases state <;> decide
  have idle : Idle fun _ => none := by
    intro id held hheld
    cases hheld
  have same : fileItems (withLimit 0) oneFile =
      gitHubItems (withLimit 0) issueList (withManagedLabel "ad-coder:managed") oneIssue := by
    apply oneFile_same
    decide +kernel
  exact ⟨rfl, (backlogs_agree rfl (issueList_faithful _) defaultLabels_injective distinct
    idle same _).1⟩

end AdCoder.ProjectOperations
