import AdCoder.Foundation.Services
import AdCoder.ProjectOperations.BacklogProtocol

/-!
# The file backlog, one call at a time

A whole call of the file store as its caller sees it while nothing else works on
the files: the three steps of the protocol taken together. State files may have
a byte limit, which is checked when a state is read and when it is written.
-/

namespace AdCoder.ProjectOperations

open Foundation

/-! ## Versioned state files -/

inductive ProjectStoreErrorCode where
  | invalidId
  | notFound
  | resourceLimit
  | versionConflict
  deriving DecidableEq

/-- A failed call: refused by the backlog, or by the store under it. -/
inductive BacklogFailure where
  | operations (error : ProjectOperationsError)
  | store (code : ProjectStoreErrorCode)
  deriving DecidableEq

/-- The byte limit of a state file, zero for none, and how numbers are printed. -/
structure StateFormat where
  limit : Nat
  showNumber : JsNumber → String

section StateFiles

variable {κ : Type*} {α : Type} (format : StateFormat) (encode : α → Json)

/-- The bytes of a state file: one line of JSON. -/
def StateFormat.bytes (state : VersionedState α) : Nat :=
  byteLength (Json.stringify format.showNumber (.obj
    [("version", .num (.finite state.version)), ("value", encode state.value)]) ++ "\n")

def StateFormat.fits (state : VersionedState α) : Bool :=
  format.limit == 0 || format.bytes encode state ≤ format.limit

def readVersionedJson (files : VersionedFiles κ α) (key : κ) :
    Except ProjectStoreErrorCode (VersionedState α) :=
  match files key with
  | none => .error .notFound
  | some held => if format.fits encode held then .ok held else .error .resourceLimit

/-- Write against an expected version: the state written and the files after it. -/
def writeVersionedJson [DecidableEq κ] (files : VersionedFiles κ α) (key : κ) (expected : Nat)
    (value : α) : Except ProjectStoreErrorCode (VersionedState α × VersionedFiles κ α) :=
  match readVersionedJson format encode files key with
  | .error .resourceLimit => .error .resourceLimit
  | _ =>
      match files.swap key expected value with
      | none => .error .versionConflict
      | some next =>
          if format.fits encode (⟨expected + 1, value⟩ : VersionedState α) then
            .ok (⟨expected + 1, value⟩, next)
          else .error .resourceLimit

variable {format encode} {files : VersionedFiles κ α} {key : κ} {expected : Nat} {value : α}

theorem StateFormat.fits_unlimited (h : format.limit = 0) (state : VersionedState α) :
    format.fits encode state = true := by
  simp [StateFormat.fits, h]

theorem readVersionedJson_unlimited (h : format.limit = 0) :
    readVersionedJson format encode files key =
      match files key with
      | none => .error .notFound
      | some held => .ok held := by
  simp only [readVersionedJson, StateFormat.fits_unlimited h, if_true]

/-- Without a limit a write fails on a version conflict only. -/
theorem writeVersionedJson_unlimited [DecidableEq κ] (h : format.limit = 0) :
    writeVersionedJson format encode files key expected value =
      match files.swap key expected value with
      | none => .error .versionConflict
      | some next => .ok (⟨expected + 1, value⟩, next) := by
  simp only [writeVersionedJson, readVersionedJson_unlimited h, StateFormat.fits_unlimited h,
    if_true]
  split
  · next heq =>
      split at heq
      · cases heq
      · cases heq
  · rfl

end StateFiles

/-! ## Items as JSON -/

def ClaimInput.fields (claim : ClaimInput) : List (String × Json) :=
  [("owner", .str claim.owner), ("runId", .str claim.runId), ("branch", .str claim.branch)]

def BacklogClaim.toJson (claim : BacklogClaim) : Json := .obj (claim.toClaimInput.fields ++
  [("claimedAt", .num (.finite claim.claimedAt)),
    ("leaseExpiresAt", .num (.finite claim.leaseExpiresAt))])

def BacklogItem.toJson (item : BacklogItem) : Json := .obj (
  [("id", .str item.id), ("status", .str item.status.text),
    ("candidate", item.candidate.toJson), ("createdAt", .num (.finite item.createdAt)),
    ("updatedAt", .num (.finite item.updatedAt))] ++ member "claim" (item.claim.map (·.toJson)))

/-! ## Calls -/

/-- A call with its readings of the clock: a store with a lock reads it once for
the lock, and every store reads it for the decision. -/
structure TimedCall where
  id : String
  call : BacklogCall
  lockTime : Nat
  time : Nat

/-- What a caller sees of a call: refused, or the status and the claim. -/
abbrev BacklogAnswer := Option (BacklogState × Option BacklogClaim)

def backlogAnswer {ε : Type} : Except ε (VersionedState BacklogItem) → BacklogAnswer
  | .error _ => none
  | .ok state => some (state.value.status, state.value.claim)

namespace FileBacklogStore

variable (format : StateFormat) (leaseMs : Nat)

def get (files : VersionedFiles String BacklogItem) (id : String) :
    Except BacklogFailure (VersionedState BacklogItem) := do
  require (idPattern.test id) (.store .invalidId)
  match readVersionedJson format BacklogItem.toJson files id with
  | .ok held => .ok held
  | .error .notFound => .error (.operations ⟨.notFound, id⟩)
  | .error code => .error (.store code)

def write (files : VersionedFiles String BacklogItem) (current : VersionedState BacklogItem)
    (item : BacklogItem) :
    Except BacklogFailure (VersionedState BacklogItem × VersionedFiles String BacklogItem) :=
  match writeVersionedJson format BacklogItem.toJson files item.id current.version item with
  | .ok written => .ok written
  | .error .versionConflict => .error (.operations ⟨.claimConflict, item.id⟩)
  | .error code => .error (.store code)

/-- A call that succeeds gives the item it wrote and the files after it. -/
def perform (files : VersionedFiles String BacklogItem) (timed : TimedCall) :
    Except BacklogFailure (VersionedState BacklogItem × VersionedFiles String BacklogItem) := do
  let _ ← (validateClaim timed.call.input).mapError .operations
  let current ← get format files timed.id
  let next ← (timed.call.decide leaseMs timed.id timed.time current.value).mapError .operations
  write format files current next

/-- The store as a service; a call that fails leaves the files as they are. -/
def service : Service TimedCall BacklogAnswer (VersionedFiles String BacklogItem) :=
  fun files timed =>
    match perform format leaseMs files timed with
    | .ok (state, next) => (some (state.value.status, state.value.claim), next)
    | .error _ => (none, files)

section Unlimited

variable {format leaseMs} {files : VersionedFiles String BacklogItem} {id : String}
  {held : VersionedState BacklogItem}

theorem get_unlimited (h : format.limit = 0) :
    get format files id = .ok held ↔ idPattern.test id = true ∧ files id = some held := by
  simp only [get, require_bind_eq_ok, readVersionedJson_unlimited h]
  refine and_congr_right fun _ => ?_
  cases files id with
  | none => simp
  | some stored => simp

theorem write_unlimited (h : format.limit = 0) {item : BacklogItem}
    {written : VersionedState BacklogItem × VersionedFiles String BacklogItem} :
    write format files held item = .ok written ↔
      ∃ next, files.swap item.id held.version item = some next ∧
        written = (⟨held.version + 1, item⟩, next) := by
  simp only [write, writeVersionedJson_unlimited h]
  cases files.swap item.id held.version item with
  | none => simp
  | some next => simp [eq_comm]

/-- A call that succeeds read an item, decided on it and wrote over it. -/
theorem perform_unlimited (h : format.limit = 0) {timed : TimedCall}
    {written : VersionedState BacklogItem × VersionedFiles String BacklogItem} :
    perform format leaseMs files timed = .ok written ↔
      ∃ held item next, (∃ input, validateClaim timed.call.input = .ok input) ∧
        idPattern.test timed.id = true ∧ files timed.id = some held ∧
        timed.call.decide leaseMs timed.id timed.time held.value = .ok item ∧
        files.swap item.id held.version item = some next ∧
        written = (⟨held.version + 1, item⟩, next) := by
  have mapError {ε ε' α : Type} {x : Except ε α} {f : ε → ε'} {a : α} :
      x.mapError f = .ok a ↔ x = .ok a := by
    cases x with
    | error e => simp [Except.mapError]
    | ok b => simp [Except.mapError]
  simp only [perform, bind_eq_ok, mapError, get_unlimited h, write_unlimited h]
  constructor
  · rintro ⟨input, valid, held, ⟨safe, stored⟩, item, decided, next, swapped, rfl⟩
    exact ⟨held, item, next, ⟨input, valid⟩, safe, stored, decided, swapped, rfl⟩
  · rintro ⟨held, item, next, ⟨input, valid⟩, safe, stored, decided, swapped, rfl⟩
    exact ⟨input, valid, held, ⟨safe, stored⟩, item, decided, next, swapped, rfl⟩

section Protocol

theorem validateClaim_eq_ok {input checked : ClaimInput} (h : validateClaim input = .ok checked) :
    validateClaim input = .ok input := by
  simp only [validateClaim, bind_eq_ok, pure_eq_ok] at h ⊢
  obtain ⟨owner, howner, runId, hrunId, branch, hbranch, _⟩ := h
  exact ⟨owner, howner, runId, hrunId, branch, hbranch, trivial⟩

variable {π : Type} [DecidableEq π] {world : BacklogWorld π} {process : π} {timed : TimedCall}

/-- The three steps of a call, taken without a break. -/
def steps (process : π) (timed : TimedCall) : List (BacklogEvent π) :=
  [.begin process timed.id timed.call, .decide process, .commit process]

variable (leaseMs) in
/-- The files change under the three steps only when the whole call succeeds. -/
theorem foldl_steps_files (h : format.limit = 0) (idle : world.pending process = none)
    (clock : world.clock = timed.time) :
    (((steps process timed).foldl (BacklogWorld.after leaseMs) world).files = world.files ∧
      ∀ written, perform format leaseMs world.files timed ≠ .ok written) ∨
    ∃ written, perform format leaseMs world.files timed = .ok written ∧
      ((steps process timed).foldl (BacklogWorld.after leaseMs) world).files = written.2 := by
  have refused (no : ∀ held item next, validateClaim timed.call.input = .ok timed.call.input →
      idPattern.test timed.id = true → world.files timed.id = some held →
      timed.call.decide leaseMs timed.id timed.time held.value = .ok item →
      world.files.swap item.id held.version item = some next → False) (written) :
      perform format leaseMs world.files timed ≠ .ok written := by
    intro performed
    obtain ⟨held, item, next, ⟨input, valid⟩, safe, stored, decided, swapped, _⟩ :=
      (perform_unlimited h).mp performed
    exact no held item next (validateClaim_eq_ok valid) safe stored decided swapped
  simp only [steps, List.foldl_cons, List.foldl_nil]
  by_cases begins : ∃ held, validateClaim timed.call.input = .ok timed.call.input ∧
      idPattern.test timed.id = true ∧ world.files timed.id = some held
  · obtain ⟨held, valid, safe, stored⟩ := begins
    have begun : world.after leaseMs (.begin process timed.id timed.call) =
        world.proceed process (.read timed.id timed.call held) := by
      simp only [BacklogWorld.after, valid, idle, stored, safe, if_true]
    rw [begun]
    cases decided : timed.call.decide leaseMs timed.id timed.time held.value with
    | error error =>
        refine Or.inl ⟨?_, refused ?_⟩
        · simp [BacklogWorld.after, BacklogWorld.proceed, BacklogWorld.finish, clock, decided]
        · intro other item next _ _ stored' decided' _
          obtain rfl := Option.some.inj (stored.symm.trans stored')
          simp [decided] at decided'
    | ok item =>
        cases swapped : world.files.swap item.id held.version item with
        | none =>
            refine Or.inl ⟨?_, refused ?_⟩
            · simp [BacklogWorld.after, BacklogWorld.proceed, BacklogWorld.finish,
                BacklogWorld.commitWrite, clock, decided, swapped]
            · intro other item' next _ _ stored' decided' swapped'
              obtain rfl := Option.some.inj (stored.symm.trans stored')
              obtain rfl := Except.ok.inj (decided.symm.trans decided')
              simp [swapped] at swapped'
        | some next =>
            refine Or.inr ⟨(⟨held.version + 1, item⟩, next), ?_, ?_⟩
            · exact (perform_unlimited h).mpr
                ⟨held, item, next, ⟨_, valid⟩, safe, stored, decided, swapped, rfl⟩
            · simp [BacklogWorld.after, BacklogWorld.proceed, BacklogWorld.finish,
                BacklogWorld.commitWrite, clock, decided, swapped]
  · refine Or.inl ⟨?_, refused fun held _ _ valid safe stored _ _ =>
      begins ⟨held, valid, safe, stored⟩⟩
    have still : world.after leaseMs (.begin process timed.id timed.call) = world := by
      simp only [BacklogWorld.after]
      split
      · next input current valid _ stored =>
          split_ifs with safe
          · exact absurd ⟨current, validateClaim_eq_ok valid, safe, stored⟩ begins
          · rfl
      · rfl
    rw [still]
    simp [BacklogWorld.after, idle]

def firstClaim : TimedCall := ⟨"i", .claim ⟨"o", "r", "b"⟩, 0, 1⟩

def queuedWorld : BacklogWorld Unit :=
  ⟨1, fun _ => some ⟨0, ⟨"i", .queued, ⟨"t", [], [], none⟩, none, 0, 0⟩⟩, fun _ => none⟩

end Protocol

end Unlimited

end FileBacklogStore

end AdCoder.ProjectOperations
