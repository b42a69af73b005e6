import AdCoder.Foundation.JsonRoundTrip
import AdCoder.ProjectOperations.GitHubBacklog

/-!
# Issues that decode to the item they were written for

The store writes an item as JSON into the body of an issue and as labels: one of
its status and one that marks the issue as managed. The body reads back; of the
statuses, the first one is taken whose label the issue has.
-/

namespace AdCoder.ProjectOperations

open Foundation Foundation.JsonText

/-! ## The body of an issue -/

/-- The payload of a body. -/
def IssueBody.toJson (body : IssueBody) : Json := .obj (
  [("schema", .num (.finite body.schema)), ("revision", .num (.finite body.revision)),
    ("candidate", body.candidate)] ++ member "claim" (body.claim.map (·.toJson)) ++
    [("createdAt", .num (.finite body.createdAt)), ("updatedAt", .num (.finite body.updatedAt))])

def readNat : Option Json → Option Nat
  | some (.num (.finite q)) => if q.den = 1 ∧ 0 ≤ q then some q.num.toNat else none
  | _ => none

def BacklogClaim.ofJson : Json → Option BacklogClaim
  | .obj fields => do
      let owner ← Json.asString? (Json.lookup "owner" fields)
      let runId ← Json.asString? (Json.lookup "runId" fields)
      let branch ← Json.asString? (Json.lookup "branch" fields)
      let claimedAt ← readNat (Json.lookup "claimedAt" fields)
      let leaseExpiresAt ← readNat (Json.lookup "leaseExpiresAt" fields)
      return ⟨⟨owner, runId, branch⟩, claimedAt, leaseExpiresAt⟩
  | _ => none

/-- The fields of a payload at the types that the source casts them to. -/
def IssueBody.ofJson : Json → Option IssueBody
  | .obj fields => do
      let schema ← readNat (Json.lookup "schema" fields)
      let revision ← readNat (Json.lookup "revision" fields)
      let candidate ← Json.lookup "candidate" fields
      let claim ← match Json.lookup "claim" fields with
        | none => some none
        | some claim => (BacklogClaim.ofJson claim).map some
      let createdAt ← readNat (Json.lookup "createdAt" fields)
      let updatedAt ← readNat (Json.lookup "updatedAt" fields)
      return ⟨schema, revision, candidate, claim, createdAt, updatedAt⟩
  | _ => none

/-- An issue as the store writes it and as GitHub returns it. -/
structure WrittenIssue where
  number : Nat
  body : String
  labels : List String

section Encoding

variable (format : NumberFormat) (config : GitHubConfig)

/-- The issue of an item after `create` or `update`. -/
def writeIssue (number revision : Nat) (item : BacklogItem) : WrittenIssue where
  number := number
  body := Json.stringify format.print (IssueBody.toJson ⟨1, revision, item.candidate.toJson,
    item.claim, item.createdAt, item.updatedAt⟩)
  labels := [config.labels item.status, config.managedLabel]

/-- `state` of an issue whose body is text. -/
def decodeIssue (issue : WrittenIssue) : Except BacklogFailure (VersionedState BacklogItem) :=
  GitHubBacklogStore.state ⟨0, format.print⟩ config
    ⟨issue.number, (parse format issue.body.toList).bind IssueBody.ofJson, issue.labels⟩

end Encoding

/-! ## Valid items -/

/-- The times are those of a clock, and the candidate is the projection of a valid one. -/
structure ValidItem (format : NumberFormat) (item : BacklogItem) : Prop where
  candidate : ∃ evidenceLimit value candidate,
    validateFollowUp format.print evidenceLimit value = .ok (.backlog candidate) ∧
      item.candidate = projectBacklogFollowUp candidate
  createdAt : item.createdAt ≤ JsNumber.maxSafe
  updatedAt : item.updatedAt ≤ JsNumber.maxSafe
  claim : ∀ claim, item.claim = some claim →
    claim.claimedAt ≤ JsNumber.maxSafe ∧ claim.leaseExpiresAt ≤ JsNumber.maxSafe

/-- No status that is looked for earlier has a label of the issue. -/
def FirstLabel (config : GitHubConfig) (status : BacklogState) : Prop :=
  ∀ earlier ∈ BacklogState.all.takeWhile (· ≠ status),
    config.labels earlier ≠ config.labels status ∧ config.labels earlier ≠ config.managedLabel

/-! ## The body reads back -/

section Body

variable {format : NumberFormat}

@[simp] theorem readNat_nat (n : Nat) : readNat (some (.num (.finite n))) = some n := by
  have nonneg : (0 : Rat) ≤ (n : Rat) := by exact_mod_cast Nat.zero_le n
  simp [readNat, nonneg]

@[simp] theorem claim_ofJson (claim : BacklogClaim) :
    BacklogClaim.ofJson claim.toJson = some claim := by
  simp [BacklogClaim.ofJson, BacklogClaim.toJson, ClaimInput.fields, Json.asString?]

theorem body_ofJson (body : IssueBody) : IssueBody.ofJson body.toJson = some body := by
  obtain ⟨schema, revision, candidate, claim, createdAt, updatedAt⟩ := body
  cases claim with
  | none => simp [IssueBody.ofJson, IssueBody.toJson, member]
  | some claim => simp [IssueBody.ofJson, IssueBody.toJson, member]

theorem readable_nat (decimal : format.Decimal) {n : Nat} (safe : n ≤ JsNumber.maxSafe) :
    Readable format (.num (.finite n)) := by
  rw [Readable]
  exact reads_nat decimal safe

theorem readable_member {name : String} {α : Type} {held : Option α} {write : α → Json}
    (readable : ∀ value, held = some value → Readable format (write value)) :
    ∀ field ∈ member name (held.map write), Readable format field.2 := by
  cases held with
  | none => simp [member]
  | some value => simpa [member] using readable value rfl

theorem evidenceLine_safe {value : Option Json} {n : Nat}
    (h : evidenceLine value = .ok (some n)) : n ≤ JsNumber.maxSafe := by
  rw [evidenceLine.eq_def] at h
  split at h
  · cases h
  · next q =>
      split_ifs at h with valid
      obtain rfl := Option.some.inj (Except.ok.inj h)
      have bound := of_decide_eq_true (Bool.and_eq_true_iff.mp valid.1).2
      omega
  · cases h

theorem validateEvidence_line {value : Json} {evidence : FollowUpEvidence}
    (h : validateEvidence value = .ok evidence) :
    ∀ n, evidence.line = some n → n ≤ JsNumber.maxSafe := by
  cases value with
  | obj fields =>
      simp only [validateEvidence, bind_eq_ok, require_eq_ok, pure_eq_ok] at h
      obtain ⟨_, _, _, _, _, _, line, hline, _, _, rfl⟩ := h
      rintro n rfl
      exact evidenceLine_safe hline
  | _ => cases h

theorem readable_evidence (decimal : format.Decimal) {evidence : FollowUpEvidence}
    (safe : ∀ n, evidence.line = some n → n ≤ JsNumber.maxSafe) :
    Readable format evidence.toJson := by
  rw [FollowUpEvidence.toJson, Readable, readableFields_iff]
  constructor
  · cases evidence.path <;> cases evidence.line <;> cases evidence.sha256 <;> simp [member]
  · intro field among
    simp only [List.cons_append, List.mem_cons, List.mem_append, or_assoc] at among
    obtain rfl | path | line | sha256 := among
    · exact readable_str _
    · exact readable_member (fun _ _ => readable_str _) field path
    · exact readable_member (fun n found => readable_nat decimal (safe n found)) field line
    · exact readable_member (fun _ _ => readable_str _) field sha256

theorem readable_provenance (provenance : FollowUpProvenance) :
    Readable format provenance.toJson := by
  rw [FollowUpProvenance.toJson, Readable, readableFields_iff]
  constructor
  · cases provenance.branch <;> simp [member]
  · intro field among
    simp only [List.cons_append, List.nil_append, List.mem_cons] at among
    obtain rfl | rfl | branch := among
    · exact readable_str _
    · exact readable_str _
    · exact readable_member (fun _ _ => readable_str _) field branch

theorem readable_claim (decimal : format.Decimal) {claim : BacklogClaim}
    (safe : claim.claimedAt ≤ JsNumber.maxSafe ∧ claim.leaseExpiresAt ≤ JsNumber.maxSafe) :
    Readable format claim.toJson := by
  rw [BacklogClaim.toJson, Readable, readableFields_iff]
  constructor
  · simp [ClaimInput.fields]
  · intro field among
    simp only [ClaimInput.fields, List.cons_append, List.nil_append, List.mem_cons,
      List.not_mem_nil, or_false] at among
    obtain rfl | rfl | rfl | rfl | rfl := among
    · exact readable_str _
    · exact readable_str _
    · exact readable_str _
    · exact readable_nat decimal safe.1
    · exact readable_nat decimal safe.2

theorem readable_candidate (decimal : format.Decimal) {candidate : BacklogFollowUp}
    (safe : ∀ evidence ∈ candidate.evidence, ∀ n, evidence.line = some n → n ≤ JsNumber.maxSafe) :
    Readable format candidate.toJson := by
  rw [BacklogFollowUp.toJson, Readable, readableFields_iff]
  constructor
  · cases candidate.priority <;> simp [member]
  · intro field among
    simp only [List.cons_append, List.nil_append, List.mem_cons] at among
    obtain rfl | rfl | rfl | rfl | priority := among
    · exact readable_str _
    · exact readable_str _
    · rw [Readable, readableItems_iff]
      intro item among
      obtain ⟨evidence, listed, rfl⟩ := List.mem_map.mp among
      exact readable_evidence decimal (safe evidence listed)
    · rw [Readable, readableItems_iff]
      intro item among
      obtain ⟨provenance, -, rfl⟩ := List.mem_map.mp among
      exact readable_provenance provenance
    · exact readable_member (fun _ _ => readable_str _) field priority

/-- The body of a valid item reads back. -/
theorem body_reads_back (decimal : format.Decimal) {item : BacklogItem} (valid : ValidItem format item)
    {revision : Nat} (safe : revision ≤ JsNumber.maxSafe) :
    Readable format (IssueBody.toJson ⟨1, revision, item.candidate.toJson, item.claim,
      item.createdAt, item.updatedAt⟩) := by
  have candidate : Readable format item.candidate.toJson := by
    obtain ⟨_, _, candidate, validated, same⟩ := valid.candidate
    obtain ⟨⟨-, evidence⟩, -⟩ := validateFollowUp_backlog validated
    apply readable_candidate decimal
    rw [same]
    intro projected among
    obtain ⟨source, listed, rfl⟩ := List.mem_map.mp among
    obtain ⟨value, found⟩ := evidence source listed
    exact fun n line => validateEvidence_line found n line
  rw [IssueBody.toJson, Readable, readableFields_iff]
  constructor
  · cases item.claim <;> simp [member]
  · intro field among
    simp only [List.cons_append, List.nil_append, List.mem_cons, List.mem_append, List.not_mem_nil,
      or_false] at among
    obtain rfl | rfl | rfl | claim | rfl | rfl := among
    · exact readable_nat decimal (by decide)
    · exact readable_nat decimal safe
    · exact candidate
    · exact readable_member (fun claim held => readable_claim decimal (valid.claim claim held))
        field claim
    · exact readable_nat decimal valid.createdAt
    · exact readable_nat decimal valid.updatedAt

end Body

/-! ## The status -/

/-- A member that satisfies a test is the first one that does exactly when none before it does. -/
theorem find?_eq_some_iff_takeWhile {α : Type} [DecidableEq α] {test : α → Bool} {x : α}
    {items : List α} (found : x ∈ items) (holds : test x = true) :
    items.find? test = some x ↔ ∀ y ∈ items.takeWhile (· ≠ x), test y = false := by
  induction items with
  | nil => cases found
  | cons y rest ih =>
      by_cases same : y = x
      · subst same
        simp [holds]
      · have later : x ∈ rest := (List.mem_cons.mp found).resolve_left (Ne.symm same)
        rw [List.takeWhile_cons_of_pos (by simpa using same), List.forall_mem_cons, ← ih later]
        cases passes : test y with
        | true => simp [List.find?_cons_of_pos passes, same]
        | false => rw [List.find?_cons_of_neg (by simp [passes])]; simp

theorem find_status_iff {config : GitHubConfig} {status : BacklogState} :
    BacklogState.all.find? (fun key =>
        [config.labels status, config.managedLabel].contains (config.labels key)) = some status ↔
      FirstLabel config status := by
  rw [find?_eq_some_iff_takeWhile (BacklogState.mem_all status) (by simp), FirstLabel]
  simp

/-- A written issue decodes to its item exactly when no status that is looked for earlier has the
label of its status or the label of managed issues. -/
theorem issue_round_trip_iff {format : NumberFormat} (decimal : format.Decimal)
    {config : GitHubConfig} {number revision : Nat} (safe : revision ≤ JsNumber.maxSafe)
    {item : BacklogItem} (own : item.id = toString number) (valid : ValidItem format item) :
    decodeIssue format config (writeIssue format config number revision item) =
        .ok ⟨revision, item⟩ ↔ FirstLabel config item.status := by
  obtain ⟨_, _, candidate, validated, same⟩ := valid.candidate
  have body : (parse format (writeIssue format config number revision item).body.toList).bind
      IssueBody.ofJson = some ⟨1, revision, item.candidate.toJson, item.claim, item.createdAt,
        item.updatedAt⟩ := by
    rw [writeIssue, parse_stringify (body_reads_back decimal valid safe), Option.bind_some,
      body_ofJson]
  have again := validateFollowUp_again validated
  rw [← same] at again
  have projected : projectBacklogFollowUp item.candidate = item.candidate := by
    rw [same, projectBacklogFollowUp_idem]
  rw [decodeIssue, GitHubBacklogStore.state, body, ← find_status_iff]
  simp only [writeIssue]
  cases found : BacklogState.all.find? fun key =>
      [config.labels item.status, config.managedLabel].contains (config.labels key) with
  | none => simp
  | some status =>
      simp only [again, projected, ← own]
      rw [if_neg (not_not_intro rfl), Option.some.injEq]
      constructor
      · intro decoded
        exact congrArg (fun held : VersionedState BacklogItem => held.value.status)
          (Except.ok.inj decoded)
      · rintro rfl
        rfl

/-! ## A status label that is also the label of managed issues -/

/-- An item of a finished review. -/
def doneItem : BacklogItem where
  id := "7"
  status := .done
  candidate := projectBacklogFollowUp
    ⟨"t", [⟨"s", some "a.ts", some 4, none⟩], [⟨"run", "run-1", none⟩], some .high⟩
  claim := none
  createdAt := 1
  updatedAt := 2

def ownLabels (managedLabel : String) : GitHubConfig := ⟨"o/r", defaultLabels, managedLabel, 0⟩

theorem validItem_doneItem : ValidItem decimalFormat doneItem where
  candidate := by
    refine ⟨0, doneItem.candidate.toJson, doneItem.candidate, ?_, ?_⟩
    · decide +kernel
    · rw [doneItem, projectBacklogFollowUp_idem]
  createdAt := by decide
  updatedAt := by decide
  claim := by simp [doneItem]

/-- With the label of queued items as the label of managed issues a finished item
decodes as a queued one. -/
theorem issue_round_trip_refuted :
    gitHubConfig (some "o/r") (fun _ => none) (some "ad-coder:queued") (some (.finite 0)) =
        .ok (ownLabels "ad-coder:queued") ∧
      ValidItem decimalFormat doneItem ∧
      decodeIssue decimalFormat (ownLabels "ad-coder:queued")
          (writeIssue decimalFormat (ownLabels "ad-coder:queued") 7 1 doneItem) =
        .ok ⟨1, { doneItem with status := .queued }⟩ := by
  refine ⟨rfl, validItem_doneItem, ?_⟩
  decide +kernel

/-- With the default labels it decodes to itself. -/
theorem issue_round_trip_doneItem :
    1 ≤ JsNumber.maxSafe ∧ doneItem.id = toString 7 ∧ ValidItem decimalFormat doneItem ∧
      decodeIssue decimalFormat (ownLabels "ad-coder:managed")
          (writeIssue decimalFormat (ownLabels "ad-coder:managed") 7 1 doneItem) =
        .ok ⟨1, doneItem⟩ := by
  have first : FirstLabel (ownLabels "ad-coder:managed") doneItem.status := by
    rw [FirstLabel]
    decide
  exact ⟨by decide, by decide, validItem_doneItem,
    (issue_round_trip_iff decimalFormat_decimal (by decide) (by decide)
      validItem_doneItem).mpr first⟩

end AdCoder.ProjectOperations
