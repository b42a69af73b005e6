import AdCoder.Orchestration.VerdictEvidence

/-!
# Findings through a chain of review rounds

Each round is validated against the issues of all earlier verdicts. A finding
is followed from the submission that raised it to the submissions that account
for it, so the issues an approval drops are not lost from view.
-/

namespace AdCoder.Orchestration

open Foundation Foundation.Regex

variable {detail place field : String}

/-! ## Reading a submitted issue -/

/-- The severity needs an address and an identity. -/
def Blocking (entry : Json) : Prop :=
  entryText "severity" entry = some "blocker" ∨ entryText "severity" entry = some "major"

def Declares (resolution : String) (entry : Json) : Prop :=
  entryText "resolution" entry = some resolution

def HasEvidence (entry : Json) : Prop :=
  ∃ s, entryText "evidence" entry = some s ∧ trim s ≠ ""

/-- The identity under which the validator carries a submitted issue. -/
def identity (entry : Json) : Option String :=
  (entryText "findingId" entry).map redactFinding

def ClosedWithEvidence (entry : Json) : Prop :=
  Declares "closed" entry ∧ HasEvidence entry

/-- The submission accounts for the identity as closed or remaining. -/
def AccountsFor (submission : Json) (id : String) : Prop :=
  ∃ entry ∈ submittedList "issues" submission, identity entry = some id ∧
    (ClosedWithEvidence entry ∨ Declares "remains" entry)

/-- An approval that lists a blocker or major finding it does not close. -/
def ApprovesOpenFinding (submission : Json) : Prop :=
  entryText "status" submission = some "approved" ∧
    ∃ entry ∈ submittedList "issues" submission, Blocking entry ∧ ¬ Declares "closed" entry

/-- A validated issue agrees with the entry it was read from. -/
structure ReadsAs (entry : Json) (issue : VerdictIssue) : Prop where
  severity : entryText "severity" entry = some issue.severity.text
  resolution : entryText "resolution" entry = issue.resolution.map Resolution.text
  findingId : identity entry = issue.findingId
  addressed : needsAddress issue.severity = true → issue.findingId ≠ none
  evidenced : issue.resolution = some .closed → HasEvidence entry

theorem hasText?_eq_some {value : Option Json} {s : String} (h : hasText? value = some s) :
    Json.asString? value = some s ∧ trim s ≠ "" := by
  unfold hasText? at h
  split at h
  · split_ifs at h with blank
    obtain rfl := Option.some.inj h
    exact ⟨rfl, blank⟩
  · cases h

theorem bounded_eq_ok {value : Option Json} {most : Nat} {s : String}
    (h : bounded detail place field value most = .ok s) :
    Json.asString? value = some s ∧ trim s ≠ "" := by
  unfold bounded at h
  split at h
  · cases h
  · next text =>
      split_ifs at h
      obtain rfl := Except.ok.inj h
      exact hasText?_eq_some text

theorem optionalBounded_eq_ok {value : Option Json} {most : Nat} {r : Option String}
    (h : optionalBounded detail place field value most = .ok r) :
    Json.asString? value = r ∧ ∀ s, r = some s → trim s ≠ "" := by
  cases value with
  | none =>
      obtain rfl := Except.ok.inj h
      simp [Json.asString?]
  | some value =>
      simp only [optionalBounded] at h
      cases hb : bounded detail place field (some value) most with
      | error e => simp [hb, Except.map] at h
      | ok s =>
          obtain rfl : some s = r := by simpa [hb, Except.map] using h
          obtain ⟨text, nonblank⟩ := bounded_eq_ok hb
          refine ⟨text, ?_⟩
          rintro _ ⟨⟩
          exact nonblank

theorem parseSeverity_eq_ok {value : Option Json} {severity : IssueSeverity}
    (h : parseSeverity detail place value = .ok severity) :
    Json.asString? value = some severity.text := by
  unfold parseSeverity at h
  split at h
  · next found =>
      obtain rfl := Except.ok.inj h
      obtain ⟨s, text, read⟩ := Option.bind_eq_some_iff.mp found
      rw [text, IssueSeverity.ofText?_text read]
  · cases h

theorem parseResolution_eq_ok {value : Option Json} {resolution : Option Resolution}
    (h : parseResolution detail place value = .ok resolution) :
    Json.asString? value = resolution.map Resolution.text := by
  unfold parseResolution at h
  split at h
  · obtain rfl := Except.ok.inj h
    rfl
  · split at h
    · next found =>
        obtain rfl := Except.ok.inj h
        obtain ⟨s, text, read⟩ := Option.bind_eq_some_iff.mp found
        rw [text, Option.map_some, Resolution.ofText?_text read]
    · cases h

theorem parseIssue_readsAs {index bytes total : Nat} {seen : List String} {entry : Json}
    {issue : VerdictIssue} (h : parseIssue detail index seen bytes entry = .ok (issue, total)) :
    ReadsAs entry issue := by
  cases entry with
  | obj fields =>
      simp only [parseIssue, bind_eq_ok, require_eq_ok] at h
      obtain ⟨severity, hseverity, what, _, location, _, criterion, _, _, _, _, _, findingId,
        hfindingId, evidence, hevidence, resolution, hresolution, _, addressed, _, evidenced,
        _, _, _, _, hpure⟩ := h
      obtain ⟨rfl, rfl⟩ := Prod.mk.inj (pure_eq_ok.mp hpure)
      obtain ⟨rawId, hrawId, rfl⟩ := map_eq_ok.mp hfindingId
      obtain ⟨rawEvidence, hrawEvidence, rfl⟩ := map_eq_ok.mp hevidence
      refine ⟨parseSeverity_eq_ok hseverity, parseResolution_eq_ok hresolution, ?_, ?_, ?_⟩
      · simp [identity, entryText, (optionalBounded_eq_ok hrawId).1]
      · intro needs
        simpa [needs, Option.isSome_iff_ne_none] using addressed
      · intro closed
        obtain ⟨text, nonblank⟩ := optionalBounded_eq_ok hrawEvidence
        change resolution = some .closed at closed
        cases rawEvidence with
        | none => simp [closed] at evidenced
        | some s => exact ⟨s, text, nonblank s rfl⟩
  | _ => simp [parseIssue] at h

theorem parseIssues_readsAs {index bytes : Nat} {seen : List String} {entries : List Json}
    {issues : List VerdictIssue} (h : parseIssues detail index seen bytes entries = .ok issues) :
    List.Forall₂ ReadsAs entries issues := by
  induction entries generalizing index bytes seen issues with
  | nil =>
      obtain rfl := Except.ok.inj h
      exact .nil
  | cons entry rest ih =>
      simp only [parseIssues, bind_eq_ok] at h
      obtain ⟨⟨issue, total⟩, hissue, later, hlater, hpure⟩ := h
      obtain rfl := pure_eq_ok.mp hpure
      exact .cons (parseIssue_readsAs hissue) (ih hlater)

namespace ReadsAs

variable {entry : Json} {issue : VerdictIssue}

theorem blocking_iff (reads : ReadsAs entry issue) :
    Blocking entry ↔ needsAddress issue.severity = true := by
  unfold Blocking
  rw [reads.severity]
  cases issue.severity <;> decide

theorem declares_closed_iff (reads : ReadsAs entry issue) :
    Declares "closed" entry ↔ issue.resolution = some .closed := by
  unfold Declares
  rw [reads.resolution]
  rcases issue.resolution with _ | _ | _ | _ <;> decide

theorem declares_remains (reads : ReadsAs entry issue)
    (remains : issue.resolution = some .remains) : Declares "remains" entry := by
  rw [Declares, reads.resolution, remains]
  rfl

/-- An issue that the validator counts as accounted for is so submitted. -/
theorem accounted (reads : ReadsAs entry issue) (h : accounts issue = true) :
    ClosedWithEvidence entry ∨ Declares "remains" entry := by
  simp only [accounts, Bool.or_eq_true, decide_eq_true_eq] at h
  rcases h with closed | remains
  · exact Or.inl ⟨reads.declares_closed_iff.mpr closed, reads.evidenced closed⟩
  · exact Or.inr (reads.declares_remains remains)

end ReadsAs

/-! ## Carried identities -/

theorem checkCarried_accounts {priorFindings issues : List VerdictIssue}
    (h : checkCarried detail priorFindings issues = .ok ()) {finding : VerdictIssue}
    (prior : finding ∈ priorFindings) {id : String} (named : finding.findingId = some id) :
    ∃ issue ∈ issues, issue.findingId = some id ∧ accounts issue = true := by
  have carried : finding ∈ carriedFindings priorFindings :=
    List.mem_filter.mpr ⟨prior, by simp [named]⟩
  have nonempty : (carriedFindings priorFindings).isEmpty = false := by
    simpa using List.ne_nil_of_mem carried
  simp only [checkCarried, nonempty, Bool.false_eq_true, if_false, require_bind_eq_ok] at h
  obtain ⟨_, h⟩ := h
  split at h
  · cases h
  · next missing =>
      have found := List.find?_eq_none.mp missing id (List.mem_filterMap.mpr ⟨_, carried, named⟩)
      obtain ⟨issue, hmem, hacc, hid⟩ :
          ∃ issue ∈ issues, accounts issue = true ∧ issue.findingId = some id := by
        simpa using found
      exact ⟨issue, hmem, hid, hacc⟩

/-! ## Chains of rounds -/

/-- One review: what was submitted, and the verdict returned for it. -/
structure ReviewRound where
  submission : Json
  detail : String
  expected : Option SurfaceAnalysis
  inventory : Option (List RemovedTestInventoryEntry)
  verdict : Verdict

/-- Each round is validated against the issues of all verdicts before it. -/
def ReviewChain : List VerdictIssue → List ReviewRound → Prop
  | _, [] => True
  | priorFindings, round :: later =>
      parseVerdict round.submission round.detail round.expected priorFindings
          round.inventory = .ok round.verdict ∧
        ReviewChain (priorFindings ++ round.verdict.issues) later

/-- Every blocking finding of an approved round is closed with evidence. -/
def ApprovalHonest (round : ReviewRound) : Prop :=
  round.verdict.status = .approved → ∀ entry ∈ submittedList "issues" round.submission,
    Blocking entry → ClosedWithEvidence entry

/-- The round accounts for every identity among the findings. -/
def Carries (findings : List VerdictIssue) (round : ReviewRound) : Prop :=
  ∀ issue ∈ findings, ∀ id, issue.findingId = some id → AccountsFor round.submission id

/-- The later round accounts for every identity that the earlier one raised. -/
def CarriesRaised (earlier later : ReviewRound) : Prop :=
  Carries earlier.verdict.issues later

/-- A blocking finding of the earlier round is closed there or accounted for. -/
def CarriesBlocking (earlier later : ReviewRound) : Prop :=
  ∀ entry ∈ submittedList "issues" earlier.submission, Blocking entry →
    ClosedWithEvidence entry ∨ ∃ id, identity entry = some id ∧ AccountsFor later.submission id

/-- The evidence of a chain is honest about its findings, and about the ones
it started from. -/
structure FindingsHonest (priorFindings : List VerdictIssue) (chain : List ReviewRound) :
    Prop where
  approvals : ∀ round ∈ chain, ApprovalHonest round
  prior : ∀ round ∈ chain, Carries priorFindings round
  raised : chain.Pairwise CarriesRaised
  blocking : chain.Pairwise CarriesBlocking

/-- What the validator establishes of one submission, whatever its findings. -/
structure RoundChecked (priorFindings : List VerdictIssue) (round : ReviewRound)
    (issues : List VerdictIssue) : Prop where
  read : List.Forall₂ ReadsAs (submittedList "issues" round.submission) issues
  status : entryText "status" round.submission = some round.verdict.status.text
  returned : round.verdict.issues = if round.verdict.status = .approved then [] else issues
  carried : checkCarried round.detail priorFindings issues = .ok ()

theorem parseStatus_eq_ok {value : Option Json} {status : VerdictStatus}
    (h : parseStatus detail value = .ok status) :
    Json.asString? value = some status.text := by
  unfold parseStatus at h
  split at h
  · next found =>
      obtain rfl := Except.ok.inj h
      obtain ⟨s, text, read⟩ := Option.bind_eq_some_iff.mp found
      rw [text, VerdictStatus.ofText?_text read]
  · cases h

theorem submittedIssues_eq_ok {record : List (String × Json)} {entries : List Json}
    (h : submittedIssues detail (Json.lookup "issues" record) = .ok entries) :
    submittedList "issues" (.obj record) = entries := by
  unfold submittedIssues at h
  split at h
  · next found =>
      split_ifs at h
      obtain rfl := Except.ok.inj h
      simp [submittedList, found]
  · cases h

theorem roundChecked_of_accepted {priorFindings : List VerdictIssue} {round : ReviewRound}
    (accepted : parseVerdict round.submission round.detail round.expected priorFindings
      round.inventory = .ok round.verdict) :
    ∃ issues, RoundChecked priorFindings round issues := by
  obtain ⟨record, rawIssues, issues, hvalue, hstatus, hraw, hissues, hcarried, _, _, _,
    hreturned⟩ := parseVerdict_eq_ok accepted
  refine ⟨issues, ?_, ?_, hreturned, hcarried⟩
  · rw [hvalue, submittedIssues_eq_ok hraw]
    exact parseIssues_readsAs hissues
  · rw [hvalue]
    exact parseStatus_eq_ok hstatus

namespace RoundChecked

variable {priorFindings issues : List VerdictIssue} {round : ReviewRound}

theorem closedWithEvidence (checked : RoundChecked priorFindings round issues) {entry : Json}
    (submitted : entry ∈ submittedList "issues" round.submission)
    (closed : Declares "closed" entry) : ClosedWithEvidence entry := by
  obtain ⟨issue, _, reads⟩ := exists_related_right checked.read submitted
  exact ⟨closed, reads.evidenced (reads.declares_closed_iff.mp closed)⟩

theorem accountsFor (checked : RoundChecked priorFindings round issues)
    {finding : VerdictIssue} (prior : finding ∈ priorFindings) {id : String}
    (named : finding.findingId = some id) : AccountsFor round.submission id := by
  obtain ⟨issue, hissue, hid, accounted⟩ := checkCarried_accounts checked.carried prior named
  obtain ⟨entry, hentry, reads⟩ := exists_related_left checked.read hissue
  exact ⟨entry, hentry, reads.findingId.trans hid, reads.accounted accounted⟩

/-- A blocking entry of a round that does not approve is a returned issue. -/
theorem raised_of_blocking (checked : RoundChecked priorFindings round issues)
    (open_ : round.verdict.status ≠ .approved) {entry : Json}
    (submitted : entry ∈ submittedList "issues" round.submission) (blocking : Blocking entry) :
    ∃ issue ∈ round.verdict.issues, ∃ id, issue.findingId = some id ∧
      identity entry = some id := by
  obtain ⟨issue, hissue, reads⟩ := exists_related_right checked.read submitted
  obtain ⟨id, hid⟩ := Option.ne_none_iff_exists'.mp
    (reads.addressed (reads.blocking_iff.mp blocking))
  refine ⟨issue, ?_, id, hid, reads.findingId.trans hid⟩
  rw [checked.returned, if_neg open_]
  exact hissue

theorem approved_iff (checked : RoundChecked priorFindings round issues) :
    round.verdict.status = .approved ↔ entryText "status" round.submission = some "approved" := by
  rw [checked.status]
  cases round.verdict.status <;> decide

theorem approvalHonest_iff (checked : RoundChecked priorFindings round issues) :
    ApprovalHonest round ↔ ¬ ApprovesOpenFinding round.submission := by
  constructor
  · rintro honest ⟨approved, entry, submitted, blocking, notClosed⟩
    exact notClosed (honest (checked.approved_iff.mpr approved) entry submitted blocking).1
  · intro condition approved entry submitted blocking
    refine checked.closedWithEvidence submitted ?_
    by_contra notClosed
    exact condition ⟨checked.approved_iff.mp approved, entry, submitted, blocking, notClosed⟩

end RoundChecked

namespace ReviewChain

variable {priorFindings : List VerdictIssue} {chain : List ReviewRound}

/-- Every round of a chain is checked against the findings it started from, and
more. -/
theorem checked (h : ReviewChain priorFindings chain) {round : ReviewRound}
    (mem : round ∈ chain) :
    ∃ findings issues, priorFindings ⊆ findings ∧ RoundChecked findings round issues := by
  induction chain generalizing priorFindings with
  | nil => cases mem
  | cons first later ih =>
      rcases List.mem_cons.mp mem with rfl | mem
      · obtain ⟨issues, checked⟩ := roundChecked_of_accepted h.1
        exact ⟨priorFindings, issues, List.Subset.refl _, checked⟩
      · obtain ⟨findings, issues, subset, checked⟩ := ih h.2 mem
        exact ⟨findings, issues, fun _ hprior => subset (List.mem_append_left _ hprior), checked⟩

theorem carries (h : ReviewChain priorFindings chain) {round : ReviewRound}
    (mem : round ∈ chain) : Carries priorFindings round := by
  obtain ⟨_, _, subset, checked⟩ := h.checked mem
  intro issue hissue id named
  exact checked.accountsFor (subset hissue) named

theorem raised (h : ReviewChain priorFindings chain) : chain.Pairwise CarriesRaised := by
  induction chain generalizing priorFindings with
  | nil => exact .nil
  | cons first later ih =>
      refine List.Pairwise.cons ?_ (ih h.2)
      intro round mem issue hissue
      exact carries h.2 mem issue (List.mem_append_right _ hissue)

theorem approvalHonest_iff (h : ReviewChain priorFindings chain) {round : ReviewRound}
    (mem : round ∈ chain) : ApprovalHonest round ↔ ¬ ApprovesOpenFinding round.submission := by
  obtain ⟨_, _, _, checked⟩ := h.checked mem
  exact checked.approvalHonest_iff

/-- Honest approvals leave every blocking finding closed or accounted for. -/
theorem blocking (h : ReviewChain priorFindings chain)
    (approvals : ∀ round ∈ chain, ApprovalHonest round) : chain.Pairwise CarriesBlocking := by
  refine h.raised.imp_of_mem ?_
  intro earlier later hearlier _ carries entry submitted blocking
  by_cases approved : earlier.verdict.status = .approved
  · exact Or.inl (approvals earlier hearlier approved entry submitted blocking)
  · obtain ⟨_, _, _, checked⟩ := h.checked hearlier
    obtain ⟨issue, hissue, id, named, hid⟩ :=
      checked.raised_of_blocking approved submitted blocking
    exact Or.inr ⟨id, hid, carries issue hissue id named⟩

end ReviewChain

/-- In a chain of accepted rounds the findings are accounted for exactly when no
round approves with a blocker or major finding left open. -/
theorem findings_honest_iff {priorFindings : List VerdictIssue} {chain : List ReviewRound}
    (h : ReviewChain priorFindings chain) :
    FindingsHonest priorFindings chain ↔
      ∀ round ∈ chain, ¬ ApprovesOpenFinding round.submission := by
  constructor
  · intro honest round mem
    exact (h.approvalHonest_iff mem).mp (honest.approvals round mem)
  · intro condition
    have approvals : ∀ round ∈ chain, ApprovalHonest round := by
      intro round mem
      exact (h.approvalHonest_iff mem).mpr (condition round mem)
    exact ⟨approvals, fun _ mem => h.carries mem, h.raised, h.blocking approvals⟩

/-- A round that reviews one finding. -/
def findingRound (status resolution : String) (verdict : Verdict) : ReviewRound where
  submission := .obj [("status", .str status), ("summary", .str "s"),
    ("issues", .arr [.obj [("severity", .str "blocker"), ("findingId", .str "F1"),
      ("what", .str "crash"), ("location", .str "src/a.ts:1"),
      ("closureCriterion", .str "no crash"), ("resolution", .str resolution),
      ("evidence", .str "test")]])]
  detail := "run"
  expected := none
  inventory := none
  verdict := verdict

/-- A finding raised in one round and closed by the approval of the next. -/
def closedChain : List ReviewRound := [
  findingRound "changes_requested" "new" ⟨.changesRequested, [⟨.blocker, "crash",
    some "src/a.ts:1", some "no crash", some "F1", some .new, some "test"⟩], "s", none, none⟩,
  findingRound "approved" "closed" ⟨.approved, [], "s", none, none⟩]

theorem findings_honest_iff_closedChain :
    FindingsHonest [] closedChain ↔
      ∀ round ∈ closedChain, ¬ ApprovesOpenFinding round.submission :=
  findings_honest_iff ⟨by decide +kernel, by decide +kernel, trivial⟩

/-- An approval that says of its blocker that it remains is accepted. -/
theorem findings_honest_refuted :
    ¬ ∀ priorFindings chain, ReviewChain priorFindings chain →
      FindingsHonest priorFindings chain := by
  intro claim
  have honest := claim []
    [findingRound "approved" "remains" ⟨.approved, [], "s", none, none⟩]
    ⟨by decide +kernel, trivial⟩
  have closed := honest.approvals _ (List.mem_singleton.mpr rfl) rfl _
    (List.mem_singleton.mpr rfl) (Or.inl rfl)
  have distinct : (some "remains" : Option String) ≠ some "closed" := by decide
  exact distinct closed.1

end AdCoder.Orchestration
