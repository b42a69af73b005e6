import AdCoder.Foundation.Lists
import AdCoder.Orchestration.Verdict

/-!
# What an accepted verdict accounts for

The submitted value is read without the validator, and the validator's result
is compared with that reading, with the plan's covered surfaces and with the
machine inventory of removed tests.
-/

namespace AdCoder.Orchestration

open Foundation Foundation.Regex

variable {detail place field : String}

/-! ## The parts of an accepted verdict -/

/-- Every step of an accepted submission succeeded. -/
theorem parseVerdict_eq_ok {value : Json} {expected : Option SurfaceAnalysis}
    {priorFindings : List VerdictIssue}
    {inventory : Option (List RemovedTestInventoryEntry)} {verdict : Verdict}
    (accepted : parseVerdict value detail expected priorFindings inventory = .ok verdict) :
    ∃ record rawIssues issues, value = .obj record ∧
      parseStatus detail (Json.lookup "status" record) = .ok verdict.status ∧
      submittedIssues detail (Json.lookup "issues" record) = .ok rawIssues ∧
      parseIssues detail 0 [] 0 rawIssues = .ok issues ∧
      checkCarried detail priorFindings issues = .ok () ∧
      parseCoverage detail expected (Json.lookup "coverage" record) = .ok verdict.coverage ∧
      parseRemovedTests detail (Json.lookup "removedTests" record) = .ok verdict.removedTests ∧
      checkRemovedTests detail inventory verdict.removedTests = .ok () ∧
      verdict.issues = if verdict.status = .approved then [] else issues := by
  cases value with
  | obj record =>
      simp only [parseVerdict, bind_eq_ok, require_eq_ok] at accepted
      obtain ⟨status, hstatus, raw, hraw, issues, hissues, _, _, _, hcarried, summary, _,
        coverage, hcoverage, removed, hremoved, _, hcheck, hverdict⟩ := accepted
      obtain rfl := pure_eq_ok.mp hverdict
      exact ⟨record, raw, issues, rfl, hstatus, hraw, hissues, hcarried, hcoverage, hremoved,
        hcheck, rfl⟩
  | _ => simp [parseVerdict] at accepted

/-- The elements of an array member of a submission. -/
def submittedList (name : String) : Json → List Json
  | .obj record =>
      match Json.lookup name record with
      | some (.arr entries) => entries
      | _ => []
  | _ => []

/-- A text member of a submitted entry. -/
def entryText (name : String) : Json → Option String
  | .obj fields => Json.asString? (Json.lookup name fields)
  | _ => none

/-! ## Coverage -/

/-- The contract ids that a submitted coverage entry lists. -/
def submittedContractIds : Json → List String
  | .obj fields =>
      match Json.lookup "contractIds" fields with
      | some (.arr ids) => (Json.strings? ids).getD []
      | _ => []
  | _ => []

/-- Some submitted coverage entry lists one contract id twice. -/
def RepeatsContract (value : Json) : Prop :=
  ∃ entry ∈ submittedList "coverage" value, ¬ (submittedContractIds entry).Nodup

/-- The coverage lists every surface marked covered once, with its contracts
and with evidence. -/
structure CoverageExact (expected : Option SurfaceAnalysis)
    (coverage : List ReviewCoverage) : Prop where
  surfaces : ListsOnce (coverage.map (·.surfaceId))
    ((applicableCoverage expected).map (·.surfaceId))
  contracts : ∀ item ∈ coverage, ∀ planned ∈ applicableCoverage expected,
    planned.surfaceId = item.surfaceId →
      ∀ id, id ∈ item.contractIds ↔ id ∈ planned.contractIds
  evidence : ∀ item ∈ coverage, item.evidence ≠ []

/-- Every inventoried removed test is accounted for once, and nothing else is. -/
def RemovedTestsExact (inventory : Option (List RemovedTestInventoryEntry))
    (removedTests : Option (List RemovedTestBehavior)) : Prop :=
  ∀ entries, inventory = some entries → entries ≠ [] →
    ListsOnce ((removedTests.getD []).map (·.removedTestId)) (entries.map (·.removedTestId))

theorem applicableCoverage_nodup (expected : Option SurfaceAnalysis) :
    ((applicableCoverage expected).map (·.surfaceId)).Nodup := by
  cases expected with
  | none => simp [applicableCoverage]
  | some analysis =>
      exact (List.filter_sublist.map _).nodup analysis.coverage_unique

theorem contractsOf_eq_some {applicable : List ContractCoverage} {surfaceId : String}
    {ids : List String} (h : contractsOf applicable surfaceId = some ids) :
    ∃ planned ∈ applicable, planned.surfaceId = surfaceId ∧ planned.contractIds = ids := by
  obtain ⟨planned, hfind, rfl⟩ := Option.map_eq_some_iff.mp h
  refine ⟨planned, ?_, ?_, rfl⟩
  · exact List.mem_reverse.mp (List.mem_of_find?_eq_some hfind)
  · simpa using List.find?_some hfind

/-- What the entry-by-entry comparison establishes of one entry. -/
def EntryChecked (applicable : List ContractCoverage) (item : ReviewCoverage) : Prop :=
  ∃ planned ∈ applicable, planned.surfaceId = item.surfaceId ∧
    item.contractIds.length = planned.contractIds.dedup.length ∧
    item.contractIds ⊆ planned.contractIds ∧ item.evidence ≠ []

theorem checkCoverage_spec {applicable : List ContractCoverage} {index : Nat}
    {seen : List String} {items : List ReviewCoverage}
    (h : checkCoverage detail applicable index seen items = .ok ()) :
    (items.map (·.surfaceId)).Nodup ∧ (∀ item ∈ items, item.surfaceId ∉ seen) ∧
      ∀ item ∈ items, EntryChecked applicable item := by
  induction items generalizing index seen with
  | nil => simp
  | cons item rest ih =>
      rw [checkCoverage] at h
      cases hids : contractsOf applicable item.surfaceId with
      | none => simp [hids] at h
      | some ids =>
          obtain ⟨planned, hplanned, hsurface, rfl⟩ := contractsOf_eq_some hids
          simp only [hids, require_bind_eq_ok, Bool.and_eq_true, beq_iff_eq, List.all_eq_true,
            Bool.not_eq_true', List.contains_eq_mem, decide_eq_true_eq, decide_eq_false_iff_not,
            List.isEmpty_eq_false_iff] at h
          obtain ⟨fresh, ⟨length, known⟩, evidence, hrest⟩ := h
          obtain ⟨nodup, apart, checked⟩ := ih hrest
          refine ⟨?_, ?_, ?_⟩
          · rw [List.map_cons, List.nodup_cons]
            refine ⟨?_, nodup⟩
            intro hmem
            obtain ⟨other, hother, heq⟩ := List.mem_map.mp hmem
            exact apart other hother (by simp [heq])
          · intro other hother
            rcases List.mem_cons.mp hother with rfl | hother
            · exact fresh
            · exact fun hseen => apart other hother (List.mem_cons_of_mem _ hseen)
          · intro other hother
            rcases List.mem_cons.mp hother with rfl | hother
            · exact ⟨planned, hplanned, hsurface, length, known, evidence⟩
            · exact checked other hother

theorem parseCoverageEntry_contractIds {index : Nat} {entry : Json} {item : ReviewCoverage}
    (h : parseCoverageEntry detail index entry = .ok item) :
    submittedContractIds entry = item.contractIds := by
  unfold parseCoverageEntry at h
  split at h
  case h_2 => cases h
  case h_1 fields =>
      split at h
      case h_2 => cases h
      case h_1 =>
          split at h
          case h_2 => cases h
          case h_1 ids hids =>
              split at h
              case h_2 => cases h
              case h_1 contractIds htexts =>
                  have hsubmitted : submittedContractIds (.obj fields) = contractIds := by
                    simp [submittedContractIds, hids, htexts]
                  repeat' split at h
                  all_goals cases h
                  exact hsubmitted

theorem parseCoverageEntries_contractIds {index : Nat} {entries : List Json}
    {coverage : List ReviewCoverage}
    (h : parseCoverageEntries detail index entries = .ok coverage) :
    entries.map submittedContractIds = coverage.map (·.contractIds) := by
  induction entries generalizing index coverage with
  | nil => simp_all [parseCoverageEntries]
  | cons entry rest ih =>
      simp only [parseCoverageEntries, bind_eq_ok] at h
      obtain ⟨item, hitem, later, hlater, hpure⟩ := h
      obtain rfl := pure_eq_ok.mp hpure
      simp [parseCoverageEntry_contractIds hitem, ih hlater]

/-- An accepted matrix is checked entry by entry, and reads as submitted. -/
theorem parseCoverage_spec {expected : Option SurfaceAnalysis}
    {record : List (String × Json)} {coverage : Option (List ReviewCoverage)}
    (applicable : applicableCoverage expected ≠ [])
    (h : parseCoverage detail expected (Json.lookup "coverage" record) = .ok coverage) :
    ListsOnce ((coverage.getD []).map (·.surfaceId))
        ((applicableCoverage expected).map (·.surfaceId)) ∧
      (∀ item ∈ coverage.getD [], EntryChecked (applicableCoverage expected) item) ∧
      (submittedList "coverage" (.obj record)).map submittedContractIds =
        (coverage.getD []).map (·.contractIds) := by
  unfold parseCoverage at h
  rw [if_neg (by simpa using applicable)] at h
  split at h
  case h_2 => cases h
  case h_1 entries hentries =>
      simp only [bind_eq_ok, require_eq_ok, beq_iff_eq] at h
      obtain ⟨items, hitems, _, hlength, _, hcheck, hpure⟩ := h
      obtain rfl := pure_eq_ok.mp hpure
      obtain ⟨nodup, _, checked⟩ := checkCoverage_spec hcheck
      refine ⟨?_, checked, ?_⟩
      · refine listsOnce_of_nodup (by simpa using hlength) nodup ?_
        intro surfaceId hmem
        obtain ⟨item, hitem, rfl⟩ := List.mem_map.mp hmem
        obtain ⟨planned, hplanned, hsurface, _⟩ := checked item hitem
        exact List.mem_map.mpr ⟨planned, hplanned, hsurface⟩
      · simp [submittedList, hentries, parseCoverageEntries_contractIds hitems]

/-- A checked entry lists the planned contracts exactly when it repeats none. -/
theorem EntryChecked.exact_iff {expected : Option SurfaceAnalysis} {item : ReviewCoverage}
    (checked : EntryChecked (applicableCoverage expected) item) :
    (∀ planned ∈ applicableCoverage expected, planned.surfaceId = item.surfaceId →
        ∀ id, id ∈ item.contractIds ↔ id ∈ planned.contractIds) ↔ item.contractIds.Nodup := by
  obtain ⟨planned, hplanned, hsurface, length, known, _⟩ := checked
  rw [← subset_iff_nodup length known]
  constructor
  · intro same id hid
    exact (same planned hplanned hsurface id).mpr hid
  · intro all other hother heq id
    obtain rfl : other = planned := List.inj_on_of_nodup_map (applicableCoverage_nodup expected)
      hother hplanned (heq.trans hsurface.symm)
    exact ⟨fun h => known h, fun h => all h⟩

theorem coverageExact_iff {expected : Option SurfaceAnalysis}
    {record : List (String × Json)} {coverage : Option (List ReviewCoverage)}
    (h : parseCoverage detail expected (Json.lookup "coverage" record) = .ok coverage) :
    CoverageExact expected (coverage.getD []) ↔
      applicableCoverage expected = [] ∨ ¬ RepeatsContract (.obj record) := by
  by_cases applicable : applicableCoverage expected = []
  · have hnone : coverage = none := by
      simpa [parseCoverage, applicable, eq_comm] using h
    subst hnone
    simp only [applicable, true_or, iff_true]
    exact ⟨by simp [ListsOnce, applicable], by simp, by simp⟩
  · obtain ⟨surfaces, checked, submitted⟩ := parseCoverage_spec applicable h
    have hrepeats : ¬ RepeatsContract (.obj record) ↔
        ∀ item ∈ coverage.getD [], item.contractIds.Nodup := by
      have hall : ∀ ids : List (List String),
          (∀ l ∈ (submittedList "coverage" (.obj record)).map submittedContractIds, l.Nodup) ↔
            ∀ l ∈ (coverage.getD []).map (·.contractIds), l.Nodup := fun _ => by rw [submitted]
      simpa [RepeatsContract] using hall []
    simp only [applicable, false_or, hrepeats]
    constructor
    · intro exact item hitem
      exact (checked item hitem).exact_iff.mp (exact.contracts item hitem)
    · intro nodup
      refine ⟨surfaces, ?_, ?_⟩
      · intro item hitem
        exact (checked item hitem).exact_iff.mpr (nodup item hitem)
      · intro item hitem
        obtain ⟨_, _, _, _, _, evidence⟩ := checked item hitem
        exact evidence

/-! ## Removed tests -/

theorem removedTestsExact_of_check {inventory : Option (List RemovedTestInventoryEntry)}
    {removedTests : Option (List RemovedTestBehavior)}
    (h : checkRemovedTests detail inventory removedTests = .ok ()) :
    RemovedTestsExact inventory removedTests := by
  rintro entries rfl nonempty
  simp only [checkRemovedTests, require_bind_eq_ok, require_eq_ok] at h
  obtain ⟨present, exact⟩ := h
  cases removedTests with
  | none => simp_all
  | some removed =>
      simp only [Option.all_some, Bool.and_eq_true, beq_iff_eq, List.all_eq_true,
        List.contains_eq_mem, decide_eq_true_eq, Option.getD_some] at exact
      obtain ⟨⟨length, distinct⟩, cover⟩ := exact
      refine listsOnce_of_cover (by simpa using length) distinct ?_
      intro id hid
      simpa using cover id (List.mem_dedup.mpr hid)

/-- An accepted submission accounts exactly for the plan's contracts and the
removed tests, unless one of its coverage entries lists a contract id twice. -/
theorem accounting_exact_iff {value : Json} {expected : Option SurfaceAnalysis}
    {priorFindings : List VerdictIssue}
    {inventory : Option (List RemovedTestInventoryEntry)} {verdict : Verdict}
    (accepted : parseVerdict value detail expected priorFindings inventory = .ok verdict) :
    (CoverageExact expected (verdict.coverage.getD []) ∧
        RemovedTestsExact inventory verdict.removedTests) ↔
      applicableCoverage expected = [] ∨ ¬ RepeatsContract value := by
  obtain ⟨record, _, _, rfl, _, _, _, _, hcoverage, _, hcheck, _⟩ := parseVerdict_eq_ok accepted
  rw [coverageExact_iff hcoverage]
  exact and_iff_left (removedTestsExact_of_check hcheck)

/-- A plan with one covered surface and two contracts. -/
def errorsPlan : SurfaceAnalysis where
  projectType := "cli"
  surfaces := [⟨"errors", "errors", "refusals"⟩]
  coverage := [⟨"errors", .covered,
    ["errors:typed-actionable", "errors:safe-projection"], ["plan"], "refusals"⟩]
  coverage_unique := by decide

/-- An approval whose matrix lists the given contracts of the covered surface. -/
def approvalCovering (contractIds : List String) : Json := .obj [
  ("status", .str "approved"), ("issues", .arr []), ("summary", .str "ok"),
  ("coverage", .arr [.obj [("surfaceId", .str "errors"),
    ("contractIds", .arr (contractIds.map .str)), ("evidence", .arr [.str "test"])]])]

/-- The verdict read from such an approval. -/
def coveringVerdict (contractIds : List String) : Verdict :=
  ⟨.approved, [], "ok", some [⟨"errors", contractIds, ["test"]⟩], none⟩

theorem accounting_exact_iff_errorsPlan :
    (CoverageExact (some errorsPlan) ((coveringVerdict
        ["errors:safe-projection", "errors:typed-actionable"]).coverage.getD []) ∧
      RemovedTestsExact none (coveringVerdict
        ["errors:safe-projection", "errors:typed-actionable"]).removedTests) ↔
      applicableCoverage (some errorsPlan) = [] ∨ ¬ RepeatsContract (approvalCovering
        ["errors:safe-projection", "errors:typed-actionable"]) := by
  have accepted : parseVerdict (approvalCovering
      ["errors:safe-projection", "errors:typed-actionable"]) "run" (some errorsPlan) [] none =
        .ok (coveringVerdict ["errors:safe-projection", "errors:typed-actionable"]) := by
    decide +kernel
  exact accounting_exact_iff accepted

/-- One contract listed twice passes for two contracts listed once. -/
theorem accounting_exact_refuted :
    ¬ ∀ value detail expected priorFindings inventory verdict,
      parseVerdict value detail expected priorFindings inventory = .ok verdict →
        CoverageExact expected (verdict.coverage.getD []) ∧
          RemovedTestsExact inventory verdict.removedTests := by
  intro claim
  have exact := claim (approvalCovering ["errors:typed-actionable", "errors:typed-actionable"])
    "run" (some errorsPlan) [] none
    (coveringVerdict ["errors:typed-actionable", "errors:typed-actionable"]) (by decide +kernel)
  have listed := (exact.1.contracts _ (List.mem_singleton.mpr rfl) _
    (List.mem_singleton.mpr rfl) rfl "errors:safe-projection").mpr (by decide)
  exact absurd listed (by decide)

end AdCoder.Orchestration
