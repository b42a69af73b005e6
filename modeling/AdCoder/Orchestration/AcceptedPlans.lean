import AdCoder.Orchestration.Plan
import AdCoder.Orchestration.VerdictEvidence

/-!
# What an accepted plan promises

Every check of the validator holds of the analysis that it returns. Membership
in the contract index is decided by `in`, which inherited names pass as well.
-/

namespace AdCoder.Orchestration

open Foundation Foundation.Regex

variable {detail place field : String} {bounds : SurfaceAnalysisBounds} {format : NumberFormat}

namespace SurfaceAnalysisEntry

def texts (surface : SurfaceAnalysisEntry) : List String :=
  [surface.id, surface.name, surface.rationale]

end SurfaceAnalysisEntry

namespace ContractCoverage

def texts (item : ContractCoverage) : List String :=
  item.surfaceId :: item.rationale :: item.contractIds ++ item.evidence

/-- An entry has the contracts and the evidence that its status asks for. -/
def Supported (item : ContractCoverage) : Prop :=
  item.evidence ≠ [] ∧ (item.contractIds = [] ↔ item.status = .notApplicable)

end ContractCoverage

namespace SurfaceAnalysis

def texts (analysis : SurfaceAnalysis) : List String :=
  analysis.projectType :: analysis.surfaces.flatMap (·.texts) ++ analysis.coverage.flatMap (·.texts)

/-- The sizes of the lists of an analysis. -/
def listSizes (analysis : SurfaceAnalysis) : List Nat :=
  [analysis.surfaces.length, analysis.coverage.length] ++
    analysis.coverage.flatMap fun item => [item.contractIds.length, item.evidence.length]

/-- Every text and list of an analysis, and the depth and the size of the value
that was submitted for it, are within their limits, where these are not zero. -/
structure Within (bounds : SurfaceAnalysisBounds) (format : NumberFormat) (submitted : Json)
    (analysis : SurfaceAnalysis) : Prop where
  texts : bounds.maxTextBytes ≠ 0 → ∀ text ∈ analysis.texts,
    byteLength text ≤ bounds.maxTextBytes
  lists : bounds.maxItems ≠ 0 → ∀ size ∈ analysis.listSizes, size ≤ bounds.maxItems
  depth : bounds.maxDepth ≠ 0 → depthOf 0 submitted ≤ bounds.maxDepth
  aggregate : bounds.maxAggregateBytes ≠ 0 →
    byteLength (submitted.stringify format.print) ≤ bounds.maxAggregateBytes

/-- Surfaces and coverage correspond one to one, each entry is supported, and
its contracts are canonical. -/
structure WellFormed (analysis : SurfaceAnalysis) : Prop where
  distinct : (analysis.surfaces.map (·.id)).Nodup
  matched : (analysis.coverage.map (·.surfaceId)).Perm (analysis.surfaces.map (·.id))
  supported : ∀ item ∈ analysis.coverage, item.Supported
  canonical : ∀ item ∈ analysis.coverage, ∀ id ∈ item.contractIds, id ∈ contractIndex

end SurfaceAnalysis

/-! ## Reading the submission -/

/-- The surface analysis of a submitted plan. -/
def submittedAnalysis : Json → Option Json
  | .obj record => Json.lookup "surfaceAnalysis" record
  | _ => none

/-- The contract ids that the coverage of a submitted plan names. -/
def submittedPlanContracts (value : Json) : List String :=
  match submittedAnalysis value with
  | some analysis => (submittedList "coverage" analysis).flatMap submittedContractIds
  | none => []

/-! ## Texts -/

theorem withinLimit_iff {limit size : Nat} :
    withinLimit limit size = true ↔ (limit ≠ 0 → size ≤ limit) := by
  simp only [withinLimit, Bool.or_eq_true, beq_iff_eq, decide_eq_true_eq]
  tauto

theorem nonEmptyBounded_eq_some {limit : Nat} {value : Option Json} {text : String}
    (h : nonEmptyBounded limit value = some text) :
    value = some (.str text) ∧ withinLimit limit (byteLength text) = true := by
  unfold nonEmptyBounded at h
  split at h
  · split_ifs at h with accepted
    obtain rfl := Option.some.inj h
    exact ⟨rfl, accepted.2⟩
  · cases h

theorem boundedTexts_eq_some {limit : Nat} {items : List Json} {texts : List String}
    (h : boundedTexts limit items = some texts) :
    items = texts.map .str ∧ ∀ text ∈ texts, withinLimit limit (byteLength text) = true := by
  induction items generalizing texts with
  | nil =>
      obtain rfl : [] = texts := by simpa [boundedTexts] using h
      exact ⟨rfl, fun text member => nomatch member⟩
  | cons item rest ih =>
      simp only [boundedTexts, Option.bind_eq_bind, Option.bind_eq_some_iff, Option.pure_def,
        Option.some.injEq] at h
      obtain ⟨text, read, later, others, rfl⟩ := h
      obtain ⟨is_text, small⟩ := nonEmptyBounded_eq_some read
      obtain ⟨texts, smaller⟩ := ih others
      refine ⟨?_, List.forall_mem_cons.mpr ⟨small, smaller⟩⟩
      rw [Option.some.inj is_text, texts, List.map_cons]

theorem requiredText_eq_ok {entry : List (String × Json)} {text : String}
    (h : requiredText detail bounds place field entry = .ok text) :
    withinLimit bounds.maxTextBytes (byteLength text) = true := by
  unfold requiredText at h
  split at h
  next read =>
    cases h
    exact (nonEmptyBounded_eq_some read).2
  next => cases h

theorem requiredTexts_eq_ok {entry : List (String × Json)} {texts : List String}
    (h : requiredTexts detail bounds place field entry = .ok texts) :
    Json.lookup field entry = some (.arr (texts.map .str)) ∧
      withinLimit bounds.maxItems texts.length = true ∧
      ∀ text ∈ texts, withinLimit bounds.maxTextBytes (byteLength text) = true := by
  simp only [requiredTexts] at h
  split at h
  next items found =>
    split_ifs at h with short
    · split at h
      next read =>
        cases h
        obtain ⟨rfl, small⟩ := boundedTexts_eq_some read
        exact ⟨found, by simpa using short, small⟩
      next => cases h
    · cases h
  next => cases h

/-! ## Entries -/

theorem parseEntries_eq_ok {α : Type} {parse : Nat → Json → Except PlanFailure α}
    {P : Json → α → Prop} (each : ∀ index item entry, parse index item = .ok entry → P item entry)
    {index : Nat} {items : List Json} {entries : List α}
    (h : parseEntries parse index items = .ok entries) : List.Forall₂ P items entries := by
  induction items generalizing index entries with
  | nil =>
      cases h
      exact .nil
  | cons item rest ih =>
      simp only [parseEntries, bind_eq_ok] at h
      obtain ⟨entry, parsed, later, others, last⟩ := h
      obtain rfl := pure_eq_ok.mp last
      exact .cons (each _ _ _ parsed) (ih others)

theorem parseSurface_eq_ok {index : Nat} {item : Json} {surface : SurfaceAnalysisEntry}
    (h : parseSurface detail bounds index item = .ok surface) :
    ∀ text ∈ surface.texts, withinLimit bounds.maxTextBytes (byteLength text) = true := by
  cases item with
  | obj entry =>
      simp only [parseSurface, bind_eq_ok] at h
      obtain ⟨id, ids, name, names, rationale, rationales, last⟩ := h
      obtain rfl := pure_eq_ok.mp last
      simpa [SurfaceAnalysisEntry.texts] using
        ⟨requiredText_eq_ok ids, requiredText_eq_ok names, requiredText_eq_ok rationales⟩
  | _ => cases h

/-- What the checks of one coverage entry establish. -/
structure Checked (bounds : SurfaceAnalysisBounds) (submitted : Json) (item : ContractCoverage) :
    Prop where
  texts : ∀ text ∈ item.texts, withinLimit bounds.maxTextBytes (byteLength text) = true
  contracts : withinLimit bounds.maxItems item.contractIds.length = true
  evidence : withinLimit bounds.maxItems item.evidence.length = true
  supported : item.Supported
  known : ∀ id ∈ item.contractIds, inContractIndex id = true
  submitted : submittedContractIds submitted = item.contractIds

theorem parsePlannedCoverage_eq_ok {index : Nat} {item : Json} {coverage : ContractCoverage}
    (h : parsePlannedCoverage detail bounds index item = .ok coverage) :
    Checked bounds item coverage := by
  cases item with
  | obj entry =>
      simp only [parsePlannedCoverage, bind_eq_ok, require_eq_ok] at h
      obtain ⟨surfaceId, ids, status, -, rationale, rationales, contractIds, contracts, evidence,
        evidences, -, covered, -, missing, -, known, -, inapplicable, -, gap, last⟩ := h
      obtain rfl := pure_eq_ok.mp last
      obtain ⟨found, few, small⟩ := requiredTexts_eq_ok contracts
      obtain ⟨-, few', small'⟩ := requiredTexts_eq_ok evidences
      constructor
      · intro text member
        simp only [ContractCoverage.texts, List.mem_cons, List.mem_append, or_assoc] at member
        rcases member with rfl | rfl | member | member
        · exact requiredText_eq_ok ids
        · exact requiredText_eq_ok rationales
        · exact small text member
        · exact small' text member
      · exact few
      · exact few'
      · cases status <;> simp_all [ContractCoverage.Supported]
      · simpa using known
      · simp [submittedContractIds, found]
  | _ => cases h

/-! ## The analysis -/

/-- As many distinct ids among as many distinct ids are the same ones. -/
theorem perm_of_matched {α : Type} {covered known : List α} (distinct : covered.Nodup)
    (sizes : covered.length = known.length) (among : covered ⊆ known) : covered.Perm known :=
  (List.subperm_of_subset distinct among).perm_of_length_le sizes.ge

theorem parseSurfaces_eq_ok {value : Option Json} {surfaces : List SurfaceAnalysisEntry}
    (h : parseSurfaces detail bounds value = .ok surfaces) :
    withinLimit bounds.maxItems surfaces.length = true ∧ ∀ surface ∈ surfaces,
      ∀ text ∈ surface.texts, withinLimit bounds.maxTextBytes (byteLength text) = true := by
  simp only [parseSurfaces] at h
  split at h
  next items =>
    split_ifs at h with refused
    · cases h
    · have each := parseEntries_eq_ok (P := fun _ surface => ∀ text ∈ surface.texts,
        withinLimit bounds.maxTextBytes (byteLength text) = true) (fun _ _ _ => parseSurface_eq_ok) h
      have few : withinLimit bounds.maxItems items.length = true := by simp_all
      refine ⟨each.length_eq ▸ few, fun surface member => ?_⟩
      obtain ⟨i, inside, rfl⟩ := List.getElem_of_mem member
      exact each.get (each.length_eq ▸ inside) inside
  next => cases h

theorem parsePlannedCoverages_eq_ok {surfaces : Nat} {value : Option Json}
    {coverage : List ContractCoverage}
    (h : parsePlannedCoverages detail bounds surfaces value = .ok coverage) :
    ∃ items, value = some (.arr items) ∧ coverage.length = surfaces ∧
      withinLimit bounds.maxItems coverage.length = true ∧
      List.Forall₂ (Checked bounds) items coverage := by
  simp only [parsePlannedCoverages] at h
  split at h
  next items =>
    split_ifs at h with refused
    · cases h
    · have each := parseEntries_eq_ok (P := Checked bounds)
        (fun _ _ _ => parsePlannedCoverage_eq_ok) h
      have few : items.length = surfaces ∧ withinLimit bounds.maxItems items.length = true := by
        simpa using refused
      rw [each.length_eq] at few
      exact ⟨items, rfl, few.1, few.2, each⟩
  next => cases h

/-- The analysis that was accepted, check by check. -/
structure Accepted (bounds : SurfaceAnalysisBounds) (format : NumberFormat) (submitted : Json)
    (analysis : SurfaceAnalysis) : Prop where
  within : analysis.Within bounds format submitted
  distinct : (analysis.surfaces.map (·.id)).Nodup
  matched : (analysis.coverage.map (·.surfaceId)).Perm (analysis.surfaces.map (·.id))
  coverage : List.Forall₂ (Checked bounds) (submittedList "coverage" submitted) analysis.coverage

theorem nodup_of_dedup_length {α : Type} [DecidableEq α] {items : List α}
    (same : items.dedup.length = items.length) : items.Nodup :=
  List.dedup_eq_self.mp ((List.dedup_sublist items).eq_of_length same)

theorem parseSurfaceAnalysis_eq_ok {value : Option Json} {analysis : SurfaceAnalysis}
    (h : parseSurfaceAnalysis detail bounds format value = .ok analysis) :
    ∃ submitted, value = some submitted ∧ Accepted bounds format submitted analysis := by
  cases value with
  | none =>
      simp only [parseSurfaceAnalysis] at h
      split_ifs at h
      cases h
  | some submitted =>
      simp only [parseSurfaceAnalysis, bind_eq_ok, require_eq_ok] at h
      obtain ⟨-, aggregate, -, depth, h⟩ := h
      split at h
      next record =>
        split at h
        next => cases h
        next projectType named =>
          simp only [bind_eq_ok, require_eq_ok] at h
          obtain ⟨surfaces, parsed, -, distinct, coverage, covered, h⟩ := h
          split_ifs at h with unique
          · obtain rfl := pure_eq_ok.mp h
            obtain ⟨few, small⟩ := parseSurfaces_eq_ok parsed
            obtain ⟨items, found, sizes, few', each⟩ := parsePlannedCoverages_eq_ok covered
            have checked : ∀ item ∈ coverage, ∃ entry, Checked bounds entry item := by
              intro item member
              obtain ⟨i, inside, rfl⟩ := List.getElem_of_mem member
              exact ⟨_, each.get (each.length_eq ▸ inside) inside⟩
            refine ⟨_, rfl, ⟨?_, ?_, withinLimit_iff.mp depth, withinLimit_iff.mp aggregate⟩,
              nodup_of_dedup_length (by simpa using distinct), ?_, ?_⟩
            · intro limited text member
              simp only [SurfaceAnalysis.texts, List.mem_append, List.mem_cons,
                List.mem_flatMap] at member
              obtain (rfl | ⟨surface, member, inside⟩) | ⟨item, member, inside⟩ := member
              · exact withinLimit_iff.mp (nonEmptyBounded_eq_some named).2 limited
              · exact withinLimit_iff.mp (small surface member text inside) limited
              · obtain ⟨entry, item⟩ := checked item member
                exact withinLimit_iff.mp (item.texts text inside) limited
            · intro limited size member
              simp only [SurfaceAnalysis.listSizes, List.mem_append, List.mem_cons,
                List.not_mem_nil, or_false, List.mem_flatMap] at member
              obtain (rfl | rfl) | ⟨item, member, rfl | rfl⟩ := member
              · exact withinLimit_iff.mp few limited
              · exact withinLimit_iff.mp few' limited
              · obtain ⟨entry, item⟩ := checked item member
                exact withinLimit_iff.mp item.contracts limited
              · obtain ⟨entry, item⟩ := checked item member
                exact withinLimit_iff.mp item.evidence limited
            · refine perm_of_matched unique.1 (by simp [sizes]) fun id covers => ?_
              obtain ⟨item, member, rfl⟩ := List.mem_map.mp covers
              simpa using List.all_eq_true.mp unique.2 item member
            · simpa [submittedList, found] using each
          · cases h
      next => cases h

theorem parsePlan_eq_ok {value : Json} {limits : SurfaceAnalysisLimits} {plan : Plan}
    (h : parsePlan format value detail limits = .ok plan) :
    ∃ bounds submitted, validateLimits limits = .ok bounds ∧
      submittedAnalysis value = some submitted ∧
      Accepted bounds format submitted plan.surfaceAnalysis := by
  simp only [parsePlan, bind_eq_ok] at h
  obtain ⟨bounds, valid, h⟩ := h
  split at h
  next record =>
    split at h
    next => cases h
    next complexity =>
      split at h
      next => cases h
      next securitySurface =>
        split at h
        next => cases h
        next summary =>
          simp only [bind_eq_ok] at h
          obtain ⟨requirements, -, files, -, analysis, parsed, last⟩ := h
          obtain rfl := pure_eq_ok.mp last
          obtain ⟨submitted, found, accepted⟩ := parseSurfaceAnalysis_eq_ok parsed
          exact ⟨bounds, submitted, valid, found, accepted⟩
  next => cases h

theorem inherited_notMem_contractIndex {id : String} (inherited : id ∈ inheritedNames) :
    id ∉ contractIndex := by
  have apart : inheritedNames.all (fun id => !contractIndex.contains id) = true := by
    decide +kernel
  simpa using List.all_eq_true.mp apart id inherited

/-- The contracts that were accepted are those that were submitted. -/
theorem Accepted.submitted_eq {submitted : Json} {analysis : SurfaceAnalysis}
    (h : Accepted bounds format submitted analysis) :
    (submittedList "coverage" submitted).map submittedContractIds =
      analysis.coverage.map (·.contractIds) := by
  rw [← List.forall₂_eq_eq_eq, List.forall₂_map_left_iff, List.forall₂_map_right_iff]
  exact h.coverage.imp fun entry item checked => checked.submitted

/-- Known contracts are canonical just when none of them is an inherited name. -/
theorem Accepted.canonical_iff {submitted : Json} {analysis : SurfaceAnalysis}
    (h : Accepted bounds format submitted analysis) :
    (∀ item ∈ analysis.coverage, ∀ id ∈ item.contractIds, id ∈ contractIndex) ↔
      ∀ id ∈ (submittedList "coverage" submitted).flatMap submittedContractIds,
        id ∉ inheritedNames := by
  rw [List.flatMap_def, h.submitted_eq, ← List.flatMap_def]
  constructor
  · intro canonical id member inherited
    obtain ⟨item, covers, named⟩ := List.mem_flatMap.mp member
    exact inherited_notMem_contractIndex inherited (canonical item covers id named)
  · intro own item covers id named
    obtain ⟨i, inside, rfl⟩ := List.getElem_of_mem covers
    have known := (h.coverage.get (h.coverage.length_eq ▸ inside) inside).known id named
    have others := own id (List.mem_flatMap.mpr ⟨_, covers, named⟩)
    simpa [inContractIndex, others] using known

/-- An accepted plan has surfaces and coverage that correspond, entries that are
supported, and everything within its limits. Its contracts are those submitted,
and they are all canonical just when no inherited name is among them. -/
theorem parsePlan_wellFormed_iff {value : Json} {limits : SurfaceAnalysisLimits} {plan : Plan}
    (accepted : parsePlan format value detail limits = .ok plan) :
    ∃ bounds submitted, validateLimits limits = .ok bounds ∧
      submittedAnalysis value = some submitted ∧
      (plan.surfaceAnalysis.WellFormed ∧ plan.surfaceAnalysis.Within bounds format submitted ↔
        ∀ id ∈ submittedPlanContracts value, id ∉ inheritedNames) := by
  obtain ⟨bounds, submitted, valid, found, accepted⟩ := parsePlan_eq_ok accepted
  refine ⟨bounds, submitted, valid, found, ?_⟩
  rw [submittedPlanContracts, found]
  constructor
  · rintro ⟨wellFormed, -⟩
    exact accepted.canonical_iff.mp wellFormed.canonical
  · intro own
    refine ⟨⟨accepted.distinct, accepted.matched, fun item covers => ?_,
      accepted.canonical_iff.mpr own⟩, accepted.within⟩
    obtain ⟨i, inside, rfl⟩ := List.getElem_of_mem covers
    exact (accepted.coverage.get (accepted.coverage.length_eq ▸ inside) inside).supported

/-- A host whose numbers play no part. -/
def noNumerals : NumberFormat := ⟨fun _ => .nan, fun _ => ""⟩

/-- A plan with one surface, covered by one contract. -/
def planNaming (contract : String) : Json :=
  .obj [("complexity", .str "medium"), ("securitySurface", .str "low"), ("summary", .str "s"),
    ("surfaceAnalysis", .obj [("projectType", .str "p"),
      ("surfaces", .arr [.obj [("id", .str "a"), ("name", .str "n"), ("rationale", .str "r")]]),
      ("coverage", .arr [.obj [("surfaceId", .str "a"), ("status", .str "covered"),
        ("rationale", .str "r"), ("contractIds", .arr [.str contract]),
        ("evidence", .arr [.str "e"])]])])]

def acceptedPlan (contract : String) : Plan :=
  ⟨.medium, .low, "s", [], [], ⟨"p", [⟨"a", "n", "r"⟩], [⟨"a", .covered, [contract], ["e"], "r"⟩],
    List.nodup_singleton _⟩⟩

theorem covered_plan_accepted :
    parsePlan noNumerals (planNaming "config:configurable") "d" ⟨1, 40, 400, 4⟩ =
      .ok (acceptedPlan "config:configurable") := by
  decide +kernel

theorem covered_plan_wellFormed :
    ∃ bounds submitted, validateLimits ⟨1, 40, 400, 4⟩ = .ok bounds ∧
      submittedAnalysis (planNaming "config:configurable") = some submitted ∧
      ((acceptedPlan "config:configurable").surfaceAnalysis.WellFormed ∧
          (acceptedPlan "config:configurable").surfaceAnalysis.Within bounds noNumerals submitted ↔
        ∀ id ∈ submittedPlanContracts (planNaming "config:configurable"), id ∉ inheritedNames) :=
  parsePlan_wellFormed_iff covered_plan_accepted

/-- Every object has a member `constructor`, the contract index as well. -/
theorem inherited_contract_accepted :
    parsePlan noNumerals (planNaming "constructor") "d" defaultSurfaceAnalysisLimits =
        .ok (acceptedPlan "constructor") ∧
      ¬ (acceptedPlan "constructor").surfaceAnalysis.WellFormed := by
  refine ⟨by decide +kernel, fun wellFormed => ?_⟩
  have named := wellFormed.canonical _ List.mem_cons_self "constructor" List.mem_cons_self
  exact inherited_notMem_contractIndex (by decide) named

end AdCoder.Orchestration
