import AdCoder.Foundation.FirstGreatest
import AdCoder.ProjectCalibration.Create

/-!
# The entries of a new snapshot

Under each composite key a snapshot has the first of the records with the greatest text of a
time, or what is declared first. That is the latest record of each key in scope as long as no
two keys have one text, and no year has more than four digits.
-/

namespace AdCoder.ProjectCalibration

open Foundation UserProfiles

/-! ## Under one key -/

section Keys

variable {source : CalibrationSourceRef} {records declared : List EconomicRecord} {c : String}
  {record : EconomicRecord}

/-- The record counts for a composite key. -/
def countsFor (source : CalibrationSourceRef) (c : String) (record : EconomicRecord) : Bool :=
  serves source record.provider record.model && compositeKey record == c

theorem countsFor_iff : countsFor source c record = true ↔
    serves source record.provider record.model = true ∧ compositeKey record = c := by
  rw [countsFor, Bool.and_eq_true, beq_iff_eq]

/-- The units by which times are compared. -/
def timeUnits (record : EconomicRecord) : List Nat := codeUnits record.observedAt

/-- The record under a composite key. -/
def winner (source : CalibrationSourceRef) (records declared : List EconomicRecord) (c : String) :
    Option EconomicRecord :=
  (firstGreatest timeUnits (records.filter (countsFor source c))).or
    (declared.find? (countsFor source c))

theorem get?_keepLatest (m : List (String × EconomicRecord)) :
    OrderedMap.get? (keepLatest source m record) c =
      if countsFor source c record then keepGreater timeUnits (OrderedMap.get? m c) record
      else OrderedMap.get? m c := by
  unfold keepLatest
  by_cases served : serves source record.provider record.model = true
  · rw [if_pos served]
    by_cases same : compositeKey record = c
    · subst same
      rw [if_pos (countsFor_iff.mpr ⟨served, rfl⟩)]
      cases held : OrderedMap.get? m (compositeKey record) with
      | none => simp [OrderedMap.get?_put, keepGreater]
      | some old =>
          by_cases less : codeUnits old.observedAt < codeUnits record.observedAt
          · have less' : timeUnits old < timeUnits record := less
            simp only [keepGreater, if_pos less, if_pos less', OrderedMap.get?_put, if_true]
          · have less' : ¬ timeUnits old < timeUnits record := less
            simp only [keepGreater, if_neg less, if_neg less', held]
    · rw [if_neg fun counts => same (countsFor_iff.mp counts).2]
      split
      · simp [OrderedMap.get?_put, same]
      · split_ifs
        · simp [OrderedMap.get?_put, same]
        · rfl
  · rw [if_neg served, if_neg fun counts => served (countsFor_iff.mp counts).1]

theorem get?_foldl_keepLatest (m : List (String × EconomicRecord)) :
    OrderedMap.get? (records.foldl (keepLatest source) m) c =
      (records.filter (countsFor source c)).foldl (keepGreater timeUnits) (OrderedMap.get? m c) := by
  induction records generalizing m with
  | nil => rfl
  | cons record rest ih =>
      rw [List.foldl_cons, ih, get?_keepLatest]
      by_cases counts : countsFor source c record = true
      · rw [if_pos counts, List.filter_cons_of_pos counts, List.foldl_cons]
      · rw [if_neg counts, List.filter_cons_of_neg counts]

theorem get?_fillDeclared (m : List (String × EconomicRecord)) :
    OrderedMap.get? (fillDeclared source m record) c =
      (OrderedMap.get? m c).or (if countsFor source c record then some record else none) := by
  unfold fillDeclared
  by_cases served : serves source record.provider record.model = true
  · rw [if_pos served]
    by_cases same : compositeKey record = c
    · subst same
      rw [if_pos (countsFor_iff.mpr ⟨served, rfl⟩), OrderedMap.has]
      cases held : OrderedMap.get? m (compositeKey record) with
      | none => simp [OrderedMap.get?_put]
      | some old => simp [held]
    · rw [if_neg fun counts => same (countsFor_iff.mp counts).2, Option.or_none]
      split_ifs
      · rfl
      · simp [OrderedMap.get?_put, same]
  · rw [if_neg served, if_neg fun counts => served (countsFor_iff.mp counts).1, Option.or_none]

theorem get?_foldl_fillDeclared (m : List (String × EconomicRecord)) :
    OrderedMap.get? (declared.foldl (fillDeclared source) m) c =
      (OrderedMap.get? m c).or (declared.find? (countsFor source c)) := by
  induction declared generalizing m with
  | nil => simp
  | cons record rest ih =>
      rw [List.foldl_cons, ih, get?_fillDeclared, List.find?_cons]
      cases countsFor source c record <;> simp

theorem get?_latestRecords :
    OrderedMap.get? (latestRecords source records declared) c = winner source records declared c := by
  rw [latestRecords, get?_foldl_fillDeclared, get?_foldl_keepLatest]
  rfl

theorem nodup_latestRecords : ((latestRecords source records declared).map (·.1)).Nodup := by
  have keep (m : List (String × EconomicRecord)) (distinct : (m.map (·.1)).Nodup)
      (record : EconomicRecord) : ((keepLatest source m record).map (·.1)).Nodup := by
    unfold keepLatest
    split_ifs
    · split
      · exact OrderedMap.nodup_put distinct
      · split_ifs
        · exact OrderedMap.nodup_put distinct
        · exact distinct
    · exact distinct
  have fill (m : List (String × EconomicRecord)) (distinct : (m.map (·.1)).Nodup)
      (record : EconomicRecord) : ((fillDeclared source m record).map (·.1)).Nodup := by
    unfold fillDeclared
    split_ifs
    · exact distinct
    · exact OrderedMap.nodup_put distinct
    · exact distinct
  have run (step : List (String × EconomicRecord) → EconomicRecord → List (String × EconomicRecord))
      (each : ∀ m, (m.map (·.1)).Nodup → ∀ record, ((step m record).map (·.1)).Nodup)
      (items : List EconomicRecord) (m : List (String × EconomicRecord))
      (distinct : (m.map (·.1)).Nodup) : ((items.foldl step m).map (·.1)).Nodup := by
    induction items generalizing m with
    | nil => exact distinct
    | cons record rest ih => exact ih _ (each m distinct record)
  exact run _ fill _ _ (run _ keep _ _ List.nodup_nil)

theorem mem_latestRecords : (c, record) ∈ latestRecords source records declared ↔
    winner source records declared c = some record := by
  rw [OrderedMap.mem_iff nodup_latestRecords, get?_latestRecords]

theorem countsFor_of_winner (h : winner source records declared c = some record) :
    countsFor source c record = true ∧ (record ∈ records ∨ record ∈ declared) := by
  obtain found | ⟨-, found⟩ := Option.or_eq_some_iff.mp h
  · obtain ⟨mem, counts⟩ := List.mem_filter.mp (mem_of_firstGreatest found)
    exact ⟨counts, .inl mem⟩
  · exact ⟨List.find?_some found, .inr (List.mem_of_find?_eq_some found)⟩

theorem mem_values : record ∈ (latestRecords source records declared).map (·.2) ↔
    winner source records declared (compositeKey record) = some record := by
  constructor
  · intro mem
    obtain ⟨⟨c, held⟩, among, rfl⟩ := List.mem_map.mp mem
    have won := mem_latestRecords.mp among
    rwa [(countsFor_iff.mp (countsFor_of_winner won).1).2]
  · intro won
    exact List.mem_map.mpr ⟨_, mem_latestRecords.mpr won, rfl⟩

/-- There is a record under the key of whatever counts. -/
theorem winner_isSome (counts : countsFor source c record = true)
    (mem : record ∈ records ∨ record ∈ declared) :
    ∃ other, winner source records declared c = some other := by
  rw [← Option.isSome_iff_exists, winner, Option.isSome_or, Bool.or_eq_true]
  obtain mem | mem := mem
  · refine .inl (Option.isSome_iff_ne_none.mpr fun none_ => ?_)
    have empty := firstGreatest_eq_none.mp none_
    exact List.not_mem_nil (empty ▸ List.mem_filter.mpr ⟨mem, counts⟩)
  · exact .inr (List.find?_isSome.mpr ⟨record, mem, counts⟩)

end Keys

end AdCoder.ProjectCalibration
