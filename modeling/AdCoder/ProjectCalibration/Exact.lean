import AdCoder.ProjectCalibration.CreateLaws

/-!
# Exact snapshots

A snapshot is exact when it has one entry for each key in scope, of a latest record where the
key has records and of what is declared where it has none.
-/

namespace AdCoder.ProjectCalibration

open Foundation UserProfiles

structure EconomicKey where
  provider : String
  model : String
  kind : EconomicRecordKind
  unit : String
  deriving DecidableEq

def keyOf (record : EconomicRecord) : EconomicKey :=
  ⟨record.provider, record.model, record.kind, record.unit⟩

def ProjectEconomicSnapshot.key (entry : ProjectEconomicSnapshot) : EconomicKey :=
  ⟨entry.provider, entry.model, entry.kind, entry.unit⟩

/-- The entry that a record becomes. -/
def entryFor (record : EconomicRecord) : ProjectEconomicSnapshot :=
  entryOf record (dayOf record.observedAt)

/-- The source serves the model of the provider. -/
def InScope (source : CalibrationSourceRef) (key : EconomicKey) : Prop :=
  ∃ declared ∈ source.providers, declared.id = key.provider ∧ key.model ∈ declared.models

/-- No record of the key was observed after this one. -/
def IsLatest (records : List EconomicRecord) (record : EconomicRecord) : Prop :=
  record ∈ records ∧ ∀ other ∈ records, keyOf other = keyOf record →
    ¬ (Iso.timeOf record.observedAt).Before (Iso.timeOf other.observedAt)

structure ExactEntries (source : CalibrationSourceRef) (records declared : List EconomicRecord)
    (entries : List ProjectEconomicSnapshot) : Prop where
  distinct : (entries.map (·.key)).Nodup
  covers : ∀ key, key ∈ entries.map (·.key) ↔ InScope source key ∧
    ((∃ record ∈ records, keyOf record = key) ∨ ∃ record ∈ declared, keyOf record = key)
  observed : ∀ entry ∈ entries, (∃ record ∈ records, keyOf record = entry.key) →
    ∃ latest, IsLatest records latest ∧ keyOf latest = entry.key ∧ entry = entryFor latest
  stated : ∀ entry ∈ entries, (∀ record ∈ records, keyOf record ≠ entry.key) →
    ∃ record, declared.find? (fun record => keyOf record = entry.key) = some record ∧
      entry = entryFor record

/-- A record or declaration outside the scope has the composite key of one that goes first. -/
structure StraysLose (source : CalibrationSourceRef) (records declared : List EconomicRecord) :
    Prop where
  strayRecords : ∀ before stray after, records = before ++ stray :: after →
    serves source stray.provider stray.model = true → ¬ InScope source (keyOf stray) →
    (∃ other ∈ before, countsFor source (compositeKey stray) other = true ∧
      ¬ codeUnits other.observedAt < codeUnits stray.observedAt) ∨
    ∃ other ∈ after, countsFor source (compositeKey stray) other = true ∧
      codeUnits stray.observedAt < codeUnits other.observedAt
  strayDeclared : ∀ before stray after, declared = before ++ stray :: after →
    serves source stray.provider stray.model = true → ¬ InScope source (keyOf stray) →
    ∃ other ∈ records ++ before, countsFor source (compositeKey stray) other = true

/-- The composite keys tell the keys in scope apart, and keep out what is not in scope; no record
in scope is of a year after 9999. -/
structure Unambiguous (source : CalibrationSourceRef) (records declared : List EconomicRecord) :
    Prop where
  keys : ∀ a ∈ records ++ declared, ∀ b ∈ records ++ declared, InScope source (keyOf a) →
    InScope source (keyOf b) → compositeKey a = compositeKey b → keyOf a = keyOf b
  strays : StraysLose source records declared
  years : ∀ record ∈ records, InScope source (keyOf record) →
    (Iso.timeOf record.observedAt).day.year < 10000

section Exactness

variable {source : CalibrationSourceRef} {records declared : List EconomicRecord}
  {host : CalibrationHost} {record other : EconomicRecord} {entry : ProjectEconomicSnapshot}

@[simp] theorem key_entryFor : (entryFor record).key = keyOf record := rfl

@[simp] theorem observedOn_entryFor : (entryFor record).observedOn = dayOf record.observedAt := rfl

theorem compositeKey_congr (same : keyOf record = keyOf other) :
    compositeKey record = compositeKey other := by
  obtain ⟨provider, model, kind, unit⟩ := EconomicKey.mk.inj same
  simp only [compositeKey, provider, model, kind, unit]

theorem serves_of_inScope (scope : InScope source (keyOf record)) :
    serves source record.provider record.model = true := by
  obtain ⟨declared, mem, same, served⟩ := scope
  refine List.any_eq_true.mpr ⟨declared, mem, List.any_eq_true.mpr ⟨record.model, served, ?_⟩⟩
  rw [beq_iff_eq, same]
  rfl

theorem countsFor_of_inScope (scope : InScope source (keyOf record)) :
    countsFor source (compositeKey record) record = true :=
  countsFor_iff.mpr ⟨serves_of_inScope scope, rfl⟩

/-! ## Entries and winners -/

/-- The entries of a new snapshot. -/
abbrev newEntries (host : CalibrationHost) (source : CalibrationSourceRef)
    (records declared : List EconomicRecord) : List ProjectEconomicSnapshot :=
  sortedEntries host (latestRecords source records declared)

theorem newEntries_perm : (newEntries host source records declared).Perm
    (((latestRecords source records declared).map (·.2)).map entryFor) :=
  (List.mergeSort_perm _ _).map _

theorem mem_newEntries : entry ∈ newEntries host source records declared ↔
    ∃ record, winner source records declared (compositeKey record) = some record ∧
      entry = entryFor record := by
  rw [newEntries_perm.mem_iff, List.mem_map]
  simp only [mem_values, eq_comm]

theorem mem_keys_newEntries {key : EconomicKey} :
    key ∈ (newEntries host source records declared).map (·.key) ↔
      ∃ record, winner source records declared (compositeKey record) = some record ∧
        keyOf record = key := by
  simp only [List.mem_map, mem_newEntries]
  constructor
  · rintro ⟨_, ⟨record, won, rfl⟩, rfl⟩
    exact ⟨record, won, rfl⟩
  · rintro ⟨record, won, rfl⟩
    exact ⟨_, ⟨record, won, rfl⟩, rfl⟩

theorem nodup_keys_newEntries : ((newEntries host source records declared).map (·.key)).Nodup := by
  rw [(newEntries_perm.map (·.key)).nodup_iff, List.map_map]
  have texts : ((latestRecords source records declared).map (·.2)).map compositeKey =
      (latestRecords source records declared).map (·.1) := by
    rw [List.map_map]
    refine List.map_congr_left fun held mem => ?_
    exact (countsFor_iff.mp (countsFor_of_winner (mem_latestRecords.mp mem)).1).2
  have apart : (((latestRecords source records declared).map (·.2)).map compositeKey).Nodup := by
    rw [texts]
    exact nodup_latestRecords
  refine List.Nodup.map_on ?_ apart.of_map
  intro left mem right mem' same
  exact List.inj_on_of_nodup_map apart mem mem' (compositeKey_congr same)

/-! ## Winners in scope -/

/-- The strays lose just when every winner is in scope. -/
theorem straysLose_iff : StraysLose source records declared ↔
    ∀ c record, winner source records declared c = some record → InScope source (keyOf record) := by
  constructor
  · intro lose c record won
    by_contra stray
    obtain ⟨counts, -⟩ := countsFor_of_winner won
    obtain ⟨served, rfl⟩ := countsFor_iff.mp counts
    obtain found | ⟨none_, found⟩ := Option.or_eq_some_iff.mp won
    · obtain ⟨-, before, after, whole, first, last⟩ := firstGreatest_filter_eq_some.mp found
      obtain ⟨other, mem, alike, later⟩ | ⟨other, mem, alike, later⟩ :=
        lose.strayRecords before record after whole served stray
      · exact later (first other mem alike)
      · exact last other mem alike later
    · obtain ⟨-, before, after, whole, first⟩ := List.find?_eq_some_iff_append.mp found
      obtain ⟨other, mem, alike⟩ := lose.strayDeclared before record after whole served stray
      obtain mem | mem := List.mem_append.mp mem
      · have empty := firstGreatest_eq_none.mp none_
        exact List.not_mem_nil (empty ▸ List.mem_filter.mpr ⟨mem, alike⟩)
      · simpa [alike] using first other mem
  · intro scope
    refine ⟨fun before stray after whole served outside => ?_,
      fun before stray after whole served outside => ?_⟩
    · by_contra lost
      rw [not_or] at lost
      refine outside (scope (compositeKey stray) stray (Option.or_eq_some_iff.mpr (.inl
        (firstGreatest_filter_eq_some.mpr
          ⟨countsFor_iff.mpr ⟨served, rfl⟩, before, after, whole, ?_, ?_⟩))))
      · intro other mem alike
        by_contra later
        exact lost.1 ⟨other, mem, alike, later⟩
      · exact fun other mem alike later => lost.2 ⟨other, mem, alike, later⟩
    · by_contra lost
      have none_ : firstGreatest timeUnits
          (records.filter (countsFor source (compositeKey stray))) = none := by
        rw [firstGreatest_eq_none, List.filter_eq_nil_iff]
        exact fun other mem alike => lost ⟨other, List.mem_append_left _ mem, alike⟩
      refine outside (scope (compositeKey stray) stray (Option.or_eq_some_iff.mpr (.inr ⟨none_,
        List.find?_eq_some_iff_append.mpr
          ⟨countsFor_iff.mpr ⟨served, rfl⟩, before, after, whole, ?_⟩⟩)))
      intro other mem
      have unlike : ¬ countsFor source (compositeKey stray) other = true :=
        fun alike => lost ⟨other, List.mem_append_right _ mem, alike⟩
      simpa using unlike

/-! ## Years -/

theorem length_dayOf {at_ : String} (long : 10 ≤ at_.toList.length) :
    (dayOf at_ ++ midnight).toList.length = 24 := by
  rw [dayOf, String.toList_append, String.toList_ofList, List.length_append, List.length_take,
    Nat.min_eq_left long]
  rfl

/-- A day that was accepted is of a year of four digits. -/
theorem common_of_day {at_ : String} (stamp : Iso.isTimestamp at_ = true)
    (day : Iso.isTimestamp (dayOf at_ ++ midnight) = true) : (Iso.timeOf at_).Common := by
  by_contra signed
  obtain ⟨-, whole⟩ := Iso.isTimestamp_iff.mp stamp
  obtain ⟨-, whole'⟩ := Iso.isTimestamp_iff.mp day
  have long : at_.toList.length = 27 := by
    rw [← whole, Iso.Timestamp.length_text]
    exact if_neg signed
  have common : (Iso.timeOf (dayOf at_ ++ midnight)).Common := by
    by_contra signed'
    have count := congrArg List.length whole'
    rw [Iso.Timestamp.length_text, length_dayOf (by omega)] at count
    have count' : (27 : Nat) = 24 := (if_neg signed').symm.trans count
    omega
  obtain ⟨x, rest, first, -, sign⟩ := (Iso.timeOf at_).head_text
  obtain ⟨y, rest', first', digit, -⟩ := (Iso.timeOf (dayOf at_ ++ midnight)).head_text
  rw [whole] at first
  rw [whole', dayOf, String.toList_append, String.toList_ofList, first] at first'
  obtain rfl : x = y := (List.cons.inj first').1
  have low := digit common
  obtain rfl | rfl := sign signed
  · exact absurd low (by decide)
  · exact absurd low (by decide)

section Latest

variable (stamps : ∀ record ∈ records, Iso.isTimestamp record.observedAt = true)

include stamps in
/-- A record that none of its key is greater than is the latest of its key just when no record of
its key is of a year after 9999. -/
theorem isLatest_iff (common : (Iso.timeOf record.observedAt).Common) (mem : record ∈ records)
    (greatest : ∀ other ∈ records, keyOf other = keyOf record →
      ¬ codeUnits record.observedAt < codeUnits other.observedAt) :
    IsLatest records record ↔ ∀ other ∈ records, keyOf other = keyOf record →
      (Iso.timeOf other.observedAt).day.year < 10000 := by
  constructor
  · rintro ⟨-, latest⟩ other mem' same
    by_contra far
    exact latest other mem' same (.inl (lt_of_lt_of_le common.2 (not_lt.mp far)))
  · intro years
    refine ⟨mem, fun other mem' same before => ?_⟩
    have year := years other mem' same
    by_cases past : 0 ≤ (Iso.timeOf other.observedAt).day.year
    · exact greatest other mem' same ((Iso.codeUnits_lt_iff (stamps record mem) (stamps other mem')
        common ⟨past, year⟩).mpr before)
    · have start := common.1
      obtain less | ⟨level, -⟩ := before
      · omega
      · omega

end Latest

/-! ## Exactness -/

section Main

variable (stamps : ∀ record ∈ records, Iso.isTimestamp record.observedAt = true)
  (days : ∀ entry ∈ newEntries host source records declared,
    Iso.isTimestamp (entry.observedOn ++ midnight) = true)

/-- A winner that is a record is not less than the records of its key. -/
theorem winner_greatest (won : winner source records declared (compositeKey record) = some record)
    (scope : InScope source (keyOf record)) (some_ : ∃ other ∈ records, keyOf other = keyOf record) :
    record ∈ records ∧ ∀ other ∈ records, keyOf other = keyOf record →
      ¬ codeUnits record.observedAt < codeUnits other.observedAt := by
  have counts {other : EconomicRecord} (same : keyOf other = keyOf record) :
      countsFor source (compositeKey record) other = true := by
    rw [← compositeKey_congr same]
    exact countsFor_of_inScope (same ▸ scope)
  obtain found | ⟨none_, -⟩ := Option.or_eq_some_iff.mp won
  · obtain ⟨greatest, -⟩ := firstGreatest_eq_some.mp found
    refine ⟨(List.mem_filter.mp (mem_of_firstGreatest found)).1, fun other mem same => ?_⟩
    exact not_lt.mpr (greatest other (List.mem_filter.mpr ⟨mem, counts same⟩))
  · obtain ⟨other, mem, same⟩ := some_
    have empty := firstGreatest_eq_none.mp none_
    exact absurd (empty ▸ List.mem_filter.mpr ⟨mem, counts same⟩) List.not_mem_nil

include stamps days in
theorem exactEntries_of_unambiguous (clear : Unambiguous source records declared) :
    ExactEntries source records declared (newEntries host source records declared) := by
  have scope := straysLose_iff.mp clear.strays
  have among {c : String} {record : EconomicRecord}
      (won : winner source records declared c = some record) : record ∈ records ++ declared :=
    List.mem_append.mpr (countsFor_of_winner won).2
  refine ⟨nodup_keys_newEntries, fun key => ?_, fun entry mem => ?_, fun entry mem => ?_⟩
  · rw [mem_keys_newEntries]
    constructor
    · rintro ⟨record, won, rfl⟩
      refine ⟨scope _ _ won, ?_⟩
      obtain held | held := (countsFor_of_winner won).2
      · exact .inl ⟨record, held, rfl⟩
      · exact .inr ⟨record, held, rfl⟩
    · rintro ⟨inside, found⟩
      obtain ⟨record, mem, rfl⟩ : ∃ record, (record ∈ records ∨ record ∈ declared) ∧
          keyOf record = key := by
        obtain ⟨record, mem, same⟩ | ⟨record, mem, same⟩ := found
        · exact ⟨record, .inl mem, same⟩
        · exact ⟨record, .inr mem, same⟩
      obtain ⟨other, won⟩ := winner_isSome (countsFor_of_inScope inside) mem
      have text := (countsFor_iff.mp (countsFor_of_winner won).1).2
      have same := clear.keys other (among won) record (List.mem_append.mpr mem)
        (scope _ _ won) inside text
      exact ⟨other, by rwa [text], same⟩
  · obtain ⟨record, won, rfl⟩ := mem_newEntries.mp mem
    intro some_
    have inside := scope _ _ won
    obtain ⟨held, greatest⟩ := winner_greatest won inside some_
    refine ⟨record, ?_, rfl, rfl⟩
    have day := days _ mem
    rw [observedOn_entryFor] at day
    have common := common_of_day (stamps record held) day
    exact (isLatest_iff stamps common held greatest).mpr fun other mem' same =>
      clear.years other mem' (same ▸ inside)
  · obtain ⟨record, won, rfl⟩ := mem_newEntries.mp mem
    intro absent
    have inside := scope _ _ won
    obtain found | ⟨-, found⟩ := Option.or_eq_some_iff.mp won
    · exact absurd rfl (absent record (List.mem_filter.mp (mem_of_firstGreatest found)).1)
    · refine ⟨record, ?_, rfl⟩
      obtain ⟨-, before, after, whole, first⟩ := List.find?_eq_some_iff_append.mp found
      refine List.find?_eq_some_iff_append.mpr ⟨by simp, before, after, whole, fun other mem' => ?_⟩
      have other_ : ¬ keyOf other = keyOf record := by
        intro same
        have counts : countsFor source (compositeKey record) other = true := by
          rw [← compositeKey_congr same]
          exact countsFor_of_inScope (same ▸ inside)
        simpa [counts] using first other mem'
      rw [Bool.not_eq_true', decide_eq_false_iff_not]
      exact other_

include stamps days in
theorem unambiguous_of_exactEntries
    (exact_ : ExactEntries source records declared (newEntries host source records declared)) :
    Unambiguous source records declared := by
  have scope {c : String} {record : EconomicRecord}
      (won : winner source records declared c = some record) : InScope source (keyOf record) := by
    have text := (countsFor_iff.mp (countsFor_of_winner won).1).2
    exact ((exact_.covers (keyOf record)).mp
      (mem_keys_newEntries.mpr ⟨record, by rwa [text], rfl⟩)).1
  have listed {record : EconomicRecord} (mem : record ∈ records ++ declared)
      (inside : InScope source (keyOf record)) : ∃ other,
      winner source records declared (compositeKey record) = some other ∧
        keyOf other = keyOf record := by
    have found : keyOf record ∈ (newEntries host source records declared).map (·.key) := by
      refine (exact_.covers _).mpr ⟨inside, ?_⟩
      obtain mem | mem := List.mem_append.mp mem
      · exact .inl ⟨record, mem, rfl⟩
      · exact .inr ⟨record, mem, rfl⟩
    obtain ⟨other, won, same⟩ := mem_keys_newEntries.mp found
    exact ⟨other, by rwa [← compositeKey_congr same], same⟩
  refine ⟨fun a mem b mem' inside inside' text => ?_, straysLose_iff.mpr fun _ _ won => scope won,
    fun record mem inside => ?_⟩
  · obtain ⟨held, won, same⟩ := listed mem inside
    obtain ⟨held', won', same'⟩ := listed mem' inside'
    rw [text, won'] at won
    obtain rfl := Option.some.inj won
    exact same.symm.trans same'
  · obtain ⟨held, won, same⟩ := listed (List.mem_append_left _ mem) inside
    have won' : winner source records declared (compositeKey held) = some held := by
      rwa [compositeKey_congr same]
    have inside' : InScope source (keyOf held) := same ▸ inside
    have found : entryFor held ∈ newEntries host source records declared :=
      mem_newEntries.mpr ⟨held, won', rfl⟩
    have some_ : ∃ other ∈ records, keyOf other = keyOf held := ⟨record, mem, same.symm⟩
    obtain ⟨kept, greatest⟩ := winner_greatest won' inside' some_
    obtain ⟨latest, isLatest, sameKey, alike⟩ := exact_.observed _ found some_
    have day := days _ found
    rw [alike, observedOn_entryFor] at day
    have common := common_of_day (stamps latest isLatest.1) day
    by_contra far
    exact isLatest.2 record mem (same.symm.trans sameKey.symm)
      (.inl (lt_of_lt_of_le common.2 (not_lt.mp far)))

end Main

end Exactness

end AdCoder.ProjectCalibration
